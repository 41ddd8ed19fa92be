/-!
# Python strings

The operations of `str` the service uses, on Lean strings. What depends on the Unicode character
database (case mappings, which characters are alphanumeric or printable) is a parameter: a class
that carries what is fixed for ASCII. Whitespace is the fixed set of `str.isspace`.
-/

namespace Text

/-- The tables of the Unicode database behind `str.isalnum`, `str.isprintable`, `str.upper` and
`str.lower`. -/
class UnicodeDb where
  isAlnum : Char → Bool
  isPrintable : Char → Bool
  upper : String → String
  lower : String → String
  /-- On ASCII characters `isalnum` is the usual test. -/
  isAlnum_ascii : ∀ c : Char, c.toNat < 128 → isAlnum c = c.isAlphanum

/-- The database of a build that knows ASCII only. -/
@[reducible] def asciiDb : UnicodeDb where
  isAlnum := Char.isAlphanum
  isPrintable c := 32 ≤ c.toNat && c.toNat < 127
  upper s := String.ofList (s.toList.map Char.toUpper)
  lower s := String.ofList (s.toList.map Char.toLower)
  isAlnum_ascii _ _ := rfl

/-- `str.isspace` of one character, which is also the class `\s`. -/
def isSpace (c : Char) : Bool :=
  let n := c.toNat
  (9 ≤ n && n ≤ 13) || (28 ≤ n && n ≤ 32) || n = 0x85 || n = 0xa0 || n = 0x1680
    || (0x2000 ≤ n && n ≤ 0x200a) || n = 0x2028 || n = 0x2029 || n = 0x202f || n = 0x205f
    || n = 0x3000

/-- The class `\w`. -/
def isWord [UnicodeDb] (c : Char) : Bool := UnicodeDb.isAlnum c || c = '_'

/-- `str.strip()` on characters. -/
def stripChars (s : List Char) : List Char :=
  ((s.dropWhile isSpace).reverse.dropWhile isSpace).reverse

/-- `str.strip()`. -/
def strip (s : String) : String := String.ofList (stripChars s.toList)

/-- `str.partition(sep)` at a one-character separator: what stands before and after it, with
nothing after where it does not occur. -/
def partition (sep : Char) (s : String) : String × String :=
  let (head, tail) := s.toList.span (· ≠ sep)
  (String.ofList head, String.ofList (tail.drop 1))

/-- `str.rpartition(sep)`: before and after the last separator, and whether there is one. -/
def rpartition (sep : Char) (s : String) : String × Bool × String :=
  let (tail, head) := s.toList.reverse.span (· ≠ sep)
  match head with
  | [] => ("", false, s)
  | _ :: rest => (String.ofList rest.reverse, true, String.ofList tail.reverse)

/-- `str.split(sep)` at a one-character separator, on characters. -/
def splitOn (sep : Char) : List Char → List (List Char)
  | [] => [[]]
  | c :: rest =>
    if c = sep then [] :: splitOn sep rest
    else match splitOn sep rest with
      | [] => [[c]]
      | part :: parts => (c :: part) :: parts

/-- A character at which `str.splitlines` ends a line. -/
def isLineBreak (c : Char) : Bool :=
  let n := c.toNat
  (10 ≤ n && n ≤ 13) || (28 ≤ n && n ≤ 30) || n = 0x85 || n = 0x2028 || n = 0x2029

/-- `str.splitlines()`, on characters. -/
def splitLines : List Char → List (List Char)
  | [] => []
  | '\r' :: '\n' :: rest => [] :: splitLines rest
  | c :: rest =>
    if isLineBreak c then [] :: splitLines rest
    else match splitLines rest with
      | [] => [[c]]
      | line :: lines => (c :: line) :: lines

/-- One character of `repr`, inside quotes `quote`. -/
def reprChar [UnicodeDb] (quote : Char) (c : Char) : List Char :=
  let hex (width n : Nat) : List Char :=
    let digits := Nat.toDigits 16 n
    List.replicate (width - digits.length) '0' ++ digits
  if c = quote ∨ c = '\\' then ['\\', c]
  else if c = '\t' then ['\\', 't']
  else if c = '\n' then ['\\', 'n']
  else if c = '\r' then ['\\', 'r']
  else if UnicodeDb.isPrintable c then [c]
  else if c.toNat < 0x100 then ['\\', 'x'] ++ hex 2 c.toNat
  else if c.toNat < 0x10000 then ['\\', 'u'] ++ hex 4 c.toNat
  else ['\\', 'U'] ++ hex 8 c.toNat

/-- `repr(s)` of a string. -/
def repr [UnicodeDb] (s : String) : String :=
  let quote := if '\'' ∈ s.toList ∧ '"' ∉ s.toList then '"' else '\''
  String.ofList ([quote] ++ s.toList.flatMap (reprChar quote) ++ [quote])

end Text
