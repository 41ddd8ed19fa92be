import VidiPr.Lib.Unicode

/-!
# Decoded JSON

A JSON text as `json.loads` decodes it, and the operations of Python on the result: what counts
as true, `str`, `.get`, an index. An operation that a value does not support raises, and the
text of its exception is kept.
-/

open Text

/-- A float: its text, and its value where it is finite and integral. -/
structure PyFloat where
  text : String
  integral : Option Int
deriving DecidableEq, Repr

/-- A decoded text. `obj` holds the items of a dictionary. -/
inductive Json where
  | null
  | bool (b : Bool)
  | int (n : Int)
  | float (x : PyFloat)
  | str (s : String)
  | arr (items : List Json)
  | obj (items : List (String × Json))

namespace Json

/-- `type(x).__name__` -/
def typeName : Json → String
  | null => "NoneType"
  | bool _ => "bool"
  | int _ => "int"
  | float _ => "float"
  | str _ => "str"
  | arr _ => "list"
  | obj _ => "dict"

/-- `bool(x)` -/
def truthy : Json → Bool
  | null => false
  | bool b => b
  | int n => n ≠ 0
  | float x => x.integral ≠ some 0
  | str s => s ≠ ""
  | arr items => !items.isEmpty
  | obj items => !items.isEmpty

/-- `x or y` -/
def orElse (x y : Json) : Json := if x.truthy then x else y

mutual

/-- `repr(x)` -/
def repr [UnicodeDb] : Json → String
  | null => "None"
  | bool b => if b then "True" else "False"
  | int n => toString n
  | float x => x.text
  | str s => Text.repr s
  | arr items => "[" ++ ", ".intercalate (reprItems items) ++ "]"
  | obj items => "\x7b" ++ ", ".intercalate (reprEntries items) ++ "\x7d"

def reprItems [UnicodeDb] : List Json → List String
  | [] => []
  | x :: rest => x.repr :: reprItems rest

def reprEntries [UnicodeDb] : List (String × Json) → List String
  | [] => []
  | (key, x) :: rest => (Text.repr key ++ ": " ++ x.repr) :: reprEntries rest

end

/-- `str(x)` -/
def toStr [UnicodeDb] : Json → String
  | str s => s
  | x => x.repr

/-- The value of a dictionary under a key. -/
def lookup (items : List (String × Json)) (key : String) : Option Json := items.lookup key

/-- `x.get(key, default)` -/
def get (x : Json) (key : String) (default : Json) : Except String Json :=
  match x with
  | obj items => .ok ((lookup items key).getD default)
  | x => .error ("'" ++ x.typeName ++ "' object has no attribute 'get'")

/-- `x[0]` -/
def first : Json → Except String Json
  | arr (x :: _) => .ok x
  | arr [] => .error "list index out of range"
  | str s =>
    match s.toList with
    | c :: _ => .ok (str (String.singleton c))
    | [] => .error "string index out of range"
  | obj _ => .error "0"
  | x => .error ("'" ++ x.typeName ++ "' object is not subscriptable")

/-- `iter(x)` -/
def elements : Json → Except String (List Json)
  | arr items => .ok items
  | str s => .ok (s.toList.map fun c => str (String.singleton c))
  | obj items => .ok (items.map fun item => str item.1)
  | x => .error ("'" ++ x.typeName ++ "' object is not iterable")

@[simp] theorem truthy_null : null.truthy = false := rfl

theorem orElse_of_truthy {x y : Json} (h : x.truthy = true) : x.orElse y = x := if_pos h

theorem orElse_of_falsy {x y : Json} (h : x.truthy = false) : x.orElse y = y :=
  if_neg (by simp [h])

end Json
