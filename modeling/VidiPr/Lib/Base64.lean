/-!
# Base64

`base64.b64decode(s)` without validation: characters outside the alphabet are skipped, a padding
sequence ends the input, and what is left over must be nothing.
-/

namespace Text

/-- The six bits of a character of the alphabet. -/
def base64Value (c : Char) : Option Nat :=
  let n := c.toNat
  if 65 ≤ n ∧ n ≤ 90 then some (n - 65)
  else if 97 ≤ n ∧ n ≤ 122 then some (n - 71)
  else if 48 ≤ n ∧ n ≤ 57 then some (n + 4)
  else if c = '+' then some 62
  else if c = '/' then some 63
  else none

/-- The decoder of `binascii.a2b_base64`: `quad` counts the characters of the current group,
`left` holds the bits they leave over, `pads` the padding seen since the last of them. -/
def base64Loop (quad left pads : Nat) : List Char → Except String (List UInt8)
  | [] => finish
  | c :: rest =>
    if c = '=' then
      if 2 ≤ quad ∧ 4 ≤ quad + (pads + 1) then .ok []
      else base64Loop quad left (if 2 ≤ quad then pads + 1 else pads) rest
    else match base64Value c with
      | none => base64Loop quad left pads rest
      | some bits =>
        match quad with
        | 0 => base64Loop 1 bits 0 rest
        | 1 => (base64Loop 2 (bits % 16) 0 rest).map ((left * 4 + bits / 16).toUInt8 :: ·)
        | 2 => (base64Loop 3 (bits % 4) 0 rest).map ((left * 16 + bits / 4).toUInt8 :: ·)
        | _ => (base64Loop 0 0 0 rest).map ((left * 64 + bits).toUInt8 :: ·)
where
  finish : Except String (List UInt8) :=
    if quad = 0 then .ok []
    else if quad = 1 then
      .error "Invalid base64-encoded string: number of data characters cannot be 1 more than a multiple of 4"
    else .error "Incorrect padding"

/-- `base64.b64decode(s)` -/
def b64decode (s : String) : Except String (List UInt8) :=
  if s.toList.all fun c => c.toNat < 128 then base64Loop 0 0 0 s.toList
  else .error "string argument should contain only ASCII characters"

/-- `bytes.decode("utf-8")` -/
def decodeUtf8 (bytes : List UInt8) : Except String String :=
  match String.fromUTF8? ⟨bytes.toArray⟩ with
  | some text => .ok text
  | none => .error "'utf-8' codec can't decode bytes"

example : (b64decode "aGk=\n").toOption = some [104, 105] := by decide +kernel

end Text
