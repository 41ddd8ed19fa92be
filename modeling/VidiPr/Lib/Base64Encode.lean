import Mathlib.Data.List.Basic
import VidiPr.Lib.Base64

/-!
# The encoder of base64

The encoding with padding, and that the decoder inverts it: also where the encoding is broken into
lines, as the decoder skips what is not of the alphabet.

* **`base64Loop_encode`**, **`b64decode_encode`** — the decoder on an encoding.
* **`decodeUtf8_eq_ok`** — the bytes of a text are the only ones that are read as it.
-/

namespace Text

/-- The character of six bits. -/
def base64Char (n : Nat) : Char :=
  if n < 26 then Char.ofNat (n + 65)
  else if n < 52 then Char.ofNat (n + 71)
  else if n < 62 then Char.ofNat (n - 4)
  else if n = 62 then '+'
  else '/'

theorem base64Char_spec : ∀ n : Fin 64, base64Value (base64Char n) = some n.val ∧
    base64Char n ≠ '=' ∧ (base64Char n).toNat < 128 := by
  decide

theorem base64Value_char {n : Nat} (h : n < 64) : base64Value (base64Char n) = some n :=
  (base64Char_spec ⟨n, h⟩).1

theorem base64Char_ne_pad {n : Nat} (h : n < 64) : base64Char n ≠ '=' :=
  (base64Char_spec ⟨n, h⟩).2.1

/-- The encoding: four characters for each three bytes, the last group padded. -/
def base64Encode : List UInt8 → List Char
  | [] => []
  | [a] => [base64Char (a.toNat / 4), base64Char (a.toNat % 4 * 16), '=', '=']
  | [a, b] =>
    [base64Char (a.toNat / 4), base64Char (a.toNat % 4 * 16 + b.toNat / 16),
      base64Char (b.toNat % 16 * 4), '=']
  | a :: b :: c :: rest =>
    base64Char (a.toNat / 4) :: base64Char (a.toNat % 4 * 16 + b.toNat / 16) ::
      base64Char (b.toNat % 16 * 4 + c.toNat / 64) :: base64Char (c.toNat % 64) ::
      base64Encode rest

section Loop

variable {quad left pads n : Nat} {rest : List Char}

/-! A character of the alphabet, by its place in the group. -/

-- the equations of the decoder, ahead of the lemmas that all ask for them
attribute [local simp] base64Loop in
theorem base64Loop_first (h : n < 64) :
    base64Loop 0 left pads (base64Char n :: rest) = base64Loop 1 n 0 rest := by
  rw [base64Loop, if_neg (base64Char_ne_pad h), base64Value_char h]
  rfl

theorem base64Loop_second (h : n < 64) : base64Loop 1 left pads (base64Char n :: rest) =
    (base64Loop 2 (n % 16) 0 rest).map ((left * 4 + n / 16).toUInt8 :: ·) := by
  rw [base64Loop, if_neg (base64Char_ne_pad h), base64Value_char h]
  rfl

theorem base64Loop_third (h : n < 64) : base64Loop 2 left pads (base64Char n :: rest) =
    (base64Loop 3 (n % 4) 0 rest).map ((left * 16 + n / 4).toUInt8 :: ·) := by
  rw [base64Loop, if_neg (base64Char_ne_pad h), base64Value_char h]
  rfl

theorem base64Loop_fourth (h : n < 64) : base64Loop 3 left pads (base64Char n :: rest) =
    (base64Loop 0 0 0 rest).map ((left * 64 + n).toUInt8 :: ·) := by
  rw [base64Loop, if_neg (base64Char_ne_pad h), base64Value_char h]
  rfl

/-- A padded group ends the input. -/
theorem base64Loop_pad (h : 2 ≤ quad) (hpads : 4 ≤ quad + (pads + 1)) :
    base64Loop quad left pads ('=' :: rest) = .ok [] := by
  rw [base64Loop, if_pos rfl, if_pos ⟨h, hpads⟩]

theorem base64Loop_pad_more (h : 2 ≤ quad) (hpads : quad + (pads + 1) < 4) :
    base64Loop quad left pads ('=' :: rest) = base64Loop quad left (pads + 1) rest := by
  rw [base64Loop, if_pos rfl, if_neg (by omega), if_pos h]

end Loop

theorem toUInt8_eq {a : UInt8} {n : Nat} (h : n = a.toNat) : n.toUInt8 = a := by
  subst h
  exact UInt8.ofNat_toNat

/-- **The decoder inverts the encoder.** The encoder goes by groups of three bytes and the decoder
by characters, with what is left over of a byte carried along; so each group is four steps of the
loop. -/
theorem base64Loop_encode (bytes : List UInt8) :
    base64Loop 0 0 0 (base64Encode bytes) = .ok bytes := by
  induction bytes using base64Encode.induct with
  | case1 => rfl
  -- one byte left: two characters and two pads
  | case2 a =>
    have ha := a.toNat_lt
    rw [base64Encode, base64Loop_first (by omega), base64Loop_second (by omega),
      base64Loop_pad_more (by omega) (by omega), base64Loop_pad (by omega) (by omega)]
    have hfirst : (a.toNat / 4 * 4 + a.toNat % 4 * 16 / 16).toUInt8 = a := toUInt8_eq (by omega)
    rw [hfirst]
    rfl
  -- two bytes left: three characters and a pad
  | case3 a b =>
    have ha := a.toNat_lt
    have hb := b.toNat_lt
    rw [base64Encode, base64Loop_first (by omega), base64Loop_second (by omega),
      base64Loop_third (by omega), base64Loop_pad (by omega) (by omega)]
    have hfirst : (a.toNat / 4 * 4 + (a.toNat % 4 * 16 + b.toNat / 16) / 16).toUInt8 = a :=
      toUInt8_eq (by omega)
    have hsecond :
        ((a.toNat % 4 * 16 + b.toNat / 16) % 16 * 16 + b.toNat % 16 * 4 / 4).toUInt8 = b :=
      toUInt8_eq (by omega)
    rw [hfirst, hsecond]
    rfl
  -- a whole group, after which the loop starts afresh
  | case4 a b c rest ih =>
    have ha := a.toNat_lt
    have hb := b.toNat_lt
    have hc := c.toNat_lt
    rw [base64Encode, base64Loop_first (by omega), base64Loop_second (by omega),
      base64Loop_third (by omega), base64Loop_fourth (by omega), ih]
    have hfirst : (a.toNat / 4 * 4 + (a.toNat % 4 * 16 + b.toNat / 16) / 16).toUInt8 = a :=
      toUInt8_eq (by omega)
    have hsecond : ((a.toNat % 4 * 16 + b.toNat / 16) % 16 * 16 +
        (b.toNat % 16 * 4 + c.toNat / 64) / 4).toUInt8 = b := toUInt8_eq (by omega)
    have hthird :
        ((b.toNat % 16 * 4 + c.toNat / 64) % 4 * 64 + c.toNat % 64).toUInt8 = c :=
      toUInt8_eq (by omega)
    rw [hfirst, hsecond, hthird]
    rfl

/-! ## Lines -/

/-- What the decoder does not skip. -/
def isBase64 (c : Char) : Bool := c = '=' || (base64Value c).isSome

/-- The decoder skips what is not of the alphabet. -/
theorem base64Loop_filter (cs : List Char) : ∀ quad left pads,
    base64Loop quad left pads (cs.filter isBase64) = base64Loop quad left pads cs := by
  induction cs with
  | nil => exact fun _ _ _ => rfl
  | cons c rest ih =>
    intro quad left pads
    by_cases hpad : c = '='
    · have hkept : isBase64 c = true := by simp [isBase64, hpad]
      rw [List.filter_cons_of_pos hkept, base64Loop, base64Loop, if_pos hpad, if_pos hpad]
      simp only [ih]
    · cases hvalue : base64Value c with
      | none =>
        have hskipped : ¬ isBase64 c = true := by simp [isBase64, hpad, hvalue]
        rw [List.filter_cons_of_neg hskipped, ih, base64Loop, if_neg hpad, hvalue]
      | some bits =>
        have hkept : isBase64 c = true := by simp [isBase64, hvalue]
        rw [List.filter_cons_of_pos hkept, base64Loop, base64Loop, if_neg hpad, if_neg hpad, hvalue]
        simp only [ih]

/-- A text that holds the encoding of the bytes, in lines of any kind. -/
structure Base64Lines (s : String) (bytes : List UInt8) : Prop where
  ascii : ∀ c ∈ s.toList, c.toNat < 128
  encodes : s.toList.filter isBase64 = base64Encode bytes

theorem mem_base64Encode (bytes : List UInt8) :
    ∀ c ∈ base64Encode bytes, c = '=' ∨ ∃ n, n < 64 ∧ c = base64Char n := by
  induction bytes using base64Encode.induct with
  | case1 => exact fun c hc => absurd hc List.not_mem_nil
  | case2 a =>
    have ha := a.toNat_lt
    intro c hc
    simp only [base64Encode, List.mem_cons, List.not_mem_nil, or_false] at hc
    -- two characters, two pads
    rcases hc with rfl | rfl | rfl | rfl
    · exact Or.inr ⟨_, by omega, rfl⟩
    · exact Or.inr ⟨_, by omega, rfl⟩
    · exact Or.inl rfl
    · exact Or.inl rfl
  | case3 a b =>
    have ha := a.toNat_lt
    have hb := b.toNat_lt
    intro c hc
    simp only [base64Encode, List.mem_cons, List.not_mem_nil, or_false] at hc
    rcases hc with rfl | rfl | rfl | rfl
    · exact Or.inr ⟨_, by omega, rfl⟩
    · exact Or.inr ⟨_, by omega, rfl⟩
    · exact Or.inr ⟨_, by omega, rfl⟩
    · exact Or.inl rfl
  | case4 a b d rest ih =>
    have ha := a.toNat_lt
    have hb := b.toNat_lt
    have hd := d.toNat_lt
    intro c hc
    simp only [base64Encode, List.mem_cons] at hc
    rcases hc with rfl | rfl | rfl | rfl | hrest
    · exact Or.inr ⟨_, by omega, rfl⟩
    · exact Or.inr ⟨_, by omega, rfl⟩
    · exact Or.inr ⟨_, by omega, rfl⟩
    · exact Or.inr ⟨_, by omega, rfl⟩
    · exact ih c hrest

theorem base64Lines_encode (bytes : List UInt8) :
    Base64Lines (String.ofList (base64Encode bytes)) bytes := by
  constructor
  · intro c hc
    rw [String.toList_ofList] at hc
    rcases mem_base64Encode bytes c hc with rfl | ⟨n, hn, rfl⟩
    · decide
    · exact (base64Char_spec ⟨n, hn⟩).2.2
  · rw [String.toList_ofList, List.filter_eq_self]
    intro c hc
    rcases mem_base64Encode bytes c hc with rfl | ⟨n, hn, rfl⟩
    · rfl
    · simp [isBase64, base64Value_char hn]

/-- **Lines of base64 are read as the bytes they hold.** -/
theorem b64decode_encode {s : String} {bytes : List UInt8} (h : Base64Lines s bytes) :
    b64decode s = .ok bytes := by
  have hascii : (s.toList.all fun c => c.toNat < 128) = true := by
    rw [List.all_eq_true]
    intro c hc
    exact decide_eq_true (h.ascii c hc)
  rw [b64decode, if_pos hascii, ← base64Loop_filter, h.encodes, base64Loop_encode]

/-! ## UTF-8 -/

/-- The bytes of a text. -/
def utf8 (text : String) : List UInt8 := text.toByteArray.data.toList

/-- The bytes of a text are the only ones that are read as it. -/
theorem decodeUtf8_eq_ok {bytes : List UInt8} {text : String} :
    decodeUtf8 bytes = .ok text ↔ bytes = utf8 text := by
  unfold decodeUtf8 String.fromUTF8? utf8
  constructor
  · intro h
    by_cases hvalid : ByteArray.IsValidUTF8 ⟨bytes.toArray⟩
    · rw [dif_pos hvalid] at h
      cases h
      rfl
    · rw [dif_neg hvalid] at h
      cases h
  · rintro rfl
    have hbytes : (⟨text.toByteArray.data.toList.toArray⟩ : ByteArray) = text.toByteArray := by
      rw [Array.toArray_toList]
    rw [hbytes, dif_pos text.isValidUTF8]
    rfl

example : b64decode (String.ofList (base64Encode (utf8 "hé\n"))) = .ok (utf8 "hé\n") := by
  decide +kernel

end Text
