import VidiPr.Lib.Regex

/-!
# Replacing matches

`re.sub` with a function that says what each match is replaced by, or raises. The matches are found
first: what a match is replaced by is not looked into.
-/

namespace Text

namespace Regex

/-- What `sub` makes of a text from the end of the last match on. -/
def subFrom {ε : Type} (repl : Cursor → Except ε String) (last : Cursor) :
    List (Cursor × Cursor) → Except ε String
  | [] => .ok (String.ofList last.after)
  | (m, m') :: rest => do
    let value ← repl m'
    let tail ← subFrom repl m' rest
    return String.ofList (last.upTo m) ++ (value ++ tail)

/-- `sub` -/
def sub {ε : Type} (r : Regex) (repl : Cursor → Except ε String) (text : String) :
    Except ε String :=
  subFrom repl (Cursor.start text.toList) (r.findIter text)

/-- Matches in the order of a text: each starts at the end of the one before it, or later. -/
inductive Follows : Cursor → List (Cursor × Cursor) → Prop where
  | nil (last : Cursor) : Follows last []
  | cons {last m m' : Cursor} {gap matched : List Char} {rest : List (Cursor × Cursor)}
      (hgap : last.after = gap ++ m.after) (hstart : m.before = gap.reverse ++ last.before)
      (hmatch : m.after = matched ++ m'.after) (hend : m'.before = matched.reverse ++ m.before)
      (hrest : Follows m' rest) : Follows last ((m, m') :: rest)

/-- What follows a later place follows an earlier one. -/
theorem Follows.of_advance {last : Cursor} {c : Char} {after : List Char}
    {found : List (Cursor × Cursor)} (hafter : last.after = c :: after)
    (h : Follows { before := c :: last.before, after } found) : Follows last found := by
  cases h with
  | nil => exact .nil last
  | cons hgap hstart hmatch hend hrest =>
    rename_i m m' gap matched rest
    have hnext : last.after = (c :: gap) ++ m.after := hafter.trans (congrArg (c :: ·) hgap)
    refine .cons hnext ?_ hmatch hend hrest
    rw [hstart, List.reverse_cons, List.append_assoc]
    rfl

theorem Follows.tail {last m m' : Cursor} {front back : List (Cursor × Cursor)}
    (h : Follows last (front ++ (m, m') :: back)) : Follows m' back := by
  induction front generalizing last with
  | nil =>
    cases h with
    | cons hgap hstart hmatch hend hrest => exact hrest
  | cons found front ih =>
    cases h with
    | cons hgap hstart hmatch hend hrest => exact ih hrest

/-- `finditer` finds its matches in the order of the text. -/
theorem follows_findFrom {r : Regex} (fuel : Nat) (last : Cursor) :
    Follows last (r.findFrom fuel last.before last.after) := by
  induction fuel generalizing last with
  | zero => exact .nil last
  | succ fuel ih =>
    rw [findFrom]
    cases hsearch : r.searchFrom last.before last.after with
    | none => exact .nil last
    | some found =>
      rcases found with ⟨m, m'⟩
      obtain ⟨gap, rest, hgap, rfl, hhead, -⟩ := of_searchFrom hsearch
      obtain ⟨matched, hmatch, hend⟩ := moves_of_mem_ends (List.mem_of_head? hhead)
      refine .cons hgap rfl hmatch hend ?_
      split
      · exact ih m'
      · -- an empty match: the search goes on one character later
        cases hafter : m'.after with
        | nil => exact .nil m'
        | cons c after => exact .of_advance hafter (ih { before := c :: m'.before, after })

theorem follows_findIter (r : Regex) (text : String) :
    Follows (Cursor.start text.toList) (r.findIter text) :=
  follows_findFrom _ (Cursor.start text.toList)

end Regex

end Text
