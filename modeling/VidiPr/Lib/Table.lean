import Mathlib.Data.List.Nodup
import Mathlib.Data.Set.Insert

/-!
# Tables with a primary key

A table is a list of rows in insertion order whose keys are pairwise distinct; the distinctness
is a field, so no operation can build a table that violates its primary key.

* **`insertOrIgnore`** — `INSERT … ON CONFLICT DO NOTHING`, with whether a row was written.
* **`upsert`** — `INSERT … ON CONFLICT DO UPDATE`.
* **`insertAuto`** — an insert that lets the database choose the integer key, one above the
  greatest key in the table.
* **`updateWhere`**, **`deleteWhere`** — `UPDATE` and `DELETE` under a `WHERE` clause.
* **`viewAt`** — what a function shows of some of the rows.

The lemmas state each operation by membership; a reader of a table never looks at its order.
-/

namespace Relational

/-- Rows of type `ρ` identified by `key`. -/
structure Table (κ ρ : Type) (key : ρ → κ) where
  rows : List ρ
  nodup : (rows.map key).Nodup

namespace Table

variable {κ ρ : Type} {key : ρ → κ}

instance : Membership ρ (Table κ ρ key) where
  mem t r := r ∈ t.rows

theorem mem_def {t : Table κ ρ key} {r : ρ} : r ∈ t ↔ r ∈ t.rows := Iff.rfl

instance decidableExistsRow (t : Table κ ρ key) (p : ρ → Prop) [DecidablePred p] :
    Decidable (∃ r ∈ t, p r) :=
  inferInstanceAs (Decidable (∃ r ∈ t.rows, p r))

instance decidableForallRow (t : Table κ ρ key) (p : ρ → Prop) [DecidablePred p] :
    Decidable (∀ r ∈ t, p r) :=
  inferInstanceAs (Decidable (∀ r ∈ t.rows, p r))

/-- The primary key: two rows of a table with one key are the same row. -/
theorem eq_of_key_eq {t : Table κ ρ key} {r r' : ρ} (h : r ∈ t) (h' : r' ∈ t)
    (hk : key r = key r') : r = r' :=
  List.inj_on_of_nodup_map t.nodup h h' hk

def empty : Table κ ρ key := ⟨[], List.nodup_nil⟩

@[simp] theorem not_mem_empty (r : ρ) : ¬ r ∈ (empty : Table κ ρ key) :=
  List.not_mem_nil

/-! ## Reading -/

/-- The row of key `k`. -/
def get? [DecidableEq κ] (t : Table κ ρ key) (k : κ) : Option ρ :=
  t.rows.find? fun r => key r = k

theorem get?_eq_some [DecidableEq κ] {t : Table κ ρ key} {k : κ} {r : ρ} :
    t.get? k = some r ↔ r ∈ t ∧ key r = k := by
  constructor
  · intro h
    exact ⟨List.mem_of_find?_eq_some h, by simpa using List.find?_some h⟩
  · rintro ⟨hr, rfl⟩
    cases hg : t.rows.find? fun r' => key r' = key r with
    | none => simpa using List.find?_eq_none.mp hg r hr
    | some r' =>
      have hk : key r' = key r := by simpa using List.find?_some hg
      rw [get?, hg, eq_of_key_eq (List.mem_of_find?_eq_some hg) hr hk]

theorem get?_eq_none [DecidableEq κ] {t : Table κ ρ key} {k : κ} :
    t.get? k = none ↔ ∀ r ∈ t, key r ≠ k := by
  simp [get?, mem_def]

/-! ## Inserting -/

/-- Append a row whose key is new. -/
def insertNew (t : Table κ ρ key) (r : ρ) (h : key r ∉ t.rows.map key) : Table κ ρ key where
  rows := t.rows ++ [r]
  nodup := by
    rw [List.map_append, List.nodup_append]
    refine ⟨t.nodup, by simp, ?_⟩
    rintro a ha b hb rfl
    simp only [List.map_cons, List.map_nil, List.mem_singleton] at hb
    exact h (hb ▸ ha)

@[simp] theorem mem_insertNew {t : Table κ ρ key} {r r' : ρ} {h : key r ∉ t.rows.map key} :
    r' ∈ t.insertNew r h ↔ r' ∈ t ∨ r' = r := by
  simp [insertNew, mem_def]

/-- `INSERT … ON CONFLICT DO NOTHING`: the table, and whether the row was written. -/
def insertOrIgnore [DecidableEq κ] (t : Table κ ρ key) (r : ρ) : Table κ ρ key × Bool :=
  if h : key r ∈ t.rows.map key then (t, false) else (t.insertNew r h, true)

/-- What an ignoring insert does: nothing where the key exists, else it adds the row. -/
theorem insertOrIgnore_cases [DecidableEq κ] (t : Table κ ρ key) (r : ρ) :
    ((∃ r' ∈ t, key r' = key r) ∧ t.insertOrIgnore r = (t, false)) ∨
    ((∀ r' ∈ t, key r' ≠ key r) ∧ ∃ t', t.insertOrIgnore r = (t', true) ∧
      ∀ r', r' ∈ t' ↔ r' ∈ t ∨ r' = r) := by
  by_cases h : key r ∈ t.rows.map key
  · left
    exact ⟨by simpa [mem_def] using h, by simp only [insertOrIgnore, dif_pos h]⟩
  · right
    refine ⟨fun r' hr' hk => h (hk ▸ List.mem_map_of_mem hr'), t.insertNew r h, ?_, ?_⟩
    · simp only [insertOrIgnore, dif_neg h]
    · exact fun r' => mem_insertNew

/-- An integer key above every key of the table. -/
def freshId {key : ρ → Nat} (t : Table Nat ρ key) : Nat :=
  (t.rows.map key).foldr max 0 + 1

theorem lt_freshId {key : ρ → Nat} {t : Table Nat ρ key} {r : ρ} (h : r ∈ t) :
    key r < t.freshId := by
  have hle : ∀ (l : List Nat) (n : Nat), n ∈ l → n ≤ l.foldr max 0 := by
    intro l
    induction l with
    | nil => simp
    | cons m l ih =>
      intro n hn
      simp only [List.foldr_cons]
      rcases List.mem_cons.mp hn with rfl | hn
      · exact Nat.le_max_left _ _
      · exact Nat.le_trans (ih n hn) (Nat.le_max_right _ _)
  exact Nat.lt_succ_of_le (hle _ _ (List.mem_map_of_mem h))

theorem key_fresh_not_mem {key : ρ → Nat} {t : Table Nat ρ key} {mk : Nat → ρ}
    (hmk : ∀ n, key (mk n) = n) : key (mk t.freshId) ∉ t.rows.map key := by
  intro h
  obtain ⟨r, hr, hk⟩ := List.mem_map.mp h
  exact absurd (hk.trans (hmk _)) (Nat.ne_of_lt (lt_freshId hr))

/-- Insert a row whose integer key the database chooses; the row is returned. -/
def insertAuto {key : ρ → Nat} (t : Table Nat ρ key) (mk : Nat → ρ)
    (hmk : ∀ n, key (mk n) = n) : Table Nat ρ key × ρ :=
  (t.insertNew (mk t.freshId) (key_fresh_not_mem hmk), mk t.freshId)

@[simp] theorem mem_insertAuto {key : ρ → Nat} {t : Table Nat ρ key} {mk : Nat → ρ}
    {hmk : ∀ n, key (mk n) = n} {r : ρ} :
    r ∈ (t.insertAuto mk hmk).1 ↔ r ∈ t ∨ r = mk t.freshId :=
  mem_insertNew (h := key_fresh_not_mem hmk)

@[simp] theorem insertAuto_row {key : ρ → Nat} {t : Table Nat ρ key} {mk : Nat → ρ}
    {hmk : ∀ n, key (mk n) = n} : (t.insertAuto mk hmk).2 = mk t.freshId := rfl

/-! ## Updating and deleting -/

/-- `UPDATE … SET f WHERE p`, for a change that leaves keys alone. -/
def updateWhere (t : Table κ ρ key) (p : ρ → Bool) (f : ρ → ρ) (hf : ∀ r, key (f r) = key r) :
    Table κ ρ key where
  rows := t.rows.map fun r => if p r then f r else r
  nodup := by
    have hkey : (t.rows.map fun r => if p r then f r else r).map key = t.rows.map key := by
      rw [List.map_map]
      refine List.map_congr_left fun r _ => ?_
      simp only [Function.comp_apply]
      split
      · exact hf r
      · rfl
    rw [hkey]
    exact t.nodup

theorem mem_updateWhere {t : Table κ ρ key} {p : ρ → Bool} {f : ρ → ρ}
    {hf : ∀ r, key (f r) = key r} {r : ρ} :
    r ∈ t.updateWhere p f hf ↔ (∃ r₀ ∈ t, p r₀ ∧ f r₀ = r) ∨ (r ∈ t ∧ ¬ p r) := by
  simp only [updateWhere, mem_def, List.mem_map]
  constructor
  · rintro ⟨r₀, hr₀, rfl⟩
    by_cases hp : p r₀
    · exact Or.inl ⟨r₀, hr₀, hp, by simp [hp]⟩
    · exact Or.inr ⟨by simpa [hp] using hr₀, by simp [hp]⟩
  · rintro (⟨r₀, hr₀, hp, rfl⟩ | ⟨hr, hp⟩)
    · exact ⟨r₀, hr₀, by simp [hp]⟩
    · exact ⟨r, hr, by simp [hp]⟩

/-- `DELETE … WHERE p`. -/
def deleteWhere (t : Table κ ρ key) (p : ρ → Bool) : Table κ ρ key where
  rows := t.rows.filter fun r => !p r
  nodup := t.nodup.sublist (List.filter_sublist.map key)

@[simp] theorem mem_deleteWhere {t : Table κ ρ key} {p : ρ → Bool} {r : ρ} :
    r ∈ t.deleteWhere p ↔ r ∈ t ∧ ¬ p r := by
  simp [deleteWhere, mem_def]

/-- `INSERT … ON CONFLICT DO UPDATE`: an existing row of that key is replaced by `f` of it. -/
def upsert [DecidableEq κ] (t : Table κ ρ key) (r : ρ) (f : ρ → ρ)
    (hf : ∀ r, key (f r) = key r) : Table κ ρ key :=
  if h : key r ∈ t.rows.map key then t.updateWhere (fun r' => key r' = key r) f hf
  else t.insertNew r h

/-- What an upsert does: an existing row of the key is changed, else the row is added. -/
theorem upsert_cases [DecidableEq κ] (t : Table κ ρ key) (r : ρ) (f : ρ → ρ)
    (hf : ∀ r, key (f r) = key r) :
    (∃ old ∈ t, key old = key r ∧
      ∀ r', r' ∈ t.upsert r f hf ↔ r' = f old ∨ (r' ∈ t ∧ key r' ≠ key r)) ∨
    ((∀ old ∈ t, key old ≠ key r) ∧ ∀ r', r' ∈ t.upsert r f hf ↔ r' ∈ t ∨ r' = r) := by
  by_cases h : key r ∈ t.rows.map key
  · left
    obtain ⟨old, hold, hkey⟩ := List.mem_map.mp h
    refine ⟨old, hold, hkey, fun r' => ?_⟩
    simp only [upsert, dif_pos h, mem_updateWhere, decide_eq_true_eq]
    refine or_congr ⟨?_, ?_⟩ Iff.rfl
    · rintro ⟨r₀, hr₀, hk, rfl⟩
      rw [eq_of_key_eq hr₀ hold (hk.trans hkey.symm)]
    · rintro rfl
      exact ⟨old, hold, hkey, rfl⟩
  · right
    refine ⟨fun old hold hk => h (hk ▸ List.mem_map_of_mem hold), fun r' => ?_⟩
    simp only [upsert, dif_neg h, mem_insertNew]

/-- An upsert leaves the rows of other keys alone. -/
theorem mem_upsert_of_ne [DecidableEq κ] {t : Table κ ρ key} {r r' : ρ} {f : ρ → ρ}
    {hf : ∀ r, key (f r) = key r} (hne : key r' ≠ key r) : r' ∈ t.upsert r f hf ↔ r' ∈ t := by
  rcases t.upsert_cases r f hf with ⟨old, hold, hkey, hmem⟩ | ⟨_, hmem⟩
  · rw [hmem]
    constructor
    · rintro (rfl | ⟨hr', _⟩)
      · exact absurd ((hf old).trans hkey) hne
      · exact hr'
    · exact fun hr' => Or.inr ⟨hr', hne⟩
  · rw [hmem]
    constructor
    · rintro (hr' | rfl)
      · exact hr'
      · exact absurd rfl hne
    · exact Or.inl

/-! ## Looking at some of the rows -/

/-- What `f` shows of the rows that satisfy `P`. -/
def viewAt {ν : Type} (t : Table κ ρ key) (P : ρ → Prop) (f : ρ → ν) : Set ν :=
  {x | ∃ r ∈ t, P r ∧ f r = x}

variable {ν : Type} {P : ρ → Prop} {f g : ρ → ν}

theorem mem_viewAt {t : Table κ ρ key} {x : ν} :
    x ∈ t.viewAt P f ↔ ∃ r ∈ t, P r ∧ f r = x := Iff.rfl

theorem viewAt_congr {t t' : Table κ ρ key} (h : ∀ r, P r → (r ∈ t' ↔ r ∈ t)) :
    t'.viewAt P f = t.viewAt P f := by
  ext x
  exact exists_congr fun r => ⟨fun ⟨hr, hP, hx⟩ => ⟨(h r hP).mp hr, hP, hx⟩,
    fun ⟨hr, hP, hx⟩ => ⟨(h r hP).mpr hr, hP, hx⟩⟩

theorem viewAt_congr_fun {t : Table κ ρ key} (h : ∀ r ∈ t, P r → f r = g r) :
    t.viewAt P f = t.viewAt P g := by
  ext x
  refine exists_congr fun r => ⟨fun ⟨hr, hP, hx⟩ => ⟨hr, hP, ?_⟩, fun ⟨hr, hP, hx⟩ => ⟨hr, hP, ?_⟩⟩
  · rw [← h r hr hP, hx]
  · rw [h r hr hP, hx]

theorem viewAt_insert {t t' : Table κ ρ key} {new : ρ} (h : ∀ r, r ∈ t' ↔ r ∈ t ∨ r = new)
    (hnew : P new) : t'.viewAt P f = insert (f new) (t.viewAt P f) := by
  ext x
  simp only [mem_viewAt, h, Set.mem_insert_iff]
  constructor
  · rintro ⟨r, hr | rfl, hP, rfl⟩
    · exact Or.inr ⟨r, hr, hP, rfl⟩
    · exact Or.inl rfl
  · rintro (rfl | ⟨r, hr, hP, rfl⟩)
    · exact ⟨new, Or.inr rfl, hnew, rfl⟩
    · exact ⟨r, Or.inl hr, hP, rfl⟩

end Table

end Relational
