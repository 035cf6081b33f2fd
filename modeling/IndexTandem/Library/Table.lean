import IndexTandem.Library.Except
import Mathlib.Data.List.Basic

/-!
# Relational tables

A database is a state `D` with tables in it. A `Table D R` says where the rows of one
table are, which values fit its columns, which rows have no unique key in common, and
which rows have their parents in place. `insert` and `update` check these before they
change anything, as a database in strict mode does; `delete` removes rows. Rows are
kept in the order they were inserted, and no row has an identity beyond its values.

The rules: what an accepted insertion says (`insert_eq_ok`), what a loop of
insertions leaves (`insertAll_ok`), and which statements no key can stop (`Yields`).
-/

namespace IndexTandem.Library

universe v w

/-- A table of rows `R` in a database `D`. -/
structure Table (D : Type) (R : Type v) where
  /-- The rows, oldest first. -/
  rows : D → List R
  /-- Replace the rows. -/
  put : List R → D → D
  /-- What was put is there. -/
  rows_put : ∀ l d, rows (put l d) = l
  /-- Putting what is there changes nothing. -/
  put_rows : ∀ d, put (rows d) d = d
  /-- The last put counts. -/
  put_put : ∀ l m d, put l (put m d) = put l d
  /-- Every value fits its column. -/
  fits : R → Bool
  /-- The rows have no unique key in common. -/
  apart : R → R → Bool
  /-- The rows that this one refers to are there. -/
  parents : D → R → Bool
  /-- A table does not refer to itself. -/
  parents_put : ∀ l d r, parents (put l d) r = parents d r

namespace Table

variable {D : Type} {R : Type v} (t : Table D R)

attribute [simp] rows_put put_rows put_put parents_put

/-- `INSERT INTO`. -/
def insert (row : R) (d : D) : Except String D := do
  ensure (t.fits row) "Out of range value or data too long for column"
  ensure ((t.rows d).all fun r => t.apart r row) "Duplicate entry for key"
  ensure (t.parents d row) "Cannot add a child row: a foreign key constraint fails"
  pure (t.put (t.rows d ++ [row]) d)

/-- `UPDATE … WHERE`; the columns set belong to no unique key. -/
def update (which : R → Bool) (change : R → R) (d : D) : Except String D := do
  ensure ((t.rows d).all fun r => !which r || t.fits (change r)) "Out of range value or data too long for column"
  pure (t.put ((t.rows d).map fun r => if which r then change r else r) d)

/-- `DELETE … WHERE`, for one table. -/
def delete (which : R → Bool) (d : D) : D := t.put ((t.rows d).filter fun r => !which r) d

theorem insert_eq_ok {row : R} {d d' : D} : t.insert row d = .ok d' ↔
    t.fits row = true ∧ (∀ r ∈ t.rows d, t.apart r row = true) ∧ t.parents d row = true ∧
      t.put (t.rows d ++ [row]) d = d' := by
  unfold insert
  constructor
  · intro h
    obtain ⟨_, h₁, h⟩ := bind_eq_ok.mp h
    obtain ⟨_, h₂, h⟩ := bind_eq_ok.mp h
    obtain ⟨_, h₃, h⟩ := bind_eq_ok.mp h
    rw [ensure_eq_ok] at h₁ h₂ h₃
    exact ⟨h₁, List.all_eq_true.mp h₂, h₃, pure_eq_ok.mp h⟩
  · rintro ⟨h₁, h₂, h₃, rfl⟩
    simp only [ensure, h₁, List.all_eq_true.mpr h₂, h₃, if_true]
    rfl

theorem update_eq_ok {which : R → Bool} {change : R → R} {d d' : D} : t.update which change d = .ok d' ↔
    (∀ r ∈ t.rows d, which r = true → t.fits (change r) = true) ∧
      t.put ((t.rows d).map fun r => if which r then change r else r) d = d' := by
  unfold update
  have hall : ((t.rows d).all fun r => !which r || t.fits (change r)) = true ↔
      ∀ r ∈ t.rows d, which r = true → t.fits (change r) = true := by
    simp only [List.all_eq_true, Bool.or_eq_true, Bool.not_eq_true']
    exact forall₂_congr fun r _ => by cases which r <;> simp
  constructor
  · intro h
    obtain ⟨_, h₁, h⟩ := bind_eq_ok.mp h
    exact ⟨hall.mp (ensure_eq_ok.mp h₁), pure_eq_ok.mp h⟩
  · rintro ⟨h₁, rfl⟩
    simp only [ensure, hall.mpr h₁, if_true]
    rfl

/-- A loop of insertions appends its rows; each was checked against those before it. -/
theorem insertAll_ok {C : Type w} {row : C → R} {l : List C} {d d' : D}
    (h : l.foldlM (fun d c => t.insert (row c) d) d = .ok d') :
    d' = t.put (t.rows d ++ l.map row) d ∧ (l.map row).Pairwise (fun r s => t.apart r s = true) ∧
      (∀ r ∈ t.rows d, ∀ c ∈ l, t.apart r (row c) = true) ∧
      ∀ c ∈ l, t.fits (row c) = true ∧ t.parents d (row c) = true := by
  induction l generalizing d with
  | nil =>
    obtain rfl := pure_eq_ok.mp h
    simp
  | cons c l ih =>
    rw [List.foldlM_cons] at h
    obtain ⟨e, he, h⟩ := bind_eq_ok.mp h
    obtain ⟨hf, ha, hp, rfl⟩ := t.insert_eq_ok.mp he
    obtain ⟨h₁, h₂, h₃, h₄⟩ := ih h
    simp only [rows_put, List.mem_append, List.mem_singleton, parents_put] at h₃ h₄
    refine ⟨by simpa using h₁, ?_, ?_, ?_⟩
    · rw [List.map_cons, List.pairwise_cons]
      refine ⟨fun s hs => ?_, h₂⟩
      obtain ⟨c', hc', rfl⟩ := List.mem_map.mp hs
      exact h₃ _ (Or.inr rfl) c' hc'
    · intro r hr c' hc'
      rcases List.mem_cons.mp hc' with rfl | hc'
      · exact ha r hr
      · exact h₃ r (Or.inl hr) c' hc'
    · intro c' hc'
      rcases List.mem_cons.mp hc' with rfl | hc'
      · exact ⟨hf, hp⟩
      · exact h₄ c' hc'

end Table

/-! ### Statements that only a width can stop -/

/-- A statement, or a sequence of them, leaves `d'`, unless a value does not fit its column. -/
def Yields {D : Type} (x : Except String D) (d' : D) : Prop :=
  x = .ok d' ∨ x = .error "Out of range value or data too long for column"

namespace Yields

variable {D : Type}

theorem pure (d : D) : Yields (.ok d) d := .inl rfl

theorem bind {x : Except String D} {f : D → Except String D} {d d' : D} (hx : Yields x d) (hf : Yields (f d) d') :
    Yields (x >>= f) d' := by
  rcases hx with rfl | rfl
  · exact hf
  · exact .inr rfl

/-- A loop whose every turn does. -/
theorem foldlM {C : Type w} {f : D → C → Except String D} {g : D → C → D} {l : List C} {d : D}
    (h : ∀ before c after, l = before ++ c :: after → Yields (f (before.foldl g d) c) (g (before.foldl g d) c)) :
    Yields (l.foldlM f d) (l.foldl g d) := by
  induction l generalizing d with
  | nil => exact .pure d
  | cons c l ih =>
    rw [List.foldlM_cons, List.foldl_cons]
    refine (h [] c l rfl).bind (ih ?_)
    intro before c' after hl
    exact h (c :: before) c' after (congrArg (c :: ·) hl)

/-- It leaves one state at most. -/
theorem eq_of_ok {x : Except String D} {d d' : D} (h : Yields x d) (hx : x = .ok d') : d' = d := by
  rcases h with rfl | rfl
  · exact (Except.ok.inj hx).symm
  · cases hx

end Yields

namespace Table

variable {D : Type} {R : Type v} (t : Table D R)

/-- A row with new keys and its parents in place can be inserted. -/
theorem insert_yields {row : R} {d : D} (hnew : ∀ r ∈ t.rows d, t.apart r row = true)
    (hparents : t.parents d row = true) : Yields (t.insert row d) (t.put (t.rows d ++ [row]) d) := by
  by_cases hfits : t.fits row = true
  · exact .inl (t.insert_eq_ok.mpr ⟨hfits, hnew, hparents, rfl⟩)
  · right
    simp only [insert, ensure, if_neg hfits]
    rfl

/-- An update touches no key. -/
theorem update_yields (which : R → Bool) (change : R → R) (d : D) : Yields (t.update which change d)
    (t.put ((t.rows d).map fun r => if which r then change r else r) d) := by
  unfold update ensure
  split_ifs
  · exact .inl rfl
  · exact .inr rfl

/-- So can a loop of them. -/
theorem insertAll_yields {C : Type w} {row : C → R} {l : List C} {d : D}
    (hnew : ∀ r ∈ t.rows d, ∀ c ∈ l, t.apart r (row c) = true)
    (hapart : (l.map row).Pairwise fun r s => t.apart r s = true) (hparents : ∀ c ∈ l, t.parents d (row c) = true) :
    Yields (l.foldlM (fun d c => t.insert (row c) d) d) (t.put (t.rows d ++ l.map row) d) := by
  induction l generalizing d with
  | nil =>
    rw [List.map_nil, List.append_nil, put_rows]
    exact .pure d
  | cons c l ih =>
    rw [List.map_cons, List.pairwise_cons] at hapart
    rw [List.foldlM_cons]
    refine (t.insert_yields (fun r hr => hnew r hr c (by simp)) (hparents c (by simp))).bind ?_
    have hrest := @ih (t.put (t.rows d ++ [row c]) d) ?_ hapart.2 ?_
    · simpa using hrest
    · intro r hr c' hc'
      simp only [rows_put, List.mem_append, List.mem_singleton] at hr
      rcases hr with hr | rfl
      · exact hnew r hr c' (by simp [hc'])
      · exact hapart.1 _ (List.mem_map_of_mem hc')
    · intro c' hc'
      simpa using hparents c' (by simp [hc'])

end Table

end IndexTandem.Library
