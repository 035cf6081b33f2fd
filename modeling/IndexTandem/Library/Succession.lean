import Mathlib.Data.List.Chain

/-!
# Successions

A history is a list of stages, the newest first. Each stage lasts until the next one begins,
and the newest until the end, if there is one. A table that keeps such a history has a row for
each stage, with its number and with what ended it (`succession`). To go on is to end the
newest row and to add one; no other row changes (`succession_end`).
-/

namespace IndexTandem.Library

universe u v w x

variable {S : Type u} {M : Type v} {R : Type w} {A : Type x}

/-- The rows of the stages, the newest first. A stage is ended by the mark of the one after it, and the
newest by `last`. -/
def succession (mark : S → M) (row : ℕ → S → Option M → R) : Option M → List S → List R
  | _, [] => []
  | last, stage :: older => row older.length stage last :: succession mark row (some (mark stage)) older

variable {mark : S → M} {row : ℕ → S → Option M → R}

@[simp] theorem length_succession (last : Option M) (stages : List S) :
    (succession mark row last stages).length = stages.length := by
  induction stages generalizing last with
  | nil => rfl
  | cons stage older ih => simp [succession, ih]

/-- What the rows say of the stages alone. -/
theorem map_succession_eq_map {f : R → A} {g : S → A} (h : ∀ number stage ended, f (row number stage ended) = g stage)
    (last : Option M) (stages : List S) : (succession mark row last stages).map f = stages.map g := by
  induction stages generalizing last with
  | nil => rfl
  | cons stage older ih => simp [succession, ih, h]

/-- The rows are numbered from the oldest on. -/
theorem map_succession_number {f : R → ℕ} (h : ∀ number stage ended, f (row number stage ended) = number)
    (last : Option M) (stages : List S) : (succession mark row last stages).map f = (List.range stages.length).reverse := by
  induction stages generalizing last with
  | nil => rfl
  | cons stage older ih =>
    rw [succession, List.map_cons, ih, h, List.length_cons, List.range_succ, List.reverse_append]
    rfl

theorem mem_succession {last : Option M} {stages : List S} {r : R} (h : r ∈ succession mark row last stages) :
    ∃ number stage ended, stage ∈ stages ∧ r = row number stage ended := by
  induction stages generalizing last with
  | nil => exact absurd h List.not_mem_nil
  | cons stage older ih =>
    rcases List.mem_cons.mp h with rfl | h
    · exact ⟨_, stage, _, List.mem_cons_self, rfl⟩
    · obtain ⟨number, s, ended, hs, hr⟩ := ih h
      exact ⟨number, s, ended, List.mem_cons_of_mem _ hs, hr⟩

/-- Each row is ended by the mark of the one after it. -/
theorem isChain_succession (last : Option M) (stages : List S) :
    (succession mark row last stages).IsChain fun newer older =>
      ∃ number stage before ended, newer = row (number + 1) stage ended ∧ older = row number before (some (mark stage)) := by
  induction stages generalizing last with
  | nil => exact .nil
  | cons stage older ih =>
    cases older with
    | nil => exact .singleton _
    | cons before older => exact List.isChain_cons_cons.mpr ⟨⟨_, stage, before, last, rfl, rfl⟩, ih _⟩

/-- The row of the stage with a number, counted from the oldest. -/
theorem getElem?_reverse_succession {last : Option M} {stages : List S} {number : ℕ} {stage : S}
    (h : stages.reverse[number]? = some stage) :
    ∃ ended, (succession mark row last stages).reverse[number]? = some (row number stage ended) := by
  induction stages generalizing last with
  | nil => simp at h
  | cons newest older ih =>
    rw [succession, List.reverse_cons, List.getElem?_append] at *
    rw [List.length_reverse] at *
    rw [length_succession]
    split_ifs at h ⊢ with hlt
    · exact ih h
    · obtain rfl := List.mem_singleton.mp (List.mem_of_getElem? h)
      have hbound : number - older.length < 1 := (List.getElem?_eq_some_iff.mp h).1
      obtain rfl : number = older.length := by omega
      exact ⟨last, by simp⟩

/-- **Ending a succession** ends its newest row. -/
theorem succession_end {f : R → R} {stage : S} {older : List S} {m : M}
    (newest : f (row older.length stage none) = row older.length stage (some m))
    (others : ∀ r ∈ succession mark row (some (mark stage)) older, f r = r) :
    (succession mark row none (stage :: older)).map f = succession mark row (some m) (stage :: older) := by
  rw [succession, succession, List.map_cons, newest]
  congr 1
  exact (List.map_congr_left others).trans (List.map_id _)

end IndexTandem.Library
