import Mathlib.Data.List.Basic

/-!
# Fields with a separator

A text of fields with a separator between them. Splitting finds the fields again when none
of them has the separator in it.
-/

namespace IndexTandem.Library

variable {α : Type*} [DecidableEq α]

/-- `text.split(separator)`: the fields between the separators. -/
def fieldsBetween (separator : α) : List α → List (List α)
  | [] => [[]]
  | c :: text =>
    if c = separator then [] :: fieldsBetween separator text
    else
      match fieldsBetween separator text with
      | [] => [[c]]
      | field :: fields => (c :: field) :: fields

/-- `fields.join(separator)`. -/
def separated (separator : α) (fields : List (List α)) : List α := List.intercalate [separator] fields

omit [DecidableEq α] in
theorem separated_cons_cons (separator : α) (field next : List α) (fields : List (List α)) :
    separated separator (field :: next :: fields) = field ++ separator :: separated separator (next :: fields) := by
  simp [separated, List.intercalate]

omit [DecidableEq α] in
/-- A text consists of the separator and its fields. -/
theorem mem_separated {separator c : α} {fields : List (List α)} (h : c ∈ separated separator fields) :
    c = separator ∨ ∃ field ∈ fields, c ∈ field := by
  induction fields with
  | nil => simp [separated] at h
  | cons field fields ih =>
    cases fields with
    | nil =>
      have hone : separated separator [field] = field := by simp [separated]
      exact Or.inr ⟨field, List.mem_cons_self, hone ▸ h⟩
    | cons next fields =>
      rw [separated_cons_cons, List.mem_append, List.mem_cons] at h
      rcases h with h | h | h
      · exact Or.inr ⟨field, List.mem_cons_self, h⟩
      · exact Or.inl h
      · rcases ih h with h | ⟨f, hf, hc⟩
        · exact Or.inl h
        · exact Or.inr ⟨f, List.mem_cons_of_mem _ hf, hc⟩

theorem fieldsBetween_append {separator : α} {field : List α} (free : separator ∉ field) (text : List α) :
    fieldsBetween separator (field ++ separator :: text) = field :: fieldsBetween separator text := by
  induction field with
  | nil => simp [fieldsBetween]
  | cons c field ih =>
    have hc : c ≠ separator := fun h => free (h ▸ List.mem_cons_self)
    rw [List.cons_append, fieldsBetween, if_neg hc, ih fun h => free (List.mem_cons_of_mem _ h)]

theorem fieldsBetween_of_free {separator : α} {field : List α} (free : separator ∉ field) :
    fieldsBetween separator field = [field] := by
  induction field with
  | nil => rfl
  | cons c field ih =>
    have hc : c ≠ separator := fun h => free (h ▸ List.mem_cons_self)
    rw [fieldsBetween, if_neg hc, ih fun h => free (List.mem_cons_of_mem _ h)]

/-- **The fields are found again.** -/
theorem fieldsBetween_separated {separator : α} {fields : List (List α)} (some : fields ≠ [])
    (free : ∀ field ∈ fields, separator ∉ field) : fieldsBetween separator (separated separator fields) = fields := by
  induction fields with
  | nil => exact absurd rfl some
  | cons field fields ih =>
    have hfield := free field List.mem_cons_self
    cases fields with
    | nil =>
      have hone : separated separator [field] = field := by simp [separated]
      rw [hone, fieldsBetween_of_free hfield]
    | cons next fields =>
      rw [separated_cons_cons, fieldsBetween_append hfield,
        ih (List.cons_ne_nil _ _) fun f hf => free f (List.mem_cons_of_mem _ hf)]

theorem fieldsBetween_ne_nil (separator : α) (text : List α) : fieldsBetween separator text ≠ [] := by
  cases text with
  | nil => exact List.cons_ne_nil _ _
  | cons c text =>
    rw [fieldsBetween]
    split_ifs
    · exact List.cons_ne_nil _ _
    · split <;> exact List.cons_ne_nil _ _

/-- A text is its fields with the separators between them. -/
theorem separated_fieldsBetween (separator : α) (text : List α) : separated separator (fieldsBetween separator text) = text := by
  induction text with
  | nil => simp [fieldsBetween, separated]
  | cons c text ih =>
    obtain ⟨field, fields, hfields⟩ := List.exists_cons_of_ne_nil (fieldsBetween_ne_nil separator text)
    rw [hfields] at ih
    rw [fieldsBetween, hfields]
    by_cases hc : c = separator
    · rw [if_pos hc, separated_cons_cons, ih, hc, List.nil_append]
    · rw [if_neg hc]
      cases fields with
      | nil => simpa [separated] using ih
      | cons next fields =>
        rw [separated_cons_cons] at ih ⊢
        rw [List.cons_append, ih]

end IndexTandem.Library
