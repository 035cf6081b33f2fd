import Mathlib.Data.List.Basic

/-!
# Codes that end themselves

A code is delimited when a reader who knows that a text starts with a code word also knows
which one, and what comes after it. Codes of one length are delimited, and so are pairs
of delimited codes; a text of such words has only one way to be read, for any number of
them (`Delimited.flatMap_inj`).
-/

namespace IndexTandem.Library

universe u v w

variable {α : Type u} {β : Type v} {σ : Type w}

/-- The words of valid values end themselves. -/
def Delimited (code : α → List σ) (valid : α → Prop) : Prop :=
  ∀ ⦃a b : α⦄ ⦃x y : List σ⦄, valid a → valid b → code a ++ x = code b ++ y → a = b ∧ x = y

/-- Different words of one length. -/
theorem delimited_of_length {code : α → List σ} {valid : α → Prop} (n : ℕ)
    (length : ∀ a, valid a → (code a).length = n)
    (injective : ∀ a b, valid a → valid b → code a = code b → a = b) : Delimited code valid := by
  intro a b x y ha hb h
  obtain ⟨hcode, hrest⟩ := List.append_inj h ((length a ha).trans (length b hb).symm)
  exact ⟨injective a b ha hb hcode, hrest⟩

/-- One word after the other. -/
theorem Delimited.pair {first : α → List σ} {second : β → List σ} {valid : α → Prop} {valid' : β → Prop}
    (h : Delimited first valid) (h' : Delimited second valid') :
    Delimited (fun p : α × β => first p.1 ++ second p.2) fun p => valid p.1 ∧ valid' p.2 := by
  rintro ⟨a, b⟩ ⟨c, d⟩ x y ⟨ha, hb⟩ ⟨hc, hd⟩ heq
  simp only [List.append_assoc] at heq
  obtain ⟨hfirst, hafter⟩ := h ha hc heq
  obtain ⟨hsecond, hrest⟩ := h' hb hd hafter
  exact ⟨Prod.ext hfirst hsecond, hrest⟩

/-- A word is determined. -/
theorem Delimited.inj {code : α → List σ} {valid : α → Prop} (h : Delimited code valid) {a b : α} (ha : valid a)
    (hb : valid b) (heq : code a = code b) : a = b :=
  (h (x := []) (y := []) ha hb (by rw [heq])).1

/-- **A text of words is read in one way.** -/
theorem Delimited.flatMap_inj {code : α → List σ} {valid : α → Prop} (h : Delimited code valid)
    (some : ∀ a, valid a → code a ≠ []) {l l' : List α} (hl : ∀ a ∈ l, valid a) (hl' : ∀ a ∈ l', valid a)
    (heq : l.flatMap code = l'.flatMap code) : l = l' := by
  induction l generalizing l' with
  | nil =>
    cases l' with
    | nil => rfl
    | cons b l' =>
      rw [List.flatMap_nil, List.flatMap_cons] at heq
      exact absurd (List.append_eq_nil_iff.mp heq.symm).1 (some b (hl' b List.mem_cons_self))
  | cons a l ih =>
    cases l' with
    | nil =>
      rw [List.flatMap_nil, List.flatMap_cons] at heq
      exact absurd (List.append_eq_nil_iff.mp heq).1 (some a (hl a List.mem_cons_self))
    | cons b l' =>
      rw [List.flatMap_cons, List.flatMap_cons] at heq
      obtain ⟨rfl, hrest⟩ := h (hl a List.mem_cons_self) (hl' b List.mem_cons_self) heq
      rw [ih (fun c hc => hl c (List.mem_cons_of_mem _ hc)) (fun c hc => hl' c (List.mem_cons_of_mem _ hc)) hrest]

end IndexTandem.Library
