import Mathlib.Data.Nat.Init
import Mathlib.Order.Nat

/-!
# Timelines

A state that is changed while somebody reads it: its value at every moment, and the kind of
each change. What every change keeps is so at every moment (`Timeline.always`), and a preorder that every change
goes up in relates any two moments (`Timeline.related`). A measure of
the state that only grows between two moments, and is the same at both, says that there was no
change in between (`Timeline.steady`). What is missing at one moment and there at a later one has been
brought back by a change (`Timeline.returns_iff`).
-/

namespace IndexTandem.Library

universe u v w

variable {σ : Type u} {κ : Type v}

/-- A state over time. -/
structure Timeline (change : κ → σ → σ → Prop) where
  /-- The state at a moment. -/
  state : ℕ → σ
  /-- The kind of the change after it. -/
  kind : ℕ → κ
  /-- Each is such a change. -/
  changes : ∀ i, change (kind i) (state i) (state (i + 1))

namespace Timeline

variable {change : κ → σ → σ → Prop} (t : Timeline change)

/-- **An invariant** holds at every moment. -/
theorem always {I : σ → Prop} (start : I (t.state 0)) (keeps : ∀ k s s', change k s s' → I s → I s') (i : ℕ) :
    I (t.state i) := by
  induction i with
  | zero => exact start
  | succ i ih => exact keeps _ _ _ (t.changes i) ih

variable {t} in
/-- **What each change between two moments keeps**, from the state before it to the one after, they keep together. -/
theorem related {R : σ → σ → Prop} (refl : ∀ s, R s s) (trans : ∀ {a b c}, R a b → R b c → R a c) {first last : ℕ}
    (steps : ∀ i, first ≤ i → i < last → R (t.state i) (t.state (i + 1))) (h : first ≤ last) :
    R (t.state first) (t.state last) := by
  induction last, h using Nat.le_induction with
  | base => exact refl _
  | succ last h ih =>
    have before := ih fun i hi hl => steps i hi (hl.trans (Nat.lt_succ_self last))
    exact trans before (steps last h (Nat.lt_succ_self last))

/-- Something is missing from a moment on, until a change before `last` brings it back. -/
def Returns (P : σ → Prop) (first last : ℕ) : Prop :=
  ∃ i, first ≤ i ∧ i < last ∧ (∀ j, first ≤ j → j ≤ i → ¬P (t.state j)) ∧ P (t.state (i + 1))

variable {t} in
/-- What is missing and does not return stays missing. -/
theorem missing_of_not_returns {P : σ → Prop} {first last : ℕ} (missing : ¬P (t.state first))
    (h : ¬t.Returns P first last) {moment : ℕ} (hfirst : first ≤ moment) (hlast : moment ≤ last) :
    ∀ j, first ≤ j → j ≤ moment → ¬P (t.state j) := by
  induction moment, hfirst using Nat.le_induction with
  | base =>
    intro j hj hj'
    obtain rfl := le_antisymm hj hj'
    exact missing
  | succ moment hm ih =>
    have before := ih ((Nat.le_succ moment).trans hlast)
    intro j hj hj'
    rcases Nat.le_succ_iff.mp hj' with hj' | rfl
    · exact before j hj hj'
    · intro there
      exact h ⟨moment, hm, hlast, before, there⟩

variable {t} in
/-- **What is there in the end** was missing at a moment exactly when it returns after it. -/
theorem returns_iff {P : σ → Prop} {first last : ℕ} (h : first ≤ last) (there : P (t.state last)) :
    t.Returns P first last ↔ ¬P (t.state first) := by
  constructor
  · rintro ⟨i, hi, -, missing, -⟩
    exact missing first le_rfl hi
  · intro missing
    by_contra hreturns
    exact missing_of_not_returns missing hreturns h le_rfl last h le_rfl there

variable {β : Type w} [Preorder β] {measure : σ → β} {first last : ℕ}

/-- The state only changes to one with a greater measure. -/
def Grows (measure : σ → β) (first last : ℕ) : Prop :=
  ∀ i, first ≤ i → i < last → t.state (i + 1) = t.state i ∨ measure (t.state i) < measure (t.state (i + 1))

variable {t}

/-- After such changes the state is the same, or its measure is greater. -/
theorem Grows.grown (grows : t.Grows measure first last) (h : first ≤ last) :
    t.state last = t.state first ∨ measure (t.state first) < measure (t.state last) := by
  induction last, h using Nat.le_induction with
  | base => exact .inl rfl
  | succ last h ih =>
    have before := ih fun i hi hl => grows i hi (hl.trans (Nat.lt_succ_self last))
    rcases grows last h (Nat.lt_succ_self last) with same | more
    · rw [same]
      exact before
    · rcases before with same | less
      · exact .inr (same ▸ more)
      · exact .inr (less.trans more)

/-- **A measure that comes back** without having gone down was the same all the time, and so was the state. -/
theorem Grows.steady (grows : t.Grows measure first last) (same : measure (t.state first) = measure (t.state last))
    {moment : ℕ} (h : first ≤ moment) (h' : moment ≤ last) : t.state moment = t.state first := by
  have before : t.Grows measure first moment := fun i hi hl => grows i hi (hl.trans_le h')
  have after : t.Grows measure moment last := fun i hi hl => grows i (h.trans hi) hl
  rcases before.grown h with hsame | hless
  · exact hsame
  · rcases after.grown h' with hsame' | hless'
    · rw [same, ← hsame'] at hless
      exact absurd hless (lt_irrefl _)
    · exact absurd (same ▸ hless.trans hless') (lt_irrefl _)

end Timeline

end IndexTandem.Library
