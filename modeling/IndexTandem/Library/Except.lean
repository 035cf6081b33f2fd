import Mathlib.Data.List.Basic
import Mathlib.Data.List.Forall2

/-!
# Computations that may throw

Rules for taking apart a computation in `Except`: what it means that a sequence
of steps, a check, or a loop over a list returned. A program that throws at the
first failed step is proved about by peeling its steps off with `bind_eq_ok`, and
its loops with `foldlM_induct`, which carries an invariant from the start of the
list to the value returned.
-/

namespace IndexTandem.Library

universe u v w

variable {ε : Type u} {α β : Type v}

theorem bind_eq_ok {x : Except ε α} {f : α → Except ε β} {b : β} :
    x >>= f = .ok b ↔ ∃ a, x = .ok a ∧ f a = .ok b := by
  cases x with
  | error e => simp [bind, Except.bind]
  | ok a => simp [bind, Except.bind]

@[simp] theorem pure_eq_ok {a b : α} : (pure a : Except ε α) = .ok b ↔ a = b :=
  ⟨fun h => Except.ok.inj h, fun h => congrArg _ h⟩

/-- A mapped result comes from a result. -/
theorem map_eq_ok {x : Except ε α} {f : α → β} {b : β} : x.map f = .ok b ↔ ∃ a, x = .ok a ∧ f a = b := by
  cases x <;> simp [Except.map]

@[simp] theorem throw_ne_ok {e : ε} {b : α} : (throw e : Except ε α) ≠ .ok b := nofun

/-- A check: `if (!c) throw e`. -/
def ensure (c : Prop) [Decidable c] (e : ε) : Except ε Unit := if c then .ok () else .error e

@[simp] theorem ensure_eq_ok {c : Prop} [Decidable c] {e : ε} {u : Unit} : ensure c e = .ok u ↔ c := by
  unfold ensure
  split_ifs with h <;> simp [h]

/-- What a loop returned has every property that its start has and its steps keep. -/
theorem foldlM_induct {γ : Type w} {f : β → γ → Except ε β} (P : β → Prop) {l : List γ} {a b : β}
    (h : l.foldlM f a = .ok b) (h₀ : P a)
    (hs : ∀ c ∈ l, ∀ a b, P a → f a c = .ok b → P b) : P b := by
  induction l generalizing a with
  | nil =>
    simp only [List.foldlM_nil, pure_eq_ok] at h
    exact h ▸ h₀
  | cons c l ih =>
    rw [List.foldlM_cons] at h
    obtain ⟨a', ha, h⟩ := bind_eq_ok.mp h
    exact ih h (hs c (by simp) a a' h₀ ha) fun d hd => hs d (by simp [hd])

theorem foldlM_append_ok {γ : Type w} {f : β → γ → Except ε β} {l l' : List γ} {a b : β} :
    (l ++ l').foldlM f a = .ok b ↔ ∃ c, l.foldlM f a = .ok c ∧ l'.foldlM f c = .ok b := by
  rw [List.foldlM_append, bind_eq_ok]

/-- Mapping a function that returns on every element returns. -/
theorem mapM_total {γ : Type w} {f : γ → Except ε α} {l : List γ} (h : ∀ c ∈ l, ∃ a, f c = .ok a) :
    ∃ as, l.mapM f = .ok as := by
  induction l with
  | nil => exact ⟨[], rfl⟩
  | cons c l ih =>
    obtain ⟨a, ha⟩ := h c (by simp)
    obtain ⟨as, has⟩ := ih fun d hd => h d (by simp [hd])
    refine ⟨a :: as, ?_⟩
    rw [List.mapM_cons, ha, has]
    rfl

/-- Mapping a function gives its values one for one. -/
theorem mapM_ok_forall₂ {γ : Type w} {f : γ → Except ε α} {l : List γ} {as : List α} (h : l.mapM f = .ok as) :
    List.Forall₂ (fun c a => f c = .ok a) l as := by
  induction l generalizing as with
  | nil =>
    obtain rfl := pure_eq_ok.mp h
    exact .nil
  | cons c l ih =>
    rw [List.mapM_cons] at h
    obtain ⟨a, ha, h⟩ := bind_eq_ok.mp h
    obtain ⟨rest, hrest, h⟩ := bind_eq_ok.mp h
    obtain rfl := pure_eq_ok.mp h
    exact .cons ha (ih hrest)

/-- A loop of checks goes through when each check does. -/
theorem forM_eq_ok {γ : Type w} {f : γ → Except ε PUnit} {l : List γ} {u : PUnit} :
    l.forM f = .ok u ↔ ∀ c ∈ l, f c = .ok ⟨⟩ := by
  induction l with
  | nil => exact ⟨fun _ c hc => (List.not_mem_nil hc).elim, fun _ => rfl⟩
  | cons c l ih =>
    have hcons : (c :: l).forM f = .ok u ↔ ∃ a, f c = .ok a ∧ l.forM f = .ok u := bind_eq_ok
    rw [hcons, List.forall_mem_cons, ih]
    constructor
    · rintro ⟨a, h⟩
      exact h
    · exact fun h => ⟨⟨⟩, h⟩

/-! ### Two computations at once -/

/-- A value that has to be there. -/
def orError (e : ε) : Option α → Except ε α
  | some a => .ok a
  | none => .error e

theorem not_none_of_some {o : Option α} {a : α} (h : o = some a) (hn : o = none) : False := by
  rw [h] at hn
  cases hn

@[simp] theorem orError_eq_ok {e : ε} {o : Option α} {a : α} : orError e o = .ok a ↔ o = some a := by
  cases o <;> simp [orError]

theorem ok_of_toOption {x : Except ε α} {a : α} (h : x.toOption = some a) : x = .ok a := by
  cases x with
  | error e => cases h
  | ok b => exact congrArg _ (Option.some.inj h)

/-- A computation that returns, returns what its value is. -/
theorem eq_ok_getD {x : Except ε α} (h : x.toOption.isSome = true) (default : α) :
    x = .ok (x.toOption.getD default) := by
  cases x with
  | error e => cases h
  | ok a => rfl

/-- Both return, with related values, or both throw the same. -/
inductive Agree {γ : Type w} (R : α → γ → Prop) : Except ε α → Except ε γ → Prop
  /-- Both return. -/
  | ok {a : α} {c : γ} (h : R a c) : Agree R (.ok a) (.ok c)
  /-- Both throw. -/
  | error (e : ε) : Agree R (.error e) (.error e)

namespace Agree

theorem refl {R : α → α → Prop} (x : Except ε α) (h : ∀ a, x = .ok a → R a a) : Agree R x x := by
  cases x with
  | error e => exact .error e
  | ok a => exact .ok (h a rfl)

theorem bind {R : α → α → Prop} {S : β → β → Prop} {x y : Except ε α} {f g : α → Except ε β} (h : Agree R x y)
    (hf : ∀ a b, x = .ok a → R a b → Agree S (f a) (g b)) : Agree S (x >>= f) (y >>= g) := by
  cases h with
  | ok h => exact hf _ _ rfl h
  | error e => exact .error e

/-- The first step may return values of another kind. -/
theorem bind_eq {S : β → β → Prop} {x : Except ε α} {f g : α → Except ε β} (hf : ∀ a, Agree S (f a) (g a)) :
    Agree S (x >>= f) (x >>= g) := by
  cases x with
  | ok a => exact hf a
  | error e => exact .error e

theorem foldlM {γ : Type w} {R : β → β → Prop} {f g : β → γ → Except ε β} {l : List γ} {a b : β} (h : R a b)
    (hf : ∀ c ∈ l, ∀ a b, R a b → Agree R (f a c) (g b c)) : Agree R (l.foldlM f a) (l.foldlM g b) := by
  induction l generalizing a b with
  | nil => exact .ok h
  | cons c l ih =>
    rw [List.foldlM_cons, List.foldlM_cons]
    exact (hf c (by simp) a b h).bind fun a' b' _ h' => ih h' fun d hd => hf d (by simp [hd])

end Agree

end IndexTandem.Library
