import IndexTandem.Library.Interact

/-!
# Cleaning up and finishing

`Action.ensuring` runs a second action after the first one, whether or not it threw; an
exception of the second replaces the outcome of the first. `Interact.Within n` says that a
program is done after at most `n` calls, whatever the answers are.
-/

namespace IndexTandem.Library

universe u

variable {Call : Type} {Answer : Call → Type} {α β : Type u}

/-! ### At most so many calls -/

/-- The program makes at most `n` calls. -/
def Interact.Within : ℕ → Interact Call Answer α → Prop
  | _, .done _ => True
  | 0, .call _ _ => False
  | n + 1, .call _ next => ∀ answer, (next answer).Within n

theorem Interact.Within.mono {n k : ℕ} (h : n ≤ k) {x : Interact Call Answer α} (hx : x.Within n) : x.Within k := by
  induction n generalizing k x with
  | zero =>
    cases x with
    | done a => cases k <;> trivial
    | call c next => exact hx.elim
  | succ n ih =>
    obtain ⟨k, rfl⟩ : ∃ j, k = j + 1 := ⟨k - 1, by omega⟩
    cases x with
    | done a => trivial
    | call c next => exact fun answer => ih (by omega) (hx answer)

/-- One program after the other. -/
theorem Interact.Within.bind {n k : ℕ} {x : Interact Call Answer α} {f : α → Interact Call Answer β}
    (hx : x.Within n) (hf : ∀ a, (f a).Within k) : (x.bind f).Within (n + k) := by
  induction n generalizing x with
  | zero =>
    cases x with
    | done a => exact (hf a).mono (by omega)
    | call c next => exact hx.elim
  | succ n ih =>
    cases x with
    | done a => exact (hf a).mono (by omega)
    | call c next =>
      rw [Nat.succ_add]
      exact fun answer => ih (hx answer)

namespace Action

variable {Value : Call → Type} {ε μ : Type} {α β : Type}

/-- Whatever the memory is, the action makes at most `n` calls. -/
def Within (n : ℕ) (x : Action Call Value ε μ α) : Prop := ∀ m, (x m).Within n

theorem within_pure (a : α) : Within 0 (pure a : Action Call Value ε μ α) := fun _ => trivial

theorem within_throw (e : ε) : Within 0 (throw e : Action Call Value ε μ α) := fun _ => trivial

theorem within_lift (x : Except ε α) : Within 0 (lift x : Action Call Value ε μ α) := fun _ => trivial

theorem within_get : Within 0 (get : Action Call Value ε μ μ) := fun _ => trivial

theorem within_set (m : μ) : Within 0 (set m : Action Call Value ε μ PUnit) := fun _ => trivial

theorem within_call (c : Call) : Within 1 (call c : Action Call Value ε μ (Value c)) := fun _ _ => trivial

theorem Within.bind {n k : ℕ} {x : Action Call Value ε μ α} {f : α → Action Call Value ε μ β} (hx : Within n x)
    (hf : ∀ a, Within k (f a)) : Within (n + k) (x >>= f) := by
  refine fun m => Interact.Within.bind (hx m) fun result => ?_
  obtain ⟨r, m'⟩ := result
  cases r with
  | ok a => exact hf a m'
  | error e => cases k <;> trivial

theorem Within.handle {n k : ℕ} {x : Action Call Value ε μ α} {handler : ε → Action Call Value ε μ α}
    (hx : Within n x) (hh : ∀ e, Within k (handler e)) : Within (n + k) (tryCatch x handler) := by
  refine fun m => Interact.Within.bind (hx m) fun result => ?_
  obtain ⟨r, m'⟩ := result
  cases r with
  | ok a => cases k <;> trivial
  | error e => exact hh e m'

/-! ### Cleaning up -/

/-- The outcome of an action after its cleaning up. -/
def cleaned (outcome : Except ε α) : Except ε β → Except ε α
  | .ok _ => outcome
  | .error e => .error e

/-- `try { x } finally { cleanup }`. -/
def ensuring (x : Action Call Value ε μ α) (cleanup : Action Call Value ε μ β) : Action Call Value ε μ α := fun m =>
  (x m).bind fun result => (cleanup result.2).bind fun after => .done (cleaned result.1 after.1, after.2)

theorem Within.ensuring {n k : ℕ} {x : Action Call Value ε μ α} {cleanup : Action Call Value ε μ β} (hx : Within n x)
    (hc : Within k cleanup) : Within (n + k) (ensuring x cleanup) := by
  refine fun m => Interact.Within.bind (hx m) fun result => ?_
  exact Interact.Within.bind (hc result.2) (k := 0) fun _ => trivial

variable {σ : Type} {step : (c : Call) → σ → Except ε (Value c) → σ → Prop} {I : σ → Prop}
  {post : Except ε α → μ → σ → Prop} {m : μ} {s : σ}

@[simp] theorem wp_ensuring {x : Action Call Value ε μ α} {cleanup : Action Call Value ε μ β} :
    (ensuring x cleanup).wp step I post m s ↔
      x.wp step I (fun r m s => cleanup.wp step I (fun r' m s => post (cleaned r r') m s) m s) m s := by
  refine Interact.safe_bind.trans (Iff.of_eq ?_)
  congr 1
  funext result s
  exact propext Interact.safe_bind

end Action

end IndexTandem.Library
