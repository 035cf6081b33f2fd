import IndexTandem.Library.Except
import IndexTandem.Library.JsMap

/-!
# Machines that work key by key

A machine over a map whose every step reads and replaces the value of one key. `step` is
what a step does to that value; `stepAt` does it in the map, and may throw. A run over the
map is one run for each key, on the steps of that key only: it goes through exactly when
each of them does (`runAt_total_iff`), and they say what is in the map (`get?_runAt`). So
steps of different keys may be exchanged freely (`runAt_interleaving`).
-/

namespace IndexTandem.Library

universe u

variable {K S T : Type} {ε : Type u} [DecidableEq K] (key : T → K) (step : Option S → T → Except ε S)

/-- One step in the map. -/
def stepAt (m : JsMap K S) (t : T) : Except ε (JsMap K S) := do
  let s ← step (m.get? (key t)) t
  pure (m.set (key t) s)

/-- A run in the map. -/
def runAt (m : JsMap K S) (l : List T) : Except ε (JsMap K S) := l.foldlM (stepAt key step) m

/-- One step of one value. -/
def stepOne (s : Option S) (t : T) : Except ε (Option S) := do
  let s' ← step s t
  pure (some s')

/-- A run of one value. -/
def runOne (s : Option S) (l : List T) : Except ε (Option S) := l.foldlM (stepOne step) s

/-- The steps of one key. -/
def ofKey (k : K) (l : List T) : List T := l.filter fun t => key t = k

variable {key step}

theorem stepAt_eq_ok {m m' : JsMap K S} {t : T} :
    stepAt key step m t = .ok m' ↔ ∃ s, step (m.get? (key t)) t = .ok s ∧ m' = m.set (key t) s := by
  unfold stepAt
  rw [bind_eq_ok]
  exact exists_congr fun s => and_congr_right' (pure_eq_ok.trans eq_comm)

theorem stepOne_eq_ok {s s' : Option S} {t : T} :
    stepOne step s t = .ok s' ↔ ∃ v, step s t = .ok v ∧ s' = some v := by
  unfold stepOne
  rw [bind_eq_ok]
  exact exists_congr fun v => and_congr_right' (pure_eq_ok.trans eq_comm)

theorem ofKey_cons_self {t : T} {l : List T} : ofKey key (key t) (t :: l) = t :: ofKey key (key t) l := by
  simp [ofKey]

theorem ofKey_cons_ne {k : K} {t : T} {l : List T} (h : key t ≠ k) : ofKey key k (t :: l) = ofKey key k l := by
  simp [ofKey, h]

/-- Only a run of no steps leaves no value. -/
theorem runOne_none {l : List T} {s : Option S} (h : runOne step s l = .ok none) : l = [] := by
  induction l generalizing s with
  | nil => rfl
  | cons t l ih =>
    obtain ⟨s₁, h₁, h⟩ := bind_eq_ok.mp h
    obtain ⟨v, -, rfl⟩ := stepOne_eq_ok.mp h₁
    obtain rfl := ih h
    cases pure_eq_ok.mp h

/-- **A run in the map is a run of each of its values.** -/
theorem get?_runAt {m m' : JsMap K S} {l : List T} (h : runAt key step m l = .ok m') (k : K) :
    runOne step (m.get? k) (ofKey key k l) = .ok (m'.get? k) := by
  induction l generalizing m with
  | nil =>
    obtain rfl := pure_eq_ok.mp h
    rfl
  | cons t l ih =>
    obtain ⟨m₁, h₁, h⟩ := bind_eq_ok.mp h
    obtain ⟨s, hs, rfl⟩ := stepAt_eq_ok.mp h₁
    have hrest := ih h
    rw [JsMap.get?_set] at hrest
    by_cases hk : key t = k
    · subst hk
      rw [ofKey_cons_self]
      rw [if_pos rfl] at hrest
      exact bind_eq_ok.mpr ⟨some s, stepOne_eq_ok.mpr ⟨s, hs, rfl⟩, hrest⟩
    · rw [ofKey_cons_ne hk]
      rwa [if_neg fun e => hk e.symm] at hrest

/-- When the run of each value goes through, so does the run in the map. -/
theorem runAt_total {m : JsMap K S} {l : List T} (h : ∀ k, ∃ s, runOne step (m.get? k) (ofKey key k l) = .ok s) :
    ∃ m', runAt key step m l = .ok m' := by
  induction l generalizing m with
  | nil => exact ⟨m, rfl⟩
  | cons t l ih =>
    obtain ⟨last, hlast⟩ := h (key t)
    rw [ofKey_cons_self] at hlast
    obtain ⟨first, hfirst, hrest⟩ := bind_eq_ok.mp hlast
    obtain ⟨s, hs, rfl⟩ := stepOne_eq_ok.mp hfirst
    have hnext : ∀ k, ∃ s', runOne step ((m.set (key t) s).get? k) (ofKey key k l) = .ok s' := by
      intro k
      rw [JsMap.get?_set]
      split_ifs with hk
      · subst hk
        exact ⟨last, hrest⟩
      · obtain ⟨s', hs'⟩ := h k
        exact ⟨s', ofKey_cons_ne (fun e => hk e.symm) ▸ hs'⟩
    obtain ⟨m', hm'⟩ := ih hnext
    exact ⟨m', bind_eq_ok.mpr ⟨_, stepAt_eq_ok.mpr ⟨s, hs, rfl⟩, hm'⟩⟩

/-- **Steps of different keys may be exchanged.** A run that goes through also goes through in any other
order that keeps the steps of each key in order, and leaves the same map. -/
theorem runAt_interleaving {m m' : JsMap K S} {l l' : List T} (h : runAt key step m l = .ok m')
    (same : ∀ k, ofKey key k l' = ofKey key k l) : ∃ n', runAt key step m l' = .ok n' ∧ JsMap.Same m' n' := by
  obtain ⟨n', hn'⟩ := runAt_total fun k => ⟨_, same k ▸ get?_runAt h k⟩
  refine ⟨n', hn', fun k => ?_⟩
  have h₁ := get?_runAt h k
  have h₂ := get?_runAt hn' k
  rw [same k, h₁] at h₂
  exact Except.ok.inj h₂

/-- **The rule for runs of one value**, from its first step on: what holds after the first step, with its
history, and is kept by every further step, holds at the end. -/
theorem runOne_induct (P : List T → S → Prop) (first : ∀ t s, step none t = .ok s → P [t] s)
    (next : ∀ l r t s, P l r → step (some r) t = .ok s → P (l ++ [t]) s) {l : List T} {s : S}
    (h : runOne step none l = .ok (some s)) : P l s := by
  have hgen : ∀ (l l₀ : List T) (s₀ : Option S), (∀ r, s₀ = some r → P l₀ r) → (s₀ = none → l₀ = []) →
      ∀ s, runOne step s₀ l = .ok (some s) → P (l₀ ++ l) s := by
    intro l
    induction l with
    | nil =>
      intro l₀ s₀ hP _ s h
      obtain rfl := pure_eq_ok.mp h
      rw [List.append_nil]
      exact hP s rfl
    | cons t l ih =>
      intro l₀ s₀ hP hn s h
      obtain ⟨s₁, h₁, h⟩ := bind_eq_ok.mp h
      obtain ⟨v, hv, rfl⟩ := stepOne_eq_ok.mp h₁
      have hlast : P (l₀ ++ [t]) v := by
        cases s₀ with
        | none =>
          rw [hn rfl]
          exact first t v hv
        | some r => exact next l₀ r t v (hP r rfl) hv
      have hrest := ih (l₀ ++ [t]) (some v) (fun r hr => Option.some.inj hr ▸ hlast) (fun e => by cases e) s h
      rwa [List.append_assoc] at hrest
  exact hgen l [] none (fun r hr => by cases hr) (fun _ => rfl) s h

end IndexTandem.Library
