import Mathlib.Data.Nat.Notation
import Mathlib.Logic.Relation

/-!
# Programs that make calls

A service alternates between its own steps and calls to things that are not under its
control: a database, a node, the clock. `Interact` is such a program, call by call.
`Safe` says that an invariant of the surroundings holds after every call the program
makes, whatever the answers are, and a postcondition when it is done; since it speaks
about every call, it also says what is left when the program is killed in the middle.

`Action` adds a memory and exceptions that keep it, and `Action.wp` the rules to
compute with. `Action.Leaves` and `Action.Keeps` are about actions whose answers do not
matter: what they leave alone, and what they keep. `Turn` runs one action over and over,
with restarts in between (`Turn.invariant`), and `Session` changes its configuration at a
restart (`Session.invariant`).
-/

namespace IndexTandem.Library

universe u

variable {Call : Type} {Answer : Call → Type} {α β : Type u}

/-! ### Programs -/

/-- A program that makes calls and goes on with their answers. -/
inductive Interact (Call : Type) (Answer : Call → Type) (α : Type u) : Type u
  /-- It is done. -/
  | done (value : α)
  /-- It makes a call. -/
  | call (c : Call) (next : Answer c → Interact Call Answer α)

namespace Interact

/-- One program after the other. -/
def bind : Interact Call Answer α → (α → Interact Call Answer β) → Interact Call Answer β
  | done a, f => f a
  | call c next, f => call c fun answer => (next answer).bind f

variable {σ : Type} (step : (c : Call) → σ → Answer c → σ → Prop) (I : σ → Prop)

/-- The invariant holds after every call, and `post` in the end. -/
def Safe (post : α → σ → Prop) : Interact Call Answer α → σ → Prop
  | done a, s => post a s
  | call c next, s => ∀ answer s', step c s answer s' → I s' ∧ (next answer).Safe post s'

variable {step I}

theorem safe_bind {post : β → σ → Prop} {x : Interact Call Answer α} {f : α → Interact Call Answer β} {s : σ} :
    (x.bind f).Safe step I post s ↔ x.Safe step I (fun a s => (f a).Safe step I post s) s := by
  induction x generalizing s with
  | done a => rfl
  | call c next ih => exact forall₂_congr fun answer s' => imp_congr_right fun _ => and_congr_right' (ih answer)

theorem Safe.mono {post post' : α → σ → Prop} {x : Interact Call Answer α} {s : σ} (h : x.Safe step I post s)
    (hp : ∀ a s, post a s → post' a s) : x.Safe step I post' s := by
  induction x generalizing s with
  | done a => exact hp a s h
  | call c next ih =>
    intro answer s' hs
    obtain ⟨hi, hn⟩ := h answer s' hs
    exact ⟨hi, ih answer hn⟩

/-- What is left of a program after at most `turns` calls, answered by a function. -/
def drive (reply : (c : Call) → σ → Answer c × σ) : ℕ → Interact Call Answer α → σ → Interact Call Answer α × σ
  | 0, x, s => (x, s)
  | _ + 1, done a, s => (done a, s)
  | turns + 1, call c next, s => drive reply turns (next (reply c s).1) (reply c s).2

/-- What a program that is done returns. -/
def result? : Interact Call Answer α → Option α
  | done a => some a
  | call _ _ => none

theorem result?_eq_some {x : Interact Call Answer α} {a : α} : x.result? = some a ↔ x = done a := by
  cases x with
  | done b => simp [result?]
  | call c next => simp [result?]

/-- What a safe program leads to when its calls are answered by a function. -/
theorem Safe.drive {reply : (c : Call) → σ → Answer c × σ} (P : σ → Prop)
    (hreply : ∀ c s, P s → step c s (reply c s).1 (reply c s).2 ∧ P (reply c s).2) (turns : ℕ) {post : α → σ → Prop}
    {x : Interact Call Answer α} {s : σ} (hs : P s) (hi : I s) (h : x.Safe step I post s) :
    I (x.drive reply turns s).2 := by
  induction turns generalizing x s with
  | zero => exact hi
  | succ turns ih =>
    cases x with
    | done a => exact hi
    | call c next =>
      obtain ⟨hstep, hp⟩ := hreply c s hs
      obtain ⟨hi', h'⟩ := h _ _ hstep
      exact ih hp hi' h'

end Interact

/-! ### Memory and exceptions -/

variable {Value : Call → Type} {ε μ : Type}

/-- A program with a memory of its own that may throw; what it did to the memory before stays. -/
def Action (Call : Type) (Value : Call → Type) (ε μ α : Type) : Type :=
  μ → Interact Call (fun c => Except ε (Value c)) (Except ε α × μ)

namespace Action

variable {α β : Type}

/-- One action after the other; an exception skips the second. -/
def bind (x : Action Call Value ε μ α) (f : α → Action Call Value ε μ β) : Action Call Value ε μ β := fun m =>
  (x m).bind fun result =>
    match result.1 with
    | .ok a => f a result.2
    | .error e => .done (.error e, result.2)

/-- The handler goes on after an exception. -/
def handle (x : Action Call Value ε μ α) (handler : ε → Action Call Value ε μ α) : Action Call Value ε μ α := fun m =>
  (x m).bind fun result =>
    match result.1 with
    | .ok a => .done (.ok a, result.2)
    | .error e => handler e result.2

instance : Monad (Action Call Value ε μ) where
  pure a := fun m => .done (.ok a, m)
  bind := bind

instance : MonadExceptOf ε (Action Call Value ε μ) where
  throw e := fun m => .done (.error e, m)
  tryCatch := handle

instance : MonadStateOf μ (Action Call Value ε μ) where
  get := fun m => .done (.ok m, m)
  set m := fun _ => .done (.ok ⟨⟩, m)
  modifyGet f := fun m => .done (.ok (f m).1, (f m).2)

/-- Make a call. -/
def call (c : Call) : Action Call Value ε μ (Value c) := fun m => .call c fun answer => .done (answer, m)

/-- A computation that may throw. -/
def lift (x : Except ε α) : Action Call Value ε μ α := fun m => .done (x, m)

variable {σ : Type} {step : (c : Call) → σ → Except ε (Value c) → σ → Prop} {I : σ → Prop}
  {post post' : Except ε α → μ → σ → Prop} {m : μ} {s : σ}

variable (step I) in
/-- From the memory `m` and the surroundings `s` the action keeps the invariant and ends in `post`. -/
def wp (x : Action Call Value ε μ α) (post : Except ε α → μ → σ → Prop) (m : μ) (s : σ) : Prop :=
  (x m).Safe step I (fun result s' => post result.1 result.2 s') s

theorem wp_mono {x : Action Call Value ε μ α} (h : x.wp step I post m s) (hp : ∀ r m s, post r m s → post' r m s) :
    x.wp step I post' m s :=
  Interact.Safe.mono h fun result s => hp result.1 result.2 s

@[simp] theorem wp_pure {a : α} : (pure a : Action Call Value ε μ α).wp step I post m s ↔ post (.ok a) m s := Iff.rfl

@[simp] theorem wp_throw {e : ε} : (throw e : Action Call Value ε μ α).wp step I post m s ↔ post (.error e) m s :=
  Iff.rfl

@[simp] theorem wp_lift {x : Except ε α} : (lift x : Action Call Value ε μ α).wp step I post m s ↔ post x m s :=
  Iff.rfl

@[simp] theorem wp_get {post : Except ε μ → μ → σ → Prop} :
    (get : Action Call Value ε μ μ).wp step I post m s ↔ post (.ok m) m s := Iff.rfl

@[simp] theorem wp_set {post : Except ε PUnit → μ → σ → Prop} {m' : μ} :
    (set m' : Action Call Value ε μ PUnit).wp step I post m s ↔ post (.ok ⟨⟩) m' s := Iff.rfl

@[simp] theorem wp_modify {post : Except ε PUnit → μ → σ → Prop} {f : μ → μ} :
    (modify f : Action Call Value ε μ PUnit).wp step I post m s ↔ post (.ok ⟨⟩) (f m) s := Iff.rfl

@[simp] theorem wp_call {c : Call} {post : Except ε (Value c) → μ → σ → Prop} :
    (call c : Action Call Value ε μ (Value c)).wp step I post m s ↔
      ∀ answer s', step c s answer s' → I s' ∧ post answer m s' := Iff.rfl

@[simp] theorem wp_bind {x : Action Call Value ε μ α} {f : α → Action Call Value ε μ β}
    {post : Except ε β → μ → σ → Prop} : (x >>= f).wp step I post m s ↔
      x.wp step I (fun r m s => match r with
        | .ok a => (f a).wp step I post m s
        | .error e => post (.error e) m s) m s := by
  refine Interact.safe_bind.trans (Iff.of_eq ?_)
  congr 1
  funext result s
  obtain ⟨r, m'⟩ := result
  cases r <;> rfl

@[simp] theorem wp_tryCatch {x : Action Call Value ε μ α} {handler : ε → Action Call Value ε μ α} :
    (tryCatch x handler).wp step I post m s ↔
      x.wp step I (fun r m s => match r with
        | .ok a => post (.ok a) m s
        | .error e => (handler e).wp step I post m s) m s := by
  refine Interact.safe_bind.trans (Iff.of_eq ?_)
  congr 1
  funext result s
  obtain ⟨r, m'⟩ := result
  cases r <;> rfl

/-- A first action with a specification of its own. -/
theorem wp_seq {x : Action Call Value ε μ α} {f : α → Action Call Value ε μ β} {post : Except ε β → μ → σ → Prop}
    {mid : Except ε α → μ → σ → Prop} (h : x.wp step I mid m s)
    (hok : ∀ a m s, mid (.ok a) m s → (f a).wp step I post m s)
    (herror : ∀ e m s, mid (.error e) m s → post (.error e) m s) : (x >>= f).wp step I post m s := by
  refine wp_bind.mpr (wp_mono h fun r m s hr => ?_)
  cases r with
  | ok a => exact hok a m s hr
  | error e => exact herror e m s hr

/-! ### What an action leaves alone -/

/-- A way to say that the surroundings are the same as before, under which the invariant stays. -/
structure Frame (same : σ → σ → Prop) (I : σ → Prop) : Prop where
  /-- They are the same as they are. -/
  refl : ∀ s, same s s
  /-- Staying the same twice is staying the same. -/
  trans : ∀ {s s' s''}, same s s' → same s' s'' → same s s''
  /-- The invariant stays. -/
  keeps : ∀ {s s'}, same s s' → I s → I s'

section

variable {γ : Type} {same : σ → σ → Prop} {view : μ → γ}

variable (step I same view) in
/-- Whatever is answered, the surroundings stay the same and so does what `view` shows of the memory. -/
def Leaves (x : Action Call Value ε μ α) : Prop :=
  ∀ m s, I s → x.wp step I (fun _ m' s' => same s s' ∧ view m' = view m) m s

variable (frame : Frame same I)

include frame

theorem Leaves.pure (a : α) : Leaves step I same view (Pure.pure a : Action Call Value ε μ α) :=
  fun _ s _ => ⟨frame.refl s, rfl⟩

theorem Leaves.lift (x : Except ε α) : Leaves step I same view (Action.lift x : Action Call Value ε μ α) :=
  fun _ s _ => ⟨frame.refl s, rfl⟩

theorem Leaves.get : Leaves step I same view (MonadStateOf.get : Action Call Value ε μ μ) :=
  fun _ s _ => ⟨frame.refl s, rfl⟩

theorem Leaves.modify {f : μ → μ} (hf : ∀ m, view (f m) = view m) :
    Leaves step I same view (modify f : Action Call Value ε μ PUnit) := fun m s _ => ⟨frame.refl s, hf m⟩

theorem Leaves.call {c : Call} (h : ∀ s answer s', step c s answer s' → same s s') :
    Leaves step I same view (call c : Action Call Value ε μ (Value c)) := fun _ s hs answer s' ha =>
  ⟨frame.keeps (h s answer s' ha) hs, h s answer s' ha, rfl⟩

theorem Leaves.bind {x : Action Call Value ε μ α} {f : α → Action Call Value ε μ β} (hx : Leaves step I same view x)
    (hf : ∀ a, Leaves step I same view (f a)) : Leaves step I same view (x >>= f) := by
  intro m s hs
  refine wp_seq (hx m s hs) (fun a m' s' h => ?_) fun e m' s' h => h
  refine wp_mono (hf a m' s' (frame.keeps h.1 hs)) fun r m'' s'' h' => ?_
  exact ⟨frame.trans h.1 h'.1, h'.2.trans h.2⟩

theorem Leaves.handle {x : Action Call Value ε μ α} {handler : ε → Action Call Value ε μ α}
    (hx : Leaves step I same view x) (hh : ∀ e, Leaves step I same view (handler e)) :
    Leaves step I same view (tryCatch x handler) := by
  intro m s hs
  refine wp_tryCatch.mpr (wp_mono (hx m s hs) fun r m' s' h => ?_)
  cases r with
  | ok a => exact h
  | error e =>
    refine wp_mono (hh e m' s' (frame.keeps h.1 hs)) fun r m'' s'' h' => ?_
    exact ⟨frame.trans h.1 h'.1, h'.2.trans h.2⟩

end

/-! ### What an action keeps -/

section

variable {J : μ → σ → Prop}

variable (step J) in
/-- What holds of the memory and the surroundings before the action holds after it. -/
def Keeps (x : Action Call Value ε μ α) : Prop :=
  ∀ m s, J m s → x.wp step (fun _ => True) (fun _ m' s' => J m' s') m s

theorem Keeps.pure (a : α) : Keeps step J (Pure.pure a : Action Call Value ε μ α) := fun _ _ hj => hj

theorem Keeps.lift (x : Except ε α) : Keeps step J (Action.lift x : Action Call Value ε μ α) := fun _ _ hj => hj

theorem Keeps.get : Keeps step J (MonadStateOf.get : Action Call Value ε μ μ) := fun _ _ hj => hj

theorem Keeps.modify {f : μ → μ} (hf : ∀ m s, J m s → J (f m) s) :
    Keeps step J (modify f : Action Call Value ε μ PUnit) := hf

theorem Keeps.call {c : Call} (h : ∀ m s answer s', step c s answer s' → J m s → J m s') :
    Keeps step J (call c : Action Call Value ε μ (Value c)) :=
  fun m s hj answer s' ha => ⟨trivial, h m s answer s' ha hj⟩

theorem Keeps.bind {x : Action Call Value ε μ α} {f : α → Action Call Value ε μ β} (hx : Keeps step J x)
    (hf : ∀ a, Keeps step J (f a)) : Keeps step J (x >>= f) :=
  fun m s hj => wp_seq (hx m s hj) (fun a m' s' h => hf a m' s' h) fun _ _ _ h => h

theorem Keeps.handle {x : Action Call Value ε μ α} {handler : ε → Action Call Value ε μ α} (hx : Keeps step J x)
    (hh : ∀ e, Keeps step J (handler e)) : Keeps step J (tryCatch x handler) := by
  intro m s hj
  refine wp_tryCatch.mpr (wp_mono (hx m s hj) fun r m' s' h => ?_)
  cases r with
  | ok a => exact h
  | error e => exact hh e m' s' h

/-- What depends only on what an action leaves alone is kept. -/
theorem Leaves.keeps {γ : Type} {same : σ → σ → Prop} {view : μ → γ} {x : Action Call Value ε μ α}
    (h : Leaves step (fun _ => True) same view x)
    (hj : ∀ {m m' s s'}, same s s' → view m' = view m → J m s → J m' s') : Keeps step J x :=
  fun m s hs => wp_mono (h m s trivial) fun _ _ _ h' => hj h'.1 h'.2 hs

end

end Action

/-! ### One action over and over -/

/-- Between two turns, or within one. -/
inductive Activity (Call : Type) (Value : Call → Type) (ε μ : Type)
  /-- Between two turns, with the memory the last one left. -/
  | idle (memory : μ)
  /-- Within a turn, with what is left of it to do. -/
  | busy (rest : Interact Call (fun c => Except ε (Value c)) (Except ε Unit × μ))

section

variable {σ : Type} (step : (c : Call) → σ → Except ε (Value c) → σ → Prop) (environment : σ → σ → Prop)
  (job : Action Call Value ε μ Unit) (fresh : μ)

/-- A process that does its job over and over may be restarted at any time. -/
inductive Turn : Activity Call Value ε μ × σ → Activity Call Value ε μ × σ → Prop
  /-- A turn starts. -/
  | starts (memory : μ) (s : σ) : Turn (.idle memory, s) (.busy (job memory), s)
  /-- A call is answered. -/
  | answers {c : Call} {next : Except ε (Value c) → Interact Call (fun c => Except ε (Value c)) (Except ε Unit × μ)}
      {answer : Except ε (Value c)} {s s' : σ} (answered : step c s answer s') :
      Turn (.busy (.call c next), s) (.busy (next answer), s')
  /-- The turn ends, with or without an exception. -/
  | ends (result : Except ε Unit) (memory : μ) (s : σ) : Turn (.busy (.done (result, memory)), s) (.idle memory, s)
  /-- The process is restarted; what its memory held is lost. -/
  | restarts (activity : Activity Call Value ε μ) (s : σ) : Turn (activity, s) (.idle fresh, s)
  /-- The surroundings change between two turns. -/
  | moves (memory : μ) {s s' : σ} (moved : environment s s') : Turn (.idle memory, s) (.idle memory, s')

/-- The states of a process that is started in `s`. -/
abbrev Turns (s : σ) : Activity Call Value ε μ × σ → Prop :=
  Relation.ReflTransGen (Turn step environment job fresh) (.idle fresh, s)

variable {step environment job fresh}

/-- A turn whose calls are answered by a function. -/
theorem Turn.drive {reply : (c : Call) → σ → Except ε (Value c) × σ} (P : σ → Prop)
    (hreply : ∀ c s, P s → step c s (reply c s).1 (reply c s).2 ∧ P (reply c s).2) (turns : ℕ)
    (x : Interact Call (fun c => Except ε (Value c)) (Except ε Unit × μ)) {s : σ} (hs : P s) :
    Relation.ReflTransGen (Turn step environment job fresh) (.busy x, s)
      (.busy (x.drive reply turns s).1, (x.drive reply turns s).2) := by
  induction turns generalizing x s with
  | zero => exact .refl
  | succ turns ih =>
    cases x with
    | done a => exact .refl
    | call c next =>
      obtain ⟨hstep, hp⟩ := hreply c s hs
      exact .head (.answers hstep) (ih _ hp)

/-- The invariant of the surroundings holds; the memory agrees with them between two turns, and will after one. -/
def Activity.Agrees (step : (c : Call) → σ → Except ε (Value c) → σ → Prop) (I : σ → Prop) (J : μ → σ → Prop) :
    Activity Call Value ε μ × σ → Prop
  | (.idle m, s) => I s ∧ J m s
  | (.busy rest, s) => I s ∧ rest.Safe step I (fun result s' => J result.2 s') s

theorem Activity.Agrees.inv {I : σ → Prop} {J : μ → σ → Prop} {activity : Activity Call Value ε μ} {s : σ}
    (h : Activity.Agrees step I J (activity, s)) : I s := by
  cases activity with
  | idle m => exact h.1
  | busy rest => exact h.1

/-- One move of the process keeps both. -/
theorem Turn.keeps {I : σ → Prop} {J : μ → σ → Prop}
    (hjob : ∀ m s, I s → J m s → job.wp step I (fun _ m' s' => J m' s') m s) (hfresh : ∀ s, I s → J fresh s)
    (hmoves : ∀ m s s', environment s s' → I s → J m s → I s' ∧ J m s') {p q : Activity Call Value ε μ × σ}
    (ht : Turn step environment job fresh p q) (h : Activity.Agrees step I J p) : Activity.Agrees step I J q := by
  cases ht with
  | starts memory s => exact ⟨h.1, hjob memory s h.1 h.2⟩
  | answers answered => exact h.2 _ _ answered
  | ends result memory s => exact ⟨h.1, h.2⟩
  | restarts activity s => exact ⟨h.inv, hfresh s h.inv⟩
  | moves memory moved => exact hmoves memory _ _ moved h.1 h.2

/-- **The invariant rule.** When the job keeps the invariant of the surroundings and ends in a memory that
agrees with them, the invariant holds at all times and the memory agrees between any two turns. -/
theorem Turn.invariant {I : σ → Prop} {J : μ → σ → Prop}
    (hjob : ∀ m s, I s → J m s → job.wp step I (fun _ m' s' => J m' s') m s) (hfresh : ∀ s, I s → J fresh s)
    (hmoves : ∀ m s s', environment s s' → I s → J m s → I s' ∧ J m s') {s : σ} (hs : I s)
    {p : Activity Call Value ε μ × σ} (h : Turns step environment job fresh s p) : Activity.Agrees step I J p := by
  induction h with
  | refl => exact ⟨hs, hfresh s hs⟩
  | tail _ ht ih => exact ht.keeps hjob hfresh hmoves ih

end

/-! ### Configured anew -/

section

variable {κ σ : Type} (step : κ → (c : Call) → σ → Except ε (Value c) → σ → Prop) (environment : σ → σ → Prop)
  (job : κ → Action Call Value ε μ Unit) (fresh : κ → μ) (admits : κ → κ → σ → Prop)

/-- A process whose job depends on its configuration, which a restart may change. -/
inductive Session : κ × Activity Call Value ε μ × σ → κ × Activity Call Value ε μ × σ → Prop
  /-- The process goes on. -/
  | goes {k : κ} {p q : Activity Call Value ε μ × σ} (turn : Turn (step k) environment (job k) (fresh k) p q) :
      Session (k, p) (k, q)
  /-- It is restarted with another configuration. -/
  | configured {k k' : κ} {activity : Activity Call Value ε μ} {s : σ} (admitted : admits k k' s) :
      Session (k, activity, s) (k', .idle (fresh k'), s)

/-- The states of a process that is first started with `k`, in `s`. -/
abbrev Sessions (k : κ) (s : σ) : κ × Activity Call Value ε μ × σ → Prop :=
  Relation.ReflTransGen (Session step environment job fresh admits) (k, .idle (fresh k), s)

variable {step environment job fresh admits}

/-- A stretch without a change of configuration. -/
theorem Session.stretch {k : κ} {p q : Activity Call Value ε μ × σ}
    (h : Relation.ReflTransGen (Turn (step k) environment (job k) (fresh k)) p q) :
    Relation.ReflTransGen (Session step environment job fresh admits) (k, p) (k, q) := by
  induction h with
  | refl => exact .refl
  | tail _ turn ih => exact ih.tail (.goes turn)

/-- **The invariant rule** for a process that may be configured anew. -/
theorem Session.invariant {I : κ → σ → Prop} {J : κ → μ → σ → Prop}
    (hjob : ∀ k m s, I k s → J k m s → (job k).wp (step k) (I k) (fun _ m' s' => J k m' s') m s)
    (hfresh : ∀ k s, I k s → J k (fresh k) s)
    (hmoves : ∀ k m s s', environment s s' → I k s → J k m s → I k s' ∧ J k m s')
    (hadmits : ∀ k k' s, admits k k' s → I k s → I k' s) {k : κ} {s : σ} (hs : I k s)
    {p : κ × Activity Call Value ε μ × σ} (h : Sessions step environment job fresh admits k s p) :
    Activity.Agrees (step p.1) (I p.1) (J p.1) p.2 := by
  induction h with
  | refl => exact ⟨hs, hfresh k s hs⟩
  | tail _ ht ih =>
    cases ht with
    | goes turn => exact turn.keeps (hjob _) (hfresh _) (hmoves _) ih
    | configured admitted =>
      have hi := hadmits _ _ _ admitted ih.inv
      exact ⟨hi, hfresh _ _ hi⟩

end

end IndexTandem.Library
