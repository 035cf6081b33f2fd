import IndexTandem.Agreement.Envelope
import IndexTandem.Library.Cleanup
import Mathlib.Algebra.Order.Group.Int

/-!
# Admission to the catalog

At most two requests of the catalog are worked on at a time. A request that is admitted takes
a slot and starts its work: the agreement is resolved, a page is read in a transaction of its
own, the block is compared with the node, and the agreement is resolved again. The client is
answered by the work or by a timer, whichever is first; the slot is given back when the work
settles.

`Pool` is the service with the work of its requests, whose calls settle in any order, and
`pool_sound` what holds at every moment. What the comparisons of the data say is part of the
answer of a call, since any of them may fail. A `ROLLBACK` that fails leaves its transaction
as it was, and the connection is released all the same (`rollback_fails`).

Times are in microseconds.
-/

namespace IndexTandem.Api

open Library Agreement

/-! ### Before a request is admitted -/

/-- An argument of a request. -/
inductive Argument where
  /-- `undefined`. -/
  | missing
  /-- A text. -/
  | text (value : String)
  /-- Another value. -/
  | other
  deriving DecidableEq

/-- The configuration of the catalog. -/
structure CatalogConfiguration where
  /-- The bearer token. -/
  token : String
  /-- The secret of cursors. -/
  cursorSecret : String

/-- `/^[1-9][0-9]{0,2}$/` and at most 200. -/
def isLimit (text : String) : Bool :=
  isCounter text && text ≠ "0" && text.toList.length ≤ 3 && decimal text ≤ 200

/-- The page size that is asked for. -/
def limitOf : Argument → Option ℕ
  | .missing => some 50
  | .text text => if isLimit text = true then some (decimal text) else none
  | .other => none

/-- The checks of `page(authorization, rawLimit, rawCursor)` before a slot is taken, with those of the cursor. -/
def admission {Cursor : Type} (catalog : Option CatalogConfiguration)
    (cursor : Argument → String → ℕ → Except String Cursor) (inFlight : ℤ)
    (authorization rawLimit rawCursor : Argument) : Except String (ℕ × Cursor) := do
  let catalog ← orError "catalog is not configured" catalog
  ensure (authorization = .text ("Bearer " ++ catalog.token)) "catalog authorization required"
  let limit ← orError "limit must be between 1 and 200" (limitOf rawLimit)
  let cursor ← cursor rawCursor catalog.cursorSecret limit
  ensure (inFlight < 2) "catalog is busy"
  pure (limit, cursor)

/-! ### The work of a request -/

/-- The queries of a page. -/
inductive Sql where
  /-- The tip. -/
  | tips
  /-- The number of the last reorganization. -/
  | epochs
  /-- The counters. -/
  | counts
  /-- The rows. -/
  | rows
  deriving DecidableEq

/-- What the work calls. -/
inductive CatalogCall where
  /-- `this.resolve()` of the gateway. -/
  | resolve
  /-- `this.source.createQueryRunner()`. -/
  | createQueryRunner
  /-- `runner.connect()`. -/
  | connect
  /-- `runner.startTransaction("REPEATABLE READ")`. -/
  | startTransaction
  /-- `runner.query(sql)`. -/
  | query (sql : Sql)
  /-- `runner.commitTransaction()`. -/
  | commitTransaction
  /-- `runner.isTransactionActive`. -/
  | isTransactionActive
  /-- `runner.rollbackTransaction()`. -/
  | rollbackTransaction
  /-- `runner.release()`. -/
  | release
  /-- `this.rpc.getBlockHash(height)`. -/
  | getBlockHash
  deriving DecidableEq

/-- How a call settles. -/
structure Reply where
  /-- `performance.now()` in the callback. -/
  now : ℕ
  /-- The comparisons of what was returned hold. -/
  agrees : Bool
  /-- What a flag says. -/
  flag : Bool

/-- The work, with the time of its callback. -/
abbrev Work (α : Type) := Action CatalogCall (fun _ => Reply) String ℕ α

/-- `await` of a call; the time is that of the callback. -/
def await (c : CatalogCall) : Work Reply := do
  let reply ← Action.call c
  set reply.now
  pure reply

/-- `checkDeadline()`. -/
def checkDeadline (deadline : ℕ) : Work Unit := do
  let now ← get
  Action.lift (ensure (now < deadline) "catalog deadline exceeded")

/-- A comparison of what was returned. -/
def compare (reply : Reply) (message : String) : Work Unit := Action.lift (ensure (reply.agrees = true) message)

/-- What is read within the transaction. -/
def readPage (deadline : ℕ) : Work Unit := do
  let _ ← await .connect
  checkDeadline deadline
  let _ ← await .startTransaction
  checkDeadline deadline
  let _ ← await (.query .tips)
  checkDeadline deadline
  let _ ← await (.query .epochs)
  checkDeadline deadline
  let counts ← await (.query .counts)
  checkDeadline deadline
  compare counts "catalog SQL state differs from signed agreement"
  let rows ← await (.query .rows)
  checkDeadline deadline
  compare rows "catalog page is inconsistent"
  let _ ← await .commitTransaction

/-- The `catch` of `readSnapshot`. -/
def rollBack (error : String) : Work Unit := do
  let active ← await .isTransactionActive
  if active.flag = true then
    let _ ← await .rollbackTransaction
  throw error

/-- `readSnapshot(verification, limit, cursor, checkDeadline)`. -/
def readSnapshot (deadline : ℕ) : Work Unit := do
  let _ ← await .createQueryRunner
  Action.ensuring (tryCatch (readPage deadline) rollBack) (await .release)

/-- The callback of `executeBound`. -/
def readCatalog (deadline : ℕ) : Work Unit := do
  checkDeadline deadline
  readSnapshot deadline
  checkDeadline deadline
  let hash ← await .getBlockHash
  compare hash "catalog checkpoint is not canonical"
  checkDeadline deadline

/-- `this.gateway.executeBound(…)`. -/
def catalogWork (deadline : ℕ) : Work Unit := do
  let _ ← tryCatch (await .resolve) fun _ => throw "verification_unavailable"
  readCatalog deadline
  let after ← tryCatch (await .resolve) fun _ => throw "verification_unavailable"
  compare after "verification_unavailable"

/-! ### The connection of a request -/

/-- What is known of the connection of a request. -/
structure Connection where
  /-- The time of the last callback. -/
  now : ℕ
  /-- There is a query runner. -/
  created : Bool
  /-- When `startTransaction` was called. -/
  startedAt : Option ℕ
  /-- `isTransactionActive`. -/
  active : Bool
  /-- A transaction is open in the database. -/
  opened : Bool
  /-- A `ROLLBACK` failed. -/
  rollbackFailed : Bool
  /-- The runner was released. -/
  released : Bool
  deriving DecidableEq

/-- No connection yet. -/
def Connection.fresh (now : ℕ) : Connection := ⟨now, false, none, false, false, false, false⟩

/-- A call changes what it is about, by the driver: an open transaction is always active, and a `COMMIT` or
`ROLLBACK` that succeeds ends it. -/
inductive Settles : CatalogCall → Connection → Except String Reply → Connection → Prop
  /-- An agreement is resolved, or not. -/
  | resolved {s : Connection} {answer : Except String Reply} {now : ℕ}
      (time : ∀ reply, answer = .ok reply → reply.now = now) : Settles .resolve s answer { s with now := now }
  /-- The runner is connected, or not. -/
  | connected {s : Connection} {answer : Except String Reply} {now : ℕ}
      (time : ∀ reply, answer = .ok reply → reply.now = now) : Settles .connect s answer { s with now := now }
  /-- The node answers, or not. -/
  | hashRead {s : Connection} {answer : Except String Reply} {now : ℕ}
      (time : ∀ reply, answer = .ok reply → reply.now = now) : Settles .getBlockHash s answer { s with now := now }
  /-- A query runner is created. -/
  | created {s : Connection} {reply : Reply} :
      Settles .createQueryRunner s (.ok reply) { s with now := reply.now, created := true }
  /-- Or not. -/
  | notCreated {s : Connection} {error : String} {now : ℕ} :
      Settles .createQueryRunner s (.error error) { s with now := now }
  /-- A transaction is started, or not. -/
  | started {s : Connection} {answer : Except String Reply} {now : ℕ} {active opened : Bool}
      (time : ∀ reply, answer = .ok reply → reply.now = now) (flagged : opened = true → active = true) :
      Settles .startTransaction s answer { s with now := now, startedAt := some s.now, active := active, opened := opened }
  /-- A query does not start a transaction; when it fails, the transaction may be gone. -/
  | queried {sql : Sql} {s : Connection} {answer : Except String Reply} {now : ℕ} {opened : Bool}
      (time : ∀ reply, answer = .ok reply → reply.now = now) (still : opened = true → s.opened = true) :
      Settles (.query sql) s answer { s with now := now, opened := opened }
  /-- A transaction is committed. -/
  | committed {s : Connection} {reply : Reply} :
      Settles .commitTransaction s (.ok reply) { s with now := reply.now, active := false, opened := false }
  /-- Or not. -/
  | notCommitted {s : Connection} {error : String} {now : ℕ} {active opened : Bool}
      (flagged : opened = true → active = true) :
      Settles .commitTransaction s (.error error) { s with now := now, active := active, opened := opened }
  /-- The flag is read. -/
  | flagRead {s : Connection} {reply : Reply} (now : reply.now = s.now) (flag : reply.flag = s.active) :
      Settles .isTransactionActive s (.ok reply) s
  /-- A transaction is rolled back. -/
  | rolledBack {s : Connection} {reply : Reply} :
      Settles .rollbackTransaction s (.ok reply) { s with now := reply.now, active := false, opened := false }
  /-- Or not. -/
  | notRolledBack {s : Connection} {error : String} {now : ℕ} {active opened : Bool} :
      Settles .rollbackTransaction s (.error error)
        { s with now := now, active := active, opened := opened, rollbackFailed := true }
  /-- The runner is released, whatever comes of it. -/
  | released {s : Connection} {answer : Except String Reply} {now : ℕ}
      (time : ∀ reply, answer = .ok reply → reply.now = now) :
      Settles .release s answer { s with now := now, released := true }

/-! ### What the work of a request keeps -/

/-- The transaction was started before the deadline. -/
def Connection.Started (deadline : ℕ) (s : Connection) : Prop := ∀ t, s.startedAt = some t → t < deadline

/-- What holds while the page is read. -/
structure Connection.Held (deadline : ℕ) (s : Connection) : Prop where
  /-- The transaction was started before the deadline. -/
  started : s.Started deadline
  /-- An open transaction is active. -/
  flagged : s.opened = true → s.active = true

/-- What holds when the work has settled. -/
structure Connection.Closed (s : Connection) : Prop where
  /-- A runner was released. -/
  released : s.created = true → s.released = true
  /-- No transaction is open, unless a `ROLLBACK` failed. -/
  ended : s.opened = true → s.rollbackFailed = true

variable {deadline : ℕ} {m : ℕ} {s : Connection}

theorem Settles.now_eq {c : CatalogCall} {reply : Reply} {s' : Connection} (h : Settles c s (.ok reply) s') :
    reply.now = s'.now := by
  cases h with
  | resolved time => exact time _ rfl
  | connected time => exact time _ rfl
  | hashRead time => exact time _ rfl
  | created => rfl
  | started time flagged => exact time _ rfl
  | queried time still => exact time _ rfl
  | committed => rfl
  | flagRead now flag => exact now
  | rolledBack => rfl
  | released time => exact time _ rfl

/-- A call that neither starts nor rolls back keeps what holds. -/
theorem Settles.held {c : CatalogCall} {answer : Except String Reply} {s' : Connection} (h : Settles c s answer s')
    (hs : s.Held deadline) (hstart : c = .startTransaction → s.now < deadline) (hroll : c ≠ .rollbackTransaction) :
    s'.Held deadline := by
  cases h with
  | resolved time => exact ⟨hs.started, hs.flagged⟩
  | connected time => exact ⟨hs.started, hs.flagged⟩
  | hashRead time => exact ⟨hs.started, hs.flagged⟩
  | created => exact ⟨hs.started, hs.flagged⟩
  | notCreated => exact ⟨hs.started, hs.flagged⟩
  | started time flagged =>
    refine ⟨fun t ht => ?_, flagged⟩
    obtain rfl := Option.some.inj ht
    exact hstart rfl
  | queried time still => exact ⟨hs.started, fun h => hs.flagged (still h)⟩
  | committed => exact ⟨hs.started, fun h => absurd h Bool.false_ne_true⟩
  | notCommitted flagged => exact ⟨hs.started, flagged⟩
  | flagRead now flag => exact hs
  | rolledBack => exact absurd rfl hroll
  | notRolledBack => exact absurd rfl hroll
  | released time => exact ⟨hs.started, hs.flagged⟩

theorem await_wp {c : CatalogCall} {I : Connection → Prop} {post : Except String Reply → ℕ → Connection → Prop}
    (hok : ∀ reply s', Settles c s (.ok reply) s' → I s' ∧ post (.ok reply) reply.now s')
    (herror : ∀ e s', Settles c s (.error e) s' → I s' ∧ post (.error e) m s') :
    (await c).wp Settles I post m s := by
  refine Action.wp_bind.mpr (Action.wp_call.mpr fun answer s' h => ?_)
  cases answer with
  | ok reply => exact hok reply s' h
  | error e => exact herror e s' h

theorem checkDeadline_wp {I : Connection → Prop} {post : Except String Unit → ℕ → Connection → Prop}
    (hok : m < deadline → post (.ok ()) m s) (herror : ∀ e, post (.error e) m s) :
    (checkDeadline deadline).wp Settles I post m s := by
  refine Action.wp_bind.mpr (Action.wp_get.mpr ?_)
  show post (ensure (m < deadline) "catalog deadline exceeded") m s
  unfold ensure
  split_ifs with h
  · exact hok h
  · exact herror _

theorem compare_wp {I : Connection → Prop} {post : Except String Unit → ℕ → Connection → Prop} {reply : Reply}
    {message : String} (hok : post (.ok ()) m s) (herror : ∀ e, post (.error e) m s) :
    (compare reply message).wp Settles I post m s := by
  show post (ensure (reply.agrees = true) message) m s
  unfold ensure
  split_ifs
  · exact hok
  · exact herror _

theorem await_check_wp {c : CatalogCall} {rest : Reply → Work Unit} {post : Except String Unit → ℕ → Connection → Prop}
    (hs : s.Held deadline) (hstart : c = .startTransaction → s.now < deadline) (hroll : c ≠ .rollbackTransaction)
    (hok : ∀ reply s', Settles c s (.ok reply) s' → s'.Held deadline → s'.now < deadline →
      (rest reply).wp Settles (Connection.Started deadline) post reply.now s')
    (herror : ∀ e m s', s'.Held deadline → post (.error e) m s') :
    (await c >>= fun reply => checkDeadline deadline >>= fun _ => rest reply).wp Settles
      (Connection.Started deadline) post m s := by
  refine Action.wp_bind.mpr (await_wp (fun reply s' h => ?_) fun e s' h => ?_)
  · have hs' := h.held hs hstart hroll
    refine ⟨hs'.started, Action.wp_bind.mpr (checkDeadline_wp (fun hlt => ?_) fun e => herror e _ _ hs')⟩
    exact hok reply s' h hs' (h.now_eq ▸ hlt)
  · have hs' := h.held hs hstart hroll
    exact ⟨hs'.started, herror e m s' hs'⟩

/-- **Reading a page** starts its transaction before the deadline, and leaves none open when it returns. -/
theorem readPage_wp (hs : s.Held deadline) :
    (readPage deadline).wp Settles (Connection.Started deadline)
      (fun r _ s' => s'.Held deadline ∧ (r = .ok () → s'.opened = false)) m s := by
  have hfail : ∀ (e : String) (s' : Connection), s'.Held deadline →
      s'.Held deadline ∧ ((.error e : Except String Unit) = .ok () → s'.opened = false) :=
    fun e s' hs' => ⟨hs', fun h => by cases h⟩
  unfold readPage
  refine await_check_wp hs (by simp) (by simp) (fun _ s₁ _ hs₁ ht₁ => ?_) fun e _ => hfail e
  refine await_check_wp hs₁ (fun _ => ht₁) (by simp) (fun _ s₂ _ hs₂ _ => ?_) fun e _ => hfail e
  refine await_check_wp hs₂ (by simp) (by simp) (fun _ s₃ _ hs₃ _ => ?_) fun e _ => hfail e
  refine await_check_wp hs₃ (by simp) (by simp) (fun _ s₄ _ hs₄ _ => ?_) fun e _ => hfail e
  refine await_check_wp hs₄ (by simp) (by simp) (fun counts s₅ _ hs₅ _ => ?_) fun e _ => hfail e
  refine Action.wp_bind.mpr (compare_wp ?_ fun e => hfail e _ hs₅)
  refine await_check_wp hs₅ (by simp) (by simp) (fun rows s₆ _ hs₆ _ => ?_) fun e _ => hfail e
  refine Action.wp_bind.mpr (compare_wp ?_ fun e => hfail e _ hs₆)
  refine Action.wp_bind.mpr (await_wp (fun reply s₇ h => ?_) fun e s₇ h => ?_)
  · have hs₇ := h.held hs₆ (by simp) (by simp)
    cases h
    exact ⟨hs₇.started, hs₇, fun _ => rfl⟩
  · have hs₇ := h.held hs₆ (by simp) (by simp)
    exact ⟨hs₇.started, hfail e _ hs₇⟩

/-- **The `catch`** rolls back what is active. -/
theorem rollBack_wp (hs : s.Held deadline) (error : String) :
    (rollBack error).wp Settles (Connection.Started deadline)
      (fun _ _ s' => s'.Started deadline ∧ (s'.opened = true → s'.rollbackFailed = true)) m s := by
  unfold rollBack
  refine Action.wp_bind.mpr (await_wp (fun active s₁ h => ?_) fun e s₁ h => by cases h)
  cases h with
  | flagRead now flag =>
    refine ⟨hs.started, ?_⟩
    show Action.wp Settles (Connection.Started deadline) (if active.flag = true then _ else _) _ active.now s
    split_ifs with hactive
    · refine Action.wp_bind.mpr (await_wp (fun reply s₂ h => ?_) fun e s₂ h => ?_)
      · cases h
        exact ⟨hs.started, hs.started, fun h => by cases h⟩
      · cases h
        exact ⟨hs.started, hs.started, fun _ => rfl⟩
    · refine ⟨hs.started, fun hopen => ?_⟩
      exact absurd (flag.trans (hs.flagged hopen)) hactive

/-- **Reading a snapshot** closes what it opened. -/
theorem readSnapshot_wp (hs : s.Held deadline) (hopened : s.opened = false) (hcreated : s.created = false) :
    (readSnapshot deadline).wp Settles (Connection.Started deadline)
      (fun _ _ s' => s'.Started deadline ∧ s'.Closed) m s := by
  unfold readSnapshot
  refine Action.wp_bind.mpr (await_wp (fun reply s₁ h => ?_) fun e s₁ h => ?_)
  · have hs₁ := h.held hs (by simp) (by simp)
    refine ⟨hs₁.started, Action.wp_ensuring.mpr (Action.wp_tryCatch.mpr (Action.wp_mono (readPage_wp hs₁) ?_))⟩
    have hrelease : ∀ (m : ℕ) (s₂ : Connection) (post : Except String Reply → ℕ → Connection → Prop),
        s₂.Started deadline → (∀ r m s₃, s₃.Started deadline → s₃.released = true → s₃.opened = s₂.opened →
          s₃.rollbackFailed = s₂.rollbackFailed → post r m s₃) →
        (await .release).wp Settles (Connection.Started deadline) post m s₂ := by
      intro m s₂ post hstarted hpost
      refine await_wp (fun reply s₃ h => ?_) fun e s₃ h => ?_
      · cases h
        exact ⟨hstarted, hpost _ _ _ hstarted rfl rfl rfl⟩
      · cases h
        exact ⟨hstarted, hpost _ _ _ hstarted rfl rfl rfl⟩
    rintro r m₂ s₂ ⟨hs₂, hdone⟩
    cases r with
    | ok u =>
      refine hrelease _ _ _ hs₂.started fun r m₃ s₃ hstarted hreleased hopen hrolled => ?_
      exact ⟨hstarted, fun _ => hreleased, fun h => by rw [hopen, hdone rfl] at h; cases h⟩
    | error e =>
      refine Action.wp_mono (rollBack_wp hs₂ e) fun r m₃ s₃ h₃ => ?_
      refine hrelease _ _ _ h₃.1 fun r m₄ s₄ hstarted hreleased hopen hrolled => ?_
      exact ⟨hstarted, fun _ => hreleased, fun h => hrolled.trans (h₃.2 (hopen ▸ h))⟩
  · cases h with
    | notCreated =>
      exact ⟨hs.started, hs.started, fun h => absurd (hcreated.symm.trans h) Bool.false_ne_true,
        fun h => absurd (hopened.symm.trans h) Bool.false_ne_true⟩

theorem Settles.idle {c : CatalogCall} {answer : Except String Reply} {s' : Connection} (h : Settles c s answer s')
    (hc : c = .resolve ∨ c = .getBlockHash) : ∃ now, s' = { s with now := now } := by
  cases h with
  | resolved time => exact ⟨_, rfl⟩
  | hashRead time => exact ⟨_, rfl⟩
  | _ => simp at hc

theorem fresh_closed (time : ℕ) : (Connection.fresh time).Started deadline ∧ (Connection.fresh time).Closed := by
  refine ⟨fun t ht => ?_, fun h => ?_, fun h => ?_⟩
  · cases ht
  · cases h
  · cases h

/-- **The work of a request** starts its transaction before the deadline, and closes what it opened. -/
theorem catalogWork_wp (now : ℕ) :
    (catalogWork deadline).wp Settles (Connection.Started deadline)
      (fun _ _ s' => s'.Started deadline ∧ s'.Closed) now (Connection.fresh now) := by
  have hafter : ∀ {s s' : Connection} {c : CatalogCall} {answer : Except String Reply}, Settles c s answer s' →
      (c = .resolve ∨ c = .getBlockHash) → s.Started deadline ∧ s.Closed → s'.Started deadline ∧ s'.Closed := by
    intro s s' c answer h hc hs
    obtain ⟨now, rfl⟩ := h.idle hc
    exact ⟨hs.1, hs.2.released, hs.2.ended⟩
  have hlast : ∀ (m : ℕ) (s : Connection), s.Started deadline ∧ s.Closed →
      (tryCatch (await .resolve) (fun _ => throw "verification_unavailable") >>= fun after =>
        compare after "verification_unavailable").wp Settles (Connection.Started deadline)
        (fun _ _ s' => s'.Started deadline ∧ s'.Closed) m s := by
    intro m s hs
    refine Action.wp_bind.mpr (Action.wp_tryCatch.mpr (await_wp (fun reply s' h => ?_) fun e s' h => ?_))
    · have hs' := hafter h (.inl rfl) hs
      exact ⟨hs'.1, compare_wp hs' fun _ => hs'⟩
    · have hs' := hafter h (.inl rfl) hs
      exact ⟨hs'.1, hs'⟩
  unfold catalogWork
  refine Action.wp_bind.mpr (Action.wp_tryCatch.mpr (await_wp (fun reply s h => ?_) fun e s h => ?_))
  · obtain ⟨time, rfl⟩ := h.idle (.inl rfl)
    obtain ⟨hstart, hclosed⟩ := @fresh_closed deadline time
    refine ⟨hstart, Action.wp_bind.mpr ?_⟩
    unfold readCatalog
    refine Action.wp_bind.mpr (checkDeadline_wp (fun _ => ?_) fun e => ⟨hstart, hclosed⟩)
    have hheld : (Connection.fresh time).Held deadline := ⟨hstart, fun h => by cases h⟩
    refine Action.wp_bind.mpr (Action.wp_mono (readSnapshot_wp hheld rfl rfl) ?_)
    intro r m₁ s₁ hs₁
    cases r with
    | error e => exact hs₁
    | ok u =>
      refine Action.wp_bind.mpr (checkDeadline_wp (fun _ => ?_) fun e => hs₁)
      refine Action.wp_bind.mpr (await_wp (fun hash s₂ h => ?_) fun e s₂ h => ?_)
      · have hs₂ := hafter h (.inr rfl) hs₁
        refine ⟨hs₂.1, Action.wp_bind.mpr (compare_wp ?_ fun e => hs₂)⟩
        exact checkDeadline_wp (fun _ => hlast _ _ hs₂) fun e => hs₂
      · have hs₂ := hafter h (.inr rfl) hs₁
        exact ⟨hs₂.1, hs₂⟩
  · obtain ⟨time, rfl⟩ := h.idle (.inl rfl)
    have hfresh := @fresh_closed deadline time
    exact ⟨hfresh.1, hfresh⟩

theorem await_within (c : CatalogCall) : Action.Within 1 (await c) :=
  (Action.within_call c).bind fun _ => (Action.within_set _).bind fun _ => Action.within_pure _

theorem checkDeadline_within (deadline : ℕ) : Action.Within 0 (checkDeadline deadline) :=
  Action.within_get.bind fun _ => Action.within_lift _

/-- **The work of a request** makes at most fourteen calls. -/
theorem catalogWork_within (deadline : ℕ) : Action.Within 14 (catalogWork deadline) := by
  have hchecked : ∀ {n : ℕ} (c : CatalogCall) {rest : Reply → Work Unit}, (∀ reply, Action.Within n (rest reply)) →
      Action.Within (n + 1) (await c >>= fun reply => checkDeadline deadline >>= fun _ => rest reply) := by
    intro n c rest h
    have hall := (await_within c).bind fun reply => (checkDeadline_within deadline).bind fun _ => h reply
    rwa [Nat.zero_add, Nat.add_comm] at hall
  have hcompared : ∀ {n : ℕ} (reply : Reply) (message : String) {rest : Work Unit}, Action.Within n rest →
      Action.Within n (compare reply message >>= fun _ => rest) := by
    intro n reply message rest h
    have hall := (Action.within_lift (ensure (reply.agrees = true) message)).bind fun _ => h
    rwa [Nat.zero_add] at hall
  have hpage : Action.Within 7 (readPage deadline) :=
    hchecked _ fun _ => hchecked _ fun _ => hchecked _ fun _ => hchecked _ fun _ => hchecked _ fun counts =>
      hcompared counts _ (hchecked _ fun rows => hcompared rows _
        ((await_within .commitTransaction).bind fun _ => Action.within_pure _))
  have hroll : ∀ e, Action.Within 2 (rollBack e) := by
    intro e
    unfold rollBack
    refine Action.Within.bind (n := 1) (k := 1) (await_within .isTransactionActive) fun active => ?_
    show Action.Within 1 (if active.flag = true then _ else _)
    split_ifs
    · exact (await_within .rollbackTransaction).bind fun _ => Action.within_throw e
    · exact fun m => trivial
  have hsnapshot : Action.Within 11 (readSnapshot deadline) :=
    (await_within .createQueryRunner).bind fun _ => (hpage.handle hroll).ensuring (await_within .release)
  have hread : Action.Within 12 (readCatalog deadline) := by
    have hall := (checkDeadline_within deadline).bind fun _ => hsnapshot.bind fun _ =>
      (checkDeadline_within deadline).bind fun _ => (await_within .getBlockHash).bind fun hash =>
        hcompared hash "catalog checkpoint is not canonical" (checkDeadline_within deadline)
    exact hall
  have hresolve : Action.Within 1
      (tryCatch (await .resolve) (fun _ => throw "verification_unavailable") : Work Reply) :=
    (await_within .resolve).handle fun _ => Action.within_throw _
  exact hresolve.bind fun _ => hread.bind fun _ => hresolve.bind fun after => Action.within_lift _

/-! ### The requests together -/

/-- What is left of the work of a request. -/
abbrev Rest := Interact CatalogCall (fun _ => Except String Reply) (Except String Unit × ℕ)

/-- A request that was admitted. -/
structure Request where
  /-- Its deadline. -/
  deadline : ℕ
  /-- What is left of its work. -/
  rest : Rest
  /-- Its connection. -/
  connection : Connection
  /-- The client is answered. -/
  answered : Bool

/-- The work has settled. -/
def Request.settled (request : Request) : Bool := request.rest.result?.isSome

/-- `TandemCatalogService`. -/
structure Pool where
  /-- `inFlight`. -/
  inFlight : ℤ
  /-- The time. -/
  now : ℕ
  /-- The requests that were admitted. -/
  requests : List Request

/-- The requests whose work has not settled. -/
def Pool.unsettled (s : Pool) : ℕ := s.requests.countP fun request => !request.settled

/-- A slot is taken and the work starts. -/
def Pool.enter (s : Pool) : Pool :=
  let deadline := s.now + 15_000_000
  { s with
    inFlight := s.inFlight + 1
    requests := s.requests ++ [⟨deadline, catalogWork deadline s.now, .fresh s.now, false⟩] }

/-- `page(authorization, rawLimit, rawCursor)`: the refusal, or the start of the work. -/
def Pool.page {Cursor : Type} (catalog : Option CatalogConfiguration)
    (cursor : Argument → String → ℕ → Except String Cursor) (s : Pool) (authorization rawLimit rawCursor : Argument) :
    Except String Unit × Pool :=
  match admission catalog cursor s.inFlight authorization rawLimit rawCursor with
  | .error e => (.error e, s)
  | .ok _ => (.ok (), s.enter)

/-- The work of a request goes on; when it settles, its slot is given back and the client is answered. -/
def Pool.goOn (s : Pool) (i : ℕ) (request : Request) (rest : Rest) (connection : Connection) : Pool :=
  let next : Request := ⟨request.deadline, rest, connection, request.answered || rest.result?.isSome⟩
  { s with
    inFlight := if next.settled = true then s.inFlight - 1 else s.inFlight
    requests := s.requests.set i next }

/-- The timer of a request answers its client. -/
def Pool.expire (s : Pool) (i : ℕ) : Pool :=
  { s with requests := s.requests.modify i fun request => { request with answered := true } }

section

variable {Cursor : Type} (catalog : Option CatalogConfiguration)
  (cursor : Argument → String → ℕ → Except String Cursor)

/-- What happens next. -/
inductive Pool.Step : Pool → Pool → Prop
  /-- Time passes. -/
  | passes {s : Pool} {now : ℕ} (later : s.now ≤ now) : Step s { s with now := now }
  /-- A request comes. -/
  | requested {s : Pool} (authorization rawLimit rawCursor : Argument) :
      Step s (s.page catalog cursor authorization rawLimit rawCursor).2
  /-- A call of a request settles. -/
  | settles {s : Pool} {i : ℕ} {request : Request} {c : CatalogCall} {next : Except String Reply → Rest}
      {answer : Except String Reply} {connection : Connection} (at_ : s.requests[i]? = some request)
      (waits : request.rest = .call c next) (settled : Settles c request.connection answer connection)
      (time : connection.now = s.now) : Step s (s.goOn i request (next answer) connection)
  /-- A timer fires. -/
  | expires {s : Pool} (i : ℕ) : Step s (s.expire i)

/-- The states of the service. -/
abbrev Pool.Reachable : Pool → Prop := Relation.ReflTransGen (Pool.Step catalog cursor) ⟨0, 0, []⟩

end

/-- What is left of a request is safe. -/
structure Request.Safe (request : Request) : Prop where
  /-- Its transaction was started before the deadline. -/
  started : request.connection.Started request.deadline
  /-- And so it stays, and what it opened is closed in the end. -/
  safe : request.rest.Safe Settles (Connection.Started request.deadline)
    (fun _ s' => s'.Started request.deadline ∧ s'.Closed) request.connection
  /-- It makes at most fourteen more calls. -/
  within : request.rest.Within 14

/-- What holds of the service at every moment. -/
structure Pool.Inv (s : Pool) : Prop where
  /-- The slots that are taken are those of the requests whose work has not settled. -/
  counted : s.inFlight = s.unsettled
  /-- There are two. -/
  bound : s.inFlight ≤ 2
  /-- All requests are safe. -/
  safe : ∀ request ∈ s.requests, request.Safe

/-! ### What holds at every moment -/

theorem countP_modify_same {α : Type} {p : α → Bool} {f : α → α} (h : ∀ a, p (f a) = p a) (l : List α) (i : ℕ) :
    (l.modify i f).countP p = l.countP p := by
  induction l generalizing i with
  | nil => cases i <;> rfl
  | cons a l ih =>
    cases i with
    | zero => rw [List.modify_zero_cons, List.countP_cons, List.countP_cons, h]
    | succ i => rw [List.modify_succ_cons, List.countP_cons, List.countP_cons, ih]

theorem mem_modify {α : Type} {f : α → α} {l : List α} {i : ℕ} {b : α} (h : b ∈ l.modify i f) :
    b ∈ l ∨ ∃ a ∈ l, b = f a := by
  induction l generalizing i with
  | nil => cases i <;> simp at h
  | cons a l ih =>
    cases i with
    | zero =>
      rw [List.modify_zero_cons] at h
      rcases List.mem_cons.mp h with rfl | h
      · exact .inr ⟨a, List.mem_cons_self, rfl⟩
      · exact .inl (List.mem_cons_of_mem _ h)
    | succ i =>
      rw [List.modify_succ_cons] at h
      rcases List.mem_cons.mp h with rfl | h
      · exact .inl List.mem_cons_self
      · rcases ih h with h | ⟨b, hb, rfl⟩
        · exact .inl (List.mem_cons_of_mem _ h)
        · exact .inr ⟨b, List.mem_cons_of_mem _ hb, rfl⟩

/-- A timer leaves the slots alone. -/
theorem Pool.expire_unsettled (s : Pool) (i : ℕ) : (s.expire i).unsettled = s.unsettled :=
  countP_modify_same (p := fun request : Request => !request.settled)
    (f := fun request => { request with answered := true }) (fun _ => rfl) s.requests i

/-- When a call settles, the slot is given back exactly when the work has. -/
theorem Pool.goOn_unsettled {s : Pool} {i : ℕ} {request : Request} (h : s.requests[i]? = some request)
    (hbusy : request.settled = false) (rest : Rest) (connection : Connection) :
    ((s.goOn i request rest connection).unsettled : ℤ) =
      if rest.result?.isSome = true then (s.unsettled : ℤ) - 1 else s.unsettled := by
  obtain ⟨hi, hget⟩ := List.getElem?_eq_some_iff.mp h
  have hcount := List.countP_set (p := fun request : Request => !request.settled) hi
    (a := ⟨request.deadline, rest, connection, request.answered || rest.result?.isSome⟩)
  have hmem : request ∈ s.requests := List.mem_of_getElem? h
  have hpos : 0 < s.requests.countP fun request => !request.settled :=
    List.countP_pos_iff.mpr ⟨request, hmem, by simp [hbusy]⟩
  have hnext : (⟨request.deadline, rest, connection, request.answered || rest.result?.isSome⟩ : Request).settled =
      rest.result?.isSome := rfl
  rw [hget, hnext] at hcount
  simp only [Pool.unsettled, Pool.goOn]
  rw [hcount]
  cases hdone : rest.result?.isSome
  · simp only [hbusy, Bool.not_false, if_true, Bool.false_eq_true, if_false]
    omega
  · simp only [hbusy, Bool.not_false, Bool.not_true, if_true, Bool.false_eq_true, if_false]
    omega

section

variable {Cursor : Type} {catalog : Option CatalogConfiguration}
  {cursor : Argument → String → ℕ → Except String Cursor}

/-- A refusal leaves the service as it is. -/
theorem Pool.page_refused {s : Pool} {authorization rawLimit rawCursor : Argument} {e : String}
    (h : (s.page catalog cursor authorization rawLimit rawCursor).1 = .error e) :
    (s.page catalog cursor authorization rawLimit rawCursor).2 = s := by
  revert h
  unfold Pool.page
  cases admission catalog cursor s.inFlight authorization rawLimit rawCursor with
  | error e => exact fun _ => rfl
  | ok granted =>
    intro h
    cases h

theorem admission_ok {inFlight : ℤ} {authorization rawLimit rawCursor : Argument} {granted : ℕ × Cursor}
    (h : admission catalog cursor inFlight authorization rawLimit rawCursor = .ok granted) : inFlight < 2 := by
  obtain ⟨_, -, h⟩ := bind_eq_ok.mp h
  obtain ⟨_, -, h⟩ := bind_eq_ok.mp h
  obtain ⟨_, -, h⟩ := bind_eq_ok.mp h
  obtain ⟨_, -, h⟩ := bind_eq_ok.mp h
  obtain ⟨_, hslot, -⟩ := bind_eq_ok.mp h
  exact ensure_eq_ok.mp hslot

/-- A request that is admitted takes a slot. -/
theorem Pool.Inv.enter {s : Pool} (hs : s.Inv) (hslot : s.inFlight < 2) : s.enter.Inv := by
  have hwork := @catalogWork_wp (s.now + 15_000_000) s.now
  have hwithin := catalogWork_within (s.now + 15_000_000) s.now
  obtain ⟨hstart, -⟩ := @fresh_closed (s.now + 15_000_000) s.now
  have hbusy : (⟨s.now + 15_000_000, catalogWork (s.now + 15_000_000) s.now, .fresh s.now, false⟩ : Request).settled =
      false := rfl
  refine ⟨?_, ?_, fun request hrequest => ?_⟩
  · simp only [Pool.enter, Pool.unsettled, List.countP_append, List.countP_singleton, hbusy]
    have hcounted := hs.counted
    rw [Pool.unsettled] at hcounted
    simp only [Bool.not_false, if_true]
    push_cast
    omega
  · show s.inFlight + 1 ≤ 2
    omega
  · rcases List.mem_append.mp hrequest with hrequest | hrequest
    · exact hs.safe request hrequest
    · rw [List.mem_singleton.mp hrequest]
      exact ⟨hstart, hwork, hwithin⟩

/-- **Whatever happens next** keeps it. -/
theorem Pool.Step.keeps {s s' : Pool} (h : Pool.Step catalog cursor s s') (hs : s.Inv) : s'.Inv := by
  cases h with
  | passes later => exact ⟨hs.counted, hs.bound, hs.safe⟩
  | requested authorization rawLimit rawCursor =>
    unfold Pool.page
    cases hadmission : admission catalog cursor s.inFlight authorization rawLimit rawCursor with
    | error e => exact hs
    | ok granted => exact hs.enter (admission_ok hadmission)
  | @settles i request c next answer connection at_ waits settled time =>
    have hsafe := hs.safe request (List.mem_of_getElem? at_)
    have hrest := hsafe.safe
    have hwithin := hsafe.within
    have hbusy : request.settled = false := by
      rw [Request.settled, waits]
      rfl
    rw [waits] at hrest hwithin
    obtain ⟨hstarted, hnext⟩ := hrest answer connection settled
    refine ⟨?_, ?_, fun r hr => ?_⟩
    · rw [goOn_unsettled at_ hbusy, ← hs.counted]
      rfl
    · show (if (next answer).result?.isSome = true then s.inFlight - 1 else s.inFlight) ≤ 2
      have := hs.bound
      split_ifs <;> omega
    · rcases List.mem_or_eq_of_mem_set hr with hr | rfl
      · exact hs.safe r hr
      · exact ⟨hstarted, hnext, Interact.Within.mono (n := 13) (k := 14) (by omega) (hwithin answer)⟩
  | expires i =>
    refine ⟨?_, hs.bound, fun r hr => ?_⟩
    · rw [expire_unsettled]
      exact hs.counted
    · rcases mem_modify hr with hr | ⟨request, hrequest, rfl⟩
      · exact hs.safe r hr
      · have hsafe := hs.safe request hrequest
        exact ⟨hsafe.started, hsafe.safe, hsafe.within⟩

theorem Pool.Reachable.inv {s : Pool} (h : Pool.Reachable catalog cursor s) : s.Inv := by
  induction h with
  | refl => exact ⟨rfl, by decide, fun _ hr => absurd hr List.not_mem_nil⟩
  | tail _ step ih => exact step.keeps ih

/-- What the service promises of its slots and of the connections. -/
structure Pool.Sound (s : Pool) : Prop where
  /-- The slots that are taken are those of the requests whose work has not settled. -/
  counted : s.inFlight = s.unsettled
  /-- Between none … -/
  low : 0 ≤ s.inFlight
  /-- … and two. -/
  high : s.inFlight ≤ 2
  /-- When all work has settled, all slots are free. -/
  idle : (∀ request ∈ s.requests, request.settled = true) → s.inFlight = 0
  /-- A request that was answered by its timer still has its slot until its work settles. -/
  kept : ∀ request ∈ s.requests, request.answered = true → request.settled = false → 1 ≤ s.inFlight
  /-- A transaction that was started was started before the deadline … -/
  started : ∀ request ∈ s.requests, ∀ t, request.connection.startedAt = some t → t < request.deadline
  /-- … and one that is being started, too. -/
  starting : ∀ request ∈ s.requests, ∀ next, request.rest = .call .startTransaction next →
    request.connection.now < request.deadline
  /-- The work settles after at most fourteen more calls. -/
  within : ∀ request ∈ s.requests, request.rest.Within 14
  /-- When it has, the runner was released. -/
  released : ∀ request ∈ s.requests, request.settled = true → request.connection.created = true →
    request.connection.released = true
  /-- And no transaction is open, unless its `ROLLBACK` failed. -/
  ended : ∀ request ∈ s.requests, request.settled = true → request.connection.opened = true →
    request.connection.rollbackFailed = true

/-- The program of a request whose work has settled is done. -/
theorem Request.Safe.closed {request : Request} (h : request.Safe) (hsettled : request.settled = true) :
    request.connection.Closed := by
  obtain ⟨result, hresult⟩ := Option.isSome_iff_exists.mp hsettled
  have hsafe := h.safe
  rw [Interact.result?_eq_some.mp hresult] at hsafe
  exact hsafe.2

/-- **Admission never leaks or admits too many.** -/
theorem pool_sound {s : Pool} (h : Pool.Reachable catalog cursor s) :
    s.Sound ∧
    (∀ authorization rawLimit rawCursor e, (s.page catalog cursor authorization rawLimit rawCursor).1 = .error e →
      (s.page catalog cursor authorization rawLimit rawCursor).2 = s) ∧
    ∀ i, (s.expire i).inFlight = s.inFlight ∧ (s.expire i).unsettled = s.unsettled := by
  have hs := h.inv
  have hcounted := hs.counted
  refine ⟨⟨hcounted, by omega, hs.bound, fun hall => ?_, fun request hrequest _ hbusy => ?_,
    fun request hrequest => (hs.safe request hrequest).started, fun request hrequest next hnext => ?_,
    fun request hrequest => (hs.safe request hrequest).within,
    fun request hrequest hsettled => ((hs.safe request hrequest).closed hsettled).released,
    fun request hrequest hsettled => ((hs.safe request hrequest).closed hsettled).ended⟩,
    fun _ _ _ _ hrefused => Pool.page_refused hrefused, fun i => ⟨rfl, s.expire_unsettled i⟩⟩
  · have hzero : s.unsettled = 0 := List.countP_eq_zero.mpr fun request hrequest => by simp [hall request hrequest]
    rw [hcounted, hzero]
    rfl
  · have hpos : 0 < s.unsettled := List.countP_pos_iff.mpr ⟨request, hrequest, by simp [hbusy]⟩
    omega
  · have hsafe := (hs.safe request hrequest).safe
    rw [hnext] at hsafe
    have hstep : Settles .startTransaction request.connection (.error "")
        { request.connection with
          now := 0, startedAt := some request.connection.now, active := false, opened := false } :=
      .started (fun _ h => by cases h) (fun h => by cases h)
    exact (hsafe _ _ hstep).1 _ rfl

end

/-! ### A run -/

/-- A catalog with a token. -/
def sampleCatalog : Option CatalogConfiguration := some ⟨"t", "s"⟩

/-- Cursors that are always taken. -/
def anyCursor : Argument → String → ℕ → Except String Unit := fun _ _ _ => .ok ()

theorem sample_admitted : Pool.Reachable sampleCatalog anyCursor (Pool.enter ⟨0, 0, []⟩) := by
  have hadmission : admission sampleCatalog anyCursor 0 (.text "Bearer t") .missing .missing = .ok (50, ()) := by
    decide +kernel
  have hpage : ((⟨0, 0, []⟩ : Pool).page sampleCatalog anyCursor (.text "Bearer t") .missing .missing).2 =
      Pool.enter ⟨0, 0, []⟩ := by
    rw [Pool.page, hadmission]
  exact hpage ▸ .single (.requested _ _ _)

theorem settle_first (answer : Except String Reply) {s : Pool} {request : Request} {c : CatalogCall}
    {next : Except String Reply → Rest} {connection : Connection} (h : Pool.Reachable sampleCatalog anyCursor s)
    (only : s.requests = [request]) (waits : request.rest = .call c next)
    (settled : Settles c request.connection answer connection) (time : connection.now = s.now) :
    ∃ s', Pool.Reachable sampleCatalog anyCursor s' ∧ s'.now = s.now ∧
      s'.requests = [⟨request.deadline, next answer, connection, request.answered || (next answer).result?.isSome⟩] := by
  refine ⟨_, h.tail (.settles (i := 0) (by rw [only]; rfl) waits settled time), rfl, ?_⟩
  show s.requests.set 0 _ = _
  rw [only]
  rfl

/-- What is left of some work after some answers. -/
def leftAfter : List (Except String Reply) → Rest → Rest
  | answer :: answers, .call _ next => leftAfter answers (next answer)
  | _, rest => rest

/-- A call that goes through. -/
def goesThrough (now : ℕ) : Except String Reply := .ok ⟨now, true, true⟩

theorem goesThrough_now (now : ℕ) : ∀ reply, goesThrough now = .ok reply → reply.now = now := by
  rintro reply ⟨⟩
  rfl

theorem sample_started : ∃ s, Pool.Reachable sampleCatalog anyCursor s ∧ s.now = 0 ∧
    s.requests = [⟨15_000_000, leftAfter (List.replicate 4 (goesThrough 0)) (catalogWork 15_000_000 0),
      ⟨0, true, some 0, true, true, false, false⟩, false⟩] := by
  obtain ⟨s₁, h₁, t₁, r₁⟩ := settle_first (goesThrough 0) sample_admitted rfl rfl (.resolved (goesThrough_now 0)) rfl
  obtain ⟨s₂, h₂, t₂, r₂⟩ := settle_first (goesThrough 0) h₁ r₁ rfl .created t₁.symm
  obtain ⟨s₃, h₃, t₃, r₃⟩ := settle_first (goesThrough 0) h₂ r₂ rfl (.connected (goesThrough_now 0)) (t₂.trans t₁).symm
  obtain ⟨s₄, h₄, t₄, r₄⟩ := settle_first (goesThrough 0) h₃ r₃ rfl (.started (goesThrough_now 0) id)
    (t₃.trans (t₂.trans t₁)).symm
  exact ⟨s₄, h₄, t₄.trans (t₃.trans (t₂.trans t₁)), r₄⟩

/-- The timer of the first request fires while it reads its snapshot; its query settles later, and ends the transaction
and the work. -/
theorem pool_sound_sample : ∃ s : Pool, s.Sound ∧ s.inFlight = 0 ∧ ∃ request ∈ s.requests, request.settled = true ∧
    request.connection.startedAt = some 0 ∧ request.deadline ≤ request.connection.now ∧
      request.connection.opened = false := by
  obtain ⟨s₀, h₀, t₀, r₀⟩ := sample_started
  have h₁ : Pool.Reachable sampleCatalog anyCursor (({ s₀ with now := 15_000_000 } : Pool).expire 0) :=
    (h₀.tail (.passes (t₀.trans_le (Nat.zero_le _)))).tail (.expires 0)
  have r₁ : (({ s₀ with now := 15_000_000 } : Pool).expire 0).requests =
      [⟨15_000_000, leftAfter (List.replicate 4 (goesThrough 0)) (catalogWork 15_000_000 0),
        ⟨0, true, some 0, true, true, false, false⟩, true⟩] := by
    show s₀.requests.modify 0 _ = _
    rw [r₀]
    rfl
  -- The query has come back too late, so the transaction is rolled back.
  obtain ⟨s₂, h₂, t₂, r₂⟩ := settle_first (goesThrough 15_000_000) h₁ r₁ rfl
    (.queried (goesThrough_now 15_000_000) id) rfl
  obtain ⟨s₃, h₃, t₃, r₃⟩ := settle_first (goesThrough 15_000_000) h₂ r₂ rfl (.flagRead rfl rfl) t₂.symm
  obtain ⟨s₄, h₄, t₄, r₄⟩ := settle_first (goesThrough 15_000_000) h₃ r₃ rfl .rolledBack (t₃.trans t₂).symm
  obtain ⟨s₅, h₅, -, r₅⟩ := settle_first (goesThrough 15_000_000) h₄ r₄ rfl
    (.released (goesThrough_now 15_000_000)) (t₄.trans (t₃.trans t₂)).symm
  have sound := (pool_sound h₅).1
  refine ⟨s₅, sound, sound.idle fun request hrequest => ?_, _, r₅ ▸ List.mem_singleton_self _, rfl, rfl, le_rfl, rfl⟩
  rw [r₅] at hrequest
  obtain rfl := List.mem_singleton.mp hrequest
  rfl

/-- **A `ROLLBACK` that fails** leaves the transaction open on a connection that is released. -/
theorem rollback_fails : ∃ s, Pool.Reachable sampleCatalog anyCursor s ∧ ∃ request ∈ s.requests,
    request.settled = true ∧ request.connection.released = true ∧ request.connection.opened = true := by
  obtain ⟨s₀, h₀, t₀, r₀⟩ := sample_started
  obtain ⟨s₁, h₁, t₁, r₁⟩ := settle_first (.error "lost") h₀ r₀ rfl (.queried (fun _ h => by cases h) id) t₀.symm
  obtain ⟨s₂, h₂, t₂, r₂⟩ := settle_first (goesThrough 0) h₁ r₁ rfl (.flagRead rfl rfl) (t₁.trans t₀).symm
  have hlost : Settles .rollbackTransaction ⟨0, true, some 0, true, true, false, false⟩ (.error "lost")
      ⟨0, true, some 0, true, true, true, false⟩ := .notRolledBack
  obtain ⟨s₃, h₃, t₃, r₃⟩ := settle_first (.error "lost") h₂ r₂ rfl hlost (t₂.trans (t₁.trans t₀)).symm
  obtain ⟨s₄, h₄, -, r₄⟩ := settle_first (goesThrough 0) h₃ r₃ rfl (.released (goesThrough_now 0))
    (t₃.trans (t₂.trans (t₁.trans t₀))).symm
  exact ⟨s₄, h₄, _, r₄ ▸ List.mem_singleton_self _, rfl, rfl, rfl⟩

end IndexTandem.Api
