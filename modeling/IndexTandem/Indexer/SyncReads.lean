import IndexTandem.Indexer.SyncService

/-!
# Methods that only read

Locating the INIT, comparing the tip and looking for the common ancestor make calls that do
not write, and touch nothing of the process but the cursor of the scan and the mark of the
mempool. What such calls leave alone, and what does not depend on these two fields, the
methods leave alone (`leaves_locateInit`, `leaves_searchAncestor`).
-/

namespace IndexTandem.Indexer

open Library Protocol

variable {σ γ : Type} {step : (c : SyncCall) → σ → Except String c.Value → σ → Prop} {I : σ → Prop}
  {same : σ → σ → Prop} {view : SyncMemory → γ} (frame : Action.Frame same I)
  (reads : ∀ c : SyncCall, c.body = none → Action.Leaves step I same view (await c))
  (scans : ∀ memory cursor, view { memory with scanCursor := cursor } = view memory)
  (sees : ∀ memory, view { memory with state := { memory.state with initSeenInMempool := true } } = view memory)

/-! ### Locating the INIT -/

section

include frame reads

theorem leaves_blockHolds (txid : Hash) (height : ℕ) : Action.Leaves step I same view (blockHolds txid height) :=
  (reads _ rfl).bind frame fun _ => (reads _ rfl).bind frame fun _ => .pure frame _

theorem leaves_hintedInit (config : SyncConfiguration) (txid : Hash) (nodeHeight : ℕ) :
    Action.Leaves step I same view (hintedInit config txid nodeHeight) := by
  unfold hintedInit
  split
  · exact .pure frame _
  · split_ifs
    · exact (leaves_blockHolds frame reads txid _).bind frame fun _ => .pure frame _
    · exact .pure frame _

include scans

theorem leaves_scanInit (txid : Hash) (nodeHeight turns : ℕ) :
    Action.Leaves step I same view (scanInit txid nodeHeight turns) := by
  induction turns with
  | zero => exact .pure frame _
  | succ turns ih =>
    refine Action.Leaves.bind frame (.get frame) fun memory => ?_
    dsimp only
    split_ifs
    · refine (leaves_blockHolds frame reads txid _).bind frame fun found => ?_
      split_ifs
      · exact .pure frame _
      · exact Action.Leaves.bind frame (.modify frame fun memory => scans memory _) fun _ => ih
    · exact .pure frame _

include sees

theorem leaves_lookupInit (txid : Hash) (nodeHeight : ℕ) :
    Action.Leaves step I same view (lookupInit txid nodeHeight) := by
  refine Action.Leaves.handle frame ((reads _ rfl).bind frame fun location => ?_) fun _ => .pure frame _
  cases location with
  | some hash => exact (reads _ rfl).bind frame fun _ => .pure frame _
  | none =>
    refine Action.Leaves.bind frame (.modify frame fun memory => ?_) fun _ => .pure frame _
    exact (scans _ _).trans (sees memory)

theorem leaves_locateInit (config : SyncConfiguration) (txid : Hash) (nodeHeight : ℕ) :
    Action.Leaves step I same view (locateInit config txid nodeHeight) := by
  refine (leaves_hintedInit frame reads config txid nodeHeight).bind frame fun hinted => ?_
  cases hinted with
  | some height => exact .pure frame _
  | none =>
    refine (leaves_lookupInit frame reads scans sees txid nodeHeight).bind frame fun lookup => ?_
    cases lookup with
    | confirmed height => exact .pure frame _
    | waiting => exact .pure frame _
    | unknown =>
      exact Action.Leaves.bind frame (.modify frame fun memory => scans memory _) fun _ =>
        leaves_scanInit frame reads scans _ _ _

end

/-! ### Following a reorganization -/

section

include frame reads

theorem leaves_searchAncestor (initHeight height : ℕ) :
    Action.Leaves step I same view (searchAncestor initHeight height) := by
  induction height with
  | zero => exact .pure frame _
  | succ height ih =>
    unfold searchAncestor
    split_ifs
    · exact .pure frame _
    · refine (reads _ rfl).bind frame fun stored => ?_
      refine Action.Leaves.bind frame ?_ fun nodeHash => ?_
      · exact .handle frame ((reads _ rfl).bind frame fun _ => .pure frame _) fun _ => .pure frame _
      · split_ifs
        · exact .pure frame _
        · exact ih

theorem leaves_ancestorHashText (initHeight : ℕ) (ancestor : ℤ) :
    Action.Leaves step I same view (ancestorHashText initHeight ancestor) := by
  unfold ancestorHashText
  split_ifs
  · exact (reads _ rfl).bind frame fun _ => .pure frame _
  · exact .pure frame _

theorem leaves_tipLeft (tip : CanonicalTip) (nodeHeight : ℕ) :
    Action.Leaves step I same view (tipLeft tip nodeHeight) := by
  unfold tipLeft
  split_ifs
  · exact (reads _ rfl).bind frame fun _ => .pure frame _
  · exact .pure frame _

end

end IndexTandem.Indexer
