import IndexTandem.Api.AddressLookup
import IndexTandem.Config.Configuration
import IndexTandem.Indexer.Chronicle
import IndexTandem.Verification.Interleaving

/-!
# Looking up an object

`object` reads the row of an object and then its chapters; `objectByOutpoint` reads before both whose carrier an
outpoint is. These are two and three statements with no transaction around them, so the sync service may commit in
between.

A carrier that was created is never forgotten, and neither is a chapter, unless blocks are disconnected
(`commit_grown`). So when no rollback is committed in between, every carrier that an object ever held leads to it, and
its chapters begin with those that its row counts (`objectByOutpoint_resolves`).
-/

namespace IndexTandem.Api.ObjectLookup

open Library Protocol Database Indexer Agreement Verification

variable {packages : Packages} {binding : Binding}

/-! ### The queries -/

/-- What a request is refused with. -/
inductive Refusal where
  /-- `BadRequestException(message)`. -/
  | badRequest (message : String)
  /-- `NotFoundException(message)`. -/
  | notFound (message : String)
  deriving DecidableEq

/-- `checkedHash(value, label)`. -/
def checkedHash (value label : String) : Except Refusal Hash :=
  orError (.badRequest (label ++ " must be 32-byte hex")) (Config.parseHash (Config.toLowerCase value))

/-- The check of `vout`; nothing for a number that is no safe integer. -/
def checkedVout (vout : Option ℤ) : Except Refusal UInt32 :=
  match vout with
  | none => throw (.badRequest "vout is invalid")
  | some vout =>
    if vout < 0 ∨ vout > 0xffff_ffff then throw (.badRequest "vout is invalid") else pure (.ofNat vout.toNat)

/-- An object as it is presented. -/
structure PresentedObject where
  /-- The columns. -/
  row : ObjectRow
  /-- The first carrier. -/
  genesisOutpoint : String
  /-- The name to display. -/
  displayId : String
  deriving DecidableEq

/-- `presentObject(row)`. -/
def presentObject (deployment : DeploymentConfiguration) (row : ObjectRow) : PresentedObject where
  row := row
  genesisOutpoint := row.createTxid.text ++ ":1"
  displayId := "tandem:" ++ networkName deployment.networkCode ++ ":" ++
    ((deployment.initTxid.map Hash.text).getD "null") ++ ":" ++ row.createTxid.text ++ ":1"

/-- The answer. -/
structure ObjectAnswer where
  /-- The object. -/
  object : PresentedObject
  /-- Its chapters. -/
  chapters : List ChapterRow
  deriving DecidableEq

section

variable (deployment : DeploymentConfiguration) (atCarriers atObjects atChapters : Db)

/-- `object(objectKey)`, with what the store was at each statement. -/
def object (objectKey : String) : Except Refusal ObjectAnswer := do
  let key ← checkedHash objectKey "object key"
  let row ← orError (.notFound "object not found") (atObjects.objects.find? fun row => row.objectKey = key)
  -- `ORDER BY sequence ASC`
  let chapters := orderBy ChapterRow.sequence (atChapters.chapters.filter fun row => row.objectKey = key)
  pure ⟨presentObject deployment row, chapters⟩

/-- `objectByOutpoint(txid, vout)`. -/
def objectByOutpoint (txid : String) (vout : Option ℤ) : Except Refusal ObjectAnswer := do
  let txid ← checkedHash txid "txid"
  let vout ← checkedVout vout
  let carrier ← orError (.notFound "object not found") (atCarriers.carriers.find? fun row => row.outpoint = ⟨txid, vout⟩)
  object deployment atObjects atChapters carrier.objectKey.text

end

@[simp] theorem checkedHash_text (hash : Hash) (label : String) : checkedHash hash.text label = .ok hash := by
  simp [checkedHash, Config.parseHash_text]

@[simp] theorem checkedVout_toNat (vout : UInt32) : checkedVout (some (vout.toNat : ℤ)) = .ok vout := by
  have hbound : vout.toNat < 2 ^ 32 := vout.toNat_lt
  have haccepted : ¬((vout.toNat : ℤ) < 0 ∨ (vout.toNat : ℤ) > 0xffff_ffff) := by omega
  unfold checkedVout
  simp only [if_neg haccepted, Int.toNat_natCast, UInt32.ofNat_toNat]
  rfl

/-! ### What is never forgotten -/

/-- The carriers and the chapters of a store are there in a later one. -/
structure Grown (db later : Db) : Prop where
  /-- The carriers, each of the same object. -/
  carriers : (db.carriers.map fun row => (row.outpoint, row.objectKey)) <+:
    later.carriers.map fun row => (row.outpoint, row.objectKey)
  /-- The chapters. -/
  chapters : db.chapters <+: later.chapters

theorem Grown.refl (db : Db) : Grown db db := ⟨List.prefix_rfl, List.prefix_rfl⟩

theorem Grown.trans {a b c : Db} (h : Grown a b) (h' : Grown b c) : Grown a c :=
  ⟨h.carriers.trans h'.carriers, h.chapters.trans h'.chapters⟩

/-- Whose carrier an outpoint is does not change when it is spent. -/
theorem markCarrier_owner (height : ℕ) (spent : List SpentOutpoint) (row : CarrierRow) :
    ((markCarrier height spent row).outpoint, (markCarrier height spent row).objectKey) = (row.outpoint, row.objectKey) := by
  induction spent generalizing row with
  | nil => rfl
  | cons s spent ih =>
    show ((markCarrier height spent _).outpoint, (markCarrier height spent _).objectKey) = _
    rw [ih]
    by_cases hs : row.outpoint = s.outpoint <;> simp [hs, spendCarrier]

theorem grown_written (block : ReducedBlock) (db : Db) : Grown db (written block db) where
  carriers := by
    have howners : ((written block db).carriers.map fun row => (row.outpoint, row.objectKey)) =
        (db.carriers ++ block.newStates.map (carrierRow block.height)).map fun row => (row.outpoint, row.objectKey) := by
      rw [written, List.map_map]
      exact List.map_congr_left fun row _ => markCarrier_owner _ _ row
    rw [howners, List.map_append]
    exact List.prefix_append _ _
  chapters := List.prefix_append _ _

theorem grown_appendBlocks {reduced : List ReducedBlock} {db db' : Db} (h : appendBlocks reduced db = .ok db') :
    Grown db db' := by
  induction reduced generalizing db with
  | nil =>
    obtain rfl := pure_eq_ok.mp h
    exact .refl _
  | cons block reduced ih =>
    obtain ⟨d, hd, h⟩ := bind_eq_ok.mp h
    obtain ⟨rfl, -⟩ := writeBlock_ok hd
    exact (grown_written block db).trans (ih h)

/-- **A commit forgets nothing**, unless it is a rollback. -/
theorem commit_grown {kind : Committed} {kept kept' : Kept} (h : Commit packages binding kind kept kept')
    (stays : kind ≠ .rollback) : Grown kept.2 kept'.2 := by
  cases h with
  | nothing => exact .refl _
  | append linked listed same reduces appends => exact grown_appendBlocks appends
  | rollback => exact absurd rfl stays

/-- Two carriers have two outpoints. -/
theorem carriers_apart {chain : List BitcoinBlock} {db : Db} (holds : Holds packages binding chain db) :
    (db.carriers.map CarrierRow.outpoint).Nodup := by
  obtain ⟨index, replay, htab⟩ := holds
  obtain ⟨j, rfl⟩ : ∃ j, db = withReorgs j index.db := ⟨_, tables_eq_iff.mp htab⟩
  have hcarriers : (withReorgs j index.db).carriers = index.db.states.map carrierOf := replay.mirrors.carriers
  rw [hcarriers, List.map_map]
  exact List.pairwise_map.mpr (replay.mirrors.apart.imp fun h => h.1)

/-! ### What a lookup tells -/

/-- The lookup tells the object of a row, which held the carrier, and the chapters it has had since. -/
structure Resolves (deployment : DeploymentConfiguration) (row : ObjectRow) (outpoint : Outpoint)
    (atObjects atChapters : Db) (answer : ObjectAnswer) : Prop where
  /-- The row is stored, -/
  stored : row ∈ atObjects.objects
  /-- presented, -/
  presented : answer.object = presentObject deployment row
  /-- and linked to the states and chapters of its time. -/
  linked : LinkedRows row (statesOf row.objectKey atObjects.states) (chaptersOf row.objectKey atObjects.chapters)
  /-- The outpoint is the carrier of one of these states. -/
  held : ∃ state ∈ statesOf row.objectKey atObjects.states, state.outpoint = outpoint
  /-- The chapters are all that are stored when they are read, -/
  chapters : answer.chapters = chaptersOf row.objectKey atChapters.chapters
  /-- in order, -/
  ordered : answer.chapters.Pairwise fun a b => a.sequence < b.sequence
  /-- and begin with those that the row counts. -/
  counted : answer.chapters.take row.chapterCount = chaptersOf row.objectKey atObjects.chapters

/-- The chapters of an object are read in the order they were written in. -/
theorem chapters_ordered {db : Db} {lives : List Life} (tells : TellsLives db lives) (key : Hash) :
    (chaptersOf key db.chapters).Pairwise (fun a b => a.sequence < b.sequence) ∧
      orderBy ChapterRow.sequence (chaptersOf key db.chapters) = chaptersOf key db.chapters := by
  have hsorted : (chaptersOf key db.chapters).Pairwise fun a b => a.sequence < b.sequence := by
    by_cases h : ∃ life ∈ lives, life.objectKey = key
    · obtain ⟨life, hl, rfl⟩ := h
      rw [tells.chapters life hl]
      exact life.chapters_sorted
    · have hnone : chaptersOf key db.chapters = [] := by
        refine List.filter_eq_nil_iff.mpr fun row hrow hkey => h ?_
        obtain ⟨life, hl, howner⟩ := tells.chaptersOwned row hrow
        exact ⟨life, hl, howner.trans (of_decide_eq_true hkey)⟩
      rw [hnone]
      exact List.Pairwise.nil
  have hnodup : ((chaptersOf key db.chapters).map ChapterRow.sequence).Nodup :=
    List.pairwise_map.mpr (hsorted.imp Nat.ne_of_lt)
  exact ⟨hsorted, eq_of_sorted orderBy_perm (orderBy_sorted hnodup) hsorted⟩

section

variable {before between after : Db} {lives later latest : List Life} (deployment : DeploymentConfiguration)

/-- **A carrier leads to its object**, which is read once more for its chapters. -/
theorem object_resolves (tells : TellsLives between later) (tells' : TellsLives after latest)
    (chapters : between.chapters <+: after.chapters) {carrier : CarrierRow} (stored : carrier ∈ between.carriers) :
    ∃ row answer, row.objectKey = carrier.objectKey ∧
      object deployment between after carrier.objectKey.text = .ok answer ∧
        Resolves deployment row carrier.outpoint between after answer := by
  obtain ⟨hlinked, hcarriers, hnodup, hstates, -⟩ := tells.linked
  obtain ⟨state, hstate, rfl⟩ := List.mem_map.mp (hcarriers ▸ stored)
  obtain ⟨row, hrow, hkey⟩ := hstates state hstate
  obtain ⟨hsorted, hordered⟩ := chapters_ordered tells' row.objectKey
  have hrows := hlinked row hrow
  have hfound : (between.objects.find? fun other => other.objectKey = (carrierOf state).objectKey) = some row := by
    rw [show (carrierOf state).objectKey = row.objectKey from hkey.symm]
    exact find?_key hnodup hrow
  refine ⟨row, ⟨presentObject deployment row, chaptersOf row.objectKey after.chapters⟩, hkey, ?_, ?_⟩
  · unfold object
    rw [checkedHash_text]
    refine bind_eq_ok.mpr ⟨_, rfl, bind_eq_ok.mpr ⟨row, orError_eq_ok.mpr hfound, ?_⟩⟩
    rw [show (carrierOf state).objectKey = row.objectKey from hkey.symm]
    exact congrArg (fun chapters => Except.ok (ObjectAnswer.mk (presentObject deployment row) chapters)) hordered
  · have hprefix : chaptersOf row.objectKey between.chapters <+: chaptersOf row.objectKey after.chapters :=
      chapters.filter _
    refine ⟨hrow, rfl, hrows, ⟨state, ?_, rfl⟩, rfl, hsorted, ?_⟩
    · exact List.mem_filter.mpr ⟨hstate, decide_eq_true hkey.symm⟩
    · rw [← hrows.counted]
      exact (List.prefix_iff_eq_take.mp hprefix).symm

end

/-- **Every carrier that an object ever held leads to it**, whatever is appended between the statements, and nothing
else does. -/
theorem objectByOutpoint_resolves (contract : ValidatorContract packages.validate) {t : Timeline (Commit packages binding)}
    (start : t.state 0 = ([], Db.empty)) (distinct : ∀ i, Distinct packages binding (t.state i).1.blocks)
    (once : ∀ i, SpendsOnce (t.state i).1.blocks) {first second third : ℕ} (order : first ≤ second ∧ second ≤ third)
    (stays : ∀ i, first ≤ i → i < third → t.kind i ≠ .rollback) (deployment : DeploymentConfiguration) {txid : String}
    {vout : Option ℤ} {outpoint : Outpoint} (htxid : checkedHash txid "txid" = .ok outpoint.txid)
    (hvout : checkedVout vout = .ok outpoint.vout) :
    (∀ carrier ∈ (t.state first).2.carriers, carrier.outpoint = outpoint → ∃ row answer,
      row.objectKey = carrier.objectKey ∧
        objectByOutpoint deployment (t.state first).2 (t.state second).2 (t.state third).2 txid vout = .ok answer ∧
        Resolves deployment row outpoint (t.state second).2 (t.state third).2 answer) ∧
      ((∀ carrier ∈ (t.state first).2.carriers, carrier.outpoint ≠ outpoint) →
        objectByOutpoint deployment (t.state first).2 (t.state second).2 (t.state third).2 txid vout =
          .error (.notFound "object not found")) ∧
      ∀ row ∈ (t.state first).2.objects, ∃ carrier ∈ (t.state first).2.carriers,
        carrier.outpoint = successorOf row.createTxid ∧ carrier.objectKey = row.objectKey := by
  have hlives : ∀ i, ∃ lives, TellsLives (t.state i).2 lives := fun i =>
    (sound_of_start start i).1.lives contract (distinct i) (once i)
  have hgrown : ∀ {m n}, first ≤ m → m ≤ n → n ≤ third → Grown (t.state m).2 (t.state n).2 := fun hm hmn hn =>
    t.related (R := fun (kept later : Kept) => Grown kept.2 later.2) (fun kept => .refl kept.2) Grown.trans
      (fun i hi hl => commit_grown (t.changes i) (stays i (hm.trans hi) (hl.trans_le hn))) hmn
  have hquery : objectByOutpoint deployment (t.state first).2 (t.state second).2 (t.state third).2 txid vout =
      (orError (.notFound "object not found") ((t.state first).2.carriers.find? fun row => row.outpoint = outpoint) >>=
        fun carrier => object deployment (t.state second).2 (t.state third).2 carrier.objectKey.text) := by
    unfold objectByOutpoint
    rw [htxid, hvout]
    rfl
  rw [hquery]
  refine ⟨fun carrier hcarrier hout => ?_, fun hnone => ?_, fun row hrow => ?_⟩
  · obtain ⟨later, tells⟩ := hlives second
    obtain ⟨latest, tells'⟩ := hlives third
    have hfound : ((t.state first).2.carriers.find? fun row => row.outpoint = outpoint) = some carrier := by
      rw [← hout]
      exact find?_key (carriers_apart (sound_of_start start first).1) hcarrier
    -- It is still there when the row of the object is read.
    have howner : (carrier.outpoint, carrier.objectKey) ∈
        (t.state second).2.carriers.map fun row => (row.outpoint, row.objectKey) :=
      (hgrown le_rfl order.1 order.2).carriers.subset (List.mem_map_of_mem hcarrier)
    obtain ⟨carrier', hcarrier', howner'⟩ := List.mem_map.mp howner
    obtain ⟨hout', hkey⟩ := Prod.mk.inj howner'
    have hchapters := (hgrown order.1 order.2 le_rfl).chapters
    obtain ⟨row, answer, hrow, hanswer, hresolves⟩ := object_resolves deployment tells tells' hchapters hcarrier'
    rw [hkey] at hrow hanswer
    rw [hout', hout] at hresolves
    exact ⟨row, answer, hrow, bind_eq_ok.mpr ⟨carrier, orError_eq_ok.mpr hfound, hanswer⟩, hresolves⟩
  · have hfound : ((t.state first).2.carriers.find? fun row => row.outpoint = outpoint) = none :=
      List.find?_eq_none.mpr fun carrier hcarrier => by simpa using hnone carrier hcarrier
    rw [hfound]
    rfl
  · obtain ⟨lives, tells⟩ := hlives first
    obtain ⟨hlinked, hcarriers, -, -, -⟩ := tells.linked
    obtain ⟨state, hhead, hout, -⟩ := (hlinked row hrow).first
    obtain ⟨hstate, hkey⟩ := List.mem_filter.mp (List.mem_of_head? hhead)
    exact ⟨carrierOf state, hcarriers ▸ List.mem_map_of_mem hstate, hout, of_decide_eq_true hkey⟩

/-- The first carrier of an object leads to it; the object is marked before its chapters are read. -/
theorem objectByOutpoint_resolves_sample :
    ∃ (t : Timeline (Commit lifePackages sampleBinding)) (row : ObjectRow) (answer : ObjectAnswer),
      t.kind 1 = .append ∧ row.stateSequence = 0 ∧
      objectByOutpoint sampleConfig.deployment (t.state 1).2 (t.state 1).2 (t.state 2).2 row.createTxid.text (some 1) =
        .ok answer ∧
      Resolves sampleConfig.deployment row (successorOf row.createTxid) (t.state 1).2 (t.state 2).2 answer := by
  obtain ⟨story, ran, told⟩ := Story.exists_told
  obtain ⟨row, hobjects, hrow⟩ := List.map_eq_singleton_iff.mp told.objects.1
  have blocks : ∀ i, ((storyTimeline ran).state i).1.blocks <:+ [laterBlock, openBlock] := by
    intro i
    cases i with
    | zero => exact List.nil_suffix
    | succ i =>
      cases i with
      | zero => exact List.suffix_cons ..
      | succ i => exact List.suffix_rfl
  have distinct : ∀ i, Distinct lifePackages sampleBinding ((storyTimeline ran).state i).1.blocks := fun i => by
    obtain ⟨newer, hnewer⟩ := blocks i
    exact Distinct.of_append (hnewer ▸ story_distinct)
  have once : ∀ i, SpendsOnce ((storyTimeline ran).state i).1.blocks := fun i block hblock =>
    story_once block ((blocks i).subset hblock)
  have stays : ∀ i, 1 ≤ i → i < 2 → (storyTimeline ran).kind i ≠ .rollback := by
    intro i h h'
    obtain rfl : i = 1 := by omega
    exact Committed.noConfusion
  obtain ⟨hfound, -, hfirst⟩ := objectByOutpoint_resolves (validateTandemTransaction_contract lifeChecks_sound)
    (t := storyTimeline ran) rfl distinct once (show 1 ≤ 1 ∧ 1 ≤ 2 by decide) stays sampleConfig.deployment
    (checkedHash_text (successorOf row.createTxid).txid "txid") (checkedVout_toNat (successorOf row.createTxid).vout)
  obtain ⟨carrier, hcarrier, hout, hkey⟩ := hfirst row (hobjects ▸ List.mem_singleton.mpr rfl)
  obtain ⟨found, answer, hfoundkey, hanswer, hresolves⟩ := hfound carrier hcarrier hout
  obtain rfl : found = row := List.mem_singleton.mp (hobjects ▸ hresolves.stored)
  exact ⟨storyTimeline ran, found, answer, rfl, (Prod.mk.inj hrow).2, hanswer, hresolves⟩

end IndexTandem.Api.ObjectLookup
