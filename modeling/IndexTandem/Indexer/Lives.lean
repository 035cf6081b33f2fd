import IndexTandem.Indexer.Counters
import IndexTandem.Library.Succession

/-!
# The lives of the objects

What an object is for: two keys make it, a transaction after another moves it to a new carrier, and one
ends it. A `Life` is that story and nothing else. Its record, the rows of its states and carriers, and those
of its chapters are functions of it.

The store keeps the story in five tables. Each effect of a transaction makes a life, adds a stage to one, or
ends one, and does the same to the rows (`Chronicled.born`, `.move`, `.finish`). So after any sequence of
appends and rollbacks the five tables tell one life of each object (`Stored.lives`), and the rows of an object
are linked one to the next (`history_linked`).
-/

namespace IndexTandem.Indexer

open Library Protocol Database

variable {packages : Packages} {binding : Binding} {heights : InitHeights} {height : ℕ}

/-! ### Lives -/

/-- A state of an object, as it came about. -/
structure Stage where
  /-- The transaction that made its carrier. -/
  txid : Hash
  /-- The height of its block. -/
  height : ℕ
  /-- The first key. -/
  key0 : String
  /-- The second key. -/
  key1 : String
  /-- The chapter that was written with it. -/
  chapter : Option ChapterContent

/-- What it says to the stage before it: the transaction that spent the carrier, and when. -/
def Stage.mark (stage : Stage) : Hash × ℕ := (stage.txid, stage.height)

/-- The end of an object. -/
structure Ending where
  /-- The transaction that spent its last carrier. -/
  txid : Hash
  /-- The height of its block. -/
  height : ℕ
  /-- How it ended. -/
  status : ObjectStatusName
  /-- It did. -/
  finished : status ≠ .active

/-- What the end says to the last stage. -/
def Ending.mark (ending : Ending) : Hash × ℕ := (ending.txid, ending.height)

/-- The life of an object, its stages from the newest to the oldest. -/
structure Life where
  /-- The object. -/
  objectKey : Hash
  /-- It was created in the founding window. -/
  founding : Bool
  /-- The newest stage. -/
  newest : Stage
  /-- The stages before it. -/
  older : List Stage
  /-- Its end. -/
  ending : Option Ending
  /-- No chapter is written with the first stage. -/
  unmarked : ((newest :: older).getLast (List.cons_ne_nil newest older)).chapter = none

/-- All stages, the newest first. -/
def Life.stages (life : Life) : List Stage := life.newest :: life.older

/-- The stage it began with. -/
def Life.first (life : Life) : Stage := (life.newest :: life.older).getLast (List.cons_ne_nil _ _)

/-- The record of the object. -/
def Life.record (life : Life) : ObjectRecord where
  objectKey := life.objectKey
  createTxid := life.first.txid
  createHeight := life.first.height
  founding := life.founding
  status := (life.ending.map Ending.status).getD .active
  stateSequence := life.older.length + if life.ending.any fun ending => ending.status = .closed then 1 else 0
  currentOutpoint := if life.ending.isNone then some (successorOf life.newest.txid) else none
  currentHeight := if life.ending.isNone then some life.newest.height else none
  key0 := life.newest.key0
  key1 := life.newest.key1
  terminalTxid := life.ending.map Ending.txid
  chapterCount := life.stages.countP fun stage => stage.chapter.isSome

/-- The state row of a stage. -/
def stageRow (objectKey : Hash) (number : ℕ) (stage : Stage) (ended : Option (Hash × ℕ)) : StateRow where
  outpoint := successorOf stage.txid
  objectKey := objectKey
  sequence := number
  createdHeight := stage.height
  spentHeight := ended.map Prod.snd
  spentTxid := ended.map Prod.fst
  key0 := stage.key0
  key1 := stage.key1

/-- The chapter row of a stage, if a chapter was written with it. -/
def stageChapter (objectKey : Hash) (entry : Stage × ℕ) : Option ChapterRow :=
  entry.1.chapter.map fun content => chapterRow entry.1.height ⟨content, objectKey, entry.2, entry.1.txid⟩

/-- The rows of its states, the oldest first. -/
def Life.states (life : Life) : List StateRow :=
  (succession Stage.mark (stageRow life.objectKey) (life.ending.map Ending.mark) life.stages).reverse

/-- The rows of its chapters, the oldest first. -/
def Life.chapters (life : Life) : List ChapterRow :=
  life.stages.reverse.zipIdx.filterMap (stageChapter life.objectKey)

/-- A life begins. -/
def Life.born (objectKey : Hash) (founding : Bool) (stage : Stage) (unmarked : stage.chapter = none) : Life :=
  ⟨objectKey, founding, stage, [], none, unmarked⟩

/-- It goes on. -/
def Life.move (life : Life) (stage : Stage) : Life where
  objectKey := life.objectKey
  founding := life.founding
  newest := stage
  older := life.stages
  ending := life.ending
  unmarked := life.unmarked

/-- It ends. -/
def Life.finish (life : Life) (ending : Ending) : Life := { life with ending := some ending }

section

variable {life : Life} {stage : Stage} {ending : Ending}

theorem Life.ending_of_active (h : life.record.status = .active) : life.ending = none := by
  cases he : life.ending with
  | none => rfl
  | some e =>
    simp only [Life.record, he, Option.map_some, Option.getD_some] at h
    exact absurd h e.finished

theorem Life.currentOutpoint (going : life.ending = none) :
    life.record.currentOutpoint = some (successorOf life.newest.txid) := by
  simp [Life.record, going]

theorem Life.record_move (going : life.ending = none) : (life.move stage).record =
    life.record.moved stage.txid stage.height (life.record.stateSequence + 1) stage.key0 stage.key1 stage.chapter := by
  have hfirst : (life.move stage).first = life.first := List.getLast_cons (List.cons_ne_nil _ _)
  have hcount : (life.move stage).stages.countP (fun stage => stage.chapter.isSome) =
      life.stages.countP (fun stage => stage.chapter.isSome) + if stage.chapter.isSome then 1 else 0 :=
    List.countP_cons
  unfold Life.record
  rw [hfirst, hcount]
  simp [ObjectRecord.moved, Life.move, going, Life.stages]

theorem Life.record_finish (going : life.ending = none) : (life.finish ending).record =
    life.record.ended ending.status ending.txid (life.record.stateSequence + if ending.status = .closed then 1 else 0) := by
  unfold Life.record
  simp [ObjectRecord.ended, Life.finish, going, Life.stages, Life.first]

theorem Life.chapters_move : (life.move stage).chapters =
    life.chapters ++ (stageChapter life.objectKey (stage, life.stages.length)).toList := by
  unfold Life.chapters Life.move Life.stages
  rw [List.reverse_cons, List.zipIdx_append, List.filterMap_append]
  congr 1
  rw [List.zipIdx_singleton, List.length_reverse, Nat.zero_add]
  cases h : stageChapter life.objectKey (stage, (life.newest :: life.older).length) with
  | none => exact List.filterMap_cons_none h
  | some row => exact List.filterMap_cons_some h

theorem Life.outpoints : life.states.map StateRow.outpoint = (life.stages.map fun stage => successorOf stage.txid).reverse := by
  have hrow : ∀ number stage ended, (stageRow life.objectKey number stage ended).outpoint = successorOf stage.txid :=
    fun _ _ _ => rfl
  rw [Life.states, List.map_reverse, map_succession_eq_map hrow]

/-- The mark of a spend on the state it spends. -/
def spendAt (height : ℕ) (txid : Hash) (outpoint : Outpoint) (row : StateRow) : StateRow :=
  if row.outpoint = outpoint then spendState height txid row else row

@[simp] theorem spendAt_outpoint (txid : Hash) (o : Outpoint) (row : StateRow) :
    (spendAt height txid o row).outpoint = row.outpoint := by
  unfold spendAt
  split_ifs <;> rfl

@[simp] theorem spendAt_objectKey (txid : Hash) (o : Outpoint) (row : StateRow) :
    (spendAt height txid o row).objectKey = row.objectKey := by
  unfold spendAt
  split_ifs <;> rfl

theorem spendAt_eq_self {txid : Hash} {o : Outpoint} {row : StateRow} (h : row.outpoint ≠ o) :
    spendAt height txid o row = row := if_neg h

/-- **The spend of its carrier** ends the newest state of a life. -/
theorem Life.map_spendAt (going : life.ending = none) (apart : (life.states.map StateRow.outpoint).Nodup) (mark : Hash × ℕ) :
    life.states.map (spendAt mark.2 mark.1 (successorOf life.newest.txid)) =
      (succession Stage.mark (stageRow life.objectKey) (some mark) life.stages).reverse := by
  rw [Life.outpoints, List.nodup_reverse, Life.stages, List.map_cons, List.nodup_cons] at apart
  unfold Life.states Life.stages
  rw [List.map_reverse, going, Option.map_none, succession_end]
  · exact if_pos rfl
  · intro r hr
    refine spendAt_eq_self fun ho => apart.1 ?_
    obtain ⟨_, s, _, hs, rfl⟩ := mem_succession hr
    exact List.mem_map.mpr ⟨s, hs, ho⟩

theorem Life.states_finish (going : life.ending = none) (apart : (life.states.map StateRow.outpoint).Nodup) :
    (life.finish ending).states = life.states.map (spendAt ending.height ending.txid (successorOf life.newest.txid)) :=
  (life.map_spendAt going apart ending.mark).symm

theorem Life.states_move (going : life.ending = none) (apart : (life.states.map StateRow.outpoint).Nodup) :
    (life.move stage).states = life.states.map (spendAt stage.height stage.txid (successorOf life.newest.txid)) ++
      [stageRow life.objectKey life.stages.length stage none] := by
  have hspend := life.map_spendAt going apart stage.mark
  simp only [Stage.mark] at hspend
  rw [hspend, ← List.reverse_cons]
  unfold Life.states
  rw [show (life.move stage).ending = none from going]
  rfl

end

/-! ### What the rows of a life look like -/

/-- The rows of an object are linked one to the next. -/
structure LinkedRows (object : ObjectRow) (states : List StateRow) (chapters : List ChapterRow) : Prop where
  /-- The states are numbered without a gap, -/
  numbered : states.map StateRow.sequence = List.range states.length
  /-- up to the object's sequence, or the one before it when the object is closed: a CLOSE makes no state. -/
  sequence : states.length = object.stateSequence + if object.status = .closed then 0 else 1
  /-- Their carriers are the first outputs after the marker. -/
  carriers : ∀ row ∈ states, row.outpoint.vout = 1
  /-- The first is that of the creating transaction. -/
  first : ∃ row, states.head? = some row ∧ row.outpoint = successorOf object.createTxid ∧
    row.createdHeight = object.createHeight
  /-- A state is spent by the transaction of the next one, at its height. -/
  links : states.IsChain fun row next => row.spentTxid = some next.outpoint.txid ∧ row.spentHeight = some next.createdHeight
  /-- The last one has the keys of the object. -/
  last : ∃ row, states.getLast? = some row ∧ row.key0 = object.key0 ∧ row.key1 = object.key1 ∧
    row.spentTxid = object.terminalTxid ∧ row.spentHeight.isSome = object.terminalTxid.isSome ∧
    object.currentOutpoint = if object.status = .active then some row.outpoint else none
  /-- An object is active until a transaction ends it. -/
  ended : object.status = .active ↔ object.terminalTxid = none
  /-- The chapters are counted. -/
  counted : chapters.length = object.chapterCount
  /-- A chapter is written with a later state than the first, by its transaction. -/
  written : ∀ chapter ∈ chapters, 1 ≤ chapter.sequence ∧ ∃ row ∈ states, row.sequence = chapter.sequence ∧
    row.outpoint = successorOf chapter.txid ∧ row.createdHeight = chapter.blockHeight

section

variable (life : Life)

@[simp] theorem Life.length_states : life.states.length = life.older.length + 1 := by
  simp [Life.states, Life.stages]

theorem Life.status_active : life.record.status = .active ↔ life.ending = none := by
  refine ⟨Life.ending_of_active, fun h => ?_⟩
  simp [Life.record, h]

theorem Life.first_stage : life.stages.reverse[0]? = some life.first := by
  rw [← List.head?_eq_getElem?, List.head?_reverse]
  exact List.getLast?_eq_getLast_of_ne_nil (List.cons_ne_nil _ _)

theorem Life.state_of_stage {number : ℕ} {stage : Stage} (h : life.stages.reverse[number]? = some stage) :
    ∃ ended, life.states[number]? = some (stageRow life.objectKey number stage ended) :=
  getElem?_reverse_succession h

theorem Life.chapters_linked (chapter : ChapterRow) (h : chapter ∈ life.chapters) :
    1 ≤ chapter.sequence ∧ ∃ row ∈ life.states, row.sequence = chapter.sequence ∧
      row.outpoint = successorOf chapter.txid ∧ row.createdHeight = chapter.blockHeight := by
  obtain ⟨⟨stage, number⟩, hentry, hchapter⟩ := List.mem_filterMap.mp h
  have hstage : life.stages.reverse[number]? = some stage := List.mem_zipIdx_iff_getElem?.mp hentry
  obtain ⟨content, hcontent, rfl⟩ := Option.map_eq_some_iff.mp hchapter
  obtain ⟨ended, hrow⟩ := life.state_of_stage hstage
  refine ⟨?_, _, List.mem_of_getElem? hrow, rfl, rfl, rfl⟩
  -- No chapter is written with the first stage.
  by_contra hzero
  obtain rfl : number = 0 := by
    have : number < 1 := Nat.lt_of_not_le hzero
    omega
  obtain rfl := Option.some.inj (hstage.symm.trans life.first_stage)
  exact Option.some_ne_none content (hcontent.symm.trans life.unmarked)

theorem Life.length_chapters : life.chapters.length = life.record.chapterCount := by
  have hzip : life.stages.reverse.zipIdx.map Prod.fst = life.stages.reverse := List.zipIdx_map_fst 0 _
  calc life.chapters.length = life.stages.reverse.zipIdx.countP fun entry => entry.1.chapter.isSome := by
        rw [Life.chapters, List.length_filterMap_eq_countP]
        simp [stageChapter]
    _ = (life.stages.reverse.zipIdx.map Prod.fst).countP fun stage => stage.chapter.isSome := by
        rw [List.countP_map]
        rfl
    _ = life.record.chapterCount := by
        rw [hzip, List.countP_reverse]
        rfl

theorem Life.chapters_sorted : life.chapters.Pairwise fun a b => a.sequence < b.sequence := by
  have hnumbers : (life.stages.reverse.zipIdx.map Prod.snd).Pairwise fun m n => m < n := by
    rw [List.zipIdx_map_snd]
    exact List.pairwise_lt_range'
  refine List.pairwise_filterMap.mpr ((List.pairwise_map.mp hnumbers).imp ?_)
  rintro entry entry' hlt row hrow row' hrow'
  obtain ⟨content, -, rfl⟩ := Option.map_eq_some_iff.mp hrow
  obtain ⟨content', -, rfl⟩ := Option.map_eq_some_iff.mp hrow'
  exact hlt

/-- **The rows of a life are linked.** -/
theorem Life.linked : LinkedRows (objectRow life.record) life.states life.chapters where
  numbered := by
    have hnumber : ∀ number stage ended, (stageRow life.objectKey number stage ended).sequence = number := fun _ _ _ => rfl
    rw [Life.length_states, Life.states, List.map_reverse, map_succession_number hnumber, List.reverse_reverse]
    rfl
  sequence := by
    rw [Life.length_states]
    cases he : life.ending with
    | none => simp [objectRow, Life.record, he]
    | some e => by_cases hs : e.status = .closed <;> simp [objectRow, Life.record, he, hs]
  carriers row hrow := by
    obtain ⟨_, _, _, -, rfl⟩ := mem_succession (List.mem_reverse.mp hrow)
    rfl
  first := by
    obtain ⟨ended, hrow⟩ := life.state_of_stage life.first_stage
    exact ⟨_, List.head?_eq_getElem?.trans hrow, rfl, rfl⟩
  links := by
    refine List.isChain_reverse.mpr ((isChain_succession _ _).imp fun newer older h => ?_)
    obtain ⟨_, _, _, _, rfl, rfl⟩ := h
    exact ⟨rfl, rfl⟩
  last := by
    have hlast : life.states.getLast? = some (stageRow life.objectKey life.older.length life.newest
        (life.ending.map Ending.mark)) := List.getLast?_reverse
    refine ⟨_, hlast, rfl, rfl, ?_⟩
    cases he : life.ending with
    | none => simp [objectRow, Life.record, stageRow, he]
    | some e => simp [objectRow, Life.record, stageRow, Ending.mark, he, e.finished]
  ended := by
    show life.record.status = .active ↔ life.ending.map Ending.txid = none
    rw [life.status_active, Option.map_eq_none_iff]
  counted := life.length_chapters
  written := life.chapters_linked

end

/-! ### Tables that tell lives -/

/-- The rows of the states of an object. -/
def statesOf (key : Hash) (states : List StateRow) : List StateRow := states.filter fun row => row.objectKey = key

/-- The rows of its chapters. -/
def chaptersOf (key : Hash) (chapters : List ChapterRow) : List ChapterRow :=
  chapters.filter fun row => row.objectKey = key

/-- The states and the chapters tell a life of every object, and nothing else. The carriers are outputs of
transactions that were seen. -/
structure Chronicled (seen : List Hash) (objects : JsMap Hash ObjectRecord) (states : List StateRow)
    (chapters : List ChapterRow) : Prop where
  /-- The record, the states and the chapters of an object are those of a life. -/
  alive : ∀ k r, objects.get? k = some r → ∃ life : Life, life.objectKey = k ∧ life.record = r ∧
    statesOf k states = life.states ∧ chaptersOf k chapters = life.chapters
  /-- There are no others. -/
  unborn : ∀ k, objects.get? k = none → statesOf k states = [] ∧ chaptersOf k chapters = []
  /-- No carrier is made twice. -/
  apart : (states.map StateRow.outpoint).Nodup
  /-- The transactions of the carriers were seen. -/
  made : ∀ row ∈ states, row.outpoint.txid ∈ seen

theorem Chronicled.empty : Chronicled [] ∅ [] [] where
  alive k r h := by simp at h
  unborn k _ := ⟨rfl, rfl⟩
  apart := List.nodup_nil
  made row h := absurd h List.not_mem_nil

section

variable {seen : List Hash} {objects : JsMap Hash ObjectRecord} {states : List StateRow} {chapters : List ChapterRow}

theorem statesOf_append_of_ne {k key : Hash} (h : key ≠ k) (number : ℕ) (stage : Stage) :
    statesOf k (states ++ [stageRow key number stage none]) = statesOf k states := by
  unfold statesOf
  rw [List.filter_append]
  simp [stageRow, h]

theorem statesOf_append (key : Hash) (number : ℕ) (stage : Stage) :
    statesOf key (states ++ [stageRow key number stage none]) = statesOf key states ++ [stageRow key number stage none] := by
  unfold statesOf
  rw [List.filter_append]
  simp [stageRow]

theorem chaptersOf_append_of_ne {k key : Hash} (h : key ≠ k) (entry : Stage × ℕ) :
    chaptersOf k (chapters ++ (stageChapter key entry).toList) = chaptersOf k chapters := by
  unfold chaptersOf stageChapter
  rw [List.filter_append]
  cases entry.1.chapter <;> simp [chapterRow, h]

theorem chaptersOf_append (key : Hash) (entry : Stage × ℕ) :
    chaptersOf key (chapters ++ (stageChapter key entry).toList) =
      chaptersOf key chapters ++ (stageChapter key entry).toList := by
  unfold chaptersOf stageChapter
  rw [List.filter_append]
  cases entry.1.chapter <;> simp [chapterRow]

theorem statesOf_map_spendAt (k : Hash) (txid : Hash) (o : Outpoint) :
    statesOf k (states.map (spendAt height txid o)) = (statesOf k states).map (spendAt height txid o) := by
  unfold statesOf
  rw [List.filter_map]
  congr 1
  exact List.filter_congr fun row _ => by simp

theorem outpoints_map_spendAt (txid : Hash) (o : Outpoint) :
    (states.map (spendAt height txid o)).map StateRow.outpoint = states.map StateRow.outpoint := by
  rw [List.map_map]
  exact List.map_congr_left fun row _ => spendAt_outpoint txid o row

theorem Chronicled.mono {seen' : List Hash} (h : Chronicled seen objects states chapters)
    (sub : ∀ t ∈ seen, t ∈ seen') : Chronicled seen' objects states chapters :=
  ⟨h.alive, h.unborn, h.apart, fun row hr => sub _ (h.made row hr)⟩

variable (h : Chronicled seen objects states chapters)

include h

theorem Chronicled.lifeApart {life : Life} {k : Hash} (hs : statesOf k states = life.states) :
    (life.states.map StateRow.outpoint).Nodup :=
  h.apart.sublist (hs ▸ List.filter_sublist.map _)

/-- A spend of the carrier of one object leaves the states of the others alone. -/
theorem Chronicled.others {key k : Hash} (hne : k ≠ key) {row : StateRow} (hrow : row ∈ statesOf key states) (txid : Hash) :
    (statesOf k states).map (spendAt height txid row.outpoint) = statesOf k states := by
  refine (List.map_congr_left fun other hother => ?_).trans (List.map_id _)
  obtain ⟨hmem, hkey⟩ := List.mem_filter.mp hrow
  obtain ⟨hmem', hkey'⟩ := List.mem_filter.mp hother
  refine spendAt_eq_self fun ho => hne ?_
  obtain rfl := List.inj_on_of_nodup_map h.apart hmem' hmem ho
  exact (of_decide_eq_true hkey').symm.trans (of_decide_eq_true hkey)

/-- The carrier of an active object is the newest of its states. -/
theorem Chronicled.newest {key : Hash} {record : ObjectRecord} (found : objects.get? key = some record)
    (active : record.status = .active) : ∃ life : Life, life.objectKey = key ∧ life.record = record ∧
      life.ending = none ∧ statesOf key states = life.states ∧ chaptersOf key chapters = life.chapters ∧
      ∃ row ∈ statesOf key states, row.outpoint = successorOf life.newest.txid := by
  obtain ⟨life, hkey, rfl, hstates, hchapters⟩ := h.alive key record found
  refine ⟨life, hkey, rfl, Life.ending_of_active active, hstates, hchapters, ?_⟩
  have hmem : successorOf life.newest.txid ∈ life.states.map StateRow.outpoint := by
    rw [Life.outpoints]
    exact List.mem_reverse.mpr List.mem_cons_self
  obtain ⟨row, hrow, ho⟩ := List.mem_map.mp hmem
  exact ⟨row, hstates ▸ hrow, ho⟩

/-- **A new object** begins a life. -/
theorem Chronicled.born {key : Hash} {record : ObjectRecord} (stage : Stage) (founding : Bool)
    (unborn : objects.get? key = none) (unmarked : stage.chapter = none)
    (hrecord : (Life.born key founding stage unmarked).record = record) (new : stage.txid ∉ seen) :
    Chronicled (stage.txid :: seen) (objects.set key record) (states ++ [stageRow key 0 stage none]) chapters where
  alive k r hr := by
    rw [JsMap.get?_set] at hr
    split_ifs at hr with hk
    · subst hk
      obtain rfl := Option.some.inj hr
      obtain ⟨hstates, hchapters⟩ := h.unborn k unborn
      refine ⟨Life.born k founding stage unmarked, rfl, hrecord, ?_, ?_⟩
      · rw [statesOf_append, hstates]
        rfl
      · rw [hchapters]
        simp [Life.chapters, Life.born, Life.stages, stageChapter, unmarked]
    · rw [statesOf_append_of_ne (Ne.symm hk)]
      exact h.alive k r hr
  unborn k hk := by
    rw [JsMap.get?_set] at hk
    split_ifs at hk with hne
    rw [statesOf_append_of_ne (Ne.symm hne)]
    exact h.unborn k hk
  apart := by
    rw [List.map_append, List.nodup_append]
    refine ⟨h.apart, List.nodup_singleton _, fun o ho o' ho' he => new ?_⟩
    obtain ⟨row, hrow, rfl⟩ := List.mem_map.mp ho
    have hown : row.outpoint = successorOf stage.txid := he.trans (List.mem_singleton.mp ho')
    have := h.made row hrow
    rwa [hown] at this
  made row hrow := by
    rcases List.mem_append.mp hrow with hrow | hrow
    · exact List.mem_cons_of_mem _ (h.made row hrow)
    · rw [List.mem_singleton.mp hrow]
      exact List.mem_cons_self

/-- **An object that moves** goes on with its life. -/
theorem Chronicled.move {key : Hash} {record next : ObjectRecord} (stage : Stage) {o : Outpoint}
    (found : objects.get? key = some record) (active : record.status = .active) (carrier : record.currentOutpoint = some o)
    (hnext : next = record.moved stage.txid stage.height (record.stateSequence + 1) stage.key0 stage.key1 stage.chapter)
    (new : stage.txid ∉ seen) :
    Chronicled (stage.txid :: seen) (objects.set key next)
      (states.map (spendAt stage.height stage.txid o) ++ [stageRow key (record.stateSequence + 1) stage none])
      (chapters ++ (stageChapter key (stage, record.stateSequence + 1)).toList) := by
  obtain ⟨life, rfl, rfl, going, hstates, hchapters, row, hrow, hout⟩ := h.newest found active
  obtain rfl : successorOf life.newest.txid = o := Option.some.inj ((Life.currentOutpoint going).symm.trans carrier)
  have hseq : life.record.stateSequence + 1 = life.stages.length := by simp [Life.record, going, Life.stages]
  refine ⟨fun k r hr => ?_, fun k hk => ?_, ?_, fun r hr => ?_⟩
  · rw [JsMap.get?_set] at hr
    split_ifs at hr with hk
    · subst hk
      obtain rfl := Option.some.inj hr
      refine ⟨life.move stage, rfl, (Life.record_move going).trans hnext.symm, ?_, ?_⟩
      · rw [statesOf_append, statesOf_map_spendAt, hstates, Life.states_move going (h.lifeApart hstates), hseq]
      · rw [Life.chapters_move, ← hchapters, chaptersOf_append, hseq]
    · obtain ⟨other, hkey, hrec, hs, hch⟩ := h.alive k r hr
      refine ⟨other, hkey, hrec, ?_, ?_⟩
      · rw [statesOf_append_of_ne (Ne.symm hk), statesOf_map_spendAt, ← hout, h.others hk hrow, hs]
      · rw [chaptersOf_append_of_ne (Ne.symm hk), hch]
  · rw [JsMap.get?_set] at hk
    split_ifs at hk with hne
    obtain ⟨hs, hch⟩ := h.unborn k hk
    constructor
    · rw [statesOf_append_of_ne (Ne.symm hne), statesOf_map_spendAt, hs]
      rfl
    · rw [chaptersOf_append_of_ne (Ne.symm hne), hch]
  · rw [List.map_append, outpoints_map_spendAt, List.nodup_append]
    refine ⟨h.apart, List.nodup_singleton _, fun o ho o' ho' he => new ?_⟩
    obtain ⟨row, hrow, rfl⟩ := List.mem_map.mp ho
    have hown : row.outpoint = successorOf stage.txid := he.trans (List.mem_singleton.mp ho')
    have := h.made row hrow
    rwa [hown] at this
  · rcases List.mem_append.mp hr with hr | hr
    · obtain ⟨before, hbefore, rfl⟩ := List.mem_map.mp hr
      rw [spendAt_outpoint]
      exact List.mem_cons_of_mem _ (h.made before hbefore)
    · rw [List.mem_singleton.mp hr]
      exact List.mem_cons_self

/-- **An object that ends** ends its life. -/
theorem Chronicled.finish {key : Hash} {record next : ObjectRecord} (ending : Ending) {o : Outpoint}
    (found : objects.get? key = some record) (active : record.status = .active) (carrier : record.currentOutpoint = some o)
    (hnext : next = record.ended ending.status ending.txid
      (record.stateSequence + if ending.status = .closed then 1 else 0)) :
    Chronicled seen (objects.set key next) (states.map (spendAt ending.height ending.txid o)) chapters := by
  obtain ⟨life, rfl, rfl, going, hstates, hchapters, row, hrow, hout⟩ := h.newest found active
  obtain rfl : successorOf life.newest.txid = o := Option.some.inj ((Life.currentOutpoint going).symm.trans carrier)
  refine ⟨fun k r hr => ?_, fun k hk => ?_, ?_, fun r hr => ?_⟩
  · rw [JsMap.get?_set] at hr
    split_ifs at hr with hk
    · subst hk
      obtain rfl := Option.some.inj hr
      refine ⟨life.finish ending, rfl, (Life.record_finish going).trans hnext.symm, ?_, hchapters⟩
      rw [statesOf_map_spendAt, hstates, Life.states_finish going (h.lifeApart hstates)]
    · obtain ⟨other, hkey, hrec, hs, hch⟩ := h.alive k r hr
      refine ⟨other, hkey, hrec, ?_, hch⟩
      rw [statesOf_map_spendAt, ← hout, h.others hk hrow, hs]
  · rw [JsMap.get?_set] at hk
    split_ifs at hk with hne
    obtain ⟨hs, hch⟩ := h.unborn k hk
    refine ⟨?_, hch⟩
    rw [statesOf_map_spendAt, hs]
    rfl
  · rw [outpoints_map_spendAt]
    exact h.apart
  · obtain ⟨before, hbefore, rfl⟩ := List.mem_map.mp hr
    rw [spendAt_outpoint]
    exact h.made before hbefore

end

end IndexTandem.Indexer
