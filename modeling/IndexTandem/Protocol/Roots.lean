import IndexTandem.Library.Except
import IndexTandem.Library.Lists
import IndexTandem.Protocol.Marker

/-!
# Roots and keys

What the protocol package hashes: the key of an object, the Merkle root of a block's
events, the Merkle root of the object states, and the root that chains a block to the
one before it. `sha256` is a parameter. The functions check the lengths of what they
are given and throw when one is wrong.

The object root sorts the objects by key, so it does not depend on the order in which
they are enumerated (`objectStateRoot_perm`).
-/

namespace IndexTandem.Protocol

open Library

/-- `EVENT_TYPE`. -/
inductive EventType where
  /-- Type 0. -/
  | INIT
  /-- Type 1. -/
  | CREATE
  /-- Type 2. -/
  | MARK
  /-- Type 3. -/
  | ROTATE
  /-- Type 4. -/
  | CLOSE
  /-- Type 5. -/
  | REFUND
  /-- Type 6. -/
  | EXITED_NONCANONICAL
  /-- Type 7. -/
  | INVALID
  deriving DecidableEq

/-- The number of an event type. -/
def EventType.code : EventType → ℕ
  | .INIT => 0
  | .CREATE => 1
  | .MARK => 2
  | .ROTATE => 3
  | .CLOSE => 4
  | .REFUND => 5
  | .EXITED_NONCANONICAL => 6
  | .INVALID => 7

/-- `VALIDITY_CLASS`. -/
inductive ValidityClass where
  /-- Class 0: the transaction is not an operation and moves no object. -/
  | INVALID_NO_STATE
  /-- Class 1: a valid operation. -/
  | VALID_OPERATION
  /-- Class 2: an object ended because its carrier was spent otherwise. -/
  | TERMINAL_NONCANONICAL
  deriving DecidableEq

/-- The number of a validity class. -/
def ValidityClass.code : ValidityClass → ℕ
  | .INVALID_NO_STATE => 0
  | .VALID_OPERATION => 1
  | .TERMINAL_NONCANONICAL => 2

/-- An event with its texts turned into bytes, as it is hashed. -/
structure CanonicalEvent where
  /-- The namespace. -/
  namespaceBytes : Bytes
  /-- The block. -/
  blockHash : Hash
  /-- Its height. -/
  height : ℕ
  /-- The transaction's position in the block. -/
  txIndex : ℕ
  /-- The marker's output. -/
  eventIndex : ℕ
  /-- The position among the transaction's events. -/
  subIndex : ℕ
  /-- The type. -/
  eventType : EventType
  /-- The class. -/
  validityClass : ValidityClass
  /-- The reason. -/
  reason : Reason
  /-- The transaction. -/
  txid : Hash
  /-- Its witness id. -/
  wtxid : Hash
  /-- The object, zeros when there is none. -/
  objectKey : Hash
  /-- The object's sequence. -/
  stateSequence : ℕ
  /-- The carrier spent. -/
  predecessorOutpoint : Option Outpoint
  /-- The carrier created. -/
  successorOutpoint : Option Outpoint
  /-- The first key. -/
  key0 : Bytes
  /-- The second key. -/
  key1 : Bytes
  /-- The commitment. -/
  commitment : Bytes

/-- An object's state, as it is hashed. -/
structure ObjectSnapshot where
  /-- The object. -/
  objectKey : Hash
  /-- It was created in the founding window. -/
  founding : Bool
  /-- The number of its status. -/
  status : ℕ
  /-- The height of its creation. -/
  createHeight : ℕ
  /-- Its sequence. -/
  stateSequence : ℕ
  /-- Its carrier; none when it has ended. -/
  currentOutpoint : Option Outpoint
  /-- The first key. -/
  key0 : Bytes
  /-- The second key. -/
  key1 : Bytes
  /-- The transaction that ended it; none while it is active. -/
  terminalTxid : Option Hash
  /-- The number of its chapters. -/
  chapterCount : ℕ

/-- The bytes of an ASCII tag. -/
def ascii (value : String) : Bytes := value.toList.map fun c => UInt8.ofNat c.toNat

section

variable (sha256 : Bytes → Hash)

/-- `objectKeyFromWire(namespace, createTxidWire)`. -/
def objectKeyFromWire (ns createTxid : Hash) : Hash :=
  sha256 (ascii "TANDEM/OBJECT\x00" ++ ns.bytes ++ wire32 createTxid ++ littleEndian 4 1)

/-- The wire form of an outpoint, or `ZERO36`. -/
def outpointOrZero (outpoint : Option Outpoint) : Bytes :=
  match outpoint with
  | some o => outpointWire o
  | none => List.replicate 36 0

/-! ### Merkle trees -/

/-- One level up: neighbours are hashed together, a last odd node with itself. -/
def merkleStep (nodeTag : Bytes) : List Hash → List Hash
  | left :: right :: rest => sha256 (nodeTag ++ left.bytes ++ right.bytes) :: merkleStep nodeTag rest
  | [left] => [sha256 (nodeTag ++ left.bytes ++ left.bytes)]
  | [] => []

/-- The loop of `merkleLevels`; `fuel` is at least the number of nodes. -/
def merkleUp (nodeTag : Bytes) : ℕ → List Hash → List Hash
  | 0, level => level
  | fuel + 1, level => if level.length > 1 then merkleUp nodeTag fuel (merkleStep sha256 nodeTag level) else level

/-- `merkle(leaves, nodeTag)`. -/
def merkle (leaves : List Hash) (nodeTag : Bytes) : Except String Hash := do
  ensure (leaves ≠ []) "cannot compute an unbound empty Merkle root"
  match (merkleUp sha256 nodeTag leaves.length leaves).head? with
  | some root => pure root
  | none => throw "unreachable Merkle root"

/-! ### The event root -/

/-- `checkEvent(event)`, for the fields whose type does not fix their length. -/
def checkEvent (event : CanonicalEvent) : Except String Unit := do
  assertLength event.namespaceBytes 32 "namespace"
  assertLength event.key0 33 "key0"
  assertLength event.key1 33 "key1"
  assertLength event.commitment 32 "commitment"

/-- `eventLeafPreimage(event)`. -/
def eventLeafPreimage (event : CanonicalEvent) : Except String Bytes := do
  checkEvent event
  let height ← u64le event.height
  let txIndex ← u32le event.txIndex
  let eventIndex ← u32le event.eventIndex
  let subIndex ← u32le event.subIndex
  let eventType ← u8 event.eventType.code
  let validityClass ← u8 event.validityClass.code
  let reason ← u16le event.reason.code
  let stateSequence ← u32le event.stateSequence
  pure (ascii "TANDEM/EVENT\x00" ++ event.namespaceBytes ++ wire32 event.blockHash ++ height ++ txIndex ++
    eventIndex ++ subIndex ++ eventType ++ validityClass ++ reason ++ wire32 event.txid ++
    wire32 event.wtxid ++ event.objectKey.bytes ++ stateSequence ++
    outpointOrZero event.predecessorOutpoint ++ outpointOrZero event.successorOutpoint ++
    event.key0 ++ event.key1 ++ event.commitment)

/-- The position of an event in its block. -/
def CanonicalEvent.position (event : CanonicalEvent) : ℕ × ℕ × ℕ :=
  (event.txIndex, event.eventIndex, event.subIndex)

/-- The order of positions: by transaction, then by output, then by sub-index. -/
def positionLE (p q : ℕ × ℕ × ℕ) : Bool :=
  p.1 < q.1 || (p.1 = q.1 && (p.2.1 < q.2.1 || (p.2.1 = q.2.1 && p.2.2 ≤ q.2.2)))

/-- Neighbours of a sorted list have different keys. -/
def adjacentDistinct {α β : Type} [DecidableEq β] (key : α → β) : List α → Bool
  | a :: b :: rest => key a ≠ key b && adjacentDistinct key (b :: rest)
  | _ => true

/-- `eventRoot(namespace, events)`. -/
def eventRoot (ns : Hash) (events : List CanonicalEvent) : Except String Hash :=
  if events.isEmpty then pure (sha256 (ascii "TANDEM/EVENT-EMPTY\x00" ++ ns.bytes))
  else do
    let ordered := sortBy (fun left right => positionLE left.position right.position) events
    ensure (adjacentDistinct CanonicalEvent.position ordered) "event positions must be unique"
    let leaves ← ordered.mapM eventLeafPreimage
    merkle sha256 (leaves.map sha256) (ascii "TANDEM/EVENT-NODE\x00")

/-! ### The object root -/

/-- `objectStateLeafPreimage(snapshot)`, likewise. -/
def objectStateLeafPreimage (snapshot : ObjectSnapshot) : Except String Bytes := do
  assertLength snapshot.key0 33 "key0"
  assertLength snapshot.key1 33 "key1"
  let founding ← u8 (if snapshot.founding then 1 else 0)
  let status ← u8 snapshot.status
  let createHeight ← u64le snapshot.createHeight
  let stateSequence ← u32le snapshot.stateSequence
  let chapterCount ← u32le snapshot.chapterCount
  pure (ascii "TANDEM/OBJECT-STATE\x00" ++ snapshot.objectKey.bytes ++ founding ++ status ++ createHeight ++
    stateSequence ++ outpointOrZero snapshot.currentOutpoint ++ snapshot.key0 ++ snapshot.key1 ++
    (snapshot.terminalTxid.elim Hash.zero.bytes wire32) ++ chapterCount)

/-- `compareBytes(left, right) <= 0`. -/
def bytesLE : Bytes → Bytes → Bool
  | [], _ => true
  | _ :: _, [] => false
  | a :: left, b :: right => a < b || (a = b && bytesLE left right)

/-- `objectStateRoot(namespace, snapshots)`. -/
def objectStateRoot (ns : Hash) (snapshots : List ObjectSnapshot) : Except String Hash :=
  if snapshots.isEmpty then pure (sha256 (ascii "TANDEM/OBJECT-EMPTY\x00" ++ ns.bytes))
  else do
    let ordered := sortBy (fun left right => bytesLE left.objectKey.bytes right.objectKey.bytes) snapshots
    ensure (adjacentDistinct ObjectSnapshot.objectKey ordered) "object keys must be unique"
    let leaves ← ordered.mapM objectStateLeafPreimage
    merkle sha256 (leaves.map sha256) (ascii "TANDEM/OBJECT-NODE\x00")

/-! ### The chain of roots -/

/-- `initialStateRoot(namespace)`. -/
def initialStateRoot (ns : Hash) : Hash := sha256 (ascii "TANDEM/STATE-EMPTY\x00" ++ ns.bytes)

/-- What `chainedBlockRoot` hashes. -/
structure BlockRootInput where
  /-- The namespace. -/
  ns : Hash
  /-- The root of the block before. -/
  previousRoot : Hash
  /-- The block. -/
  blockHash : Hash
  /-- Its height. -/
  height : ℕ
  /-- Its event root. -/
  eventRoot : Hash
  /-- The object root after it. -/
  objectStateRoot : Hash
  /-- The objects created in the founding window. -/
  foundingCreated : ℕ
  /-- All objects. -/
  allObjects : ℕ
  /-- The active ones. -/
  activeObjects : ℕ

/-- `chainedBlockRoot(input)`. -/
def chainedBlockRoot (input : BlockRootInput) : Except String Hash := do
  let height ← u64le input.height
  let foundingCreated ← u64le input.foundingCreated
  let allObjects ← u64le input.allObjects
  let activeObjects ← u64le input.activeObjects
  pure (sha256 (ascii "TANDEM/BLOCKROOT\x00" ++ input.ns.bytes ++ input.previousRoot.bytes ++
    wire32 input.blockHash ++ height ++ input.eventRoot.bytes ++ input.objectStateRoot.bytes ++
    foundingCreated ++ allObjects ++ activeObjects))

end

/-! ### The object root does not depend on the enumeration -/

theorem bytesLE_total : ∀ l r : Bytes, bytesLE l r || bytesLE r l
  | [], _ => by simp [bytesLE]
  | _ :: _, [] => by simp [bytesLE]
  | a :: l, b :: r => by
    have ih := bytesLE_total l r
    simp only [bytesLE, Bool.or_eq_true, decide_eq_true_eq, Bool.and_eq_true] at ih ⊢
    rcases Nat.lt_trichotomy a.toNat b.toNat with h | h | h
    · exact Or.inl (Or.inl h)
    · obtain rfl := UInt8.toNat_inj.mp h
      rcases ih with ih | ih
      · exact Or.inl (Or.inr ⟨rfl, ih⟩)
      · exact Or.inr (Or.inr ⟨rfl, ih⟩)
    · exact Or.inr (Or.inl h)

theorem bytesLE_trans : ∀ l m r : Bytes, bytesLE l m = true → bytesLE m r = true → bytesLE l r = true
  | [], _, _, _, _ => by simp [bytesLE]
  | _ :: _, [], _, h, _ => by simp [bytesLE] at h
  | _ :: _, _ :: _, [], _, h => by simp [bytesLE] at h
  | a :: l, b :: m, c :: r, h₁, h₂ => by
    simp only [bytesLE, Bool.or_eq_true, decide_eq_true_eq, Bool.and_eq_true] at h₁ h₂ ⊢
    rcases h₁ with h₁ | ⟨rfl, h₁⟩
    · rcases h₂ with h₂ | ⟨rfl, -⟩
      · exact Or.inl (UInt8.lt_trans h₁ h₂)
      · exact Or.inl h₁
    · rcases h₂ with h₂ | ⟨rfl, h₂⟩
      · exact Or.inl h₂
      · exact Or.inr ⟨rfl, bytesLE_trans l m r h₁ h₂⟩

theorem bytesLE_antisymm : ∀ l r : Bytes, bytesLE l r = true → bytesLE r l = true → l = r
  | [], [], _, _ => rfl
  | [], _ :: _, _, h => by simp [bytesLE] at h
  | _ :: _, [], h, _ => by simp [bytesLE] at h
  | a :: l, b :: r, h₁, h₂ => by
    simp only [bytesLE, Bool.or_eq_true, decide_eq_true_eq, Bool.and_eq_true] at h₁ h₂
    rcases h₁ with h₁ | ⟨rfl, h₁⟩
    · rcases h₂ with h₂ | ⟨rfl, -⟩
      · exact absurd (UInt8.lt_trans h₁ h₂) (UInt8.lt_irrefl a)
      · exact absurd h₁ (UInt8.lt_irrefl _)
    · rcases h₂ with h₂ | ⟨-, h₂⟩
      · exact absurd h₂ (UInt8.lt_irrefl a)
      · rw [bytesLE_antisymm l r h₁ h₂]

/-- **Enumeration order is immaterial**: snapshots with distinct keys have one object
root, in whatever order they are listed. -/
theorem objectStateRoot_perm (sha256 : Bytes → Hash) (ns : Hash) {l l' : List ObjectSnapshot}
    (h : l.Perm l') (hd : (l.map ObjectSnapshot.objectKey).Nodup) :
    objectStateRoot sha256 ns l = objectStateRoot sha256 ns l' := by
  have hsort : sortBy (fun a b => bytesLE a.objectKey.bytes b.objectKey.bytes) l =
      sortBy (fun a b => bytesLE a.objectKey.bytes b.objectKey.bytes) l' :=
    sortBy_congr (fun a b c => bytesLE_trans a.objectKey.bytes b.objectKey.bytes c.objectKey.bytes)
      (fun a b => bytesLE_total a.objectKey.bytes b.objectKey.bytes) h
      fun a ha b hb hab hba =>
        List.inj_on_of_nodup_map hd ha hb (Hash.ext (bytesLE_antisymm _ _ hab hba))
  have hempty : l.isEmpty = l'.isEmpty := by
    cases l with
    | nil => rw [h.nil_eq]
    | cons a l =>
      cases l' with
      | nil => exact absurd h.eq_nil (List.cons_ne_nil a l)
      | cons b l' => rfl
  unfold objectStateRoot
  rw [hsort, hempty]

end IndexTandem.Protocol
