import IndexTandem.Library.Except
import IndexTandem.Protocol.Bytes
import Mathlib.Data.Int.Notation

/-!
# Normalized Bitcoin blocks

The blocks as `BitcoinRpcClient` hands them to the indexer: hashes in lowercase
display order, amounts in satoshis, outputs sorted by index. `orderedBlockTransactions`
numbers a block's transactions and refuses a repeated txid or a misplaced coinbase.
-/

namespace IndexTandem.Protocol

open Library

/-- The output an input spends. -/
structure BitcoinPrevout where
  /-- Its amount. -/
  valueSats : ℕ
  /-- Its script. -/
  scriptPubKeyHex : String
  /-- The node knows the height of its block. -/
  confirmed : Bool
  /-- That height. -/
  blockHeight : Option ℕ
  deriving DecidableEq

/-- A transaction input; a coinbase input has no `txid` and no `vout`. -/
structure BitcoinInput where
  /-- The transaction whose output is spent. -/
  txid : Option Hash
  /-- The index of that output. -/
  vout : Option UInt32
  /-- The coinbase script of a coinbase input. -/
  coinbase : Option String
  /-- The scriptSig, empty for a native SegWit spend. -/
  scriptSigHex : String
  /-- The sequence number. -/
  sequence : ℕ
  /-- The witness elements. -/
  witness : List String
  /-- The spent output. -/
  prevout : Option BitcoinPrevout
  deriving DecidableEq

/-- A transaction output. -/
structure BitcoinOutput where
  /-- Its index. -/
  n : ℕ
  /-- Its amount. -/
  valueSats : ℕ
  /-- Its script. -/
  scriptPubKeyHex : String
  deriving DecidableEq

/-- A transaction. The node may report the version as a signed or an unsigned number. -/
structure BitcoinTransaction where
  /-- The transaction id. -/
  txid : Hash
  /-- The witness transaction id. -/
  wtxid : Hash
  /-- The version. -/
  version : ℤ
  /-- The lock time. -/
  locktime : ℕ
  /-- The inputs. -/
  inputs : List BitcoinInput
  /-- The outputs, by index. -/
  outputs : List BitcoinOutput
  deriving DecidableEq

/-- A block. -/
structure BitcoinBlock where
  /-- The block hash. -/
  hash : Hash
  /-- The parent's hash; the genesis block has none. -/
  previousBlockHash : Option Hash
  /-- The height. -/
  height : ℕ
  /-- The header time. -/
  time : ℕ
  /-- The transactions, the coinbase first. -/
  transactions : List BitcoinTransaction
  deriving DecidableEq

/-- `input.coinbase` as a condition: an absent or empty text is false. -/
def BitcoinInput.isCoinbase (input : BitcoinInput) : Bool := input.coinbase.any fun script => script ≠ ""

/-- `inputDisplayOutpoint(input)`: the outpoint spent, or nothing for a coinbase input. -/
def inputDisplayOutpoint (input : BitcoinInput) : Option Outpoint :=
  match input.txid, input.vout with
  | some txid, some vout => some ⟨txid, vout⟩
  | _, _ => none

/-- The outpoints a transaction spends, in the order of its inputs. -/
def BitcoinTransaction.spends (transaction : BitcoinTransaction) : List Outpoint :=
  transaction.inputs.filterMap inputDisplayOutpoint

/-- A transaction with its position in the block. -/
structure OrderedTransaction where
  /-- The position. -/
  txIndex : ℕ
  /-- The transaction. -/
  transaction : BitcoinTransaction
  deriving DecidableEq

/-- The loop of `orderedBlockTransactions` from position `txIndex` on, `seen` being
the txids before it. -/
def orderFrom : ℕ → List Hash → List BitcoinTransaction → Except String (List OrderedTransaction)
  | _, _, [] => pure []
  | txIndex, seen, transaction :: rest => do
    ensure (transaction.txid ∉ seen) ("duplicate txid in block: " ++ transaction.txid.text)
    let coinbase := transaction.inputs.any BitcoinInput.isCoinbase
    ensure (¬(txIndex = 0 ∧ coinbase = false)) "first transaction must be coinbase"
    ensure (¬(txIndex > 0 ∧ coinbase = true)) "coinbase transaction must be first"
    let ordered ← orderFrom (txIndex + 1) (transaction.txid :: seen) rest
    pure (⟨txIndex, transaction⟩ :: ordered)

/-- `orderedBlockTransactions(block)`. -/
def orderedBlockTransactions (block : BitcoinBlock) : Except String (List OrderedTransaction) :=
  orderFrom 0 [] block.transactions

/-- What `orderFrom` returns: the transactions, numbered, with distinct new txids. -/
theorem orderFrom_ok {i : ℕ} {seen : List Hash} {txs : List BitcoinTransaction}
    {l : List OrderedTransaction} (h : orderFrom i seen txs = .ok l) :
    l.map OrderedTransaction.transaction = txs ∧
      l.map OrderedTransaction.txIndex = List.range' i txs.length ∧
      (txs.map BitcoinTransaction.txid).Nodup ∧ ∀ t ∈ txs, t.txid ∉ seen := by
  induction txs generalizing i seen l with
  | nil => cases h; simp
  | cons t txs ih =>
    simp only [orderFrom] at h
    obtain ⟨_, hseen, h⟩ := bind_eq_ok.mp h
    obtain ⟨_, -, h⟩ := bind_eq_ok.mp h
    obtain ⟨_, -, h⟩ := bind_eq_ok.mp h
    obtain ⟨l', hl', h⟩ := bind_eq_ok.mp h
    rw [ensure_eq_ok] at hseen
    rw [pure_eq_ok] at h
    subst h
    obtain ⟨h₁, h₂, h₃, h₄⟩ := ih hl'
    refine ⟨by simp [h₁], by simp [h₂, List.range'_succ], ?_, ?_⟩
    · rw [List.map_cons, List.nodup_cons]
      refine ⟨fun hm => ?_, h₃⟩
      obtain ⟨u, hu, hut⟩ := List.mem_map.mp hm
      exact h₄ u hu (by simp [hut])
    · intro u hu
      rcases List.mem_cons.mp hu with rfl | hu
      · exact hseen
      · exact fun hm => h₄ u hu (List.mem_cons_of_mem _ hm)

end IndexTandem.Protocol
