import Mempool.Admission.Refusal
import Mempool.Bytes.LittleEndian

/-! Admission limits: the largest transaction, and a budget of count and bytes for each of the
admitted and the pending set. Their binary form is five little-endian words of eight bytes, signed
ones in two's complement. They can be taken from environment variables, each of which overrides one
limit when its value is a decimal integer in that limit's range; any other value counts as unset. -/
namespace Mempool

structure Budget where
  count : UInt64
  bytes : Int64
deriving DecidableEq, Repr

structure Limits where
  maxTxBytes : UInt64
  admitted : Budget
  pending : Budget
deriving DecidableEq, Repr

namespace Budget

/-- The total after one more transaction, held at the ends of the signed range. A size from 2^63
on counts as negative. -/
def totalAfter (txsBytes : Int64) (txSize : UInt64) : Int64 :=
  Int64.ofIntClamp (txsBytes.toInt + txSize.toInt64.toInt)

def admits (b : Budget) (numTxs : UInt64) (txsBytes : Int64) (txSize : UInt64) : Bool :=
  numTxs < b.count && totalAfter txsBytes txSize ≤ b.bytes

def occupancy (b : Budget) (numTxs : UInt64) (txsBytes : Int64) : Occupancy :=
  ⟨numTxs, b.count, txsBytes, b.bytes⟩

end Budget

namespace Limits

/-- A mebibyte for one transaction; five thousand transactions and a gibibyte for either set. -/
def standard : Limits := ⟨0x100000, ⟨5000, 0x40000000⟩, ⟨5000, 0x40000000⟩⟩

instance : Inhabited Limits := ⟨standard⟩

def checkTxSize (l : Limits) (actual : UInt64) : Except Refusal Unit :=
  if l.maxTxBytes < actual then .error (.tooLarge l.maxTxBytes actual) else .ok ()

/-- Whether one more transaction fits the admitted set. -/
def checkAdmitted (l : Limits) (numTxs : UInt64) (txsBytes : Int64) (txSize : UInt64) :
    Except Refusal Unit :=
  if l.admitted.admits numTxs txsBytes txSize then .ok ()
  else .error (.full (l.admitted.occupancy numTxs txsBytes))

/-- Whether one more transaction fits the pending set. -/
def checkPending (l : Limits) (numTxs : UInt64) (txsBytes : Int64) (txSize : UInt64) :
    Except Refusal Unit :=
  if l.pending.admits numTxs txsBytes txSize then .ok ()
  else .error (.pendingFull (l.pending.occupancy numTxs txsBytes))

def debugText (l : Limits) : String :=
  Text.record "MempoolLimits"
    [("max_tx_bytes", Decimal.ofUInt64 l.maxTxBytes),
     ("size", Decimal.ofUInt64 l.admitted.count),
     ("max_txs_bytes", Decimal.ofInt64 l.admitted.bytes),
     ("pending_size", Decimal.ofUInt64 l.pending.count),
     ("max_pending_txs_bytes", Decimal.ofInt64 l.pending.bytes)]

/-! ## The binary form -/

def encodedSize : Nat := 40

def encode (l : Limits) : List UInt8 :=
  LittleEndian.encode 8 l.maxTxBytes.toNat ++
  LittleEndian.encode 8 l.admitted.count.toNat ++
  LittleEndian.encode 8 l.admitted.bytes.toUInt64.toNat ++
  LittleEndian.encode 8 l.pending.count.toNat ++
  LittleEndian.encode 8 l.pending.bytes.toUInt64.toNat

/-- The word at a place of eight bytes. -/
def wordAt (bytes : List UInt8) (place : Nat) : UInt64 :=
  UInt64.ofNat (LittleEndian.value ((bytes.drop (8 * place)).take 8))

def decode (bytes : List UInt8) : Except CodecError Limits :=
  if bytes.length < encodedSize then .error .endOfInput
  else .ok ⟨wordAt bytes 0, ⟨wordAt bytes 1, (wordAt bytes 2).toInt64⟩,
    ⟨wordAt bytes 3, (wordAt bytes 4).toInt64⟩⟩

@[simp] theorem length_encode (l : Limits) : l.encode.length = encodedSize := by
  simp [encode, encodedSize]

end Limits

/-! ## Limits from the environment -/

/-- The text of each variable; `none` for one that is unset or not text. -/
abbrev Environment := String → Option String

namespace Environment

def get (env : Environment) (name : String) (read? : List Char → Option α) (default : α) : α :=
  ((env name).bind fun text => read? text.toList).getD default

/-- Variables as bytes. Bytes that are not UTF-8 leave their variable unset. -/
def ofBytes (settings : List (String × List UInt8)) : Environment := fun name =>
  (settings.lookup name).bind fun bytes => String.fromUTF8? ⟨bytes.toArray⟩

end Environment

def Limits.ofEnvironment (env : Environment) : Limits :=
  ⟨env.get "QNET_MEMPOOL_MAX_TX_BYTES" Decimal.uint64? standard.maxTxBytes,
   ⟨env.get "QNET_MEMPOOL_SIZE" Decimal.uint64? standard.admitted.count,
    env.get "QNET_MEMPOOL_MAX_TXS_BYTES" Decimal.int64? standard.admitted.bytes⟩,
   ⟨env.get "QNET_MEMPOOL_PENDING_SIZE" Decimal.uint64? standard.pending.count,
    env.get "QNET_MEMPOOL_MAX_PENDING_TXS_BYTES" Decimal.int64? standard.pending.bytes⟩⟩

end Mempool
