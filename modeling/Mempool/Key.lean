import Mempool.Bytes.Hex
import Mempool.Sha256

/-! Transaction keys: 32 bytes, by default the SHA-256 of the transaction. Keys are ordered by
their bytes and written as lowercase hexadecimal; their binary form is the bytes themselves. -/
namespace Mempool

structure Key where
  bytes : List UInt8
  length_bytes : bytes.length = 32
deriving DecidableEq, Repr

namespace Key

def size : Nat := 32

theorem ext {a b : Key} (same : a.bytes = b.bytes) : a = b := by
  cases a; cases b; cases same; rfl

theorem ext_iff {a b : Key} : a = b ↔ a.bytes = b.bytes := ⟨congrArg bytes, ext⟩

def ofBytes? (bytes : List UInt8) : Option Key :=
  if exact : bytes.length = 32 then some ⟨bytes, exact⟩ else none

def ofTx (tx : List UInt8) : Key := ⟨Sha256.digest tx, Sha256.length_digest tx⟩

/-- The keys of a batch of transactions, in their order. -/
def ofTxs (txs : List (List UInt8)) : List Key := txs.map ofTx

def zero : Key := ⟨List.replicate 32 0, rfl⟩

instance : Inhabited Key := ⟨zero⟩

instance : Ord Key := ⟨fun a b => compare a.bytes b.bytes⟩

def text (k : Key) : String := Hex.text k.bytes

/-- The first eight digits, enough to tell keys apart in a listing. -/
def short (k : Key) : String := Hex.text (k.bytes.take 4)

def debugText (k : Key) : String := "TxKey(" ++ k.text ++ ")"

/-- The place of the first key equal to each one. -/
def firstPlaces (keys : List Key) : List Nat := keys.map fun k => keys.idxOf k

def sort (keys : List Key) : List Key := keys.mergeSort fun a b => (compare a b).isLE

@[simp] theorem compare_eq (a b : Key) : compare a b = compare a.bytes b.bytes := rfl

theorem sort_perm (keys : List Key) : (sort keys).Perm keys := List.mergeSort_perm _ _

def encode (k : Key) : List UInt8 := k.bytes

def decode (bytes : List UInt8) : Except CodecError Key :=
  match ofBytes? (bytes.take size) with
  | some k => .ok k
  | none => .error .endOfInput

end Key

end Mempool
