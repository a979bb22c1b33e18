import Mempool.Json.Schema
import Mempool.Limits.Basic

/-! The JSON form of limits: an object of five integers. -/
namespace Mempool.Limits

/-- Limits of which some members may not have been read yet. -/
structure Draft where
  maxTxBytes : Option UInt64
  size : Option UInt64
  maxTxsBytes : Option Int64
  pendingSize : Option UInt64
  maxPendingTxsBytes : Option Int64
deriving DecidableEq, Repr

open Json in
def Draft.finish (d : Draft) : Except DataError Limits := do
  let maxTxBytes ← required "max_tx_bytes" d.maxTxBytes
  let size ← required "size" d.size
  let maxTxsBytes ← required "max_txs_bytes" d.maxTxsBytes
  let pendingSize ← required "pending_size" d.pendingSize
  let maxPendingTxsBytes ← required "max_pending_txs_bytes" d.maxPendingTxsBytes
  return ⟨maxTxBytes, ⟨size, maxTxsBytes⟩, ⟨pendingSize, maxPendingTxsBytes⟩⟩

open Json in
def schema : Schema Draft Limits where
  title := "struct MempoolLimits"
  blank := ⟨none, none, none, none, none⟩
  finish := Draft.finish
  members :=
    [.of "max_tx_bytes" Draft.maxTxBytes (fun d n => { d with maxTxBytes := some n }) readUInt64,
     .of "size" Draft.size (fun d n => { d with size := some n }) readUInt64,
     .of "max_txs_bytes" Draft.maxTxsBytes (fun d n => { d with maxTxsBytes := some n }) readInt64,
     .of "pending_size" Draft.pendingSize (fun d n => { d with pendingSize := some n }) readUInt64,
     .of "max_pending_txs_bytes" Draft.maxPendingTxsBytes
       (fun d n => { d with maxPendingTxsBytes := some n }) readInt64]

def ofJson (text : String) : Except Json.ReadError Limits := Json.readText schema.read text

def jsonTokens (l : Limits) : List Json.Token :=
  Json.objectTokens
    [("max_tx_bytes", Json.numberTokens l.maxTxBytes.toNat),
     ("size", Json.numberTokens l.admitted.count.toNat),
     ("max_txs_bytes", Json.numberTokens l.admitted.bytes.toInt),
     ("pending_size", Json.numberTokens l.pending.count.toNat),
     ("max_pending_txs_bytes", Json.numberTokens l.pending.bytes.toInt)]

def toJson (l : Limits) : String := Json.written l.jsonTokens

end Mempool.Limits
