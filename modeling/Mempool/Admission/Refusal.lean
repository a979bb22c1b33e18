import Mempool.Decimal.Integer
import Mempool.Text.Debug

/-! The reasons for a rejection. Each belongs to one kind, and both have a label under which they are
counted. A refusal is for a reason of the mempool's own and has the numbers that it reports; failures
of the pluggable pre-check are not among them. -/
namespace Mempool

inductive RejectionKind where
  | duplicate
  | schedulingMismatch
  | capacityExceeded
  | preCheckFailed
deriving DecidableEq, Repr

inductive Reason where
  | alreadyKnown
  | wrongHeight
  | bundleFull
  | malformedForBundle
  | tooLarge
  | full
  | pendingFull
  | preCheck
deriving DecidableEq, Repr

namespace RejectionKind

def label : RejectionKind → String
  | duplicate => "duplicate"
  | schedulingMismatch => "scheduling_mismatch"
  | capacityExceeded => "capacity_exceeded"
  | preCheckFailed => "pre_check_failed"

def debugText : RejectionKind → String
  | duplicate => "Duplicate"
  | schedulingMismatch => "SchedulingMismatch"
  | capacityExceeded => "CapacityExceeded"
  | preCheckFailed => "PreCheckFailed"

end RejectionKind

namespace Reason

def label : Reason → String
  | alreadyKnown => "tx_in_cache"
  | wrongHeight => "wrong_height"
  | bundleFull => "bundle_full"
  | malformedForBundle => "tx_malformed_for_bundle"
  | tooLarge => "tx_too_large"
  | full => "mempool_is_full"
  | pendingFull => "mempool_pending_is_full"
  | preCheck => "pre_check"

def kind : Reason → RejectionKind
  | alreadyKnown => .duplicate
  | wrongHeight | bundleFull | malformedForBundle => .schedulingMismatch
  | tooLarge | full | pendingFull => .capacityExceeded
  | preCheck => .preCheckFailed

/-- All reasons, by the label of their kind and then by their own. -/
def all : List Reason :=
  [full, pendingFull, tooLarge, alreadyKnown, preCheck, bundleFull, malformedForBundle, wrongHeight]

theorem mem_all (r : Reason) : r ∈ all := by cases r <;> decide

end Reason

/-! ## Refusals -/

/-- How full a set of transactions was when one more was refused. -/
structure Occupancy where
  numTxs : UInt64
  maxTxs : UInt64
  txsBytes : Int64
  maxTxsBytes : Int64
deriving DecidableEq, Repr

inductive Refusal where
  | alreadyKnown
  | wrongHeight (desired current : Int64)
  | bundleFull (bundle height : Int64)
  | malformedForBundle (bundle size height order : Int64)
  | tooLarge (max actual : UInt64)
  | full (occupancy : Occupancy)
  | pendingFull (occupancy : Occupancy)
deriving DecidableEq, Repr

namespace Occupancy

def message (o : Occupancy) : String :=
  "number of txs " ++ Decimal.ofUInt64 o.numTxs ++ " (max: " ++ Decimal.ofUInt64 o.maxTxs ++
  "), total txs bytes " ++ Decimal.ofInt64 o.txsBytes ++
  " (max: " ++ Decimal.ofInt64 o.maxTxsBytes ++ ")"

def fields (o : Occupancy) : List (String × String) :=
  [("num_txs", Decimal.ofUInt64 o.numTxs), ("max_txs", Decimal.ofUInt64 o.maxTxs),
   ("txs_bytes", Decimal.ofInt64 o.txsBytes), ("max_txs_bytes", Decimal.ofInt64 o.maxTxsBytes)]

end Occupancy

namespace Refusal

def message : Refusal → String
  | alreadyKnown => "tx already exists in cache"
  | wrongHeight desired current =>
    "Tx submitted for wrong height, asked for " ++ Decimal.ofInt64 desired ++
    ", but current auction height is " ++ Decimal.ofInt64 current
  | bundleFull bundle height =>
    "Tx submitted but bundle is full, for bundleId " ++ Decimal.ofInt64 bundle ++
    " with bundle size " ++ Decimal.ofInt64 height
  | malformedForBundle bundle size height order =>
    "Tx submitted but malformed with respect to bundling, for bundleId " ++
    Decimal.ofInt64 bundle ++ ", at height " ++ Decimal.ofInt64 height ++
    ", with bundleSize " ++ Decimal.ofInt64 size ++
    ", and bundleOrder " ++ Decimal.ofInt64 order
  | tooLarge max actual =>
    "Tx too large. Max size is " ++ Decimal.ofUInt64 max ++
    ", but got " ++ Decimal.ofUInt64 actual
  | full occupancy => "mempool is full: " ++ occupancy.message
  | pendingFull occupancy => "mempool pending set is full: " ++ occupancy.message

/-- The variant and its numbered fields, as they stand in a dump. -/
def fields : Refusal → String × List (String × String)
  | alreadyKnown => ("TxInCache", [])
  | wrongHeight desired current =>
    ("WrongHeight", [("desired_height", Decimal.ofInt64 desired),
      ("current_auction_height", Decimal.ofInt64 current)])
  | bundleFull bundle height =>
    ("BundleFull", [("bundle_id", Decimal.ofInt64 bundle),
      ("bundle_height", Decimal.ofInt64 height)])
  | malformedForBundle bundle size height order =>
    ("TxMalformedForBundle", [("bundle_id", Decimal.ofInt64 bundle),
      ("bundle_size", Decimal.ofInt64 size), ("bundle_height", Decimal.ofInt64 height),
      ("bundle_order", Decimal.ofInt64 order)])
  | tooLarge max actual =>
    ("TxTooLarge", [("max", Decimal.ofUInt64 max), ("actual", Decimal.ofUInt64 actual)])
  | full occupancy => ("MempoolIsFull", occupancy.fields)
  | pendingFull occupancy => ("MempoolPendingIsFull", occupancy.fields)

def debugText (r : Refusal) : String := Text.record r.fields.1 r.fields.2

end Refusal

end Mempool
