import Mempool.Admission.Fault
import Mempool.Key
import Mempool.Limits.Basic
import Mempool.Metrics.Counters

/-! The pool of admitted transactions: entries in key order, their total size, the height of the
current auction, and the limits in force; and runs of a pool through any steps. -/
namespace Mempool

structure Pool where
  limits : Limits
  height : Int64
  entries : List (Key × List UInt8)
  txsBytes : Int64
deriving DecidableEq, Repr

namespace Pool

/-- The auction at which a new pool starts. -/
def firstHeight : Int64 := 10

def new (limits : Limits) : Pool := ⟨limits, firstHeight, [], 0⟩

def keys (p : Pool) : List Key := p.entries.map Prod.fst

def get? (p : Pool) (k : Key) : Option (List UInt8) := p.entries.lookup k

def contains (p : Pool) (k : Key) : Bool := p.keys.contains k

def numTxs (p : Pool) : UInt64 := UInt64.ofNat p.entries.length

/-- Puts an entry before the first one with a greater key. -/
def insertEntry (entry : Key × List UInt8) : List (Key × List UInt8) → List (Key × List UInt8)
  | [] => [entry]
  | other :: rest =>
    if (compare entry.1 other.1).isLT then entry :: other :: rest
    else other :: insertEntry entry rest

def store (p : Pool) (key : Key) (tx : List UInt8) : Pool :=
  { p with
    entries := insertEntry (key, tx) p.entries
    txsBytes := p.txsBytes + (UInt64.ofNat tx.length).toInt64 }

/-- The mempool's own checks, in their order; the first that fails decides. -/
def check (p : Pool) (tx : List UInt8) (height : Int64) : Except Refusal Unit := do
  if p.contains (Key.ofTx tx) then throw .alreadyKnown
  if height ≠ p.height then throw (.wrongHeight height p.height)
  p.limits.checkTxSize (UInt64.ofNat tx.length)
  p.limits.checkAdmitted p.numTxs p.txsBytes (UInt64.ofNat tx.length)

/-- Asks for the pre-check's verdict, a fault or nothing, only once the other checks pass. -/
def accept (p : Pool) (tx : List UInt8) (height : Int64) (verdict : Observed (Option Fault)) :
    Observed (Except Rejection Pool) :=
  match p.check tx height with
  | .error refusal => pure (.error (.refused refusal))
  | .ok () => do
    match ← verdict with
    | some fault => return .error (.preCheck fault)
    | none => return .ok (p.store (Key.ofTx tx) tx)

/-- The result of a submission and the pool after it, which a rejection leaves as it was. -/
def submit (p : Pool) (tx : List UInt8) (height : Int64) (verdict : Observed (Option Fault)) :
    Observed (Except Rejection Key × Pool) := do
  match ← p.accept tx height verdict with
  | .ok after => return (.ok (Key.ofTx tx), after)
  | .error rejection =>
    Observed.note (.rejected rejection.reason)
    return (.error rejection, p)

theorem length_insertEntry (entry : Key × List UInt8) (entries : List (Key × List UInt8)) :
    (insertEntry entry entries).length = entries.length + 1 := by
  induction entries with
  | nil => rfl
  | cons other rest ih =>
    rw [insertEntry]
    split
    · rfl
    · simp [ih]

theorem insertEntry_perm (entry : Key × List UInt8) (entries : List (Key × List UInt8)) :
    (insertEntry entry entries).Perm (entry :: entries) := by
  induction entries with
  | nil => exact .refl _
  | cons other rest ih =>
    rw [insertEntry]
    split
    · exact .refl _
    · exact (List.Perm.cons other ih).trans (.swap ..)

/-! ## Runs -/

inductive Step where
  | setHeight (height : Int64)
  | setLimits (limits : Limits)
  | submit (tx : List UInt8) (height : Int64) (verdict : Observed (Option Fault))
deriving DecidableEq, Repr

inductive Outcome where
  | set
  | submitted (result : Except Rejection Key)

def step (p : Pool) : Step → Observed (Outcome × Pool)
  | .setHeight height => pure (.set, { p with height })
  | .setLimits limits => pure (.set, { p with limits })
  | .submit tx height verdict => do
    let (result, after) ← p.submit tx height verdict
    return (.submitted result, after)

/-- The outcome of one step, with the pool and the counters after it. -/
structure Snapshot where
  outcome : Outcome
  pool : Pool
  counters : Counters

def run (p : Pool) (c : Counters) : List Step → List Snapshot
  | [] => []
  | s :: steps =>
    let seen := p.step s
    let counters := c.recordAll seen.events
    ⟨seen.value.1, seen.value.2, counters⟩ :: run seen.value.2 counters steps

end Pool

end Mempool
