import Mathlib.Logic.Function.Basic
import Mempool.Proofs.Pool.Log
import Mempool.Wire.Reception

/-! Sessions: any number of pools and other callers that share the counters. The history of a
session lists what was called and how it ended; the counters can be found from it alone. -/
namespace Mempool

/-- A use of the counters outside a pool. Rejections and conversions can also be reported by the
caller, without a submission or a message. -/
inductive Use where
  | rejection (rejection : Rejection)
  | conversion (success : Bool)
  | message (message : Option KeyMessage)
  | messages (messages : List (Option KeyMessage))
deriving DecidableEq, Repr

/-- A pre-check may use the counters itself on the way to its verdict. -/
structure PreCheck where
  uses : List Use
  fault : Option Fault
deriving DecidableEq, Repr

inductive Call where
  | use (use : Use)
  | setHeight (pool : Nat) (height : Int64)
  | setLimits (pool : Nat) (limits : Limits)
  | submit (pool : Nat) (tx : List UInt8) (height : Int64) (preCheck : PreCheck)
deriving DecidableEq, Repr

/-- A call that has returned. -/
inductive Entry where
  | used (use : Use)
  | set
  | submitted (preCheck : PreCheck) (result : Except Rejection Key)

structure Session where
  pools : Nat → Pool
  counters : Counters

def Use.events : Use → List Event
  | rejection r => [.rejected r.reason]
  | conversion success => [.keyConverted success]
  | message m => (Key.receive m).events
  | messages ms => (Key.receiveAll ms).events

def PreCheck.verdict (check : PreCheck) : Observed (Option Fault) :=
  ⟨check.fault, check.uses.flatMap Use.events⟩

def Call.isSubmission : Call → Bool
  | submit .. => true
  | _ => false

namespace Session

def start (pools : Nat → Pool) : Session := ⟨pools, .empty⟩

/-- One of the pools takes a step. -/
def move (s : Session) (pool : Nat) (step : Pool.Step) : Session :=
  let seen := (s.pools pool).step step
  ⟨Function.update s.pools pool seen.value.2, s.counters.recordAll seen.events⟩

def step (s : Session) : Call → Entry × Session
  | .use u => (.used u, { s with counters := s.counters.recordAll u.events })
  | .setHeight pool height => (.set, s.move pool (.setHeight height))
  | .setLimits pool limits => (.set, s.move pool (.setLimits limits))
  | .submit pool tx height check =>
    (.submitted check ((s.pools pool).submit tx height check.verdict).value.1,
      s.move pool (.submit tx height check.verdict))

def history (s : Session) : List Call → List Entry
  | [] => []
  | call :: calls => (s.step call).1 :: history (s.step call).2 calls

def after (s : Session) : List Call → Session
  | [] => s
  | call :: calls => after (s.step call).2 calls

end Session

/-! ## What a history shows -/

namespace Use

def reported : Use → List Rejection
  | rejection r => [r]
  | _ => []

def told : Use → List Bool
  | conversion success => [success]
  | _ => []

/-- The messages that are looked at: of a list, those up to the first absent one. -/
def met : Use → List (Option KeyMessage)
  | message m => [m]
  | messages ms => ms.take (ms.findIdx Option.isNone + 1)
  | _ => []

end Use

namespace Entry

/-- The result of a submission, if the call was one. -/
def rejected : Entry → List Rejection
  | submitted _ (.error rejection) => [rejection]
  | _ => []

def admitted : Entry → List Key
  | submitted _ (.ok key) => [key]
  | _ => []

/-- The uses outside the pool: the call itself, or those of a pre-check, which has run unless the
pool's own checks have refused the transaction before. -/
def uses : Entry → List Use
  | used u => [u]
  | set => []
  | submitted check (.ok _) => check.uses
  | submitted check (.error (.preCheck _)) => check.uses
  | submitted _ (.error (.refused _)) => []

/-- The events of the call, as far as they are counted. -/
def events (e : Entry) : List Event :=
  e.uses.flatMap Use.events ++ e.rejected.map fun r => .rejected r.reason

end Entry

theorem Pool.events_submit (p : Pool) (tx : List UInt8) (height : Int64) (check : PreCheck) :
    (p.submit tx height check.verdict).events =
      (Entry.submitted check (p.submit tx height check.verdict).value.1).events := by
  rw [Entry.events, value_submit]
  simp only [submit, accept, Observed.events_bind]
  cases p.check tx height with
  | error refusal => rfl
  | ok passed =>
    simp only [Observed.events_bind, Observed.value_bind, PreCheck.verdict]
    cases check.fault with
    | some fault => simp [Entry.uses, Entry.rejected, Observed.note, Rejection.reason]
    | none => simp [Entry.uses, Entry.rejected]

namespace Session

theorem counters_step (s : Session) (call : Call) :
    (s.step call).2.counters = s.counters.recordAll (s.step call).1.events := by
  cases call with
  | use u => simp [step, Entry.events, Entry.uses, Entry.rejected]
  | setHeight pool height => rfl
  | setLimits pool limits => rfl
  | submit pool tx height check =>
    have seen := (s.pools pool).events_submit tx height check
    simp only [step, move, Pool.step, Observed.events_bind, Observed.events_pure, List.append_nil,
      seen]

theorem counters_after (s : Session) (calls : List Call) :
    (s.after calls).counters = s.counters.recordAll ((s.history calls).flatMap Entry.events) := by
  induction calls generalizing s with
  | nil => rfl
  | cons call calls ih =>
    rw [after, ih, counters_step, history, List.flatMap_cons, Counters.recordAll_append]

end Session

end Mempool
