import Mempool.Admission.Refusal

/-! What a run lets an observer see besides its results, rejections, conversions of wire messages
and notes on fields of an unusual length; and computations together with the events on the way. -/
namespace Mempool

inductive Event where
  | rejected (reason : Reason)
  | keyConverted (success : Bool)
  | oddField (length : Nat)
deriving DecidableEq, Repr

/-- The line that the event leaves in the log, if any. -/
def Event.logLine? : Event → Option String
  | oddField length =>
    some ("DEBUG tx key field has " ++ Decimal.ofNat length ++ " bytes, expected 32")
  | _ => none

/-- A value and the events of its computation, in order. -/
structure Observed (α : Type) where
  value : α
  events : List Event
deriving DecidableEq, Repr

namespace Observed

def bind (x : Observed α) (f : α → Observed β) : Observed β :=
  ⟨(f x.value).value, x.events ++ (f x.value).events⟩

instance : Monad Observed where
  pure a := ⟨a, []⟩
  bind := bind

def note (event : Event) : Observed Unit := ⟨(), [event]⟩

def logLines (x : Observed α) : List String := x.events.filterMap Event.logLine?

@[simp] theorem value_pure (a : α) : (pure a : Observed α).value = a := rfl
@[simp] theorem events_pure (a : α) : (pure a : Observed α).events = [] := rfl

@[simp] theorem value_bind (x : Observed α) (f : α → Observed β) :
    (x >>= f).value = (f x.value).value := rfl

@[simp] theorem events_bind (x : Observed α) (f : α → Observed β) :
    (x >>= f).events = x.events ++ (f x.value).events := rfl

end Observed

end Mempool
