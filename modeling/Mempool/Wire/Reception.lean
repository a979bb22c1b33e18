import Mempool.Key
import Mempool.Metrics.Observed
import Mempool.Wire.Message

/-! Keys from received messages. A field of another length than 32 is cut or filled with zeros
and noted; an absent message ends a list without a result. Every attempt is counted. On the way a
message may be lost, or its bytes damaged. -/
namespace Mempool

namespace Key

def toMessage (k : Key) : KeyMessage := ⟨k.bytes⟩

theorem length_encode_toMessage (k : Key) : k.toMessage.encode.length = 40 := by
  rw [KeyMessage.length_encode, toMessage, k.length_bytes]

theorem fits_toMessage (k : Key) : k.toMessage.field.length < LittleEndian.capacity 8 := by
  rw [toMessage, k.length_bytes]
  decide

def ofField (field : List UInt8) : Key :=
  ⟨(field ++ List.replicate size 0).take size, by simp [size]⟩

/-- The events of converting a field of this length. -/
def fieldEvents (length : Nat) : List Event :=
  if length = size then [.keyConverted true] else [.oddField length, .keyConverted true]

def receive : Option KeyMessage → Observed (Except WireError Key)
  | none => ⟨.error .absent, [.keyConverted false]⟩
  | some m => ⟨.ok (ofField m.field), fieldEvents m.field.length⟩

/-- Messages after the first absent one are not looked at. -/
def receiveAll : List (Option KeyMessage) → Observed (Except WireError (List Key))
  | [] => pure (.ok [])
  | message :: rest => do
    match ← receive message with
    | .error e => return .error e
    | .ok key => return (← receiveAll rest).map (key :: ·)

@[simp] theorem receiveAll_nil : receiveAll [] = ⟨.ok [], []⟩ := rfl

@[simp] theorem receiveAll_none_cons (rest : List (Option KeyMessage)) :
    receiveAll (none :: rest) = ⟨.error .absent, [.keyConverted false]⟩ := rfl

@[simp] theorem receiveAll_some_cons (m : KeyMessage) (rest : List (Option KeyMessage)) :
    receiveAll (some m :: rest) =
      ⟨(receiveAll rest).value.map (ofField m.field :: ·),
        fieldEvents m.field.length ++ (receiveAll rest).events⟩ := by
  simp only [receiveAll, receive, bind, Observed.bind, pure, List.append_nil]

@[simp] theorem bytes_ofField (field : List UInt8) :
    (ofField field).bytes = (field ++ List.replicate 32 0).take 32 := rfl

@[simp] theorem ofField_bytes (k : Key) : ofField k.bytes = k := by
  apply ext
  simp [k.length_bytes]

end Key

/-! ## An unreliable channel -/

/-- Done to the bytes in this order. An overwrite past the end has no effect. -/
structure Damage where
  truncate : Option Nat
  overwrite : List (Nat × UInt8)
  append : List UInt8
deriving DecidableEq, Repr, Inhabited

inductive Delivery where
  | lost
  | carried (damage : Damage)
deriving DecidableEq, Repr

/-- What a receiver holds after one delivery. -/
inductive Arrival where
  | nothing
  | unreadable (error : WireError)
  | message (message : KeyMessage)
deriving DecidableEq, Repr

namespace Damage

def none : Damage := ⟨.none, [], []⟩

def apply (d : Damage) (bytes : List UInt8) : List UInt8 :=
  let kept := match d.truncate with
    | .none => bytes
    | .some length => bytes.take length
  d.overwrite.foldl (fun bs (place, byte) => bs.set place byte) kept ++ d.append

@[simp] theorem apply_none (bytes : List UInt8) : none.apply bytes = bytes := by
  simp [none, apply]

end Damage

namespace Arrival

def ofBytes (bytes : List UInt8) : Arrival :=
  match KeyMessage.decode bytes with
  | .ok m => .message m
  | .error e => .unreadable e

/-- A message that cannot be read counts as absent. -/
def toMessage? : Arrival → Option KeyMessage
  | message m => some m
  | _ => none

end Arrival

namespace Gossip

def send (tx : List UInt8) : Delivery → Arrival
  | .lost => .nothing
  | .carried damage => .ofBytes (damage.apply (Key.ofTx tx).toMessage.encode)

def keys (arrivals : List Arrival) : Observed (Except WireError (List Key)) :=
  Key.receiveAll (arrivals.map Arrival.toMessage?)

end Gossip

end Mempool
