import Mempool.Bytes.LittleEndian
import Mempool.Decimal.Integer
import Mempool.Text.Debug

/-! The wire message that carries a transaction key: the length of its field as eight bytes,
least significant first, then the field. The field may have any length. -/
namespace Mempool

structure KeyMessage where
  field : List UInt8
deriving DecidableEq, Repr, Inhabited

/-- What goes wrong between keys and the wire: there is no message at all, or the codec fails on one
in either direction. -/
inductive WireError where
  | absent
  | undecodable (cause : CodecError)
  | unencodable (cause : CodecError)
deriving DecidableEq, Repr

namespace WireError

/-- The message ends too early. No other bytes are undecodable. -/
@[match_pattern] abbrev truncated : WireError := undecodable .endOfInput

/-- The error of the codec behind this one. -/
def cause? : WireError → Option CodecError
  | absent => none
  | undecodable cause | unencodable cause => some cause

def message : WireError → String
  | absent => "nil data"
  | undecodable cause => "Decode error: " ++ cause.message
  | unencodable cause => "Encode error: " ++ cause.message

/-- The messages of the errors behind this one. -/
def causes (e : WireError) : List String := e.cause?.toList.map CodecError.message

end WireError

namespace KeyMessage

def encode (m : KeyMessage) : List UInt8 := LittleEndian.encode 8 m.field.length ++ m.field

/-- Bytes after the field are ignored. -/
def decode (bytes : List UInt8) : Except WireError KeyMessage :=
  match LittleEndian.read? 8 bytes with
  | none => .error .truncated
  | some (length, rest) =>
    if length ≤ rest.length then .ok ⟨rest.take length⟩ else .error .truncated

def debugText (m : KeyMessage) : String :=
  Text.record "TxKeyProto"
    [("tx_key", Text.bracketed (m.field.map fun b => Decimal.ofNat b.toNat))]

theorem length_encode (m : KeyMessage) : m.encode.length = 8 + m.field.length := by
  simp [encode]

theorem decode_encode_append (m : KeyMessage) (rest : List UInt8)
    (fits : m.field.length < LittleEndian.capacity 8) : decode (m.encode ++ rest) = .ok m := by
  have exact := Nat.mod_eq_of_lt fits
  simp only [decode, encode, List.append_assoc, LittleEndian.read?_encode_append, exact]
  simp

end KeyMessage

end Mempool
