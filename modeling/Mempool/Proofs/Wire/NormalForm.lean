import Mempool.Proofs.Wire.Codec
import Mempool.Wire.Reception

/-! Which wire bytes stand for which key. A key has many wire forms: its field may lack trailing
zeros or go on past the key, and other bytes may follow. One of them, of forty bytes, is its
normal form, which is what the key is written as. -/
namespace Mempool

open LittleEndian

/-- The length in front, if all bytes of the field are there. -/
theorem KeyMessage.decode_eq (w : List UInt8) :
    decode w = if 8 + value (w.take 8) ≤ w.length then
      .ok ⟨(w.drop 8).take (value (w.take 8))⟩ else .error .truncated := by
  by_cases whole : 8 + value (w.take 8) ≤ w.length
  · have prefixed : 8 ≤ w.length := by omega
    have enough : value (w.take 8) ≤ (w.drop 8).length := by rw [List.length_drop]; omega
    simp only [decode, read?, if_pos whole, if_pos prefixed, if_pos enough]
  · rw [if_neg whole, decode_eq_truncated_iff]
    omega

namespace Key

/-- The key that the message at the beginning of these bytes is converted to. -/
def fromWire (w : List UInt8) : Except WireError Key := do
  let message ← KeyMessage.decode w
  (receive (some message)).value

def toWire (k : Key) : List UInt8 := k.toMessage.encode

def normalForm (w : List UInt8) : Except WireError (List UInt8) := (fromWire w).map toWire

theorem getElem?_bytes_ofField (field : List UInt8) {i : Nat} (inside : i < 32) :
    (ofField field).bytes[i]? = if i < field.length then field[i]? else some 0 := by
  rw [bytes_ofField, List.getElem?_take_of_lt inside]
  by_cases given : i < field.length
  · rw [if_pos given, List.getElem?_append_left given]
  · rw [if_neg given, List.getElem?_append_right (by omega),
      List.getElem?_replicate_of_lt (by omega)]

theorem eq_ofField_iff {k : Key} {field : List UInt8} :
    ofField field = k ↔
      ∀ i < 32, k.bytes[i]? = if i < field.length then field[i]? else some 0 := by
  constructor
  · rintro rfl i inside
    exact getElem?_bytes_ofField field inside
  · intro same
    apply ext
    apply List.ext_getElem?
    intro i
    by_cases inside : i < 32
    · rw [getElem?_bytes_ofField field inside, same i inside]
    · rw [List.getElem?_eq_none (by rw [length_bytes]; omega),
        List.getElem?_eq_none (by rw [length_bytes]; omega)]

theorem fromWire_eq (w : List UInt8) :
    fromWire w = if 8 + value (w.take 8) ≤ w.length then
      .ok (ofField ((w.drop 8).take (value (w.take 8)))) else .error .truncated := by
  rw [fromWire, KeyMessage.decode_eq]
  split <;> rfl

theorem fromWire_eq_ok_iff {w : List UInt8} {k : Key} :
    fromWire w = .ok k ↔ 8 + value (w.take 8) ≤ w.length ∧
      ∀ i < 32, k.bytes[i]? = if i < value (w.take 8) then w[8 + i]? else some 0 := by
  rw [fromWire_eq]
  by_cases whole : 8 + value (w.take 8) ≤ w.length
  · have length : ((w.drop 8).take (value (w.take 8))).length = value (w.take 8) :=
      List.length_take_of_le (by rw [List.length_drop]; omega)
    have field (i : Nat) : (if i < value (w.take 8) then
        ((w.drop 8).take (value (w.take 8)))[i]? else some 0) =
        if i < value (w.take 8) then w[8 + i]? else some 0 := by
      split
      · rename_i given
        rw [List.getElem?_take_of_lt given, List.getElem?_drop]
      · rfl
    rw [if_pos whole, and_iff_right whole, Except.ok.injEq, eq_ofField_iff, length]
    simp only [field]
  · simp [whole]

theorem fromWire_toWire (k : Key) : fromWire k.toWire = .ok k := by
  have read := KeyMessage.decode_encode_append k.toMessage [] k.fits_toMessage
  rw [List.append_nil] at read
  rw [fromWire, toWire, read]
  exact congrArg Except.ok k.ofField_bytes

theorem toWire_eq_append (k : Key) : k.toWire = LittleEndian.encode 8 32 ++ k.bytes := by
  rw [toWire, KeyMessage.encode, toMessage, k.length_bytes]

/-- Forty bytes that announce a field of thirty-two are what their own key is written as. -/
theorem toWire_eq_iff {w : List UInt8} {k : Key} (read : fromWire w = .ok k) :
    k.toWire = w ↔ w.length = 40 ∧ value (w.take 8) = 32 := by
  constructor
  · rintro rfl
    refine ⟨k.length_encode_toMessage, ?_⟩
    rw [toWire_eq_append, List.take_left' (length_encode 8 32), value_encode]
    rfl
  · rintro ⟨total, announced⟩
    have eight : (w.take 8).length = 8 := List.length_take_of_le (by omega)
    have rest : (w.drop 8).length = 32 := by rw [List.length_drop]; omega
    have front : LittleEndian.encode 8 32 = w.take 8 := by
      have digits := encode_value (w.take 8)
      rwa [eight, announced] at digits
    have field : k.bytes = w.drop 8 := by
      rw [fromWire_eq, announced, if_pos (by omega), List.take_of_length_le (by omega)] at read
      rw [← Except.ok.inj read, bytes_ofField]
      exact List.take_left' rest
    rw [toWire_eq_append, front, field, List.take_append_drop]

theorem normalForm_of_fromWire {w : List UInt8} {k : Key} (read : fromWire w = .ok k) :
    normalForm w = .ok k.toWire := by
  rw [normalForm, read]
  rfl

/-- Bytes without a key have no normal form, and a normal form is its own. -/
theorem normalForm_idempotent (w : List UInt8) :
    (do normalForm (← normalForm w)) = normalForm w := by
  cases read : fromWire w with
  | error e =>
    have refused : normalForm w = .error e := by rw [normalForm, read]; rfl
    rw [refused]
    rfl
  | ok k =>
    rw [normalForm_of_fromWire read]
    exact (pure_bind k.toWire normalForm).trans (normalForm_of_fromWire k.fromWire_toWire)

theorem ofField_toMessage_iff {m : KeyMessage} :
    (ofField m.field).toMessage = m ↔ m.field.length = 32 := by
  constructor
  · intro same
    rw [← same]
    exact (ofField m.field).length_bytes
  · intro exact
    obtain ⟨field⟩ := m
    exact congrArg KeyMessage.mk (congrArg bytes (ofField_bytes ⟨field, exact⟩))

/-- Bytes stand for a key if a length comes first, then as many bytes, and these are the bytes of
the key as far as both go, with zeros in the rest of the key. Writing the key back gives forty
bytes, other ones than were read unless those were forty and announced a field of thirty-two. -/
theorem wire_forms (w : List UInt8) (k : Key) (m : KeyMessage) :
    let length := value (w.take 8)
    (fromWire w = .ok k ↔ 8 + length ≤ w.length ∧
      ∀ i < 32, k.bytes[i]? = if i < length then w[8 + i]? else some 0) ∧
    k.toWire.length = 40 ∧
    (fromWire w = .ok k → (k.toWire = w ↔ w.length = 40 ∧ length = 32)) ∧
    (do normalForm (← normalForm w)) = normalForm w ∧
    (receive (some k.toMessage)).value = .ok k ∧
    ((receive (some m)).value.map toMessage = .ok m ↔ m.field.length = 32) := by
  intro length
  refine ⟨fromWire_eq_ok_iff, k.length_encode_toMessage, toWire_eq_iff, normalForm_idempotent w,
    congrArg Except.ok k.ofField_bytes, ?_⟩
  change Except.ok (ofField m.field).toMessage = .ok m ↔ _
  rw [Except.ok.injEq, ofField_toMessage_iff]

/-- A field of two bytes, of which the second is a zero, and one more byte after it. -/
theorem wire_form_of_short_field :
    let w : List UInt8 := [2, 0, 0, 0, 0, 0, 0, 0, 7, 0, 9]
    let k := ofField [7]
    fromWire w = .ok k ∧ k.toWire ≠ w := by
  intro w k
  obtain ⟨read, _, written, _⟩ := wire_forms w k ⟨[]⟩
  have found : fromWire w = .ok k := read.mpr (by decide)
  exact ⟨found, mt (written found).mp (by decide)⟩

end Key

end Mempool
