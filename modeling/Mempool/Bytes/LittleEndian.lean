/-! Fixed-width integers as bytes, least significant first. A value too large for its width
keeps its low digits only; reading needs all the bytes of the width and leaves the rest. -/
namespace Mempool

/-- What the codec of binary forms reports. Reading ends in no other way than by the end of its
input; other errors of the codec are known by their message alone, and none has a cause. -/
inductive CodecError where
  | endOfInput
  | other (message : String)
deriving DecidableEq, Repr

def CodecError.message : CodecError → String
  | endOfInput => "io error: unexpected end of file"
  | other text => text

namespace LittleEndian

/-- The low `width` base-256 digits of a number. -/
def encode : (width : Nat) → Nat → List UInt8
  | 0, _ => []
  | width + 1, n => UInt8.ofNat n :: encode width (n / 256)

/-- How many numbers a width holds. -/
def capacity : (width : Nat) → Nat
  | 0 => 1
  | width + 1 => 256 * capacity width

theorem capacity_eight : capacity 8 = 0x10000000000000000 := rfl

def value : List UInt8 → Nat
  | [] => 0
  | b :: bytes => b.toNat + 256 * value bytes

/-- A number of `width` bytes and the bytes after it; nothing when there are too few. -/
def read? (width : Nat) (bytes : List UInt8) : Option (Nat × List UInt8) :=
  if width ≤ bytes.length then some (value (bytes.take width), bytes.drop width) else none

@[simp] theorem length_encode (width n : Nat) : (encode width n).length = width := by
  induction width generalizing n with
  | zero => rfl
  | succ width ih => simp [encode, ih]

theorem value_encode (width n : Nat) : value (encode width n) = n % capacity width := by
  induction width generalizing n with
  | zero => simp [encode, value, capacity, Nat.mod_one]
  | succ width ih =>
    have low : (UInt8.ofNat n).toNat = n % 256 := by simp
    rw [encode, value, ih, low, capacity, Nat.mod_mul]

theorem value_lt (bytes : List UInt8) : value bytes < capacity bytes.length := by
  induction bytes with
  | nil => simp [value, capacity]
  | cons b bytes ih =>
    have bound := b.toNat_lt
    simp only [value, List.length_cons, capacity]
    omega

theorem encode_value (bytes : List UInt8) : encode bytes.length (value bytes) = bytes := by
  induction bytes with
  | nil => rfl
  | cons b bytes ih =>
    have bound := b.toNat_lt
    have high : (b.toNat + 256 * value bytes) / 256 = value bytes := by omega
    simp only [List.length_cons, encode, value, high, ih, List.cons.injEq, and_true]
    apply UInt8.toNat_inj.mp
    simp only [UInt8.toNat_ofNat']
    omega

theorem read?_encode_append (width n : Nat) (rest : List UInt8) :
    read? width (encode width n ++ rest) = some (n % capacity width, rest) := by
  simp [read?, value_encode]

/-- What is read are the digits that stand in front, in their only form. -/
theorem read?_eq_some_iff {width n : Nat} {bytes rest : List UInt8} :
    read? width bytes = some (n, rest) ↔ n < capacity width ∧ bytes = encode width n ++ rest := by
  constructor
  · intro found
    unfold read? at found
    split at found
    · rename_i enough
      obtain ⟨rfl, rfl⟩ := Prod.mk.inj (Option.some.inj found)
      have width_eq : (bytes.take width).length = width := List.length_take_of_le enough
      have bound := value_lt (bytes.take width)
      have digits := encode_value (bytes.take width)
      rw [width_eq] at bound digits
      exact ⟨bound, by rw [digits, List.take_append_drop]⟩
    · contradiction
  · rintro ⟨bound, rfl⟩
    rw [read?_encode_append, Nat.mod_eq_of_lt bound]

end LittleEndian

end Mempool
