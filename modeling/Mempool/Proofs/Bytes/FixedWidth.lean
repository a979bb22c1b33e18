import Mempool.Key
import Mempool.Proofs.Limits.Members

/-! Binary forms of a fixed width. Reading looks at that many bytes and at nothing behind them, and
any so many bytes are the form of one value. -/
namespace Mempool

structure FixedWidth (size : Nat) (encode : α → List UInt8)
    (decode : List UInt8 → Except CodecError α) : Prop where
  length_encode (a : α) : (encode a).length = size
  decode_eq_ok_iff (w : List UInt8) (a : α) :
    decode w = .ok a ↔ size ≤ w.length ∧ w.take size = encode a
  decode_eq_error_iff (w : List UInt8) : decode w = .error .endOfInput ↔ w.length < size
  exists_unique (w : List UInt8) : w.length = size → ∃! a, encode a = w

/-- It is enough that no two values have one form, that too few bytes are refused, and that from
enough of them a value is read whose form they begin with. -/
theorem FixedWidth.of_reads {size : Nat} {encode : α → List UInt8}
    {decode : List UInt8 → Except CodecError α} (length : ∀ a, (encode a).length = size)
    (injective : Function.Injective encode)
    (short : ∀ w : List UInt8, w.length < size → decode w = .error .endOfInput)
    (reads : ∀ w : List UInt8, size ≤ w.length → ∃ a, decode w = .ok a ∧ encode a = w.take size) :
    FixedWidth size encode decode := by
  refine ⟨length, ?_, ?_, ?_⟩
  · intro w a
    by_cases enough : size ≤ w.length
    · obtain ⟨b, read, front⟩ := reads w enough
      simp [read, enough, ← front, injective.eq_iff]
    · simp [short w (Nat.lt_of_not_le enough), enough]
  · intro w
    refine ⟨fun failed => Nat.lt_of_not_le fun enough => ?_, short w⟩
    obtain ⟨b, read, _⟩ := reads w enough
    rw [read] at failed
    contradiction
  · intro w whole
    obtain ⟨a, _, front⟩ := reads w (Nat.le_of_eq whole.symm)
    rw [List.take_of_length_le (Nat.le_of_eq whole)] at front
    exact ⟨a, front, fun b same => injective (same.trans front.symm)⟩

/-! ## Limits -/

namespace Limits

open LittleEndian (value_encode encode_value value_lt)

def Field.place (f : Field) : Nat := all.idxOf f

theorem toNat_toUInt64 (n : Int64) : (n.toUInt64.toNat : Int) = n.toInt % 0x10000000000000000 := by
  have bound := n.toBitVec.isLt
  have word : n.toUInt64.toNat = n.toBitVec.toNat := rfl
  rw [word, Int64.toInt, BitVec.toInt_eq_toNat_cond]
  split <;> omega

theorem word_of_words {ns : List Nat} {i n : Nat} (found : ns[i]? = some n) :
    ((ns.flatMap (LittleEndian.encode 8)).drop (8 * i)).take 8 = LittleEndian.encode 8 n := by
  induction ns generalizing i with
  | nil => simp at found
  | cons m ns ih =>
    rw [List.flatMap_cons]
    cases i with
    | zero =>
      obtain rfl : m = n := by simpa using found
      exact List.take_left' (LittleEndian.length_encode 8 m)
    | succ i =>
      have next : 8 * (i + 1) = (LittleEndian.encode 8 m).length + 8 * i := by simp; omega
      rw [next, List.drop_length_add_append]
      exact ih (by simpa using found)

/-- The word of a field is its value modulo 2^64: signed ones are in two's complement. -/
theorem value_word (l : Limits) (f : Field) :
    (LittleEndian.value ((l.encode.drop (8 * f.place)).take 8) : Int) =
      l.value f % 0x10000000000000000 := by
  have layout : l.encode = [l.maxTxBytes.toNat, l.admitted.count.toNat,
      l.admitted.bytes.toUInt64.toNat, l.pending.count.toNat,
      l.pending.bytes.toUInt64.toNat].flatMap (LittleEndian.encode 8) := by
    simp [encode]
  have unsigned (w : UInt64) : ((w.toNat % LittleEndian.capacity 8 : Nat) : Int) =
      w.toNat % 0x10000000000000000 := Int.natCast_emod _ _
  have signed (n : Int64) : ((n.toUInt64.toNat % LittleEndian.capacity 8 : Nat) : Int) =
      n.toInt % 0x10000000000000000 := by
    rw [unsigned, toNat_toUInt64, Int.emod_emod]
  cases f with
  | maxTxBytes | size | pendingSize =>
    rw [layout, word_of_words (by rfl), value_encode]
    exact unsigned _
  | maxTxsBytes | maxPendingTxsBytes =>
    rw [layout, word_of_words (by rfl), value_encode]
    exact signed _

theorem encode_injective : Function.Injective encode := by
  intro l m same
  apply value_injective
  funext f
  have words := l.value_word f
  rw [same, m.value_word f] at words
  have here := l.holds_value f
  have there := m.holds_value f
  cases f <;> simp only [Field.Holds, Field.low, Field.high] at here there <;> omega

theorem encode_wordAt {w : List UInt8} {place : Nat} (enough : 8 * place + 8 ≤ w.length) :
    LittleEndian.encode 8 (wordAt w place).toNat = (w.drop (8 * place)).take 8 := by
  have eight : ((w.drop (8 * place)).take 8).length = 8 := by simp; omega
  have bound := value_lt ((w.drop (8 * place)).take 8)
  have digits := encode_value ((w.drop (8 * place)).take 8)
  rw [eight] at bound digits
  rw [wordAt, UInt64.toNat_ofNat_of_lt' bound, digits]

theorem decode_of_enough {w : List UInt8} (enough : 40 ≤ w.length) :
    ∃ l, decode w = .ok l ∧ l.encode = w.take 40 := by
  refine ⟨_, if_neg (Nat.not_lt.mpr enough), ?_⟩
  have front : w.take 40 = w.take (8 + 8 + 8 + 8 + 8) := rfl
  simp only [encode, UInt64.toUInt64_toInt64]
  rw [encode_wordAt (by omega), encode_wordAt (by omega), encode_wordAt (by omega),
    encode_wordAt (by omega), encode_wordAt (by omega), front]
  simp only [List.take_add]
  rfl

theorem fixedWidth : FixedWidth encodedSize encode decode :=
  .of_reads length_encode encode_injective (fun _ short => if_pos short) fun _ => decode_of_enough

end Limits

/-! ## Keys -/

theorem Key.fixedWidth : FixedWidth size encode decode := by
  refine .of_reads length_bytes (fun a b same => ext same) ?_ ?_
  · intro w short
    have part : (w.take size).length ≠ 32 := by
      rw [List.length_take]
      exact Nat.ne_of_lt (Nat.lt_of_le_of_lt (Nat.min_le_right _ _) short)
    rw [decode, ofBytes?, dif_neg part]
  · intro w enough
    have whole : (w.take size).length = 32 := List.length_take_of_le enough
    exact ⟨⟨w.take size, whole⟩, by rw [decode, ofBytes?, dif_pos whole], rfl⟩

/-- Limits have forty bytes, five words in the order of the fields, and a key has its own
thirty-two. -/
theorem binary_forms_bijective :
    FixedWidth 40 Limits.encode Limits.decode ∧
    (∀ (l : Limits) (f : Limits.Field),
      (LittleEndian.value ((l.encode.drop (8 * f.place)).take 8) : Int) =
        l.value f % 0x10000000000000000) ∧
    FixedWidth 32 Key.encode Key.decode ∧
    ∀ k : Key, k.encode = k.bytes :=
  ⟨Limits.fixedWidth, Limits.value_word, Key.fixedWidth, fun _ => rfl⟩

theorem binary_forms_bijective_ones :
    (List.replicate 40 (0xff : UInt8)).length = 40 ∧
      ∃! l : Limits, l.encode = List.replicate 40 0xff := by
  obtain ⟨limits, _⟩ := binary_forms_bijective
  have whole : (List.replicate 40 (0xff : UInt8)).length = 40 := List.length_replicate
  exact ⟨whole, limits.exists_unique _ whole⟩

end Mempool
