import Mempool.Wire.Message

/-! The wire form of a key message, exactly: what can be read, which message it is read as, and
when reading fails. No encoding is the beginning of another one, so a cut is always noticed. -/
namespace Mempool.KeyMessage

open LittleEndian

theorem decode_eq_ok_iff {w : List UInt8} {m : KeyMessage} :
    decode w = .ok m ↔ m.field.length < capacity 8 ∧ ∃ rest, w = m.encode ++ rest := by
  constructor
  · intro read
    unfold decode at read
    split at read
    · contradiction
    · rename_i length rest found
      obtain ⟨fits, rfl⟩ := read?_eq_some_iff.mp found
      split at read
      · rename_i enough
        obtain rfl := Except.ok.inj read
        have exact : (rest.take length).length = length := List.length_take_of_le enough
        refine ⟨exact.symm ▸ fits, rest.drop length, ?_⟩
        rw [encode, exact, List.append_assoc, List.take_append_drop]
      · contradiction
  · rintro ⟨fits, rest, rfl⟩
    exact decode_encode_append m rest fits

/-- Reading fails on an early end: within the prefix, or before as many bytes as it says. -/
theorem decode_eq_truncated_iff {w : List UInt8} :
    decode w = .error .truncated ↔ w.length < 8 ∨ w.length - 8 < value (w.take 8) := by
  unfold decode read?
  by_cases enough : 8 ≤ w.length
  · rw [if_pos enough]
    simp only [List.length_drop]
    split
    · simp; omega
    · simp; omega
  · rw [if_neg enough]
    simp; omega

theorem decode_total (w : List UInt8) :
    (∃ m, decode w = .ok m) ∨ decode w = .error .truncated := by
  unfold decode
  split
  · exact .inr rfl
  · split
    · exact .inl ⟨_, rfl⟩
    · exact .inr rfl

theorem decode_eq_error_iff {w : List UInt8} {e : WireError} :
    decode w = .error e ↔
      e = .truncated ∧ (w.length < 8 ∨ w.length - 8 < value (w.take 8)) := by
  rw [← decode_eq_truncated_iff]
  constructor
  · intro failed
    rcases decode_total w with ⟨m, read⟩ | truncated
    · rw [read] at failed
      contradiction
    · obtain rfl := Except.error.inj (failed.symm.trans truncated)
      exact ⟨rfl, truncated⟩
  · rintro ⟨rfl, truncated⟩
    exact truncated

/-- Bytes that begin with two encodings begin with one and the same. -/
theorem encode_prefix_free {m n : KeyMessage} (fits : m.field.length < capacity 8)
    (fits' : n.field.length < capacity 8) {rest rest' : List UInt8}
    (same : m.encode ++ rest = n.encode ++ rest') : m = n ∧ rest = rest' := by
  have first := decode_encode_append m rest fits
  rw [same, decode_encode_append n rest' fits'] at first
  obtain rfl := Except.ok.inj first
  exact ⟨rfl, List.append_cancel_left same⟩

theorem encode_injective {m n : KeyMessage} (fits : m.field.length < capacity 8)
    (fits' : n.field.length < capacity 8) (same : m.encode = n.encode) : m = n :=
  (encode_prefix_free fits fits' (congrArg (· ++ []) same)).1

theorem decode_proper_prefix {m : KeyMessage} (fits : m.field.length < capacity 8)
    {w : List UInt8} (front : w <+: m.encode) (proper : w ≠ m.encode) :
    decode w = .error .truncated := by
  rcases decode_total w with ⟨n, read⟩ | refused
  · obtain ⟨fits', rest, rfl⟩ := decode_eq_ok_iff.mp read
    obtain ⟨cut, whole⟩ := front
    rw [List.append_assoc] at whole
    obtain ⟨rfl, none⟩ := encode_prefix_free fits' fits
      (whole.trans (List.append_nil m.encode).symm)
    obtain ⟨rfl, _⟩ := List.append_eq_nil_iff.mp none
    exact absurd (List.append_nil n.encode) proper
  · exact refused

/-- Exactly the bytes that begin with the encoding of a message are read as that message, and the
others are refused as truncated. -/
theorem decode_exact (w : List UInt8) (m : KeyMessage)
    (fits : m.field.length < 0x10000000000000000) :
    (decode w = .ok m ↔ ∃ rest, w = m.encode ++ rest) ∧
    (∀ e, decode w = .error e ↔
      e = .truncated ∧ (w.length < 8 ∨ w.length - 8 < value (w.take 8))) ∧
    (∀ rest, decode (m.encode ++ rest) = .ok m) ∧
    (decode w = .ok m → m.encode <+: w) ∧
    (∀ n : KeyMessage, n.field.length < 0x10000000000000000 → n.encode = m.encode → n = m) ∧
    (w <+: m.encode → w ≠ m.encode → decode w = .error .truncated) := by
  rw [← capacity_eight] at fits ⊢
  have read : decode w = .ok m ↔ ∃ rest, w = m.encode ++ rest :=
    decode_eq_ok_iff.trans (and_iff_right fits)
  refine ⟨read, fun e => decode_eq_error_iff, fun rest => decode_encode_append m rest fits,
    ?_, fun n fits' => encode_injective fits' fits, decode_proper_prefix fits⟩
  intro found
  obtain ⟨rest, rfl⟩ := read.mp found
  exact List.prefix_append m.encode rest

/-- The largest length that a prefix can announce, before a single byte: no sum wraps around. -/
theorem decode_hostile_length :
    ([7] : List UInt8).length < 0x10000000000000000 ∧
    decode (List.replicate 8 0xff ++ [7]) = .error .truncated := by
  have fits : (⟨[7]⟩ : KeyMessage).field.length < 0x10000000000000000 := by decide
  obtain ⟨_, refused, _⟩ := decode_exact (List.replicate 8 0xff ++ [7]) ⟨[7]⟩ fits
  exact ⟨fits, (refused .truncated).mpr ⟨rfl, .inr (by decide)⟩⟩

end Mempool.KeyMessage
