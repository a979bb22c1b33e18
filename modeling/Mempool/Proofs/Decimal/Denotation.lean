import Mempool.Proofs.Decimal.Digits

/-! Which numbers the texts of settings denote: digits from left to right, after a sign where one
may stand. The readers of settings take these texts and no others. -/
namespace Mempool.Decimal

/-- One or more digits and the number that they denote. -/
inductive Denotes : List Char → Nat → Prop
  | digit {d : Nat} (small : d < 10) : Denotes [d.digitChar] d
  | push {ds : List Char} {n d : Nat} (front : Denotes ds n) (small : d < 10) :
      Denotes (ds ++ [d.digitChar]) (10 * n + d)

/-- An integer as it may be set. A minus sign stands only before a signed one. -/
inductive Setting (signed : Bool) : List Char → Int → Prop
  | bare {ds : List Char} {n : Nat} (digits : Denotes ds n) : Setting signed ds n
  | plus {ds : List Char} {n : Nat} (digits : Denotes ds n) : Setting signed ('+' :: ds) n
  | minus {ds : List Char} {n : Nat} (allowed : signed = true) (digits : Denotes ds n) :
      Setting signed ('-' :: ds) (-n)

theorem natural?_eq_some_iff_value {ds : List Char} {n : Nat} :
    natural? ds = some n ↔ ds ≠ [] ∧ (∀ d ∈ ds, d.isDigit = true) ∧ value ds = n := by
  simp [natural?, and_assoc]

namespace Denotes

variable {ds : List Char} {n : Nat}

theorem natural? (denotes : Denotes ds n) : natural? ds = some n := by
  induction denotes with
  | digit small =>
    rw [← digits_of_lt small, natural?_eq_some_iff_value]
    exact ⟨digits_ne_nil _, fun _ => isDigit_of_mem_digits, value_digits _⟩
  | @push ds n d front small ih =>
    obtain ⟨_, all, rfl⟩ := natural?_eq_some_iff_value.mp ih
    refine natural?_eq_some_iff_value.mpr ⟨by simp, ?_, value_append_digitChar ds small⟩
    intro c member
    rcases List.mem_append.mp member with member | last
    · exact all c member
    · rw [List.mem_singleton.mp last]
      exact isDigit_digitChar small

theorem isDigit (denotes : Denotes ds n) : ∀ d ∈ ds, d.isDigit = true :=
  (natural?_eq_some_iff_value.mp denotes.natural?).2.1

end Denotes

theorem denotes_value {ds : List Char} (some : ds ≠ []) (all : ∀ d ∈ ds, d.isDigit = true) :
    Denotes ds (value ds) := by
  induction ds using List.reverseRecOn with
  | nil => contradiction
  | append_singleton ds d ih =>
    obtain ⟨n, small, rfl⟩ := digitChar_of_isDigit (all d (by simp))
    rw [value_append_digitChar ds small]
    by_cases single : ds = []
    · subst single
      simpa [value] using Denotes.digit small
    · exact .push (ih single fun d member => all d (List.mem_append_left _ member)) small

theorem natural?_eq_some_iff {ds : List Char} {n : Nat} :
    natural? ds = some n ↔ Denotes ds n := by
  constructor
  · intro read
    obtain ⟨some, all, rfl⟩ := natural?_eq_some_iff_value.mp read
    exact denotes_value some all
  · exact Denotes.natural?

theorem denotes_digits (n : Nat) : Denotes (digits n) n := by
  have denotes := denotes_value (digits_ne_nil n) fun _ => isDigit_of_mem_digits
  rwa [value_digits] at denotes

/-! ## Signs -/

section Signs

variable {signed : Bool} {cs : List Char} {i : Int}

theorem not_denotes_sign {c : Char} (sign : c.isDigit = false) (cs : List Char) (n : Nat) :
    ¬Denotes (c :: cs) n := by
  intro denotes
  have digit := denotes.isDigit c List.mem_cons_self
  rw [sign] at digit
  contradiction

theorem setting_plus_iff : Setting signed ('+' :: cs) i ↔ ∃ n, Denotes cs n ∧ ↑n = i := by
  constructor
  · intro setting
    cases setting with
    | bare digits => exact absurd digits (not_denotes_sign rfl cs _)
    | plus digits => exact ⟨_, digits, rfl⟩
  · rintro ⟨n, digits, rfl⟩
    exact .plus digits

theorem setting_minus_iff :
    Setting signed ('-' :: cs) i ↔ signed = true ∧ ∃ n, Denotes cs n ∧ -↑n = i := by
  constructor
  · intro setting
    cases setting with
    | bare digits => exact absurd digits (not_denotes_sign rfl cs _)
    | minus allowed digits => exact ⟨allowed, _, digits, rfl⟩
  · rintro ⟨allowed, n, digits, rfl⟩
    exact .minus allowed digits

theorem setting_bare_iff (plus : ∀ ds, cs ≠ '+' :: ds) (minus : ∀ ds, cs ≠ '-' :: ds) :
    Setting signed cs i ↔ ∃ n, Denotes cs n ∧ ↑n = i := by
  constructor
  · intro setting
    cases setting with
    | bare digits => exact ⟨_, digits, rfl⟩
    | plus => exact absurd rfl (plus _)
    | minus => exact absurd rfl (minus _)
  · rintro ⟨n, digits, rfl⟩
    exact .bare digits

theorem signed?_eq_some_iff : signed? cs = some i ↔ Setting true cs i := by
  unfold signed?
  split
  · simp [setting_plus_iff, natural?_eq_some_iff]
  · simp [setting_minus_iff, natural?_eq_some_iff]
  · rename_i plus minus
    simp [setting_bare_iff plus minus, natural?_eq_some_iff]

theorem unsigned?_eq_some_iff {n : Nat} : unsigned? cs = some n ↔ Setting false cs n := by
  unfold unsigned?
  split
  · simp only [setting_plus_iff, natural?_eq_some_iff, Int.natCast_inj, exists_eq_right]
  · rename_i plus
    by_cases minus : ∃ ds, cs = '-' :: ds
    · obtain ⟨ds, rfl⟩ := minus
      simp [setting_minus_iff, natural?_eq_some_iff, not_denotes_sign]
    · simp only [setting_bare_iff plus (not_exists.mp minus), natural?_eq_some_iff,
        Int.natCast_inj, exists_eq_right]

theorem setting_signed (allowed : i < 0 → signed = true) : Setting signed (Decimal.signed i) i := by
  cases i with
  | ofNat n => exact .bare (denotes_digits n)
  | negSucc n => exact .minus (allowed (Int.negSucc_lt_zero n)) (denotes_digits (n + 1))

end Signs

/-! ## Words -/

theorem uint64?_eq_some_iff {cs : List Char} {w : UInt64} :
    uint64? cs = some w ↔ Setting false cs w.toNat := by
  simp only [uint64?, Option.bind_eq_some_iff, unsigned?_eq_some_iff]
  constructor
  · rintro ⟨n, setting, read⟩
    split at read
    · rename_i range
      obtain rfl := Option.some.inj read
      rwa [UInt64.toNat_ofNat_of_lt' range]
    · contradiction
  · intro setting
    exact ⟨w.toNat, setting, by simp [w.toNat_lt]⟩

theorem int64?_eq_some_iff {cs : List Char} {w : Int64} :
    int64? cs = some w ↔ Setting true cs w.toInt := by
  simp only [int64?, Option.bind_eq_some_iff, signed?_eq_some_iff]
  constructor
  · rintro ⟨i, setting, read⟩
    split at read
    · rename_i range
      obtain rfl := Option.some.inj read
      rwa [Int64.toInt_ofInt_of_le range.1 range.2]
    · contradiction
  · intro setting
    have range : -0x8000000000000000 ≤ w.toInt ∧ w.toInt < 0x8000000000000000 :=
      ⟨w.le_toInt, w.toInt_lt⟩
    exact ⟨w.toInt, setting, by rw [if_pos range, Int64.ofInt_toInt]⟩

/-! The readers of words find just the settings in range. -/

theorem exists_uint64?_iff {cs : List Char} {i : Int} :
    (∃ w, uint64? cs = some w ∧ ↑w.toNat = i) ↔
      Setting false cs i ∧ 0 ≤ i ∧ i ≤ 0xffffffffffffffff := by
  simp only [uint64?_eq_some_iff]
  constructor
  · rintro ⟨w, setting, rfl⟩
    have bound := w.toNat_lt
    exact ⟨setting, by omega, by omega⟩
  · rintro ⟨setting, low, high⟩
    have small : i.toNat < UInt64.size := (Int.toNat_lt low).mpr (Int.lt_add_one_of_le high)
    have exact : ((UInt64.ofNat i.toNat).toNat : Int) = i := by
      rw [UInt64.toNat_ofNat_of_lt' small]
      exact Int.toNat_of_nonneg low
    exact ⟨.ofNat i.toNat, by rwa [exact], exact⟩

theorem exists_int64?_iff {cs : List Char} {i : Int} :
    (∃ w, int64? cs = some w ∧ w.toInt = i) ↔
      Setting true cs i ∧ -0x8000000000000000 ≤ i ∧ i ≤ 0x7fffffffffffffff := by
  simp only [int64?_eq_some_iff]
  constructor
  · rintro ⟨w, setting, rfl⟩
    have low := w.le_toInt
    have high := w.toInt_lt
    exact ⟨setting, by omega, by omega⟩
  · rintro ⟨setting, low, high⟩
    have exact := Int64.toInt_ofInt_of_le low (by omega)
    exact ⟨.ofInt i, by rwa [exact], exact⟩

end Mempool.Decimal
