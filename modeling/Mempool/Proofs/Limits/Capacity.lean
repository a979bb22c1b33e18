import Mempool.Limits.Basic

/-! What the size and capacity checks say about exact numbers, beside the documented rule. Totals
are compared after a signed conversion of the size and a sum held at the ends of the signed range.
All that fits by the rule is let through. So is more, for two reasons: a total held at the top of
the signed range does not pass a budget there, and a size from 2^63 on counts as negative. -/
namespace Mempool

theorem toInt_maxValue : Int64.maxValue.toInt = 0x7fffffffffffffff := by decide

theorem toInt_minValue : Int64.minValue.toInt = -0x8000000000000000 := by decide

theorem toInt_ofIntClamp (i : Int) :
    (Int64.ofIntClamp i).toInt = max Int64.minValue.toInt (min i Int64.maxValue.toInt) := by
  have ends : Int64.minValue.toInt ≤ Int64.maxValue.toInt := by decide
  by_cases low : Int64.minValue.toInt ≤ i
  · by_cases high : i ≤ Int64.maxValue.toInt
    · rw [Int64.toInt_ofIntClamp low high]
      omega
    · have top : Int64.ofIntClamp i = Int64.maxValue := by
        simp only [Int64.ofIntClamp, dif_pos low, dif_neg high]
      rw [top]
      omega
  · have bottom : Int64.ofIntClamp i = Int64.minValue := by
      simp only [Int64.ofIntClamp, dif_neg low]
    rw [bottom]
    omega

/-- A word reads as itself below 2^63, and 2^64 lower from there on. -/
theorem toInt_toInt64 (n : UInt64) :
    n.toInt64.toInt =
      if n.toNat < 0x8000000000000000 then (n.toNat : Int)
      else (n.toNat : Int) - 0x10000000000000000 := by
  have signed := BitVec.toInt_eq_toNat_cond n.toBitVec
  have same : n.toInt64.toInt = n.toBitVec.toInt := rfl
  have value : n.toBitVec.toNat = n.toNat := rfl
  rw [same, signed, value]
  split <;> split <;> omega

theorem toNat_ofNat_of_fits {n : Nat} (fits : n < 0x10000000000000000) :
    (UInt64.ofNat n).toNat = n :=
  UInt64.toNat_ofNat_of_lt' fits

theorem toInt_ofNat_of_fits {n : Nat} (fits : (n : Int) ≤ Int64.maxValue.toInt) :
    (Int64.ofNat n).toInt = n := by
  rw [toInt_maxValue] at fits
  exact Int64.toInt_ofNat_of_lt (by omega)

theorem toInt_length {length : Nat} (small : (length : Int) ≤ Int64.maxValue.toInt) :
    (UInt64.ofNat length).toInt64.toInt = length := by
  rw [toInt_maxValue] at small
  rw [toInt_toInt64, toNat_ofNat_of_fits (by omega), if_pos (by omega)]

/-- Limits whose byte budget lies below the top of the signed range. -/
def Limits.Bounded (l : Limits) : Prop := l.admitted.bytes < Int64.maxValue

instance (l : Limits) : Decidable l.Bounded := inferInstanceAs (Decidable (_ < _))

namespace Budget

theorem toInt_totalAfter (txsBytes : Int64) (txSize : UInt64) :
    (totalAfter txsBytes txSize).toInt =
      max Int64.minValue.toInt
        (min (txsBytes.toInt + txSize.toInt64.toInt) Int64.maxValue.toInt) :=
  toInt_ofIntClamp _

/-- A total held at the top of the range is over any budget below it, as the exact total is. -/
theorem admits_iff (b : Budget) (numTxs : UInt64) (txsBytes : Int64)
    (below : b.bytes < Int64.maxValue) {length : Nat}
    (small : (length : Int) ≤ Int64.maxValue.toInt) :
    b.admits numTxs txsBytes (UInt64.ofNat length) = true ↔
      numTxs.toNat < b.count.toNat ∧ txsBytes.toInt + length ≤ b.bytes.toInt := by
  have total : totalAfter txsBytes (UInt64.ofNat length) ≤ b.bytes ↔
      txsBytes.toInt + length ≤ b.bytes.toInt := by
    have low := txsBytes.le_toInt
    rw [Int64.lt_iff_toInt_lt] at below
    rw [Int64.le_iff_toInt_le, toInt_totalAfter, toInt_length small, toInt_minValue]
    omega
  simp only [admits, Bool.and_eq_true, decide_eq_true_eq, UInt64.lt_iff_toNat_lt, total]

end Budget

namespace Limits

theorem checkTxSize_eq (l : Limits) {length : Nat} (fits : length < 0x10000000000000000) :
    l.checkTxSize (UInt64.ofNat length) =
      if l.maxTxBytes.toNat < length then
        .error (.tooLarge l.maxTxBytes (UInt64.ofNat length))
      else .ok () := by
  simp only [checkTxSize, UInt64.lt_iff_toNat_lt, toNat_ofNat_of_fits fits]

theorem checkAdmitted_eq (l : Limits) (bounded : l.Bounded) (numTxs : UInt64) (txsBytes : Int64)
    {length : Nat} (small : (length : Int) ≤ Int64.maxValue.toInt) :
    l.checkAdmitted numTxs txsBytes (UInt64.ofNat length) =
      if l.admitted.count.toNat ≤ numTxs.toNat ∨
          l.admitted.bytes.toInt < txsBytes.toInt + length then
        .error (.full (l.admitted.occupancy numTxs txsBytes))
      else .ok () := by
  have rule := l.admitted.admits_iff numTxs txsBytes bounded small
  by_cases fits : l.admitted.admits numTxs txsBytes (UInt64.ofNat length) = true
  · have room := rule.mp fits
    rw [checkAdmitted, if_pos fits, if_neg (by omega)]
  · have refused := mt rule.mpr fits
    rw [checkAdmitted, if_neg fits, if_pos (by omega)]

end Limits

/-! ## The documented rule -/

namespace Budget

/-- The documented rule: there is room for one more transaction, in count and in bytes. -/
def Fits (b : Budget) (numTxs : UInt64) (txsBytes : Int64) (txSize : UInt64) : Prop :=
  numTxs.toNat < b.count.toNat ∧ txsBytes.toInt + txSize.toNat ≤ b.bytes.toInt

instance (b : Budget) (numTxs : UInt64) (txsBytes : Int64) (txSize : UInt64) :
    Decidable (b.Fits numTxs txsBytes txSize) := inferInstanceAs (Decidable (_ ∧ _))

/-- There is room in count and none in bytes, and the excess goes unnoticed. -/
def Overlooks (b : Budget) (numTxs : UInt64) (txsBytes : Int64) (txSize : UInt64) : Prop :=
  numTxs.toNat < b.count.toNat ∧ b.bytes.toInt < txsBytes.toInt + txSize.toNat ∧
    (txSize.toNat < 0x8000000000000000 ∧ b.bytes = Int64.maxValue ∨
      0x8000000000000000 ≤ txSize.toNat ∧
        txsBytes.toInt + txSize.toNat ≤ b.bytes.toInt + 0x10000000000000000)

instance (b : Budget) (numTxs : UInt64) (txsBytes : Int64) (txSize : UInt64) :
    Decidable (b.Overlooks numTxs txsBytes txSize) := inferInstanceAs (Decidable (_ ∧ _))

theorem eq_maxValue_iff {n : Int64} : n = Int64.maxValue ↔ n.toInt = 0x7fffffffffffffff := by
  rw [← Int64.toInt_inj, toInt_maxValue]

/-- A size below 2^63 is added exactly, and the total held at the top. -/
theorem totalAfter_le_iff_of_small {txSize : UInt64} (small : txSize.toNat < 0x8000000000000000)
    (txsBytes bytes : Int64) :
    totalAfter txsBytes txSize ≤ bytes ↔
      txsBytes.toInt + txSize.toNat ≤ bytes.toInt ∨ bytes = Int64.maxValue := by
  have low := txsBytes.le_toInt
  have high := bytes.toInt_lt
  rw [Int64.le_iff_toInt_le, toInt_totalAfter, toInt_toInt64, if_pos small, toInt_minValue,
    toInt_maxValue, eq_maxValue_iff]
  omega

/-- A size from 2^63 on is taken 2^64 too low, and so is the total. It may be held at the bottom,
where no budget is below it. -/
theorem totalAfter_le_iff_of_large {txSize : UInt64} (large : 0x8000000000000000 ≤ txSize.toNat)
    (txsBytes bytes : Int64) :
    totalAfter txsBytes txSize ≤ bytes ↔
      txsBytes.toInt + txSize.toNat ≤ bytes.toInt + 0x10000000000000000 := by
  have width := txSize.toNat_lt
  have high := txsBytes.toInt_lt
  have low := bytes.le_toInt
  rw [Int64.le_iff_toInt_le, toInt_totalAfter, toInt_toInt64, if_neg (by omega), toInt_minValue,
    toInt_maxValue]
  omega

theorem admits_iff_fits_or_overlooks (b : Budget) (numTxs : UInt64) (txsBytes : Int64)
    (txSize : UInt64) :
    b.admits numTxs txsBytes txSize = true ↔
      b.Fits numTxs txsBytes txSize ∨ b.Overlooks numTxs txsBytes txSize := by
  simp only [admits, Bool.and_eq_true, decide_eq_true_eq, UInt64.lt_iff_toNat_lt, Fits, Overlooks]
  by_cases small : txSize.toNat < 0x8000000000000000
  · rw [totalAfter_le_iff_of_small small, eq_maxValue_iff]
    have top := b.bytes.toInt_lt
    omega
  · rw [totalAfter_le_iff_of_large (by omega)]
    omega

theorem not_fits_of_overlooks {b : Budget} {numTxs : UInt64} {txsBytes : Int64} {txSize : UInt64}
    (overlooks : b.Overlooks numTxs txsBytes txSize) : ¬b.Fits numTxs txsBytes txSize := by
  rintro ⟨_, room⟩
  exact absurd room (Int.not_le.mpr overlooks.2.1)

/-- How a check guards a budget: what fits is let through, what else is let through is exactly what
it overlooks, and a refusal reports the numbers given and the budget. -/
structure GuardedBy (b : Budget) (refusal : Occupancy → Refusal)
    (check : UInt64 → Int64 → UInt64 → Except Refusal Unit) : Prop where
  fitting (numTxs : UInt64) (txsBytes : Int64) (txSize : UInt64) :
    b.Fits numTxs txsBytes txSize → check numTxs txsBytes txSize = .ok ()
  beyond (numTxs : UInt64) (txsBytes : Int64) (txSize : UInt64) :
    check numTxs txsBytes txSize = .ok () ∧ ¬b.Fits numTxs txsBytes txSize ↔
      b.Overlooks numTxs txsBytes txSize
  report (numTxs : UInt64) (txsBytes : Int64) (txSize : UInt64) (r : Refusal) :
    check numTxs txsBytes txSize = .error r → r = refusal ⟨numTxs, b.count, txsBytes, b.bytes⟩

theorem GuardedBy.of_admits {b : Budget} {refusal : Occupancy → Refusal}
    {check : UInt64 → Int64 → UInt64 → Except Refusal Unit}
    (asks : ∀ numTxs txsBytes txSize, check numTxs txsBytes txSize =
      if b.admits numTxs txsBytes txSize then .ok ()
      else .error (refusal (b.occupancy numTxs txsBytes))) :
    b.GuardedBy refusal check := by
  have passed (numTxs : UInt64) (txsBytes : Int64) (txSize : UInt64) :
      check numTxs txsBytes txSize = .ok () ↔
        b.Fits numTxs txsBytes txSize ∨ b.Overlooks numTxs txsBytes txSize := by
    rw [asks, ← admits_iff_fits_or_overlooks]
    split
    · rename_i admitted
      exact iff_of_true rfl admitted
    · rename_i refused
      exact iff_of_false nofun refused
  refine ⟨?_, ?_, ?_⟩
  · intro numTxs txsBytes txSize fits
    exact (passed numTxs txsBytes txSize).mpr (.inl fits)
  · intro numTxs txsBytes txSize
    rw [passed]
    constructor
    · rintro ⟨fits | overlooks, beyond⟩
      · exact absurd fits beyond
      · exact overlooks
    · exact fun overlooks => ⟨.inr overlooks, not_fits_of_overlooks overlooks⟩
  · intro numTxs txsBytes txSize r refused
    rw [asks] at refused
    split at refused
    · contradiction
    · exact (Except.error.inj refused).symm

end Budget

/-- The admitted and the pending set are guarded alike, each by its own budget, and nothing else
has a say in the check of the pending set. -/
theorem Limits.capacity_checks_guard (l : Limits) :
    l.admitted.GuardedBy .full l.checkAdmitted ∧
    l.pending.GuardedBy .pendingFull l.checkPending ∧
    ∀ (maxTxBytes : UInt64) (admitted : Budget),
      (⟨maxTxBytes, admitted, l.pending⟩ : Limits).checkPending = l.checkPending :=
  ⟨.of_admits fun _ _ _ => rfl, .of_admits fun _ _ _ => rfl, fun _ _ => rfl⟩

/-- The largest size of all goes unnoticed on a budget of no bytes. -/
example : (⟨1, 0⟩ : Budget).Overlooks 0 0 0xffffffffffffffff := by decide

end Mempool
