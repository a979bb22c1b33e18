import Mathlib.Data.List.Basic
import Mempool.Key

/-! Keys are ordered totally, and there is one order for keys, for their texts and for their numbers.
A text has two digits for each byte, and the digits are in the order of their characters, so it does
not matter which of them are compared, nor whether keys are sorted before or after they are
written. -/
namespace Mempool.Key

instance : Std.TransOrd Key := inferInstanceAs (Std.TransCmp (compareOn bytes))

instance : Std.LawfulEqOrd Key where
  eq_of_compare {a b} same := ext (Std.LawfulEqOrd.eq_of_compare (compare_eq a b ▸ same))

theorem isLT_trans {a b c : Key} (first : (compare a b).isLT) (second : (compare b c).isLT) :
    (compare a c).isLT := by
  rw [Ordering.isLT_iff_eq_lt] at *
  exact Std.TransCmp.lt_trans first second

theorem not_isLT_of_isLT {a b : Key} (less : (compare a b).isLT) : ¬(compare b a).isLT := by
  rw [Ordering.isLT_iff_eq_lt] at *
  exact Std.OrientedCmp.not_lt_of_lt less

theorem isLT_or_isLT_of_ne {a b : Key} (different : a ≠ b) :
    (compare a b).isLT ∨ (compare b a).isLT := by
  cases order : compare a b with
  | lt => exact .inl rfl
  | eq => exact absurd (Std.LawfulEqOrd.eq_of_compare order) different
  | gt => exact .inr (Ordering.isLT_iff_eq_lt.mpr (Std.OrientedCmp.gt_iff_lt.mp order))

end Mempool.Key

namespace Mempool

/-! ## Lists, texts and numbers of digits -/

theorem compare_toList (s t : String) : compare s t = compare s.toList t.toList := by
  have lists (xs ys : List Char) : compareOfLessAndEq xs ys = compare xs ys := by
    induction xs generalizing ys with
    | nil => cases ys <;> rfl
    | cons x xs ih =>
      cases ys with
      | nil => rfl
      | cons y ys =>
        rw [List.compare_cons_cons, ← ih]
        simp only [compare, compareOfLessAndEq, List.cons_lt_cons_iff, List.cons.injEq]
        by_cases less : x < y
        · simp [less]
        · by_cases same : x = y <;> simp [less, same]
  rw [← lists]
  simp only [compare, String.compare, compareOfLessAndEq, ← String.toList_inj]
  rfl

/-- The front of the lesser list is not greater than as much of the other one. -/
theorem isLE_take [Ord α] {xs ys : List α} (le : (compare xs ys).isLE) (n : Nat) :
    (compare (xs.take n) (ys.take n)).isLE := by
  induction xs generalizing ys n with
  | nil => cases n <;> cases ys <;> rfl
  | cons x xs ih =>
    cases n with
    | zero => rfl
    | succ n =>
      cases ys with
      | nil => contradiction
      | cons y ys =>
        simp only [List.take_succ_cons, List.compare_cons_cons, Ordering.isLE_then_iff_or] at le ⊢
        rcases le with less | ⟨same, le⟩
        · exact .inl less
        · exact .inr ⟨same, ih le n⟩

theorem compare_add_left (base m n : Nat) : compare (base + m) (base + n) = compare m n := by
  rcases Nat.lt_trichotomy m n with less | rfl | greater
  · rw [Nat.compare_eq_lt.mpr less, Nat.compare_eq_lt.mpr (by omega)]
  · rw [Nat.compare_eq_eq.mpr rfl, Nat.compare_eq_eq.mpr rfl]
  · rw [Nat.compare_eq_gt.mpr greater, Nat.compare_eq_gt.mpr (by omega)]

theorem compare_mul_add {base q r q' r' : Nat} (small : r < base) (small' : r' < base) :
    compare (q * base + r) (q' * base + r') = (compare q q').then (compare r r') := by
  rcases Nat.lt_trichotomy q q' with less | rfl | greater
  · have room := Nat.mul_le_mul_right base (Nat.succ_le_of_lt less)
    rw [Nat.succ_mul] at room
    rw [Nat.compare_eq_lt.mpr less, Nat.compare_eq_lt.mpr (by omega)]
    rfl
  · rw [Nat.compare_eq_eq.mpr rfl, compare_add_left]
    rfl
  · have room := Nat.mul_le_mul_right base (Nat.succ_le_of_lt greater)
    rw [Nat.succ_mul] at room
    rw [Nat.compare_eq_gt.mpr greater, Nat.compare_eq_gt.mpr (by omega)]
    rfl

namespace Hex

def lowercase : List Char := "0123456789abcdef".toList

theorem digit_mem_lowercase {n : Nat} (bound : n < 16) : digit n ∈ lowercase := by
  revert n
  decide

theorem compare_digit : ∀ m < 16, ∀ n < 16, compare (digit m) (digit n) = compare m n := by
  decide

theorem mem_lowercase {bytes : List UInt8} {c : Char} (member : c ∈ encode bytes) :
    c ∈ lowercase := by
  obtain ⟨b, _, digits⟩ := List.mem_flatMap.mp member
  have bound := b.toNat_lt
  rcases List.mem_cons.mp digits with rfl | last
  · exact digit_mem_lowercase (by omega)
  · rw [List.mem_singleton.mp last]
    exact digit_mem_lowercase (by omega)

theorem compare_encode (xs ys : List UInt8) : compare (encode xs) (encode ys) = compare xs ys := by
  induction xs generalizing ys with
  | nil => cases ys <;> rfl
  | cons x xs ih =>
    cases ys with
    | nil => rfl
    | cons y ys =>
      have bound := x.toNat_lt
      have bound' := y.toNat_lt
      have high := compare_digit (x.toNat / 16) (by omega) (y.toNat / 16) (by omega)
      have low := compare_digit (x.toNat % 16) (by omega) (y.toNat % 16) (by omega)
      have byte : compare x y = (compare (x.toNat / 16) (y.toNat / 16)).then
          (compare (x.toNat % 16) (y.toNat % 16)) := by
        have small (b : UInt8) : b.toNat % 16 < 16 := Nat.mod_lt _ (by decide)
        rw [← compare_mul_add (small x) (small y), Nat.div_add_mod', Nat.div_add_mod',
          UInt8.compare_eq_toNat_compare_toNat]
      simp only [encode_cons, List.compare_cons_cons, high, low, ih, byte, Ordering.then_assoc]

theorem encode_take (bytes : List UInt8) (n : Nat) :
    encode (bytes.take n) = (encode bytes).take (2 * n) := by
  induction bytes generalizing n with
  | nil => simp
  | cons b bytes ih =>
    cases n with
    | zero => rfl
    | succ n => simp [ih, Nat.mul_succ]

end Hex

namespace BigEndian

open LittleEndian (capacity)

/-- The bytes as the digits of a number, the highest one first. -/
def value (bytes : List UInt8) : Nat := bytes.foldl (fun n b => 256 * n + b.toNat) 0

theorem foldl_eq (n : Nat) (bytes : List UInt8) :
    bytes.foldl (fun n b => 256 * n + b.toNat) n = n * capacity bytes.length + value bytes := by
  induction bytes generalizing n with
  | nil => simp [value, capacity]
  | cons b bytes ih =>
    rw [value, List.foldl_cons, List.foldl_cons, ih, ih (256 * 0 + b.toNat), List.length_cons,
      capacity]
    grind

theorem value_cons (b : UInt8) (bytes : List UInt8) :
    value (b :: bytes) = b.toNat * capacity bytes.length + value bytes := by
  rw [value, List.foldl_cons, foldl_eq]
  simp

theorem value_lt (bytes : List UInt8) : value bytes < capacity bytes.length := by
  induction bytes with
  | nil => decide
  | cons b bytes ih =>
    have room := Nat.mul_le_mul_right (capacity bytes.length) (Nat.succ_le_of_lt b.toNat_lt)
    rw [Nat.succ_mul] at room
    rw [value_cons, List.length_cons, capacity]
    omega

theorem compare_value {xs ys : List UInt8} (same : xs.length = ys.length) :
    compare (value xs) (value ys) = compare xs ys := by
  induction xs generalizing ys with
  | nil =>
    obtain rfl := List.length_eq_zero_iff.mp same.symm
    rfl
  | cons x xs ih =>
    cases ys with
    | nil => contradiction
    | cons y ys =>
      have same := Nat.succ.inj same
      have bound := value_lt xs
      have bound' := value_lt ys
      rw [value_cons, value_cons, same, List.compare_cons_cons,
        UInt8.compare_eq_toNat_compare_toNat, ← ih same]
      rw [same] at bound
      exact compare_mul_add bound bound'

end BigEndian

/-! ## Keys -/

namespace Key

def number (k : Key) : Nat := BigEndian.value k.bytes

theorem toList_text (k : Key) : k.text.toList = Hex.encode k.bytes := String.toList_ofList

theorem toList_short (k : Key) : k.short.toList = k.text.toList.take 8 := by
  rw [short, Hex.text, String.toList_ofList, toList_text]
  exact Hex.encode_take k.bytes 4

theorem compare_text (a b : Key) : compare a.text b.text = compare a b := by
  rw [compare_toList, toList_text, toList_text, Hex.compare_encode, compare_eq]

theorem compare_number (a b : Key) : compare a.number b.number = compare a b :=
  BigEndian.compare_value (a.length_bytes.trans b.length_bytes.symm)

theorem isLE_short {a b : Key} (le : (compare a b).isLE) : (compare a.short b.short).isLE := by
  rw [← compare_text, compare_toList] at le
  rw [compare_toList, toList_short, toList_short]
  exact isLE_take le 8

theorem decode?_text (k : Key) : Hex.decode? k.text.toList = some k.bytes := by
  rw [toList_text, Hex.decode?_encode]

theorem text_injective : Function.Injective text := by
  intro a b same
  have bytes := a.decode?_text
  rw [same, b.decode?_text] at bytes
  exact ext (Option.some.inj bytes).symm

theorem map_text_sort (keys : List Key) :
    (sort keys).map text = (keys.map text).mergeSort fun s t => (compare s t).isLE := by
  apply List.map_mergeSort
  intro a _ b _
  rw [compare_text]

theorem pairwise_map_text_sort (keys : List Key) :
    ((sort keys).map text).Pairwise fun s t => (compare s t).isLE := by
  rw [map_text_sort]
  apply List.pairwise_mergeSort
  · intro s t u first second
    exact Std.TransCmp.isLE_trans first second
  · intro s t
    have swap : (compare s t).isGE = (compare t s).isLE := Std.OrientedCmp.isGE_eq_isLE
    rw [← swap]
    cases compare s t <;> rfl

/-- Keys are in the order of their texts and of their numbers, and the first digits of a lesser key
are not greater. A text has sixty-four lowercase digits, which are read back as the bytes of the
key. Keys are sorted alike before and after they are written. -/
theorem orders_agree :
    (∀ a b : Key, compare a b = compare a.text b.text ∧ compare a b = compare a.number b.number ∧
      ((compare a b).isLE → (compare a.short b.short).isLE)) ∧
    (∀ k : Key, k.text.toList.length = 64 ∧ (∀ c ∈ k.text.toList, c ∈ Hex.lowercase) ∧
      Hex.decode? k.text.toList = some k.bytes ∧ k.short.toList = k.text.toList.take 8) ∧
    Function.Injective text ∧
    ∀ keys : List Key,
      (sort keys).map text = (keys.map text).mergeSort (fun s t => (compare s t).isLE) ∧
      ((sort keys).map text).Perm (keys.map text) ∧
      ((sort keys).map text).Pairwise fun s t => (compare s t).isLE := by
  refine ⟨?_, ?_, text_injective, ?_⟩
  · intro a b
    exact ⟨(compare_text a b).symm, (compare_number a b).symm, isLE_short⟩
  · intro k
    have digits : k.text.toList.length = 64 := by
      rw [toList_text, Hex.length_encode, k.length_bytes]
    refine ⟨digits, ?_, k.decode?_text, k.toList_short⟩
    intro c member
    rw [toList_text] at member
    exact Hex.mem_lowercase member
  · intro keys
    exact ⟨map_text_sort keys, (sort_perm keys).map text, pairwise_map_text_sort keys⟩

/-- A digit comes before a letter, as its number does. -/
theorem orders_agree_short :
    let a : Key := ⟨List.replicate 32 0x9f, by decide⟩
    let b : Key := ⟨List.replicate 32 0xa0, by decide⟩
    (compare a b).isLE ∧ (compare a.short b.short).isLE := by
  intro a b
  have le : (compare a b).isLE := by decide
  obtain ⟨_, _, short⟩ := orders_agree.1 a b
  exact ⟨le, short le⟩

end Key

end Mempool
