import Mathlib.Data.List.Induction
import Mempool.Decimal.Integer

/-! The digits of a number as a part of a text: there is no zero in front, and they end where the
text goes on with something else. There the text tells which number it is and where the words after
it begin. -/
namespace Mempool.Decimal

theorem isDigit_of_mem_digits {n : Nat} {c : Char} (member : c ∈ digits n) : c.isDigit = true :=
  Nat.isDigit_of_mem_toDigits (by decide) (by decide) member

theorem exists_digits_eq_cons (n : Nat) :
    ∃ c cs, digits n = c :: cs ∧ c.isDigit = true := by
  cases whole : digits n with
  | nil => exact absurd whole (digits_ne_nil n)
  | cons c cs => exact ⟨c, cs, rfl, isDigit_of_mem_digits (whole ▸ List.mem_cons_self)⟩

theorem digits_zero : digits 0 = ['0'] := Nat.toDigits_zero 10

theorem digitChar_ne_zero {n : Nat} (positive : 0 < n) (small : n < 10) : n.digitChar ≠ '0' := by
  revert positive
  revert n
  decide

/-- Only zero itself is written with a zero in front. -/
theorem head?_digits_ne_zero {n : Nat} (positive : 0 < n) : (digits n).head? ≠ some '0' := by
  induction n using Nat.strongRecOn with
  | ind n ih =>
    by_cases small : n < 10
    · rw [digits, Nat.toDigits_of_lt_base small]
      simpa using digitChar_ne_zero positive small
    · have shorter := ih (n / 10) (by omega) (by omega)
      obtain ⟨c, cs, front, _⟩ := exists_digits_eq_cons (n / 10)
      rw [front] at shorter
      rw [digits] at front
      rw [digits, Nat.toDigits_of_base_le (by decide) (by omega), front]
      exact shorter

section Text

variable {rest : List Char} (ends : ∀ c ∈ rest.head?, c.isDigit = false)

include ends

theorem takeWhile_isDigit_append {ds : List Char} (all : ∀ d ∈ ds, d.isDigit = true) :
    (ds ++ rest).takeWhile Char.isDigit = ds := by
  rw [List.takeWhile_append_of_pos all]
  cases rest with
  | nil => simp
  | cons c rest => simp [ends c rfl]

theorem dropWhile_isDigit_append {ds : List Char} (all : ∀ d ∈ ds, d.isDigit = true) :
    (ds ++ rest).dropWhile Char.isDigit = rest := by
  rw [List.dropWhile_append_of_pos all]
  cases rest with
  | nil => rfl
  | cons c rest => simp [ends c rfl]

theorem takeWhile_isDigit_digits_append (n : Nat) :
    (digits n ++ rest).takeWhile Char.isDigit = digits n :=
  takeWhile_isDigit_append ends fun _ => isDigit_of_mem_digits

theorem dropWhile_isDigit_digits_append (n : Nat) :
    (digits n ++ rest).dropWhile Char.isDigit = rest :=
  dropWhile_isDigit_append ends fun _ => isDigit_of_mem_digits

end Text

theorem digits_of_lt {n : Nat} (small : n < 10) : digits n = [n.digitChar] :=
  Nat.toDigits_of_lt_base small

theorem digits_of_le {n : Nat} (large : 10 ≤ n) :
    digits n = digits (n / 10) ++ [(n % 10).digitChar] :=
  Nat.toDigits_of_base_le (by decide) large

theorem exists_digits_of_prefix {n : Nat} {front : List Char} (some : front ≠ [])
    (inside : front <+: digits n) : ∃ m, front = digits m ∧ m ≤ n ∧ (0 < n → 0 < m) := by
  induction n using Nat.strongRecOn with
  | ind n ih =>
    by_cases whole : front = digits n
    · exact ⟨n, whole, Nat.le_refl n, id⟩
    · by_cases small : n < 10
      · rw [digits_of_lt small] at inside whole
        have short : front <+: [] ++ [n.digitChar] := inside
        have none := (List.prefix_concat_iff.mp short).resolve_left whole
        exact absurd (List.prefix_nil.mp none) some
      · rw [digits_of_le (by omega)] at inside whole
        have shorter := (List.prefix_concat_iff.mp inside).resolve_left whole
        obtain ⟨m, same, below, positive⟩ := ih (n / 10) (by omega) shorter
        exact ⟨m, same, by omega, fun _ => positive (by omega)⟩

theorem isDigit_digitChar {n : Nat} (small : n < 10) : n.digitChar.isDigit = true := by
  simp [Nat.isDigit_digitChar, small]

theorem digitChar_of_isDigit {c : Char} (digit : c.isDigit = true) :
    ∃ n < 10, c = n.digitChar := by
  have range : 48 ≤ c.toNat ∧ c.toNat ≤ 57 := Char.isDigit_iff_toNat.mp digit
  refine ⟨c.toNat - 48, by omega, Char.toNat_inj.mp ?_⟩
  rw [Nat.toNat_digitChar_of_lt_ten (by omega)]
  omega

theorem value_append_digitChar (ds : List Char) {n : Nat} (small : n < 10) :
    value (ds ++ [n.digitChar]) = 10 * value ds + n := by
  simp [value, Nat.ofDigitChars_append, Nat.ofDigitChars_cons, Nat.toNat_digitChar_of_lt_ten small]

/-- Digits without a zero in front are those of their value. -/
theorem digits_value {ds : List Char} (some : ds ≠ []) (all : ∀ d ∈ ds, d.isDigit = true)
    (canonical : ds.head? = Option.some '0' → ds.length = 1) : digits (value ds) = ds := by
  induction ds using List.reverseRecOn with
  | nil => contradiction
  | append_singleton ds d ih =>
    obtain ⟨n, small, rfl⟩ := digitChar_of_isDigit (all d (by simp))
    rw [value_append_digitChar ds small]
    cases ds with
    | nil => simp [value, digits_of_lt small]
    | cons c ds =>
      have unled : (c :: ds).head? ≠ Option.some '0' := by
        intro zero
        simpa using canonical (by simpa using zero)
      have front := ih (List.cons_ne_nil c ds)
        (fun d member => all d (List.mem_append_left _ member)) (fun zero => absurd zero unled)
      have positive : 0 < value (c :: ds) := by
        rw [Nat.pos_iff_ne_zero]
        intro zero
        rw [zero] at front
        exact unled (front ▸ rfl)
      rw [digits_of_le (by omega)]
      have tens : (10 * value (c :: ds) + n) / 10 = value (c :: ds) := by omega
      have ones : (10 * value (c :: ds) + n) % 10 = n := by omega
      rw [tens, ones, front]

/-! ## Numbers inside a text -/

section Chars

variable {s t : List Char} (ends : ∀ c ∈ s.head?, c.isDigit = false)
  (ends' : ∀ c ∈ t.head?, c.isDigit = false)

include ends ends'

theorem digits_append_inj {m n : Nat} (same : digits m ++ s = digits n ++ t) : m = n ∧ s = t := by
  have numbers := congrArg (List.takeWhile Char.isDigit) same
  have words := congrArg (List.dropWhile Char.isDigit) same
  simp only [takeWhile_isDigit_digits_append ends, takeWhile_isDigit_digits_append ends'] at numbers
  simp only [dropWhile_isDigit_digits_append ends, dropWhile_isDigit_digits_append ends'] at words
  exact ⟨digits_injective numbers, words⟩

theorem signed_append_inj {i j : Int} (same : signed i ++ s = signed j ++ t) : i = j ∧ s = t := by
  have unsigned (m : Nat) (rest other : List Char) : digits m ++ rest ≠ '-' :: other := by
    obtain ⟨c, cs, front, digit⟩ := exists_digits_eq_cons m
    intro signed
    rw [front] at signed
    obtain rfl := (List.cons.inj signed).1
    contradiction
  cases i with
  | ofNat m =>
    cases j with
    | ofNat n =>
      obtain ⟨rfl, words⟩ := digits_append_inj ends ends' same
      exact ⟨rfl, words⟩
    | negSucc n => exact absurd same (unsigned m s _)
  | negSucc m =>
    cases j with
    | ofNat n => exact absurd same.symm (unsigned n t _)
    | negSucc n =>
      obtain ⟨numbers, words⟩ := digits_append_inj ends ends' (List.cons.inj same).2
      exact ⟨congrArg Int.negSucc (Nat.succ.inj numbers), words⟩

end Chars

/-- There are words, and a number in front of them does not run on into them. -/
def Delimits (words : String) : Prop := words.toList.head?.any (fun c => !c.isDigit) = true

instance (words : String) : Decidable (Delimits words) := inferInstanceAs (Decidable (_ = true))

theorem ofInt_append_inj {words : String} (delimits : Delimits words) {i j : Int} {s t : String} :
    ofInt i ++ (words ++ s) = ofInt j ++ (words ++ t) ↔ i = j ∧ s = t := by
  have ends (s : String) : ∀ c ∈ (words.toList ++ s.toList).head?, c.isDigit = false := by
    cases front : words.toList with
    | nil => simp [Delimits, front] at delimits
    | cons c cs => simpa [Delimits, front] using delimits
  constructor
  · intro same
    have chars := congrArg String.toList same
    simp only [ofInt, String.toList_append, String.toList_ofList] at chars
    obtain ⟨rfl, rest⟩ := signed_append_inj (ends s) (ends t) chars
    exact ⟨rfl, String.toList_inj.mp (List.append_cancel_left rest)⟩
  · rintro ⟨rfl, rfl⟩
    rfl

theorem ofInt_inj {i j : Int} : ofInt i = ofInt j ↔ i = j := by
  have ends : ∀ c ∈ ([] : List Char).head?, c.isDigit = false := by simp
  constructor
  · intro same
    have chars := congrArg (· ++ []) (String.ofList_injective same)
    exact (signed_append_inj ends ends chars).1
  · rintro rfl
    rfl

section Words

variable {m n : UInt64} {i j : Int64} {words s t : String}

theorem ofUInt64_inj : ofUInt64 m = ofUInt64 n ↔ m = n := by
  have integers := @ofInt_inj m.toNat n.toNat
  rwa [Int.natCast_inj, UInt64.toNat_inj] at integers

theorem ofUInt64_append_inj (delimits : Delimits words) :
    ofUInt64 m ++ (words ++ s) = ofUInt64 n ++ (words ++ t) ↔ m = n ∧ s = t := by
  have integers := @ofInt_append_inj words delimits m.toNat n.toNat s t
  rwa [Int.natCast_inj, UInt64.toNat_inj] at integers

theorem ofInt64_inj : ofInt64 i = ofInt64 j ↔ i = j := ofInt_inj.trans Int64.toInt_inj

theorem ofInt64_append_inj (delimits : Delimits words) :
    ofInt64 i ++ (words ++ s) = ofInt64 j ++ (words ++ t) ↔ i = j ∧ s = t := by
  have integers := @ofInt_append_inj words delimits i.toInt j.toInt s t
  rwa [Int64.toInt_inj] at integers

end Words

end Mempool.Decimal
