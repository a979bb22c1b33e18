import Mempool.Proofs.Decimal.Denotation
import Mempool.Proofs.Json.NumberCuts
import Mempool.Proofs.Json.Records
import Mempool.Proofs.Limits.Capacity

/-! Number literals of any length where an integer is expected. A literal is taken to its end, and
it is an integer only if it is the written form of one that fits 64 bits: negative zero, larger
integers, and numbers with a fraction or an exponent are told as floating-point numbers. -/
namespace Mempool.Json

/-- An integer literal and the integer that it denotes: digits without a zero in front of others,
and a minus sign or none. -/
inductive IsInteger : Token → Int → Prop
  | bare {ds : List Char} {n : Nat} (whole : IsWhole ds) (digits : Decimal.Denotes ds n) :
      IsInteger ds n
  | minus {ds : List Char} {n : Nat} (whole : IsWhole ds) (digits : Decimal.Denotes ds n) :
      IsInteger ('-' :: ds) (-n)

def minusZero : Token := ['-', '0']

/-! ## Integer literals -/

theorem IsWhole.isDigits {ds : List Char} (whole : IsWhole ds) : IsDigits ds := by
  cases whole with
  | zero => exact ⟨List.cons_ne_nil _ _, List.forall_mem_singleton.mpr rfl⟩
  | digits _ digits => exact digits

theorem IsWhole.canonical {ds : List Char} (whole : IsWhole ds) (zero : ds.head? = some '0') :
    ds.length = 1 := by
  cases whole with
  | zero => rfl
  | digits nonzero _ => exact absurd (Option.some.inj zero) nonzero

theorem IsWhole.eq_digits {ds : List Char} {n : Nat} (whole : IsWhole ds)
    (denotes : Decimal.Denotes ds n) : ds = Decimal.digits n := by
  obtain ⟨some, all, rfl⟩ := Decimal.natural?_eq_some_iff_value.mp denotes.natural?
  exact (Decimal.digits_value some all whole.canonical).symm

theorem isWhole_digits (n : Nat) : IsWhole (Decimal.digits n) := by
  obtain ⟨d, ds, front, _⟩ := Decimal.exists_digits_eq_cons n
  have digits : IsDigits (Decimal.digits n) :=
    ⟨Decimal.digits_ne_nil n, fun _ => Decimal.isDigit_of_mem_digits⟩
  obtain rfl | positive := Nat.eq_zero_or_pos n
  · rw [Decimal.digits_zero]
    exact .zero
  · have nonzero := Decimal.head?_digits_ne_zero positive
    rw [front] at digits nonzero ⊢
    exact .digits (by simpa using nonzero) digits

namespace IsInteger

variable {token : Token} {i : Int}

/-- Every integer has one literal, but zero has another one with a sign. -/
theorem eq_signed (literal : IsInteger token i) (proper : token ≠ minusZero) :
    token = Decimal.signed i := by
  cases literal with
  | bare whole digits => exact whole.eq_digits digits
  | @minus ds n whole digits =>
    rw [whole.eq_digits digits] at proper ⊢
    cases n with
    | zero => exact absurd (congrArg ('-' :: ·) Decimal.digits_zero) proper
    | succ n => rfl

theorem of_signed (i : Int) : IsInteger (Decimal.signed i) i := by
  cases i with
  | ofNat n => exact .bare (isWhole_digits n) (Decimal.denotes_digits n)
  | negSucc n => exact .minus (isWhole_digits (n + 1)) (Decimal.denotes_digits (n + 1))

theorem signed_ne_minusZero (i : Int) : Decimal.signed i ≠ minusZero := by
  cases i with
  | ofNat n =>
    obtain ⟨c, cs, front, digit⟩ := Decimal.exists_digits_eq_cons n
    rw [Decimal.signed, front, minusZero]
    intro same
    obtain rfl := (List.cons.inj same).1
    contradiction
  | negSucc n =>
    intro same
    have zero := (List.cons.inj same).2
    rw [← Decimal.digits_zero] at zero
    exact absurd (Decimal.digits_injective zero) (Nat.succ_ne_zero n)

theorem plain (literal : IsInteger token i) : ∀ c ∈ token, startsInteger c = true := by
  have digits {ds : List Char} (whole : IsWhole ds) : ∀ c ∈ ds, startsInteger c = true := by
    intro c member
    simp [startsInteger, whole.isDigits.2 c member]
  cases literal with
  | bare whole _ => exact digits whole
  | minus whole _ => exact List.forall_mem_cons.mpr ⟨rfl, digits whole⟩

end IsInteger

/-! ## Taking a literal off the text -/

namespace Numeral

variable {ds front s : List Char}

theorem readWhole_of_isWhole (whole : IsWhole ds) (ends : ∀ c ∈ s.head?, c.isDigit = false) :
    readWhole (ds ++ s) = .ok (ds, s) := by
  obtain ⟨some, all⟩ := whole.isDigits
  exact readWhole_of_digits some all ends whole.canonical

theorem exists_readFraction (fraction : IsFraction front) :
    ∃ found, ∀ s : List Char, (∀ c ∈ s.head?, c.isDigit = false ∧ c ≠ '.') →
      readFraction (front ++ s) = .ok (found, s) := by
  cases fraction with
  | none =>
    refine ⟨.none, fun s ends => ?_⟩
    rw [List.nil_append]
    unfold readFraction
    split
    · exact absurd rfl (ends '.' rfl).2
    · rfl
  | @some ds digits =>
    refine ⟨.some ds, fun s ends => ?_⟩
    have read := digitsHere_of_digits digits.1 digits.2 fun c first => (ends c first).1
    rw [List.cons_append, readFraction, read]
    rfl

theorem exists_readExponent (exponent : IsExponent front) :
    ∃ found, ∀ s : List Char, Stops s → readExponent (front ++ s) = .ok (found, s) := by
  cases exponent with
  | none => exact ⟨none, fun _ => readExponent_of_stops⟩
  | @some letter sign ds lettered signed digits =>
    have here : (letter = 'e' || letter = 'E') = true := by simpa using lettered
    have read {s : List Char} (stops : Stops s) : digitsHere (ds ++ s) = .ok (ds, s) :=
      digitsHere_of_digits digits.1 digits.2 (isDigit_of_stops stops)
    rcases signed with rfl | rfl | rfl
    · -- The digits do not begin with a sign of their own.
      refine ⟨.some (false, ds), fun s stops => ?_⟩
      obtain ⟨d, ds, rfl⟩ := List.exists_cons_of_ne_nil digits.1
      have digit := digits.2 d List.mem_cons_self
      rw [List.nil_append, List.cons_append, readExponent, if_pos here]
      · exact congrArg (Except.map _) (read stops)
      · rintro left ⟨⟩
        contradiction
      · rintro left ⟨⟩
        contradiction
    · refine ⟨.some (false, ds), fun s stops => ?_⟩
      simp only [List.cons_append, List.nil_append, readExponent, if_pos here, read stops]
      rfl
    · refine ⟨.some (true, ds), fun s stops => ?_⟩
      simp only [List.cons_append, List.nil_append, readExponent, if_pos here, read stops]
      rfl

theorem ends_before {fraction exponent rest : List Char} (fractional : IsFraction fraction)
    (exponential : IsExponent exponent) (stops : Stops rest) :
    (∀ c ∈ (exponent ++ rest).head?, c.isDigit = false ∧ c ≠ '.') ∧
      ∀ c ∈ (fraction ++ (exponent ++ rest)).head?, c.isDigit = false := by
  have behind : ∀ c ∈ (exponent ++ rest).head?, c.isDigit = false ∧ c ≠ '.' := by
    cases exponential with
    | none =>
      intro c first
      have apart := stops c first
      simp only [continuesNumber, Bool.or_eq_false_iff, decide_eq_false_iff_not] at apart
      exact ⟨apart.1.1.1, apart.1.1.2⟩
    | some lettered =>
      rintro c ⟨⟩
      rcases lettered with rfl | rfl <;> exact ⟨rfl, by decide⟩
  refine ⟨behind, ?_⟩
  cases fractional with
  | none => exact fun c first => (behind c first).1
  | some =>
    rintro c ⟨⟩
    rfl

theorem exists_read {token : Token} (number : IsNumber token) :
    ∃ n, ∀ rest, Stops rest → read (token ++ rest) = .ok (n, rest) := by
  cases number with
  | @intro sign whole fraction exponent signed whole_ok fraction_ok exponent_ok =>
    obtain ⟨part, second⟩ := exists_readFraction fraction_ok
    obtain ⟨power, third⟩ := exists_readExponent exponent_ok
    have magnitude {rest : List Char} (stops : Stops rest) :
        readWhole (whole ++ (fraction ++ (exponent ++ rest))) =
          .ok (whole, fraction ++ (exponent ++ rest)) ∧
        readFraction (fraction ++ (exponent ++ rest)) = .ok (part, exponent ++ rest) ∧
        readExponent (exponent ++ rest) = .ok (power, rest) := by
      obtain ⟨behind, after⟩ := ends_before fraction_ok exponent_ok stops
      exact ⟨readWhole_of_isWhole whole_ok after, second _ behind, third rest stops⟩
    rcases signed with rfl | rfl
    · refine ⟨⟨false, whole, part, power⟩, fun rest stops => ?_⟩
      obtain ⟨first, second, third⟩ := magnitude stops
      obtain ⟨d, ds, rfl⟩ := List.exists_cons_of_ne_nil whole_ok.isDigits.1
      have digit := whole_ok.isDigits.2 d List.mem_cons_self
      unfold read
      split
      rename_i negative s start
      split at start
      · rename_i minus
        obtain rfl : d = '-' := (List.cons.inj minus).1
        contradiction
      · obtain ⟨rfl, rfl⟩ := Prod.mk.inj start
        simp only [List.nil_append, List.append_assoc, first, second, third, ok_bind]
        rfl
    · refine ⟨⟨true, whole, part, power⟩, fun rest stops => ?_⟩
      obtain ⟨first, second, third⟩ := magnitude stops
      simp only [List.cons_append, List.nil_append, List.append_assoc, read, first, second, third,
        ok_bind]
      rfl

end Numeral

/-! ## Words of 64 bits -/

namespace Numeral

theorem le_ofDigitChars (ds : List Char) (significand : Nat) :
    significand ≤ Nat.ofDigitChars 10 ds significand := by
  induction ds generalizing significand with
  | nil => exact Nat.le_refl _
  | cons d ds ih =>
    have more := ih (10 * significand + (d.toNat - '0'.toNat))
    rw [Nat.ofDigitChars_cons]
    omega

/-- Digits that are added up in a word are all added, or some of them are left. -/
theorem accumulate_of_lt {significand : Nat} {ds : List Char}
    (fits : Nat.ofDigitChars 10 ds significand < UInt64.size) :
    accumulate significand ds = (Nat.ofDigitChars 10 ds significand, 0) := by
  induction ds generalizing significand with
  | nil => rfl
  | cons d ds ih =>
    rw [Nat.ofDigitChars_cons] at fits ⊢
    have within := Nat.lt_of_le_of_lt (le_ofDigitChars ds _) fits
    rw [accumulate, if_pos within, ih fits]

theorem accumulate_of_le {significand : Nat} {ds : List Char} (word : significand < UInt64.size)
    (large : UInt64.size ≤ Nat.ofDigitChars 10 ds significand) :
    ∃ part left, accumulate significand ds = (part, left + 1) := by
  induction ds generalizing significand with
  | nil => exact absurd word (Nat.not_lt.mpr large)
  | cons d ds ih =>
    rw [Nat.ofDigitChars_cons] at large
    by_cases within : 10 * significand + (d.toNat - '0'.toNat) < UInt64.size
    · rw [accumulate, if_pos within]
      exact ih within large
    · rw [accumulate, if_neg within]
      exact ⟨_, _, rfl⟩

/-- The integer of these digits as it is found in words of 64 bits: the digits add up for as long
as they fit, and the sum is negated within the word, which is taken only if it is negative then. -/
def inWords? (negative : Bool) (ds : List Char) : Option Int :=
  match accumulate 0 ds with
  | (significand, 0) =>
    if negative then
      let opposite := -(UInt64.ofNat significand).toInt64
      if opposite < 0 then some opposite.toInt else none
    else some significand
  | _ => none

/-- The negation within a word, as a number. It wraps around for magnitudes above 2^63. -/
theorem toInt_neg_word {magnitude : Nat} (word : magnitude < UInt64.size) :
    (-(UInt64.ofNat magnitude).toInt64).toInt =
      if magnitude ≤ 0x8000000000000000 then -(magnitude : Int)
      else 0x10000000000000000 - (magnitude : Int) := by
  have range : magnitude < 0x10000000000000000 := word
  rw [Int64.toInt_neg, toInt_toInt64, toNat_ofNat_of_fits range, Int.bmod_def]
  split <;> split <;> split <;> omega

/-- Nothing is lost in words: the same literals are integers, and the same ones. -/
theorem integer?_eq_inWords? (n : Numeral) :
    n.integer? =
      if n.fraction.isSome || n.exponent.isSome then none else inWords? n.negative n.whole := by
  have size : UInt64.size = 0x10000000000000000 := rfl
  unfold integer? inWords?
  congr 1
  by_cases word : Decimal.value n.whole < UInt64.size
  · have added : accumulate 0 n.whole = (Decimal.value n.whole, 0) := accumulate_of_lt word
    rw [added]
    simp only [if_pos word, Int64.lt_iff_toInt_lt, toInt_neg_word word, Int64.toInt_zero]
    by_cases negative : n.negative = true
    · simp only [if_pos negative]
      by_cases small : 0 < Decimal.value n.whole ∧ Decimal.value n.whole ≤ 0x8000000000000000
      · have below : -(Decimal.value n.whole : Int) < 0 := by omega
        simp only [if_pos small, if_pos small.2, if_pos below]
      · rw [if_neg small, if_neg]
        split <;> omega
    · simp only [if_neg negative]
  · obtain ⟨part, left, added⟩ := accumulate_of_le (by decide) (Nat.not_lt.mp word)
    have large : ¬(0 < Decimal.value n.whole ∧ Decimal.value n.whole ≤ 0x8000000000000000) := by
      omega
    rw [added]
    simp only [if_neg word, if_neg large, ite_self]

end Numeral

/-! ## Where an integer is expected -/

variable {token : Token}

/-- A literal is found as what it stands for, and as an integer only if it is the written form of
that integer. -/
theorem inspect_of_isNumber (number : IsNumber token) :
    ∃ n : Numeral, (∀ i, n.integer? = some i → token = Decimal.signed i ∧ FitsWord i) ∧
      ∀ text rest, Spaced [token] text rest → Stops rest →
        inspect text = n.found.map (·, rest) := by
  obtain ⟨n, read⟩ := Numeral.exists_read number
  refine ⟨n, fun i integer => ?_, fun text rest spaced stops => ?_⟩
  · have alone := read [] (.of_blank (List.forall_mem_nil _))
    obtain ⟨same, _, fits⟩ := Numeral.read_origin alone integer
    exact ⟨List.append_cancel_right same, fits⟩
  · obtain ⟨c, cs, rfl, start⟩ := number.exists_cons
    obtain ⟨_, here, ⟨⟩⟩ := spaced.head (isSpace_of_startsInteger start)
    rw [inspect_number start here, ← List.cons_append, read rest stops, ok_bind]
    cases found : n.found <;> simp only [found] <;> rfl

/-- Refused as a floating-point number, or for being too large even for one. -/
inductive NoInteger (expected : String) : ReadError → Prop
  | floating (bits : UInt64) : NoInteger expected (.data (.wrongType (.floating bits) expected))
  | malformed : NoInteger expected .malformed

theorem readInteger_of_other (expected : String) (low high : Int) (number : IsNumber token)
    (other : ∀ i, FitsWord i → token ≠ Decimal.signed i) :
    ∃ e, NoInteger expected e ∧ ∀ text rest, Spaced [token] text rest → Stops rest →
      readInteger expected low high text = .error e := by
  obtain ⟨n, integer, found⟩ := inspect_of_isNumber number
  have none : n.integer? = none := by
    rw [Option.eq_none_iff_forall_ne_some]
    intro i some
    obtain ⟨same, fits⟩ := integer i some
    exact other i fits same
  cases float : n.float? with
  | none =>
    refine ⟨_, .malformed, fun text rest spaced stops => ?_⟩
    rw [readInteger, found text rest spaced stops, Numeral.found, none, float]
    rfl
  | some x =>
    refine ⟨_, .floating x.toBits, fun text rest spaced stops => ?_⟩
    rw [readInteger, found text rest spaced stops, Numeral.found, none, float]
    rfl

end Mempool.Json
