import Mempool.Proofs.Decimal.Digits
import Mempool.Proofs.Json.Spacing

/-! Written integers are read back. An integer literal that fits 64 bits, with or without a sign,
is found as that integer, and a reader of a range takes it if the range has it. -/
namespace Mempool.Json

theorem isDigit_of_stops {rest : List Char} (stops : Stops rest) :
    ∀ c ∈ rest.head?, c.isDigit = false := by
  intro c first
  have apart := stops c first
  simp only [continuesNumber, Bool.or_eq_false_iff] at apart
  exact apart.1.1.1

/-- A literal of this integer, without fraction and exponent. -/
def Numeral.ofInt : Int → Numeral
  | .ofNat n => ⟨false, Decimal.digits n, none, none⟩
  | .negSucc n => ⟨true, Decimal.digits (n + 1), none, none⟩

namespace Numeral

section Digits

variable {ds rest : List Char} (some : ds ≠ []) (all : ∀ d ∈ ds, d.isDigit = true)
  (ends : ∀ c ∈ rest.head?, c.isDigit = false)

include some all ends

theorem digitsHere_of_digits : digitsHere (ds ++ rest) = .ok (ds, rest) := by
  have taken := Decimal.takeWhile_isDigit_append ends all
  have left := Decimal.dropWhile_isDigit_append ends all
  obtain ⟨c, cs, rfl⟩ := List.exists_cons_of_ne_nil some
  rw [List.cons_append] at taken left ⊢
  rw [digitsHere, if_pos (all c List.mem_cons_self), taken, left]

theorem readWhole_of_digits (canonical : ds.head? = Option.some '0' → ds.length = 1) :
    readWhole (ds ++ rest) = .ok (ds, rest) := by
  have unled : ¬(ds.head? = Option.some '0' ∧ ds.length ≠ 1) := fun ⟨zero, long⟩ =>
    long (canonical zero)
  rw [readWhole, digitsHere_of_digits some all ends, ok_bind]
  simp only [if_neg unled]
  rfl

end Digits

variable {rest : List Char} (stops : Stops rest)

include stops

theorem readWhole_append (n : Nat) :
    readWhole (Decimal.digits n ++ rest) = .ok (Decimal.digits n, rest) := by
  refine readWhole_of_digits (Decimal.digits_ne_nil n) (fun _ => Decimal.isDigit_of_mem_digits)
    (isDigit_of_stops stops) fun zero => ?_
  by_cases positive : 0 < n
  · exact absurd zero (Decimal.head?_digits_ne_zero positive)
  · obtain rfl : n = 0 := by omega
    exact congrArg List.length Decimal.digits_zero

theorem readFraction_of_stops : readFraction rest = .ok (none, rest) := by
  unfold readFraction
  split
  · rename_i s
    simp [Stops, continuesNumber] at stops
  · rfl

theorem readExponent_of_stops : readExponent rest = .ok (none, rest) := by
  unfold readExponent
  split
  · rename_i c s
    have apart := stops c rfl
    simp only [continuesNumber, Bool.or_eq_false_iff] at apart
    rw [apart.1.2, apart.2]
    rfl
  · rfl

theorem read_append (i : Int) :
    read (Decimal.signed i ++ rest) = .ok (ofInt i, rest) := by
  have whole (n : Nat) := readWhole_append stops n
  have fraction := readFraction_of_stops stops
  have exponent := readExponent_of_stops stops
  cases i with
  | ofNat n =>
    obtain ⟨c, cs, front, digit⟩ := Decimal.exists_digits_eq_cons n
    have unsigned : c ≠ '-' := by rintro rfl; contradiction
    have magnitude := whole n
    rw [Decimal.signed]
    rw [front, List.cons_append] at magnitude ⊢
    unfold read
    split
    rename_i negative s start
    split at start
    · rename_i signed
      exact absurd (List.cons.inj signed).1 unsigned
    · obtain ⟨rfl, rfl⟩ := Prod.mk.inj start
      simp only [magnitude, ok_bind, fraction, exponent]
      rw [ofInt, front]
      rfl
  | negSucc n =>
    rw [Decimal.signed, List.cons_append, read]
    simp only [whole, ok_bind, fraction, exponent]
    rfl

end Numeral

/-- The integers that are not read as floating-point numbers. -/
def FitsWord (i : Int) : Prop := -0x8000000000000000 ≤ i ∧ i < 0x10000000000000000

theorem Numeral.found_ofInt {i : Int} (fits : FitsWord i) :
    (ofInt i).found = .ok (.integer i) := by
  obtain ⟨low, high⟩ := fits
  have exact : (ofInt i).integer? = some i := by
    cases i with
    | ofNat n =>
      have below : n < UInt64.size := Int.ofNat_lt.mp high
      simp [ofInt, integer?, below]
    | negSucc n =>
      have above : n + 1 ≤ 0x8000000000000000 := by omega
      simp [ofInt, integer?, above]
      omega
  rw [found, exact]

def startsInteger (c : Char) : Bool := c = '-' || c.isDigit

theorem exists_signed_eq_cons (i : Int) :
    ∃ c cs, Decimal.signed i = c :: cs ∧ startsInteger c = true := by
  cases i with
  | ofNat n =>
    obtain ⟨c, cs, front, digit⟩ := Decimal.exists_digits_eq_cons n
    exact ⟨c, cs, front, by simp [startsInteger, digit]⟩
  | negSucc n => exact ⟨'-', Decimal.digits (n + 1), rfl, rfl⟩

theorem ne_of_startsInteger {c other : Char} (start : startsInteger c = true)
    (different : startsInteger other = false) : c ≠ other := by
  rintro rfl
  rw [start] at different
  contradiction

theorem isSpace_of_startsInteger {c : Char} (start : startsInteger c = true) :
    isSpace c = false := by
  have other (d : Char) (different : startsInteger d = false) : c ≠ d :=
    ne_of_startsInteger start different
  simp [isSpace, other ' ' rfl, other '\n' rfl, other '\t' rfl, other '\r' rfl]

theorem inspect_number {c : Char} {text s : List Char} (start : startsInteger c = true)
    (here : skipSpace text = c :: s) :
    inspect text = do
      let (numeral, rest) ← Numeral.read (c :: s)
      return (← numeral.found, rest) := by
  have other (d : Char) (different : startsInteger d = false) : c ≠ d :=
    ne_of_startsInteger start different
  unfold inspect
  rw [here]
  simp only [if_neg (other 'n' rfl), if_neg (other 't' rfl), if_neg (other 'f' rfl)]
  exact if_pos start

theorem reads_inspect {i : Int} (fits : FitsWord i) :
    Reads inspect (numberTokens i) (.integer i) := by
  intro text rest spaced stops
  obtain ⟨c, cs, front, start⟩ := exists_signed_eq_cons i
  rw [numberTokens, front] at spaced
  obtain ⟨_, here, ⟨⟩⟩ := spaced.head (isSpace_of_startsInteger start)
  rw [inspect_number start here, ← List.cons_append, ← front, Numeral.read_append stops, ok_bind]
  simp only [Numeral.found_ofInt fits, ok_bind]
  rfl

theorem reads_readInteger (expected : String) (low high : Int) {i : Int} (fits : FitsWord i)
    (inside : low ≤ i ∧ i ≤ high) : Reads (readInteger expected low high) (numberTokens i) i := by
  intro text rest spaced stops
  rw [readInteger, reads_inspect fits text rest spaced stops, ok_bind]
  exact if_pos inside

theorem reads_readUInt64 (n : UInt64) : Reads readUInt64 (numberTokens n.toNat) n := by
  have bound := n.toNat_lt
  have read := reads_readInteger "usize" 0 0xffffffffffffffff (i := n.toNat)
    ⟨by omega, by omega⟩ ⟨by omega, by omega⟩
  have word := read.map fun value => UInt64.ofNat value.toNat
  rwa [Int.toNat_natCast, UInt64.ofNat_toNat] at word

theorem reads_readInt64 (n : Int64) : Reads readInt64 (numberTokens n.toInt) n := by
  have low := n.le_toInt
  have high := n.toInt_lt
  have read := reads_readInteger "i64" (-0x8000000000000000) 0x7fffffffffffffff (i := n.toInt)
    ⟨by omega, by omega⟩ ⟨by omega, by omega⟩
  have word := read.map Int64.ofInt
  rwa [Int64.ofInt_toInt] at word

theorem reads_readByte (b : UInt8) : Reads readByte (numberTokens b.toNat) b := by
  have bound := b.toNat_lt
  have read := reads_readInteger "u8" 0 255 (i := b.toNat)
    ⟨by omega, by omega⟩ ⟨by omega, by omega⟩
  have byte := read.map fun value => UInt8.ofNat value.toNat
  rwa [Int.toNat_natCast, UInt8.ofNat_toNat] at byte

end Mempool.Json
