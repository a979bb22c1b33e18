import Mempool.Proofs.Json.Cuts

/-! Integers that are cut short. A reader of integers takes just their digits, and the front of an
integer is a smaller one, which every range with zero has as well: no cut of an integer is an
error, but it leaves nothing in the text. -/
namespace Mempool.Json

namespace Numeral

variable {s rest ds : List Char}

theorem digitsHere_origin (read : digitsHere s = .ok (ds, rest)) :
    s = ds ++ rest ∧ ds ≠ [] ∧ (∀ d ∈ ds, d.isDigit = true) ∧ rest.head?.all (!·.isDigit) := by
  cases s with
  | nil => contradiction
  | cons c s =>
    by_cases digit : c.isDigit = true
    · rw [digitsHere, if_pos digit] at read
      cases read
      refine ⟨List.takeWhile_append_dropWhile.symm, by simp [digit], ?_, ?_⟩
      · exact fun d member => List.mem_takeWhile_imp member
      · have ends := List.head?_dropWhile_not Char.isDigit (c :: s)
        cases after : ((c :: s).dropWhile Char.isDigit).head? with
        | none => rfl
        | some d => simpa [after] using ends
    · rw [digitsHere, if_neg digit] at read
      contradiction

theorem readWhole_origin (read : readWhole s = .ok (ds, rest)) :
    s = Decimal.digits (Decimal.value ds) ++ rest ∧ rest.head?.all (!·.isDigit) := by
  obtain ⟨⟨_, _⟩, found, read⟩ := bind_eq_ok.mp read
  dsimp only at read
  split at read
  · contradiction
  · rename_i canonical
    cases read
    obtain ⟨split, some, all, ends⟩ := digitsHere_origin found
    rw [Decimal.digits_value some all fun zero => by_contra fun long => canonical ⟨zero, long⟩]
    exact ⟨split, ends⟩

theorem readFraction_none (read : readFraction s = .ok (none, rest)) :
    rest = s ∧ s.head?.all (· ≠ '.') := by
  unfold readFraction at read
  split at read
  · rename_i s
    cases found : digitsHere s <;> simp [found, Except.map] at read
  · rename_i whole
    cases read
    refine ⟨rfl, ?_⟩
    cases s with
    | nil => rfl
    | cons c s =>
      have other : c ≠ '.' := by
        rintro rfl
        exact whole s rfl
      simpa using other

theorem readExponent_none (read : readExponent s = .ok (none, rest)) :
    rest = s ∧ s.head?.all fun c => c ≠ 'e' && c ≠ 'E' := by
  unfold readExponent at read
  split at read
  · rename_i c s
    split at read
    · split at read
      rename_i negative body _
      cases found : digitsHere body <;> simp [found, Except.map] at read
    · rename_i other
      cases read
      exact ⟨rfl, by simpa using other⟩
  · cases read
    exact ⟨rfl, rfl⟩

theorem magnitude_origin {after : List Char} (whole : readWhole s = .ok (ds, after))
    (fraction : readFraction after = .ok (none, rest)) {last : List Char}
    (exponent : readExponent rest = .ok (none, last)) :
    s = Decimal.digits (Decimal.value ds) ++ last ∧ Stops last := by
  obtain ⟨split, digit⟩ := readWhole_origin whole
  obtain ⟨rfl, point⟩ := readFraction_none fraction
  obtain ⟨rfl, letter⟩ := readExponent_none exponent
  refine ⟨split, fun c first => ?_⟩
  rw [Option.mem_def] at first
  simp_all [continuesNumber]

theorem integer?_origin {n : Numeral} {i : Int} (integer : n.integer? = some i) :
    n.fraction = none ∧ n.exponent = none ∧ FitsWord i ∧
      Decimal.signed i =
        (if n.negative then ['-'] else []) ++ Decimal.digits (Decimal.value n.whole) := by
  obtain ⟨negative, whole, fraction, exponent⟩ := n
  unfold integer? at integer
  split at integer
  · contradiction
  · rename_i plain
    obtain ⟨rfl, rfl⟩ : fraction = none ∧ exponent = none := by simpa using plain
    refine ⟨rfl, rfl, ?_⟩
    cases negative with
    | true =>
      simp only [if_true] at integer
      split at integer
      · rename_i range
        obtain rfl := Option.some.inj integer
        obtain ⟨m, same⟩ := Nat.exists_eq_succ_of_ne_zero (Nat.pos_iff_ne_zero.mp range.1)
        refine ⟨⟨by omega, by omega⟩, ?_⟩
        rw [same]
        rfl
      · contradiction
    | false =>
      simp only [Bool.false_eq_true, if_false] at integer
      split at integer
      · rename_i range
        obtain rfl := Option.some.inj integer
        exact ⟨⟨by omega, Int.ofNat_lt.mpr range⟩, rfl⟩
      · contradiction

theorem read_origin {n : Numeral} {i : Int} (found : read s = .ok (n, rest))
    (integer : n.integer? = some i) : s = Decimal.signed i ++ rest ∧ Stops rest ∧ FitsWord i := by
  obtain ⟨fraction, exponent, fits, signed⟩ := integer?_origin integer
  unfold read at found
  split at found
  rename_i negative body start
  obtain ⟨⟨whole, after⟩, here, found⟩ := bind_eq_ok.mp found
  obtain ⟨⟨fraction', after'⟩, here', found⟩ := bind_eq_ok.mp found
  obtain ⟨⟨exponent', last⟩, here'', ⟨⟩⟩ := bind_eq_ok.mp found
  subst fraction exponent
  obtain ⟨magnitude, stops⟩ := magnitude_origin here here' here''
  refine ⟨?_, stops, fits⟩
  rw [signed, List.append_assoc, ← magnitude]
  split at start <;> cases start <;> rfl

theorem found_integer {n : Numeral} {i : Int} (integer : n.found = .ok (.integer i)) :
    n.integer? = some i := by
  unfold found at integer
  split at integer
  · rename_i value here
    cases integer
    exact here
  · split at integer <;> cases integer

end Numeral

section Integers

variable {s rest : List Char} {i : Int}

theorem inspect_integer (found : inspect s = .ok (.integer i, rest)) :
    skipSpace s = Decimal.signed i ++ rest ∧ Stops rest ∧ FitsWord i := by
  unfold inspect at found
  split at found
  · contradiction
  · rename_i c left here
    rw [here]
    -- A word, a string or a bracket is not found as an integer.
    split at found
    · cases read : word ['u', 'l', 'l'] left <;> simp [read, Except.map] at found
    split at found
    · cases read : word ['r', 'u', 'e'] left <;> simp [read, Except.map] at found
    split at found
    · cases read : word ['a', 'l', 's', 'e'] left <;> simp [read, Except.map] at found
    split at found
    · obtain ⟨⟨numeral, last⟩, number, found⟩ := bind_eq_ok.mp found
      obtain ⟨_, value, ⟨⟩⟩ := bind_eq_ok.mp found
      exact Numeral.read_origin number (Numeral.found_integer value)
    split at found
    · cases read : StringLiteral.read left <;> simp [read, Except.map] at found
    split at found
    · cases found
    split at found <;> cases found

theorem readInteger_origin {expected : String} {low high : Int}
    (read : readInteger expected low high s = .ok (i, rest)) :
    ∃ space, Blank space ∧ s = space ++ (Decimal.signed i ++ rest) ∧ Stops rest ∧ FitsWord i ∧
      low ≤ i ∧ i ≤ high := by
  obtain ⟨⟨found, left⟩, here, read⟩ := bind_eq_ok.mp read
  cases found with
  | integer value =>
    dsimp only at read
    split at read
    · rename_i range
      cases read
      obtain ⟨number, stops, fits⟩ := inspect_integer here
      refine ⟨s.takeWhile isSpace, fun c member => List.mem_takeWhile_imp member, ?_, stops, fits,
        range⟩
      rw [← number]
      exact List.takeWhile_append_dropWhile.symm
    · contradiction
  | _ => contradiction

/-- The front of an integer, unless it has no digits. -/
theorem exists_signed_of_prefix {front : List Char} (some : front ≠ []) (digits : front ≠ ['-'])
    (inside : front <+: Decimal.signed i) :
    ∃ j, front = Decimal.signed j ∧ (0 ≤ j ∧ j ≤ i ∨ i ≤ j ∧ j ≤ 0) := by
  cases i with
  | ofNat n =>
    obtain ⟨m, rfl, below, _⟩ := Decimal.exists_digits_of_prefix some inside
    exact ⟨.ofNat m, rfl, .inl ⟨Int.natCast_nonneg m, Int.ofNat_le.mpr below⟩⟩
  | negSucc n =>
    cases front with
    | nil => contradiction
    | cons c front =>
      obtain ⟨rfl, shorter⟩ := List.cons_prefix_cons.mp inside
      have more : front ≠ [] := by
        rintro rfl
        contradiction
      obtain ⟨m, rfl, below, positive⟩ := Decimal.exists_digits_of_prefix more shorter
      have nonzero := Nat.pos_iff_ne_zero.mp (positive (Nat.succ_pos n))
      obtain ⟨m, rfl⟩ := Nat.exists_eq_succ_of_ne_zero nonzero
      exact ⟨.negSucc m, rfl, .inr ⟨by omega, by omega⟩⟩

/-- With nothing but white space or a minus sign the text ends early. -/
theorem readInteger_none (expected : String) (low high : Int) {space : List Char}
    (blank : Blank space) :
    readInteger expected low high space = .error .truncated ∧
      readInteger expected low high (space ++ ['-']) = .error .truncated := by
  have none : skipSpace space = [] := skipSpace_of_blank blank
  have minus : skipSpace (space ++ ['-']) = ['-'] := skipSpace_append blank _
  constructor
  · simp [readInteger, inspect, none]
    rfl
  · simp [readInteger, inspect, minus]
    rfl

/-- A range with zero has the front of an integer if it has the integer. -/
theorem gradual_readInteger (expected : String) {low high : Int} (zero : low ≤ 0 ∧ 0 ≤ high) :
    Gradual (readInteger expected low high) never := by
  intro front back i rest read
  obtain ⟨space, blank, split, stops, fits, range⟩ := readInteger_origin read
  have reads (j : Int) (between : 0 ≤ j ∧ j ≤ i ∨ i ≤ j ∧ j ≤ 0) (left : List Char)
      (stops : Stops left) :
      readInteger expected low high (space ++ (Decimal.signed j ++ left)) = .ok (j, left) := by
    have spaced : Spaced (numberTokens j) (space ++ (Decimal.signed j ++ left)) left :=
      .cons blank _ (.nil left)
    obtain ⟨least, most⟩ := fits
    exact reads_readInteger expected low high ⟨by omega, by omega⟩ ⟨by omega, by omega⟩ _ _ spaced
      stops
  -- The cut is in the white space, behind the number, or in the number itself.
  rcases List.append_eq_append_iff.mp split with ⟨later, here, past⟩ | ⟨part, rfl, number⟩
  · have none : Blank front := fun c member => blank c (here ▸ List.mem_append_left _ member)
    rw [(readInteger_none expected low high none).1, past]
    exact .truncated ⟨later ++ Decimal.signed i, by simp⟩
  · rcases List.append_eq_append_iff.mp number with ⟨left, rfl, behind⟩ | ⟨cut, number, past⟩
    · have apart : Stops left := by
        intro c first
        refine stops c ?_
        rw [behind, Option.mem_def] at *
        simp [Option.mem_def.mp first]
      rw [reads i (by omega) left apart]
      exact .of_ok ⟨space ++ Decimal.signed i, by simp⟩ behind
    · have within : rest <:+ back := past ▸ List.suffix_append cut rest
      by_cases none : part = []
      · subst none
        rw [List.append_nil, (readInteger_none expected low high blank).1]
        exact .truncated within
      · by_cases minus : part = ['-']
        · subst minus
          rw [(readInteger_none expected low high blank).2]
          exact .truncated within
        · obtain ⟨j, rfl, between⟩ :=
            exists_signed_of_prefix none minus (number ▸ List.prefix_append part cut)
          have read := reads j between [] (by simp [Stops])
          rw [List.append_nil] at read
          rw [read]
          exact .out within

theorem gradual_readUInt64 : Gradual readUInt64 never :=
  (gradual_readInteger "usize" (by decide)).map fun value => UInt64.ofNat value.toNat

theorem gradual_readInt64 : Gradual readInt64 never :=
  (gradual_readInteger "i64" (by decide)).map Int64.ofInt

theorem gradual_readByte : Gradual readByte never :=
  (gradual_readInteger "u8" (by decide)).map fun value => UInt8.ofNat value.toNat

theorem readByte_shorter {b : UInt8} (read : readByte s = .ok (b, rest)) :
    rest.length < s.length := by
  obtain ⟨⟨i, _⟩, found, ⟨⟩⟩ := bind_eq_ok.mp read
  obtain ⟨space, _, rfl, _⟩ := readInteger_origin found
  obtain ⟨c, cs, front, _⟩ := exists_signed_eq_cons i
  simp only [front, List.length_append, List.length_cons]
  omega

end Integers

end Mempool.Json
