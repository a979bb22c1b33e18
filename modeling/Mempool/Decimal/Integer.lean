/-! Integers in decimal. They are written without a leading zero, and with a minus sign before a
negative number. Settings are read more freely: leading zeros and a plus sign are allowed, and a
minus sign where the integer is signed. Other characters, blanks included, are refused. -/
namespace Mempool.Decimal

def digits (n : Nat) : List Char := Nat.toDigits 10 n

def value (cs : List Char) : Nat := Nat.ofDigitChars 10 cs 0

def signed : Int → List Char
  | .ofNat n => digits n
  | .negSucc n => '-' :: digits (n + 1)

def ofNat (n : Nat) : String := String.ofList (digits n)

def ofInt (n : Int) : String := String.ofList (signed n)

def ofUInt64 (n : UInt64) : String := ofNat n.toNat

def ofInt64 (n : Int64) : String := ofInt n.toInt

@[simp] theorem value_digits (n : Nat) : value (digits n) = n :=
  Nat.ofDigitChars_toDigits (by decide) (by decide)

theorem digits_ne_nil (n : Nat) : digits n ≠ [] := Nat.toDigits_ne_nil

theorem digits_injective {m n : Nat} (same : digits m = digits n) : m = n := by
  rw [← value_digits m, same, value_digits]

/-! ## Settings -/

def natural? (cs : List Char) : Option Nat :=
  if !cs.isEmpty && cs.all Char.isDigit then some (value cs) else none

/-- An optional plus sign, then at least one digit. -/
def unsigned? : List Char → Option Nat
  | '+' :: cs => natural? cs
  | cs => natural? cs

/-- An optional sign, then at least one digit. -/
def signed? : List Char → Option Int
  | '+' :: cs => (natural? cs).map Int.ofNat
  | '-' :: cs => (natural? cs).map fun n => -Int.ofNat n
  | cs => (natural? cs).map Int.ofNat

def uint64? (cs : List Char) : Option UInt64 :=
  (unsigned? cs).bind fun n => if n < UInt64.size then some (UInt64.ofNat n) else none

def int64? (cs : List Char) : Option Int64 :=
  (signed? cs).bind fun n =>
    if -0x8000000000000000 ≤ n ∧ n < 0x8000000000000000 then some (Int64.ofInt n) else none

end Mempool.Decimal
