import Mathlib.Data.List.Forall2
import Mempool.Json.StringLiteral

/-! String literals by their grammar: each character stands for itself or is escaped, in one of
several ways. A literal is read as the text it spells. One that is passed over may also hold
escapes of lone surrogates, which spell nothing. -/
namespace Mempool.Json

/-! ## The grammar -/

/-- A character that stands for itself in a string. -/
def Plain (c : Char) : Prop := c ≠ '"' ∧ c ≠ '\\' ∧ 0x20 ≤ c.toNat

instance : DecidablePred Plain := fun _ => inferInstanceAs (Decidable (_ ∧ _))

def AllPlain (text : List Char) : Prop := ∀ c ∈ text, Plain c

instance (text : List Char) : Decidable (AllPlain text) := List.decidableBAll Plain text

/-- Four hexadecimal digits, of either case, and the number they make. -/
inductive FourDigits : List Char → Nat → Prop
  | intro {a b c d : Char} {i j k l : Nat} (first : Hex.digitValue? a = some i)
      (second : Hex.digitValue? b = some j) (third : Hex.digitValue? c = some k)
      (fourth : Hex.digitValue? d = some l) :
      FourDigits [a, b, c, d] (0x1000 * i + 0x100 * j + 0x10 * k + l)

def shortEscapes : List (Char × Char) :=
  [('"', '"'), ('\\', '\\'), ('/', '/'), ('b', '\x08'), ('f', '\x0c'), ('n', '\n'), ('r', '\r'),
    ('t', '\t')]

/-- The halves of the surrogate pair of a character from 2^16 on. -/
def highHalf (c : Char) : Nat := 0xD800 + (c.toNat - 0x10000) / 0x400
def lowHalf (c : Char) : Nat := 0xDC00 + (c.toNat - 0x10000) % 0x400

/-- Ways to write a character. One from 2^16 on takes two escapes, or stands for itself. -/
inductive Writes : List Char → Char → Prop
  | plain {c : Char} (plain : Plain c) : Writes [c] c
  | short {letter c : Char} (listed : (letter, c) ∈ shortEscapes) : Writes ['\\', letter] c
  | unit {c : Char} {ds : List Char} (digits : FourDigits ds c.toNat) :
      Writes ('\\' :: 'u' :: ds) c
  | pair {c : Char} {ds es : List Char} (beyond : 0x10000 ≤ c.toNat)
      (high : FourDigits ds (highHalf c)) (low : FourDigits es (lowHalf c)) :
      Writes ('\\' :: 'u' :: ds ++ '\\' :: 'u' :: es) c

/-- Pieces of a literal, whatever they spell. -/
inductive IsPiece : List Char → Prop
  | plain {c : Char} (plain : Plain c) : IsPiece [c]
  | short {letter c : Char} (listed : (letter, c) ∈ shortEscapes) : IsPiece ['\\', letter]
  | unit {n : Nat} {ds : List Char} (digits : FourDigits ds n) : IsPiece ('\\' :: 'u' :: ds)

def quotation (pieces : List (List Char)) : Token := '"' :: (pieces.flatten ++ ['"'])

/-- The token is a literal of this text. -/
def Quotes (token : Token) (text : String) : Prop :=
  ∃ pieces, token = quotation pieces ∧ List.Forall₂ Writes pieces text.toList

/-- The token is a literal of the grammar. -/
def IsString (token : Token) : Prop :=
  ∃ pieces, token = quotation pieces ∧ ∀ piece ∈ pieces, IsPiece piece

/-! ## Reading -/

namespace StringLiteral

/-- The characters lead from one mode to another and add this text. None of them closes the
literal. -/
inductive Leads (pairs : Bool) : Mode → List Char → Mode → List Char → Prop
  | nil (mode : Mode) : Leads pairs mode [] mode []
  | cons {mode next last : Mode} {c : Char} {added : Option Char} {cs text : List Char}
      (inside : closes mode c = false) (stepped : step pairs mode c = some (next, added))
      (later : Leads pairs next cs last text) :
      Leads pairs mode (c :: cs) last (added.toList ++ text)

variable {pairs : Bool} {mode next last : Mode} {cs ds text added : List Char}

theorem Leads.append (first : Leads pairs mode cs next text)
    (second : Leads pairs next ds last added) :
    Leads pairs mode (cs ++ ds) last (text ++ added) := by
  induction first with
  | nil => exact second
  | cons inside stepped _ ih =>
    rw [List.cons_append, List.append_assoc]
    exact .cons inside stepped (ih second)

theorem Leads.single {c : Char} {added : Option Char} (inside : closes mode c = false)
    (stepped : step pairs mode c = some (next, added)) :
    Leads pairs mode [c] next added.toList := by
  simpa using Leads.cons inside stepped (.nil next)

theorem Leads.silent {c : Char} (inside : closes mode c = false)
    (stepped : step pairs mode c = some (next, none)) (later : Leads pairs next cs last text) :
    Leads pairs mode (c :: cs) last text := .cons inside stepped later

theorem readFrom_of_leads (leads : Leads true mode cs last added) (s : List Char) :
    readFrom mode text (cs ++ s) = readFrom last (added.reverse ++ text) s := by
  induction leads generalizing text with
  | nil => rfl
  | @cons mode next last c added cs later inside stepped _ ih =>
    rw [List.cons_append, readFrom, inside]
    simp only [Bool.false_eq_true, if_false, stepped]
    rw [ih]
    cases added <;> simp

theorem utf8Size_of_digitValue? {c : Char} {n : Nat} (digit : Hex.digitValue? c = some n) :
    c.utf8Size = 1 := by
  have bound (upper : Char) (small : upper.val ≤ 127) (below : c ≤ upper) : c.utf8Size = 1 :=
    Char.utf8Size_eq_one_iff.mpr (UInt32.le_trans below small)
  unfold Hex.digitValue? at digit
  split at digit
  · rename_i decimal
    exact bound '9' (by decide) decimal.2
  · split at digit
    · rename_i lower
      exact bound 'f' (by decide) lower.2
    · split at digit
      · rename_i upper
        exact bound 'F' (by decide) upper.2
      · contradiction

theorem step_digits {c : Char} {n : Nat} (digit : Hex.digitValue? c = some n) (high : Option Nat)
    {seen : Nat} (early : seen < 3) (value : Nat) :
    step pairs (.digits high seen (some value)) c =
      some (.digits high (seen + 1) (some (16 * value + n)), none) := by
  simp only [step, utf8Size_of_digitValue? digit, digit, Option.bind_some, Option.map_some]
  exact if_pos (by omega)

theorem step_last_digit {c : Char} {n : Nat} (digit : Hex.digitValue? c = some n)
    (high : Option Nat) (value : Nat) :
    step pairs (.digits high 3 (some value)) c = afterDigits pairs high (16 * value + n) := by
  simp only [step, utf8Size_of_digitValue? digit, digit, Option.bind_some, Option.map_some]
  exact if_neg (by omega)

theorem leads_digits {n : Nat} (digits : FourDigits ds n) {high : Option Nat}
    {added : Option Char} (after : afterDigits pairs high n = some (next, added)) :
    Leads pairs (.digits high 0 (some 0)) ds next added.toList := by
  cases digits with
  | @intro a b c d i j k l first second third fourth =>
    have value : 16 * (16 * (16 * (16 * 0 + i) + j) + k) + l =
        0x1000 * i + 0x100 * j + 0x10 * k + l := by omega
    have last : step pairs (.digits high 3 (some (16 * (16 * (16 * 0 + i) + j) + k))) d =
        some (next, added) := by rw [step_last_digit fourth, value, after]
    exact .silent rfl (step_digits first high (by decide) _) <|
      .silent rfl (step_digits second high (by decide) _) <|
      .silent rfl (step_digits third high (by decide) _) <| .single rfl last

theorem leads_unit {n : Nat} (digits : FourDigits ds n) {added : Option Char}
    (after : afterDigits pairs none n = some (next, added)) :
    Leads pairs .plain ('\\' :: 'u' :: ds) next added.toList :=
  .silent rfl rfl <| .silent rfl rfl <| leads_digits digits after

theorem leads_second_unit {n high : Nat} (digits : FourDigits ds n) {added : Option Char}
    (after : afterDigits pairs (some high) n = some (next, added)) :
    Leads pairs (.pairBackslash high) ('\\' :: 'u' :: ds) next added.toList :=
  .silent rfl rfl <| .silent rfl rfl <| leads_digits digits after

theorem leads_plain {c : Char} (plain : Plain c) : Leads pairs .plain [c] .plain [c] := by
  obtain ⟨quote, backslash, printed⟩ := plain
  have inside : closes .plain c = false := by simp [closes, quote]
  have stepped : step pairs .plain c = some (.plain, some c) := by
    rw [step, if_neg backslash, if_neg (by omega)]
  exact .single inside stepped

theorem leads_short {letter c : Char} (listed : (letter, c) ∈ shortEscapes) :
    Leads pairs .plain ['\\', letter] .plain [c] := by
  have stepped : step pairs .escape letter = some (.plain, some c) := by
    simp only [shortEscapes, List.mem_cons, Prod.mk.injEq, List.not_mem_nil, or_false] at listed
    rcases listed with ⟨rfl, rfl⟩ | ⟨rfl, rfl⟩ | ⟨rfl, rfl⟩ | ⟨rfl, rfl⟩ | ⟨rfl, rfl⟩ | ⟨rfl, rfl⟩ |
      ⟨rfl, rfl⟩ | ⟨rfl, rfl⟩ <;> rfl
  exact .silent rfl rfl (.single rfl stepped)

theorem isHighSurrogate_iff {n : Nat} : isHighSurrogate n = true ↔ 0xD800 ≤ n ∧ n ≤ 0xDBFF := by
  simp only [isHighSurrogate, Bool.and_eq_true, decide_eq_true_eq]

theorem isLowSurrogate_iff {n : Nat} : isLowSurrogate n = true ↔ 0xDC00 ≤ n ∧ n ≤ 0xDFFF := by
  simp only [isLowSurrogate, Bool.and_eq_true, decide_eq_true_eq]

theorem toNat_valid (c : Char) : c.toNat < 0xD800 ∨ 0xDFFF < c.toNat ∧ c.toNat < 0x110000 := c.valid

theorem not_surrogate (c : Char) :
    isHighSurrogate c.toNat = false ∧ isLowSurrogate c.toNat = false := by
  have valid := toNat_valid c
  rw [← Bool.not_eq_true, ← Bool.not_eq_true, isHighSurrogate_iff, isLowSurrogate_iff]
  omega

theorem halves_surrogate (c : Char) :
    isHighSurrogate (highHalf c) = true ∧ isLowSurrogate (highHalf c) = false ∧
      isLowSurrogate (lowHalf c) = true := by
  have valid := toNat_valid c
  rw [← Bool.not_eq_true, isHighSurrogate_iff, isLowSurrogate_iff, isLowSurrogate_iff, highHalf,
    lowHalf]
  omega

theorem ofPair_halves {c : Char} (beyond : 0x10000 ≤ c.toNat) :
    ofPair (highHalf c) (lowHalf c) = c := by
  rw [ofPair, highHalf, lowHalf, Nat.add_sub_cancel_left, Nat.add_sub_cancel_left, Nat.add_assoc,
    Nat.div_add_mod, Nat.add_sub_cancel' beyond, Char.ofNat_toNat]

theorem leads_writes {piece : List Char} {c : Char} (writes : Writes piece c) :
    Leads true .plain piece .plain [c] := by
  cases writes with
  | plain plain => exact leads_plain plain
  | short listed => exact leads_short listed
  | unit digits =>
    have after : afterDigits true none c.toNat = some (.plain, some c) := by
      obtain ⟨high, low⟩ := not_surrogate c
      simp [afterDigits, high, low]
    exact leads_unit digits after
  | pair beyond high low =>
    obtain ⟨upper, apart, lower⟩ := halves_surrogate c
    have first : afterDigits true none (highHalf c) = some (.pairBackslash (highHalf c), none) := by
      simp [afterDigits, upper, apart]
    have second : afterDigits true (some (highHalf c)) (lowHalf c) = some (.plain, some c) := by
      simp [afterDigits, lower, ofPair_halves beyond]
    exact (leads_unit high first).append (leads_second_unit low second)

theorem leads_text {pieces : List (List Char)} {text : List Char}
    (writes : List.Forall₂ Writes pieces text) :
    Leads true .plain pieces.flatten .plain text := by
  induction writes with
  | nil => exact .nil .plain
  | cons here _ ih => exact (leads_writes here).append ih

theorem leads_piece {piece : List Char} (grammatical : IsPiece piece) :
    ∃ text, Leads false .plain piece .plain text := by
  cases grammatical with
  | plain plain => exact ⟨_, leads_plain plain⟩
  | short listed => exact ⟨_, leads_short listed⟩
  | unit digits => exact ⟨_, leads_unit digits rfl⟩

theorem leads_pieces {pieces : List (List Char)} (grammatical : ∀ piece ∈ pieces, IsPiece piece) :
    ∃ text, Leads false .plain pieces.flatten .plain text := by
  induction pieces with
  | nil => exact ⟨_, .nil .plain⟩
  | cons piece pieces ih =>
    obtain ⟨here, later⟩ := List.forall_mem_cons.mp grammatical
    obtain ⟨_, first⟩ := leads_piece here
    obtain ⟨_, others⟩ := ih later
    exact ⟨_, first.append others⟩

end StringLiteral

/-- The token is read as the name, quotes included. -/
def Spells (token : Token) (name : String) : Prop :=
  ∃ body, token = '"' :: body ∧ ∀ later, StringLiteral.read (body ++ later) = .ok (name, later)

theorem Quotes.spells {token : Token} {text : String} (quotes : Quotes token text) :
    Spells token text := by
  obtain ⟨pieces, rfl, writes⟩ := quotes
  refine ⟨pieces.flatten ++ ['"'], rfl, fun later => ?_⟩
  rw [List.append_assoc, StringLiteral.read,
    StringLiteral.readFrom_of_leads (StringLiteral.leads_text writes), List.append_nil,
    List.singleton_append, StringLiteral.readFrom, if_pos (by rfl), List.reverse_reverse]
  exact congrArg (fun text => Except.ok (text, later)) String.ofList_toList

theorem quotes_nameToken {name : String} (plain : AllPlain name.toList) :
    Quotes (nameToken name) name := by
  refine ⟨name.toList.map fun c => [c], ?_, ?_⟩
  · rw [nameToken, quotation, ← List.flatMap_def, List.flatMap_singleton', List.cons_append]
  · rw [List.forall₂_map_left_iff, List.forall₂_same]
    exact fun c member => .plain (plain c member)

end Mempool.Json
