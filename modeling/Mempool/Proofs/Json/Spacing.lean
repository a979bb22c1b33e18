import Mathlib.Data.List.TakeWhile
import Mempool.Json.Scalar

/-! Tokens in a text, with white space before and between them. A reader takes the same value off
the text whatever the white space is. -/
namespace Mempool.Json

theorem ok_bind (a : α) (next : α → Except ReadError β) : (Except.ok a >>= next) = next a := rfl

def Blank (space : List Char) : Prop := ∀ c ∈ space, isSpace c = true

instance (space : List Char) : Decidable (Blank space) :=
  List.decidableBAll (isSpace · = true) space

theorem skipSpace_append {space : List Char} (blank : Blank space) (s : List Char) :
    skipSpace (space ++ s) = skipSpace s := List.dropWhile_append_of_pos blank

theorem skipSpace_eq_nil_iff {s : List Char} : skipSpace s = [] ↔ Blank s :=
  List.dropWhile_eq_nil_iff

theorem skipSpace_of_blank {space : List Char} (blank : Blank space) : skipSpace space = [] :=
  skipSpace_eq_nil_iff.mpr blank

theorem skipSpace_cons {c : Char} (visible : isSpace c = false) (s : List Char) :
    skipSpace (c :: s) = c :: s := by
  rw [skipSpace, List.dropWhile_cons, visible]
  rfl

/-- The text is these tokens, each after any white space, and then the rest. -/
inductive Spaced : (tokens : List Token) → (text rest : List Char) → Prop
  | nil (rest : List Char) : Spaced [] rest rest
  | cons {space text rest : List Char} {tokens : List Token} (blank : Blank space)
      (token : Token) (later : Spaced tokens text rest) :
      Spaced (token :: tokens) (space ++ (token ++ text)) rest

namespace Spaced

variable {tokens : List Token} {text rest : List Char}

theorem flush (token : Token) (later : Spaced tokens text rest) :
    Spaced (token :: tokens) (token ++ text) rest :=
  .cons (List.forall_mem_nil _) token later

theorem flatten (tokens : List Token) (rest : List Char) :
    Spaced tokens (tokens.flatten ++ rest) rest := by
  induction tokens with
  | nil => exact .nil rest
  | cons token tokens ih =>
    rw [List.flatten_cons, List.append_assoc]
    exact ih.flush token

theorem append_iff {others : List Token} :
    Spaced (tokens ++ others) text rest ↔
      ∃ middle, Spaced tokens text middle ∧ Spaced others middle rest := by
  constructor
  · intro spaced
    induction tokens generalizing text with
    | nil => exact ⟨text, .nil text, spaced⟩
    | cons token tokens ih =>
      cases spaced with
      | cons blank _ later =>
        obtain ⟨middle, first, second⟩ := ih later
        exact ⟨middle, .cons blank token first, second⟩
  · rintro ⟨middle, first, second⟩
    induction first with
    | nil => exact second
    | cons blank token _ ih => exact .cons blank token (ih second)

theorem head {c : Char} {token : Token} (spaced : Spaced ((c :: token) :: tokens) text rest)
    (visible : isSpace c = false) :
    ∃ later, skipSpace text = c :: (token ++ later) ∧ Spaced tokens later rest := by
  cases spaced with
  | cons blank _ later =>
    refine ⟨_, ?_, later⟩
    rw [skipSpace_append blank, List.cons_append, skipSpace_cons visible]

theorem text_ne_nil {c : Char} {token : Token}
    (spaced : Spaced ((c :: token) :: tokens) text rest) : text ≠ [] := by
  cases spaced
  simp

theorem length_le (spaced : Spaced tokens text rest) :
    tokens.flatten.length + rest.length ≤ text.length := by
  induction spaced with
  | nil => simp
  | cons blank token _ ih =>
    simp only [List.flatten_cons, List.length_append]
    omega

end Spaced

theorem mark_spaced {c : Char} {tokens : List Token} {text rest : List Char}
    (spaced : Spaced ([c] :: tokens) text rest) (visible : isSpace c = false) :
    ∃ later, mark c text = .ok later ∧ Spaced tokens later rest := by
  obtain ⟨later, found, others⟩ := spaced.head visible
  refine ⟨later, ?_, others⟩
  rw [mark, found]
  exact word_append [c] later

/-! ## What may follow a number -/

def continuesNumber (c : Char) : Bool := c.isDigit || c = '.' || c = 'e' || c = 'E'

/-- The text does not go on with a number that has just been read. -/
def Stops (rest : List Char) : Prop := ∀ c ∈ rest.head?, continuesNumber c = false

theorem continuesNumber_of_isSpace {c : Char} (blank : isSpace c = true) :
    continuesNumber c = false := by
  simp only [isSpace, Bool.or_eq_true, decide_eq_true_eq] at blank
  obtain ((rfl | rfl) | rfl) | rfl := blank <;> rfl

theorem Stops.cons {c : Char} (apart : continuesNumber c = false) (rest : List Char) :
    Stops (c :: rest) := by
  rintro _ ⟨⟩
  exact apart

theorem Stops.of_blank {space : List Char} (blank : Blank space) : Stops space := by
  cases space with
  | nil => simp [Stops]
  | cons c space =>
    exact .cons (continuesNumber_of_isSpace (blank c List.mem_cons_self)) space

theorem Spaced.stops {c : Char} {token : Token} {tokens : List Token} {text rest : List Char}
    (spaced : Spaced ((c :: token) :: tokens) text rest) (apart : continuesNumber c = false) :
    Stops text := by
  cases spaced with
  | @cons space _ _ _ blank _ later =>
    cases space with
    | nil => exact .cons apart _
    | cons b space =>
      exact .cons (continuesNumber_of_isSpace (blank b List.mem_cons_self)) _

/-! ## Readers -/

/-- The reader takes these tokens for this value, however they are spaced. -/
def Reads (reader : Reader α) (tokens : List Token) (value : α) : Prop :=
  ∀ text rest, Spaced tokens text rest → Stops rest → reader text = .ok (value, rest)

theorem Reads.map {reader : Reader α} {tokens : List Token} {value : α}
    (reads : Reads reader tokens value) (convert : α → β) :
    Reads (fun s => do
      let (value, rest) ← reader s
      return (convert value, rest)) tokens (convert value) := by
  intro text rest spaced stops
  simp only [reads text rest spaced stops, ok_bind]
  rfl

/-- A text of these tokens alone, with white space anywhere around them. -/
def SpacedOut (tokens : List Token) (text : String) : Prop :=
  ∃ space, Spaced tokens text.toList space ∧ Blank space

theorem SpacedOut.of_chars {tokens : List Token} {chars space : List Char}
    (spaced : Spaced tokens chars space) (blank : Blank space) :
    SpacedOut tokens (String.ofList chars) := by
  refine ⟨space, ?_, blank⟩
  rwa [String.toList_ofList]

theorem spacedOut_written (tokens : List Token) : SpacedOut tokens (written tokens) := by
  have spaced := Spaced.flatten tokens []
  rw [List.append_nil] at spaced
  exact .of_chars spaced (List.forall_mem_nil _)

theorem Reads.whole {reader : Reader α} {tokens : List Token} {value : α}
    (reads : Reads reader tokens value) {text : String} (spaced : SpacedOut tokens text) :
    readText reader text = .ok value := by
  obtain ⟨space, front, blank⟩ := spaced
  rw [readText, reads _ _ front (.of_blank blank), ok_bind]
  simp only [skipSpace_of_blank blank]
  rfl

end Mempool.Json
