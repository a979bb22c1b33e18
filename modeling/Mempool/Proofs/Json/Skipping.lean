import Mempool.Json.Ignored
import Mempool.Proofs.Json.Lists
import Mempool.Proofs.Json.Strings

/-! The grammar of numbers and of values, nested to any depth, and how values are passed over: a
value takes its own tokens off the text and no more, whatever containers are open around it. -/
namespace Mempool.Json

def IsDigits (ds : List Char) : Prop := ds ≠ [] ∧ ∀ d ∈ ds, d.isDigit = true

/-- There is no zero before other digits. -/
inductive IsWhole : List Char → Prop
  | zero : IsWhole ['0']
  | digits {d : Char} {ds : List Char} (nonzero : d ≠ '0') (digits : IsDigits (d :: ds)) :
      IsWhole (d :: ds)

inductive IsFraction : List Char → Prop
  | none : IsFraction []
  | some {ds : List Char} (digits : IsDigits ds) : IsFraction ('.' :: ds)

inductive IsExponent : List Char → Prop
  | none : IsExponent []
  | some {letter : Char} {sign ds : List Char} (lettered : letter = 'e' ∨ letter = 'E')
      (signed : sign = [] ∨ sign = ['+'] ∨ sign = ['-']) (digits : IsDigits ds) :
      IsExponent (letter :: (sign ++ ds))

inductive IsNumber : Token → Prop
  | intro {sign whole fraction exponent : List Char} (signed : sign = [] ∨ sign = ['-'])
      (whole_ok : IsWhole whole) (fraction_ok : IsFraction fraction)
      (exponent_ok : IsExponent exponent) : IsNumber (sign ++ (whole ++ (fraction ++ exponent)))

inductive IsValue : List Token → Prop
  | null : IsValue [['n', 'u', 'l', 'l']]
  | true : IsValue [['t', 'r', 'u', 'e']]
  | false : IsValue [['f', 'a', 'l', 's', 'e']]
  | number {token : Token} (number : IsNumber token) : IsValue [token]
  | string {token : Token} (string : IsString token) : IsValue [token]
  | list {items : List (List Token)} (values : ∀ item ∈ items, IsValue item) :
      IsValue (listTokens items)
  | object {members : List (Token × List Token)} (names : ∀ m ∈ members, IsString m.1)
      (values : ∀ m ∈ members, IsValue m.2) :
      IsValue ([['{']] ++ separated (members.map fun m => m.1 :: [':'] :: m.2) ++ [['}']])

theorem IsNumber.exists_cons {token : Token} (number : IsNumber token) :
    ∃ c cs, token = c :: cs ∧ startsInteger c = true := by
  cases number with
  | intro signed whole_ok _ _ =>
    rcases signed with rfl | rfl
    · cases whole_ok with
      | zero => exact ⟨'0', _, rfl, rfl⟩
      | digits _ digits =>
        have digit := digits.2 _ List.mem_cons_self
        exact ⟨_, _, rfl, by simp [startsInteger, digit]⟩
    · exact ⟨'-', _, rfl, rfl⟩

namespace IsValue

theorem opens {tokens : List Token} (value : IsValue tokens) : Opens tokens := by
  cases value with
  | null => exact ⟨'n', _, _, rfl, rfl, by decide⟩
  | true => exact ⟨'t', _, _, rfl, rfl, by decide⟩
  | false => exact ⟨'f', _, _, rfl, rfl, by decide⟩
  | number number =>
    obtain ⟨c, cs, rfl, start⟩ := number.exists_cons
    exact ⟨c, cs, [], rfl, isSpace_of_startsInteger start, ne_of_startsInteger start rfl⟩
  | string string =>
    obtain ⟨pieces, rfl, _⟩ := string
    exact ⟨'"', _, _, rfl, rfl, by decide⟩
  | list => exact ⟨'[', _, _, rfl, rfl, by decide⟩
  | object => exact ⟨'{', _, _, rfl, rfl, by decide⟩

end IsValue

/-! ## Passing over -/

namespace Ignored

/-- What is left to do after a value: nothing, or to go on with the container around it. -/
def ended : List Container → List Char → Except ReadError (List Char)
  | [], rest => .ok rest
  | opened, rest => skipFrom ⟨.afterValue, opened⟩ rest

theorem skipFrom_more {s next : State} {c : Char} (stepped : step s c = .more next)
    (rest : List Char) : skipFrom s (c :: rest) = skipFrom next rest := by
  rw [skipFrom, stepped]

theorem skipFrom_closed {s : State} {c : Char} {opened : List Container}
    (stepped : step s c = closed opened) (rest : List Char) :
    skipFrom s (c :: rest) = ended opened rest := by
  rw [skipFrom, stepped]
  cases opened <;> rfl

/-- White space has no effect here. -/
def Waits (s : State) : Prop := ∀ c, isSpace c = true → step s c = .more s

theorem skipFrom_blank {s : State} (waits : Waits s) {space : List Char} (blank : Blank space)
    (rest : List Char) : skipFrom s (space ++ rest) = skipFrom s rest := by
  induction space with
  | nil => rfl
  | cons c space ih =>
    obtain ⟨here, later⟩ := List.forall_mem_cons.mp blank
    rw [List.cons_append, skipFrom_more (waits c here), ih later]

variable {opened : List Container} {text rest : List Char}

theorem waits_value : Waits ⟨.value, opened⟩ := fun _ space => if_pos space
theorem waits_colon : Waits ⟨.colon, opened⟩ := fun _ space => if_pos space

/-! ## Words, numbers, strings -/

theorem skipFrom_word (l : Char) (left rest : List Char) :
    skipFrom ⟨.word (l :: left), opened⟩ (l :: (left ++ rest)) = ended opened rest := by
  induction left generalizing l with
  | nil =>
    have last : step ⟨.word [l], opened⟩ l = closed opened := if_pos rfl
    exact skipFrom_closed last rest
  | cons next left ih =>
    have more : step ⟨.word (l :: next :: left), opened⟩ l = .more ⟨.word (next :: left), opened⟩ :=
      if_pos rfl
    exact (skipFrom_more more _).trans (ih next)

theorem skipFrom_number {mode last : NumberMode} {cs : List Char}
    (leads : cs.foldlM NumberMode.next? mode = some last) (rest : List Char) :
    skipFrom ⟨.number mode, opened⟩ (cs ++ rest) = skipFrom ⟨.number last, opened⟩ rest := by
  induction cs generalizing mode with
  | nil =>
    obtain rfl := Option.some.inj leads
    rfl
  | cons c cs ih =>
    rw [List.foldlM_cons, Option.bind_eq_bind, Option.bind_eq_some_iff] at leads
    obtain ⟨next, stepped, later⟩ := leads
    have more : step ⟨.number mode, opened⟩ c = .more ⟨.number next, opened⟩ := by
      simp only [step, stepped]
    rw [List.cons_append, skipFrom_more more, ih later]

/-- A number that may end here does so before anything that cannot continue it. -/
theorem skipFrom_number_end {mode : NumberMode} (ends : mode.endsHere = true)
    (stops : Stops rest) :
    skipFrom ⟨.number mode, opened⟩ rest = ended opened rest := by
  cases rest with
  | nil =>
    rw [skipFrom, atEnd]
    simp only [ends]
    cases opened <;> rfl
  | cons c rest =>
    have apart := stops c rfl
    simp only [continuesNumber, Bool.or_eq_false_iff, decide_eq_false_iff_not] at apart
    obtain ⟨⟨⟨digit, point⟩, small⟩, large⟩ := apart
    have past : step ⟨.number mode, opened⟩ c = afterValue opened c := by
      cases mode <;>
        simp_all [step, NumberMode.next?, NumberMode.endsBefore, NumberMode.endsHere,
          NumberMode.isExponentMark]
    rw [skipFrom, past]
    cases opened <;> rfl

section Number

open NumberMode

theorem next?_digits {mode : NumberMode}
    (stays : ∀ d : Char, d.isDigit = true → mode.next? d = some mode) {ds : List Char}
    (digits : ∀ d ∈ ds, d.isDigit = true) : ds.foldlM next? mode = some mode := by
  induction ds with
  | nil => rfl
  | cons d ds ih =>
    obtain ⟨here, later⟩ := List.forall_mem_cons.mp digits
    rw [List.foldlM_cons, stays d here]
    exact ih later

theorem next?_some_digits {before mode : NumberMode}
    (enters : ∀ d : Char, d.isDigit = true → before.next? d = some mode)
    (stays : ∀ d : Char, d.isDigit = true → mode.next? d = some mode)
    {ds : List Char} (digits : IsDigits ds) :
    ds.foldlM next? before = some mode := by
  obtain ⟨some, digits⟩ := digits
  cases ds with
  | nil => contradiction
  | cons d ds =>
    obtain ⟨here, later⟩ := List.forall_mem_cons.mp digits
    rw [List.foldlM_cons, enters d here]
    exact next?_digits stays later

theorem next?_whole {whole : List Char} (whole_ok : IsWhole whole) :
    ∃ mode, whole.foldlM next? .sign = some mode ∧ (mode = .zero ∨ mode = .whole) := by
  cases whole_ok with
  | zero => exact ⟨.zero, rfl, .inl rfl⟩
  | @digits d ds nonzero digits =>
    refine ⟨.whole, ?_, .inr rfl⟩
    obtain ⟨here, later⟩ := List.forall_mem_cons.mp digits.2
    have first : next? .sign d = some .whole := by simp [next?, nonzero, here]
    rw [List.foldlM_cons, first]
    exact next?_digits (fun d digit => by simp [next?, digit]) later

theorem next?_fraction {mode : NumberMode} (before : mode = .zero ∨ mode = .whole)
    {fraction : List Char} (fraction_ok : IsFraction fraction) :
    ∃ last, fraction.foldlM next? mode = some last ∧
      (last = .zero ∨ last = .whole ∨ last = .fraction) := by
  cases fraction_ok with
  | none => exact ⟨mode, rfl, before.imp_right .inl⟩
  | @some ds digits =>
    refine ⟨.fraction, ?_, .inr (.inr rfl)⟩
    have point : next? mode '.' = some .point := by rcases before with rfl | rfl <;> rfl
    rw [List.foldlM_cons, point]
    exact next?_some_digits (fun d digit => by simp [next?, digit])
      (fun d digit => by simp [next?, digit]) digits

theorem next?_exponent {mode : NumberMode}
    (before : mode = .zero ∨ mode = .whole ∨ mode = .fraction) {exponent : List Char}
    (exponent_ok : IsExponent exponent) :
    ∃ last, exponent.foldlM next? mode = some last ∧ last.endsHere = true := by
  cases exponent_ok with
  | none => exact ⟨mode, rfl, by rcases before with rfl | rfl | rfl <;> rfl⟩
  | @some letter sign ds lettered signed digits =>
    refine ⟨.exponentDigits, ?_, rfl⟩
    have entered : next? mode letter = Option.some .exponent := by
      rcases before with rfl | rfl | rfl <;> rcases lettered with rfl | rfl <;> rfl
    have unsigned (d : Char) (digit : d.isDigit = true) :
        next? .exponent d = .some .exponentDigits := by
      have plus : d ≠ '+' := by rintro rfl; contradiction
      have minus : d ≠ '-' := by rintro rfl; contradiction
      simp [next?, plus, minus, digit]
    have after (d : Char) (digit : d.isDigit = true) :
        next? .exponentSign d = .some .exponentDigits := by simp [next?, digit]
    have stays (d : Char) (digit : d.isDigit = true) :
        next? .exponentDigits d = .some .exponentDigits := by simp [next?, digit]
    rw [List.foldlM_cons, entered]
    rcases signed with rfl | rfl | rfl
    · exact next?_some_digits unsigned stays digits
    · exact next?_some_digits after stays digits
    · exact next?_some_digits after stays digits

/-- From the sign on, a number leads to a place where it may end. -/
theorem next?_number {whole fraction exponent : List Char} (whole_ok : IsWhole whole)
    (fraction_ok : IsFraction fraction) (exponent_ok : IsExponent exponent) :
    ∃ last, (whole ++ (fraction ++ exponent)).foldlM next? .sign = some last ∧
      last.endsHere = true := by
  obtain ⟨first, read, before⟩ := next?_whole whole_ok
  obtain ⟨second, read', before'⟩ := next?_fraction before fraction_ok
  obtain ⟨last, read'', ends⟩ := next?_exponent before' exponent_ok
  refine ⟨last, ?_, ends⟩
  rw [List.foldlM_append, read, Option.bind_eq_bind, Option.bind_some, List.foldlM_append, read',
    Option.bind_eq_bind, Option.bind_some, read'']

end Number

theorem step_value_digit {d : Char} {mode : NumberMode}
    (first : NumberMode.next? .sign d = some mode) :
    step ⟨.value, opened⟩ d = .more ⟨.number mode, opened⟩ := by
  by_cases zero : d = '0'
  · subst zero
    obtain rfl := Option.some.inj first
    rfl
  · by_cases digit : d.isDigit = true
    · simp only [NumberMode.next?, if_neg zero, if_pos digit, Option.some.injEq] at first
      subst first
      have start : startsInteger d = true := by simp [startsInteger, digit]
      have other (c : Char) (different : startsInteger c = false) : d ≠ c :=
        ne_of_startsInteger start different
      have unsigned : d ≠ '-' := by rintro rfl; contradiction
      unfold step startValue
      rw [isSpace_of_startsInteger start, if_neg Bool.false_ne_true, if_neg (other 'n' rfl),
        if_neg (other 't' rfl), if_neg (other 'f' rfl), if_neg (other '"' rfl), if_neg unsigned,
        if_neg zero, if_pos digit]
    · simp [NumberMode.next?, zero, digit] at first

theorem skipFrom_value_number {token : Token} (number : IsNumber token) (stops : Stops rest) :
    skipFrom ⟨.value, opened⟩ (token ++ rest) = ended opened rest := by
  cases number with
  | @intro sign whole fraction exponent signed whole_ok fraction_ok exponent_ok =>
    obtain ⟨last, leads, ends⟩ := next?_number whole_ok fraction_ok exponent_ok
    generalize whole ++ (fraction ++ exponent) = magnitude at leads
    rcases signed with rfl | rfl
    · cases magnitude with
      | nil =>
        obtain rfl := Option.some.inj leads
        contradiction
      | cons d magnitude =>
        rw [List.foldlM_cons, Option.bind_eq_bind, Option.bind_eq_some_iff] at leads
        obtain ⟨mode, first, later⟩ := leads
        rw [List.nil_append, List.cons_append, skipFrom_more (step_value_digit first),
          skipFrom_number later, skipFrom_number_end ends stops]
    · have minus : step ⟨.value, opened⟩ '-' = .more ⟨.number .sign, opened⟩ := rfl
      rw [List.singleton_append, List.cons_append, skipFrom_more minus, skipFrom_number leads,
        skipFrom_number_end ends stops]

theorem skipFrom_leads {wrap : StringLiteral.Mode → Mode} {after : Step}
    (inside : ∀ m c, step ⟨wrap m, opened⟩ c = inText m c (fun m => .more ⟨wrap m, opened⟩) after)
    {mode last : StringLiteral.Mode} {cs text : List Char}
    (leads : StringLiteral.Leads false mode cs last text) (rest : List Char) :
    skipFrom ⟨wrap mode, opened⟩ (cs ++ rest) = skipFrom ⟨wrap last, opened⟩ rest := by
  induction leads with
  | nil => rfl
  | @cons mode next _ c _ cs _ unclosed stepped _ ih =>
    have more : step ⟨wrap mode, opened⟩ c = .more ⟨wrap next, opened⟩ := by
      rw [inside, inText, unclosed, stepped]
      rfl
    rw [List.cons_append, skipFrom_more more, ih]

theorem skipFrom_value_string {token : Token} (string : IsString token) (rest : List Char) :
    skipFrom ⟨.value, opened⟩ (token ++ rest) = ended opened rest := by
  obtain ⟨pieces, rfl, grammatical⟩ := string
  obtain ⟨_, leads⟩ := StringLiteral.leads_pieces grammatical
  have inside (m : StringLiteral.Mode) (c : Char) : step ⟨.text m, opened⟩ c =
      inText m c (fun m => .more ⟨.text m, opened⟩) (closed opened) := rfl
  have opens : step ⟨.value, opened⟩ '"' = .more ⟨.text .plain, opened⟩ := rfl
  have closes : step ⟨.text .plain, opened⟩ '"' = closed opened := rfl
  rw [quotation, List.cons_append, List.append_assoc, skipFrom_more opens,
    skipFrom_leads inside leads]
  exact skipFrom_closed closes rest

theorem skipFrom_name {s : State} {token : Token} (name : IsString token)
    (opens : step s '"' = .more ⟨.nameText .plain, opened⟩) (rest : List Char) :
    skipFrom s (token ++ rest) = skipFrom ⟨.colon, opened⟩ rest := by
  obtain ⟨pieces, rfl, grammatical⟩ := name
  obtain ⟨_, leads⟩ := StringLiteral.leads_pieces grammatical
  have inside (m : StringLiteral.Mode) (c : Char) : step ⟨.nameText m, opened⟩ c =
      inText m c (fun m => .more ⟨.nameText m, opened⟩) (.more ⟨.colon, opened⟩) := rfl
  have closes : step ⟨.nameText .plain, opened⟩ '"' = .more ⟨.colon, opened⟩ := rfl
  rw [quotation, List.cons_append, List.append_assoc, skipFrom_more opens,
    skipFrom_leads inside leads]
  exact skipFrom_more closes rest

/-! ## Lists and objects -/

namespace Container

def close : Container → Char
  | list => ']'
  | object => '}'

/-- Where the first part of the container may start, or the container end. -/
def first : Container → Mode
  | list => .firstItem
  | object => .firstName

/-- Where a part must start. -/
def next : Container → Mode
  | list => .value
  | object => .name

end Container

section Container

variable (kind : Container)

theorem waits_first : Waits ⟨kind.first, kind :: opened⟩ := by
  intro c space
  cases kind <;> exact if_pos space

theorem waits_next : Waits ⟨kind.next, kind :: opened⟩ := by
  intro c space
  cases kind <;> exact if_pos space

theorem waits_afterValue : Waits ⟨.afterValue, kind :: opened⟩ := by
  intro c space
  cases kind <;> exact if_pos space

theorem step_first_close : step ⟨kind.first, kind :: opened⟩ kind.close = closed opened := by
  cases kind <;> rfl

theorem step_afterValue_close : step ⟨.afterValue, kind :: opened⟩ kind.close = closed opened := by
  cases kind <;> rfl

theorem step_afterValue_comma :
    step ⟨.afterValue, kind :: opened⟩ ',' = .more ⟨kind.next, kind :: opened⟩ := by
  cases kind <;> rfl

variable {kind}

/-- Unless the container ends at once, its first part is like the others. -/
theorem step_first {c : Char} (visible : isSpace c = false) (goes_on : c ≠ kind.close) :
    step ⟨kind.first, kind :: opened⟩ c = step ⟨kind.next, kind :: opened⟩ c := by
  cases kind with
  | list => simp_all [Container.first, Container.next, Container.close, step]
  | object => simp_all [Container.first, Container.next, Container.close, step]

/-- The tokens are passed over as one part of such a container. -/
structure Passes (kind : Container) (part : List Token) : Prop where
  starts : ∃ c token others, part = (c :: token) :: others ∧ isSpace c = false ∧ c ≠ kind.close
  passed (opened : List Container) (text rest : List Char) : Spaced part text rest → Stops rest →
    skipFrom ⟨kind.next, kind :: opened⟩ text = skipFrom ⟨.afterValue, kind :: opened⟩ rest

theorem skipFrom_following {parts : List (List Token)} (passes : ∀ part ∈ parts, Passes kind part)
    (spaced : Spaced (following false parts ++ [[kind.close]]) text rest) :
    skipFrom ⟨.afterValue, kind :: opened⟩ text = ended opened rest := by
  have apart : continuesNumber kind.close = false := by cases kind <;> rfl
  induction parts generalizing text with
  | nil =>
    obtain _ | ⟨blank, _, ⟨⟩⟩ := spaced
    rw [skipFrom_blank (waits_afterValue kind) blank]
    exact skipFrom_closed (step_afterValue_close kind) rest
  | cons part parts ih =>
    obtain ⟨here, later⟩ := List.forall_mem_cons.mp passes
    have comma : following false (part :: parts) = [','] :: (part ++ following false parts) := rfl
    rw [comma, List.cons_append, List.append_assoc] at spaced
    obtain _ | ⟨blank, _, spaced⟩ := spaced
    obtain ⟨middle, front, spaced⟩ := Spaced.append_iff.mp spaced
    rw [skipFrom_blank (waits_afterValue kind) blank, List.singleton_append,
      skipFrom_more (step_afterValue_comma kind),
      here.passed opened _ middle front (stops_of_following apart spaced), ih later spaced]

theorem skipFrom_parts {parts : List (List Token)} (passes : ∀ part ∈ parts, Passes kind part)
    (spaced : Spaced (following true parts ++ [[kind.close]]) text rest) :
    skipFrom ⟨kind.first, kind :: opened⟩ text = ended opened rest := by
  have apart : continuesNumber kind.close = false := by cases kind <;> rfl
  cases parts with
  | nil =>
    obtain _ | ⟨blank, _, ⟨⟩⟩ := spaced
    rw [skipFrom_blank (waits_first kind) blank]
    exact skipFrom_closed (step_first_close kind) rest
  | cons part parts =>
    obtain ⟨here, later⟩ := List.forall_mem_cons.mp passes
    rw [following, List.append_assoc] at spaced
    obtain ⟨middle, front, spaced⟩ := Spaced.append_iff.mp spaced
    -- The first part is passed over as one that comes after a comma.
    have alike : skipFrom ⟨kind.first, kind :: opened⟩ text =
        skipFrom ⟨kind.next, kind :: opened⟩ text := by
      obtain ⟨c, token, others, rfl, visible, goes_on⟩ := here.starts
      obtain _ | ⟨blank, _, _⟩ := front
      rw [skipFrom_blank (waits_first kind) blank, skipFrom_blank (waits_next kind) blank,
        List.cons_append, skipFrom, skipFrom, step_first visible goes_on]
    rw [alike, here.passed opened text middle front (stops_of_following apart spaced),
      skipFrom_following later spaced]

end Container

/-! ## Values -/

/-- The tokens are passed over as one value, whatever is open around it. -/
def Skips (tokens : List Token) : Prop := ∀ opened text rest, Spaced tokens text rest →
  Stops rest → skipFrom ⟨.value, opened⟩ text = ended opened rest

theorem Skips.passes {item : List Token} (skips : Skips item) (opens : Opens item) :
    Passes .list item :=
  ⟨opens, fun opened text rest spaced stops => skips (.list :: opened) text rest spaced stops⟩

theorem passes_member {token : Token} {value : List Token} (name : IsString token)
    (skips : Skips value) : Passes .object (token :: [':'] :: value) := by
  refine ⟨?_, ?_⟩
  · obtain ⟨pieces, rfl, _⟩ := name
    exact ⟨'"', _, _, rfl, rfl, by decide⟩
  · intro opened text rest spaced stops
    obtain _ | ⟨blank, _, spaced⟩ := spaced
    obtain _ | ⟨blank', _, spaced⟩ := spaced
    have colon : step ⟨.colon, .object :: opened⟩ ':' = .more ⟨.value, .object :: opened⟩ := rfl
    rw [skipFrom_blank (waits_next .object) blank, skipFrom_name name rfl,
      skipFrom_blank waits_colon blank', List.singleton_append, skipFrom_more colon]
    exact skips (.object :: opened) _ rest spaced stops

theorem skips_token {token : Token} (skipped : ∀ opened rest, Stops rest →
    skipFrom ⟨.value, opened⟩ (token ++ rest) = ended opened rest) : Skips [token] := by
  intro opened text rest spaced stops
  obtain _ | ⟨blank, _, ⟨⟩⟩ := spaced
  rw [skipFrom_blank waits_value blank, skipped opened rest stops]

end Ignored

namespace IsValue

open Ignored in
theorem skips {tokens : List Token} (value : IsValue tokens) : Skips tokens := by
  -- The parts of a container are passed over one by one, each with the container open around it.
  induction value with
  | null => exact skips_token fun opened rest _ => skipFrom_word 'u' ['l', 'l'] rest
  | true => exact skips_token fun opened rest _ => skipFrom_word 'r' ['u', 'e'] rest
  | false => exact skips_token fun opened rest _ => skipFrom_word 'a' ['l', 's', 'e'] rest
  | number number => exact skips_token fun opened rest => skipFrom_value_number number
  | string string => exact skips_token fun opened rest _ => skipFrom_value_string string rest
  | @list items values ih =>
    intro opened text rest spaced _
    have bracket : step ⟨.value, opened⟩ '[' = .more ⟨.firstItem, .list :: opened⟩ := rfl
    rw [listTokens, separated_eq_following, List.append_assoc, List.singleton_append] at spaced
    obtain _ | ⟨blank, _, spaced⟩ := spaced
    rw [skipFrom_blank waits_value blank, List.singleton_append, skipFrom_more bracket]
    have passes (item : List Token) (member : item ∈ items) : Passes .list item :=
      (ih item member).passes (values item member).opens
    exact skipFrom_parts passes spaced
  | @object members names values ih =>
    intro opened text rest spaced _
    have brace : step ⟨.value, opened⟩ '{' = .more ⟨.firstName, .object :: opened⟩ := rfl
    have passes : ∀ part ∈ members.map fun m => m.1 :: [':'] :: m.2, Passes .object part := by
      intro part member
      obtain ⟨m, inside, rfl⟩ := List.mem_map.mp member
      exact passes_member (names m inside) (ih m inside)
    rw [separated_eq_following, List.append_assoc, List.singleton_append] at spaced
    obtain _ | ⟨blank, _, spaced⟩ := spaced
    rw [skipFrom_blank waits_value blank, List.singleton_append, skipFrom_more brace]
    exact skipFrom_parts passes spaced

theorem skip {tokens : List Token} (value : IsValue tokens) {text rest : List Char}
    (spaced : Spaced tokens text rest) (stops : Stops rest) : Ignored.skip text = .ok rest :=
  value.skips [] text rest spaced stops

end IsValue

end Mempool.Json
