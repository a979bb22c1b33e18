import Mempool.Proofs.Json.Objects
import Mempool.Proofs.Json.Skipping

/-! Records as their readers meet them: members that the record does not have, what makes a member
fail, and records written as lists. -/
namespace Mempool.Json

theorem error_bind (e : ReadError) (next : α → Except ReadError β) :
    (Except.error e >>= next) = .error e := rfl

theorem readText_of_error {reader : Reader α} {text : String} {e : ReadError}
    (failed : reader text.toList = .error e) : readText reader text = .error e := by
  rw [readText, failed, error_bind]

/-! ## Values of the wrong kind -/

/-- A value that is no number, or the bracket that opens one, and what is found there. -/
inductive Shows : Token → Found → Prop
  | null : Shows ['n', 'u', 'l', 'l'] .null
  | true : Shows ['t', 'r', 'u', 'e'] (.boolean true)
  | false : Shows ['f', 'a', 'l', 's', 'e'] (.boolean false)
  | string {token : Token} {text : String} (quotes : Quotes token text) :
      Shows token (.string text)
  | list : Shows ['['] .sequence
  | object : Shows ['{'] .map

theorem Shows.found_here {token : Token} {found : Found} (shows : Shows token found)
    {text rest : List Char} (spaced : Spaced [token] text rest) :
    inspect text = .ok (found, rest) := by
  cases shows with
  | null | true | false | list | object =>
    obtain ⟨_, here, ⟨⟩⟩ := spaced.head (by rfl)
    rw [inspect, here]
    rfl
  | string quotes =>
    obtain ⟨body, rfl, literal⟩ := quotes.spells
    obtain ⟨_, here, ⟨⟩⟩ := spaced.head (by rfl)
    have read := literal rest
    rw [inspect, here]
    exact congrArg (Except.map fun here => (Found.string here.1, here.2)) read

theorem readInteger_of_shows (expected : String) (low high : Int) {token : Token} {found : Found}
    (shows : Shows token found) {text rest : List Char} (spaced : Spaced [token] text rest) :
    readInteger expected low high text = .error (.data (.wrongType found expected)) := by
  rw [readInteger, shows.found_here spaced, ok_bind]
  cases shows <;> rfl

/-- An integer outside the range is refused, unless it is none for being too large. -/
theorem readInteger_of_outside (expected : String) {low high i : Int} (fits : FitsWord i)
    (outside : ¬(low ≤ i ∧ i ≤ high)) {text rest : List Char}
    (spaced : Spaced (numberTokens i) text rest) (stops : Stops rest) :
    readInteger expected low high text = .error (.data (.outOfRange i expected)) := by
  rw [readInteger, reads_inspect fits text rest spaced stops, ok_bind]
  exact if_neg outside

theorem readUInt64_of_error {s : List Char} {e : ReadError}
    (failed : readInteger "usize" 0 0xffffffffffffffff s = .error e) : readUInt64 s = .error e := by
  rw [readUInt64, failed, error_bind]

theorem readInt64_of_error {s : List Char} {e : ReadError}
    (failed : readInteger "i64" (-0x8000000000000000) 0x7fffffffffffffff s = .error e) :
    readInt64 s = .error e := by
  rw [readInt64, failed, error_bind]

namespace Schema

variable {draft record : Type} {schema : Schema draft record}

theorem reads_other {name : String} {tokens : List Token} (other : schema.member? name = none)
    (value : IsValue tokens) (d : draft) :
    Reads (schema.readMember name d) ([':'] :: tokens) d := by
  intro text rest spaced stops
  obtain ⟨later, colon, spaced⟩ := mark_spaced spaced (by rfl)
  rw [readMember, other]
  simp only [colon, ok_bind, value.skip spaced stops]
  rfl

theorem readMember_again {name : String} {m : Member draft} {d : draft}
    (known : schema.member? name = some m) (seen : m.isSet d = true) (s : List Char) :
    schema.readMember name d s = .error (.data (.duplicateField m.name)) := by
  rw [readMember, known]
  exact if_pos seen

theorem readMember_of_error {name : String} {get : draft → Option α} {set : draft → α → draft}
    {value : Reader α} {d : draft} {text later : List Char} {e : ReadError}
    (known : schema.member? name = some (.of name get set value)) (unset : get d = none)
    (colon : mark ':' text = .ok later) (failed : value later = .error e) :
    schema.readMember name d text = .error e := by
  have free : ¬(Member.of name get set value).isSet d = true := by simp [unset]
  rw [readMember, known]
  simp only [if_neg free, colon, ok_bind, Member.read_of, failed, error_bind]

/-! ## Lists -/

/-- Each of these items is read as one of the members, in order, and together they lead from the
first draft to the last. -/
inductive Lists : List (Member draft) → draft → List (List Token) → draft → Prop
  | nil (d : draft) : Lists [] d [] d
  | cons {m : Member draft} {members : List (Member draft)} {tokens : List Token}
      {items : List (List Token)} {d middle last : draft} (reads : Reads (m.read d) tokens middle)
      (opens : Opens tokens) (later : Lists members middle items last) :
      Lists (m :: members) d (tokens :: items) last

theorem Lists.readListed (schema : Schema draft record) {members : List (Member draft)}
    {d last : draft} {items : List (List Token)} (lists : Lists members d items last) (count : Nat)
    {text rest : List Char} (spaced : Spaced (following (count == 0) items ++ [[']']]) text rest) :
    ∃ later, schema.readListed members count d text = .ok (last, later) ∧
      mark ']' later = .ok rest := by
  induction lists generalizing count text with
  | nil d =>
    obtain ⟨_, closed, ⟨⟩⟩ := mark_spaced spaced (by rfl)
    exact ⟨text, rfl, closed⟩
  | @cons m members tokens items d middle last reads opens _ ih =>
    rw [following, List.append_assoc] at spaced
    obtain ⟨between, front, spaced⟩ := Spaced.append_iff.mp spaced
    obtain ⟨inner, here, front⟩ := nextItem_spaced (count == 0) opens front
    obtain ⟨later, found, closed⟩ := ih (count + 1) spaced
    refine ⟨later, ?_, closed⟩
    rw [Schema.readListed, here, ok_bind]
    simp only [reads inner between front (stops_of_following (by rfl) spaced), ok_bind]
    exact found

/-- A whole list, if it has an item for each member and they lead to a draft that can be
finished. -/
theorem Lists.reads {last : draft} {items : List (List Token)}
    (lists : Lists schema.members schema.blank items last) {value : record}
    (finished : schema.finish last = .ok value) : Reads schema.read (listTokens items) value := by
  intro text rest spaced _
  rw [listTokens, separated_eq_following, List.append_assoc, List.singleton_append] at spaced
  obtain ⟨inner, here, spaced⟩ := spaced.head (by rfl)
  obtain ⟨later, found, closed⟩ := lists.readListed schema 0 spaced
  rw [read_of_list here]
  simp only [List.nil_append, found, ok_bind, complete_of_finished finished, closed]
  rfl

end Schema

end Mempool.Json
