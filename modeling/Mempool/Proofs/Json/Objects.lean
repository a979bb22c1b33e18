import Mempool.Json.Schema
import Mempool.Proofs.Json.Lists
import Mempool.Proofs.Json.Strings

/-! Written objects are read back. Each member leads from one draft of the record to the next, and
the last draft is the finished record. -/
namespace Mempool.Json

/-! ## Members -/

section Members

variable {tokens : List Token} {text rest : List Char}

theorem nextMember_comma (comma : skipSpace text = ',' :: rest) :
    nextMember false text = (mark '"' rest).map (true, ·) := by
  unfold nextMember
  rw [comma]
  rfl

theorem nextMember_spaced (first : Bool) {body : List Char}
    (spaced : Spaced (lead first ++ ('"' :: body) :: tokens) text rest) :
    ∃ later, nextMember first text = .ok (true, body ++ later) ∧ Spaced tokens later rest := by
  cases first with
  | true =>
    obtain ⟨later, here, spaced⟩ := spaced.head (by rfl)
    refine ⟨later, ?_, spaced⟩
    unfold nextMember
    rw [here]
    rfl
  | false =>
    obtain ⟨middle, comma, spaced⟩ := spaced.head (by rfl)
    obtain ⟨later, here, spaced⟩ := spaced.head (by rfl)
    refine ⟨later, ?_, spaced⟩
    rw [nextMember_comma comma, List.nil_append, mark, here]
    rfl

theorem nextMember_close (first : Bool) (spaced : Spaced (['}'] :: tokens) text rest) :
    ∃ later, nextMember first text = .ok (false, '}' :: later) ∧ Spaced tokens later rest := by
  obtain ⟨later, here, spaced⟩ := spaced.head (by rfl)
  refine ⟨later, ?_, spaced⟩
  unfold nextMember
  rw [here]
  rfl

end Members

namespace Member

variable {draft : Type} {name : String} {get : draft → Option α} {set : draft → α → draft}
  {value : Reader α} {d : draft}

@[simp] theorem isSet_of : (Member.of name get set value).isSet d = (get d).isSome := rfl

theorem read_of (s : List Char) : (Member.of name get set value).read d s = (do
    let (a, rest) ← value s
    return (set d a, rest)) := by
  simp only [Member.of]
  cases value s <;> rfl

theorem reads_of {tokens : List Token} {a : α} (reads : Reads value tokens a) :
    Reads ((Member.of name get set value).read d) tokens (set d a) := by
  intro text rest spaced stops
  rw [read_of]
  exact reads.map (set d) text rest spaced stops

end Member

namespace Schema

variable {draft record : Type} {schema : Schema draft record}

theorem reads_known {name : String} {get : draft → Option α} {set : draft → α → draft}
    {value : Reader α} {tokens : List Token} {d : draft} {a : α}
    (known : schema.member? name = some (.of name get set value)) (unset : get d = none)
    (reads : Reads value tokens a) :
    Reads (schema.readMember name d) ([':'] :: tokens) (set d a) := by
  intro text rest spaced stops
  obtain ⟨later, colon, spaced⟩ := mark_spaced spaced (by rfl)
  have free : ¬(Member.of name get set value).isSet d = true := by simp [unset]
  rw [readMember, known]
  simp only [if_neg free, colon, ok_bind]
  exact Member.reads_of reads later rest spaced stops

theorem complete_of_finished {d : draft} {value : record} (finished : schema.finish d = .ok value) :
    schema.complete d = .ok value := by
  rw [complete, finished]
  rfl

theorem read_of_list {s left : List Char} (start : skipSpace s = '[' :: left) :
    schema.read s = (do
      let (d, rest) ← schema.readListed schema.members 0 schema.blank left
      let value ← schema.complete d
      return (value, ← mark ']' rest)) := by
  simp only [read, start]

theorem read_of_object {s left : List Char} (start : skipSpace s = '{' :: left) :
    schema.read s = (do
      let (d, rest) ← schema.readMembers left.length true schema.blank left
      let value ← schema.complete d
      return (value, ← mark '}' rest)) := by
  simp only [read, start]

/-- Each of these parts is a member, and together they lead from the first draft to the last. -/
inductive Fills (schema : Schema draft record) : draft → List (List Token) → draft → Prop
  | nil (d : draft) : Fills schema d [] d
  | cons {name : String} {token : Token} {tokens : List Token} {parts : List (List Token)}
      {d middle last : draft} (spells : Spells token name)
      (reads : Reads (schema.readMember name d) ([':'] :: tokens) middle)
      (later : Fills schema middle parts last) :
      Fills schema d ((token :: [':'] :: tokens) :: parts) last

theorem Fills.known {name : String} {get : draft → Option α} {set : draft → α → draft}
    {value : Reader α} {tokens : List Token} {parts : List (List Token)} {d last : draft} {a : α}
    (known : schema.member? name = some (.of name get set value)) (unset : get d = none)
    (plain : AllPlain name.toList) (reads : Reads value tokens a)
    (later : Fills schema (set d a) parts last) :
    Fills schema d (memberTokens (name, tokens) :: parts) last :=
  .cons (quotes_nameToken plain).spells (reads_known known unset reads) later

theorem readMembers_name {name : String} {token : Token} {tokens : List Token} (d : draft)
    {text rest : List Char} (spells : Spells token name) (first : Bool)
    (spaced : Spaced (lead first ++ token :: tokens) text rest) :
    ∃ later, Spaced tokens later rest ∧ ∀ limit, schema.readMembers (limit + 1) first d text = (do
      let (d, s) ← schema.readMember name d later
      schema.readMembers limit false d s) := by
  obtain ⟨body, rfl, literal⟩ := spells
  obtain ⟨later, here, spaced⟩ := nextMember_spaced first spaced
  refine ⟨later, spaced, fun limit => ?_⟩
  rw [readMembers, here, ok_bind]
  simp only [literal, ok_bind]

theorem readMembers_close (d : draft) (first : Bool) {text rest : List Char}
    (spaced : Spaced [['}']] text rest) (limit : Nat) :
    schema.readMembers (limit + 1) first d text = .ok (d, '}' :: rest) := by
  obtain ⟨_, closed, ⟨⟩⟩ := nextMember_close first spaced
  rw [readMembers, closed, ok_bind]
  rfl

namespace Fills

variable {d last : draft} {parts : List (List Token)}

theorem append {middle : draft} {others : List (List Token)} (first : Fills schema d parts middle)
    (second : Fills schema middle others last) : Fills schema d (parts ++ others) last := by
  induction first with
  | nil => exact second
  | cons spells reads _ ih => exact .cons spells reads (ih second)

theorem solid (fills : Fills schema d parts last) : ∀ part ∈ parts, part.flatten ≠ [] := by
  induction fills with
  | nil => exact List.forall_mem_nil _
  | cons spells _ _ ih =>
    obtain ⟨body, rfl, _⟩ := spells
    exact List.forall_mem_cons.mpr ⟨List.cons_ne_nil _ _, ih⟩

theorem readMembers (fills : Fills schema d parts last) (limit : Nat) (first : Bool)
    {text rest : List Char} (spaced : Spaced (following first parts) text rest)
    (stops : Stops rest) :
    schema.readMembers (limit + parts.length) first d text =
      schema.readMembers limit (first && parts.isEmpty) last rest := by
  induction fills generalizing first text with
  | nil d =>
    obtain ⟨⟩ := spaced
    rw [List.isEmpty_nil, Bool.and_true]
    rfl
  | @cons name token tokens parts d middle last spells reads _ ih =>
    obtain ⟨between, front, spaced⟩ := Spaced.append_iff.mp spaced
    obtain ⟨later, front, one⟩ := readMembers_name d spells first front
    rw [List.length_cons, ← Nat.add_assoc, one,
      reads later between front (stops.before spaced), ok_bind]
    exact (ih false spaced).trans (by simp)

/-- An object from its beginning. There are more characters than members, so the limit is not
reached by them. -/
theorem read (fills : Fills schema schema.blank parts last) {text rest : List Char}
    (spaced : Spaced (['{'] :: following true parts) text rest) (stops : Stops rest)
    (more : rest ≠ []) :
    ∃ limit, schema.read text = (do
      let (d, s) ← schema.readMembers (limit + 1) parts.isEmpty last rest
      let value ← schema.complete d
      return (value, ← mark '}' s)) := by
  obtain ⟨inner, here, spaced⟩ := spaced.head (by rfl)
  have within : parts.length < inner.length := by
    have room := spaced.length_le
    have taken := length_le_following fills.solid true
    have left := List.length_pos_iff.mpr more
    omega
  obtain ⟨limit, enough⟩ := Nat.exists_eq_add_of_lt within
  have total : inner.length = limit + 1 + parts.length := by omega
  refine ⟨limit, ?_⟩
  rw [read_of_object here]
  simp only [List.nil_append, total, fills.readMembers (limit + 1) true spaced stops, Bool.true_and]

/-- A problem with the member whose name comes next is a problem of the object. -/
theorem read_of_error (fills : Fills schema schema.blank parts last) {name : String}
    {token : Token} {tokens : List Token} {text rest : List Char} {e : ReadError}
    (spells : Spells token name)
    (spaced : Spaced (['{'] :: following true parts ++ (lead parts.isEmpty ++ token :: tokens))
      text rest)
    (failed : ∀ later, Spaced tokens later rest → schema.readMember name last later = .error e) :
    schema.read text = .error e := by
  obtain ⟨middle, front, spaced⟩ := Spaced.append_iff.mp spaced
  have more : Stops middle ∧ middle ≠ [] := by
    obtain ⟨body, rfl, _⟩ := spells
    cases parts with
    | nil => exact ⟨spaced.stops (by rfl), spaced.text_ne_nil⟩
    | cons => exact ⟨spaced.stops (by rfl), spaced.text_ne_nil⟩
  obtain ⟨limit, read⟩ := fills.read front more.1 more.2
  obtain ⟨later, spaced, next⟩ := readMembers_name last spells parts.isEmpty spaced
  rw [read, next, failed later spaced]
  rfl

theorem read_of_close (fills : Fills schema schema.blank parts last) {text rest : List Char}
    (spaced : Spaced (['{'] :: following true parts ++ [['}']]) text rest) :
    schema.read text = (schema.complete last).map (·, rest) := by
  obtain ⟨middle, front, close⟩ := Spaced.append_iff.mp spaced
  obtain ⟨limit, read⟩ := fills.read front (close.stops (by rfl)) close.text_ne_nil
  rw [read, readMembers_close last _ close, ok_bind]
  cases finished : schema.complete last <;> simp only [finished] <;> rfl

/-- A whole object, if its members fill the blank draft to one that can be finished. -/
theorem reads (fills : Fills schema schema.blank parts last) {value : record}
    (finished : schema.finish last = .ok value) :
    Reads schema.read ([['{']] ++ separated parts ++ [['}']]) value := by
  intro text rest spaced _
  rw [separated_eq_following, List.singleton_append] at spaced
  rw [fills.read_of_close spaced, complete_of_finished finished]
  rfl

end Fills

end Schema

end Mempool.Json
