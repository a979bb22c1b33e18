import Mempool.Proofs.Limits.Members

/-! The first problem decides. Whatever comes after acceptable members is answered by the next few
tokens, and what follows these does not matter. -/
namespace Mempool.Limits

open Json

variable {members : List WrittenMember}

/-! ## Members in range -/

def ofValues (v : Field → Int) : Limits where
  maxTxBytes := .ofNat (v .maxTxBytes).toNat
  admitted := ⟨.ofNat (v .size).toNat, .ofInt (v .maxTxsBytes)⟩
  pending := ⟨.ofNat (v .pendingSize).toNat, .ofInt (v .maxPendingTxsBytes)⟩

theorem value_ofValues {v : Field → Int} (inside : ∀ f : Field, f.Holds (v f)) :
    (ofValues v).value = v := by
  funext f
  obtain ⟨low, high⟩ := inside f
  cases f with
  | maxTxBytes | size | pendingSize =>
    simp only [Field.low, Field.high] at low high
    simp only [value, ofValues, UInt64.toNat_ofNat']
    omega
  | maxTxsBytes | maxPendingTxsBytes =>
    exact Int64.toInt_ofInt_of_le low (Int.lt_add_one_of_le high)

theorem WrittenMember.Fits.imp {m : WrittenMember} {may other : Field → Int → Prop}
    (fits : m.Fits may) (allow : ∀ f i, m.field? = some f → may f i → other f i) :
    m.Fits other := by
  cases fits with
  | field known allowed value => exact .field known (allow _ _ known allowed) value
  | other unknown value => exact .other unknown value

theorem exists_values (fit : ∀ m ∈ members, m.Fits Field.Holds)
    (distinct : (fields members).Nodup) :
    ∃ v : Field → Int, (∀ f : Field, f.Holds (v f)) ∧ ∀ m ∈ members, m.Fits fun f i => i = v f := by
  induction members with
  | nil => exact ⟨fun _ => 0, fun f => by cases f <;> decide, List.forall_mem_nil _⟩
  | cons m members ih =>
    obtain ⟨here, later⟩ := List.forall_mem_cons.mp fit
    cases here with
    | other unknown value =>
      rw [fields_cons_of_other unknown] at distinct
      obtain ⟨v, inside, agree⟩ := ih later distinct
      exact ⟨v, inside, List.forall_mem_cons.mpr ⟨.other unknown value, agree⟩⟩
    | @field f i known holds value =>
      rw [fields_cons_of_field known, List.nodup_cons] at distinct
      obtain ⟨once, distinct⟩ := distinct
      obtain ⟨v, inside, agree⟩ := ih later distinct
      refine ⟨Function.update v f i, ?_, List.forall_mem_cons.mpr ⟨?_, ?_⟩⟩
      · intro g
        by_cases same : g = f
        · rw [same, Function.update_self]
          exact holds
        · rw [Function.update_of_ne same]
          exact inside g
      · exact .field known (Function.update_self f i v).symm value
      · -- The other members do not have this field.
        intro m' member
        refine (agree m' member).imp fun g j found same => ?_
        have different : g ≠ f := by
          rintro rfl
          exact once (List.mem_filterMap.mpr ⟨m', member, found⟩)
        rw [same, Function.update_of_ne different]

/-- Members in range are those of some limits, each field being there once. -/
theorem exists_limits (fit : ∀ m ∈ members, m.Fits Field.Holds)
    (distinct : (fields members).Nodup) :
    ∃ l : Limits, ∀ m ∈ members, m.Fits fun f i => i = l.value f := by
  obtain ⟨v, inside, agree⟩ := exists_values fit distinct
  refine ⟨ofValues v, ?_⟩
  rwa [value_ofValues inside]

/-! ## The next tokens -/

/-- After these members, the tokens decide on the answer, if the text goes on with `s` after
them. -/
inductive Decides (members : List WrittenMember) :
    List Token → (s : List Char) → Except ReadError Limits → Prop
  | again {f : Field} {token : Token} (quotes : Quotes token f.name) (seen : f ∈ fields members)
      (s : List Char) :
      Decides members (lead members.isEmpty ++ [token]) s
        (.error (.data (.duplicateField f.name)))
  | wrongType {f : Field} {token value : Token} {found : Found} (quotes : Quotes token f.name)
      (unseen : f ∉ fields members) (shows : Shows value found) (s : List Char) :
      Decides members (lead members.isEmpty ++ [token, [':'], value]) s
        (.error (.data (.wrongType found f.expected)))
  | outOfRange {f : Field} {token : Token} {i : Int} {s : List Char} (quotes : Quotes token f.name)
      (unseen : f ∉ fields members) (fits : FitsWord i) (outside : ¬f.Holds i) (stops : Stops s) :
      Decides members (lead members.isEmpty ++ token :: [':'] :: numberTokens i) s
        (.error (.data (.outOfRange i f.expected)))
  | missing {f : Field} (first : (Field.all.find? fun f => f ∉ fields members) = some f)
      (s : List Char) :
      Decides members [['}']] s (.error (.data (.missingField f.name)))
  | complete {l : Limits} {s : List Char} (there : ∀ f, f ∈ fields members)
      (agree : ∀ m ∈ members, m.Fits fun f i => i = l.value f) (blank : Blank s) :
      Decides members [['}']] s (.ok l)
  | trailing {s : List Char} (there : ∀ f, f ∈ fields members) (more : ¬Blank s) :
      Decides members [['}']] s (.error .malformed)

/-- An object from its beginning, up to after these members. -/
def opened (members : List WrittenMember) : List Token :=
  ['{'] :: following true (members.map WrittenMember.tokens)

section Agreement

variable (l : Limits) (agree : ∀ m ∈ members, m.Fits fun f i => i = l.value f)
  (distinct : (fields members).Nodup) {text : String} {s : List Char}

include agree distinct

/-- A problem with the member whose name comes next is the answer. -/
theorem ofJson_of_readMember {name : String} {token : Token} {tokens : List Token} {e : ReadError}
    (quotes : Quotes token name)
    (spaced : Spaced (opened members ++ (lead members.isEmpty ++ token :: tokens)) text.toList s)
    (failed : ∀ later, Spaced tokens later s →
      schema.readMember name (l.draft (fields members)) later = .error e) :
    ofJson text = .error e := by
  have fills : schema.Fills schema.blank _ _ := l.fills_draft [] agree distinct
  rw [← List.isEmpty_map (f := WrittenMember.tokens)] at spaced
  rw [ofJson, readText, fills.read_of_error quotes.spells spaced failed]
  rfl

theorem ofJson_of_close (spaced : Spaced (opened members ++ [['}']]) text.toList s) :
    ofJson text = match schema.finish (l.draft (fields members)) with
      | .error e => .error (.data e)
      | .ok l => if (skipSpace s).isEmpty then .ok l else .error .malformed := by
  have fills : schema.Fills schema.blank _ _ := l.fills_draft [] agree distinct
  rw [ofJson, readText, fills.read_of_close spaced]
  cases finished : schema.finish (l.draft (fields members)) <;>
    simp only [Schema.complete, List.nil_append, finished] <;> rfl

end Agreement

/-- The text of an object from its beginning: acceptable members, these tokens and then
anything. -/
theorem first_problem_decides (members : List WrittenMember)
    (fit : ∀ m ∈ members, m.Fits Field.Holds) (distinct : (fields members).Nodup)
    {tokens : List Token} {s : List Char} {answer : Except ReadError Limits}
    (decides : Decides members tokens s answer) {text : String}
    (spaced : Spaced (opened members ++ tokens) text.toList s) :
    ofJson text = answer := by
  obtain ⟨l, agree⟩ := exists_limits fit distinct
  cases decides with
  | again quotes seen s =>
    exact l.ofJson_of_readMember agree distinct quotes spaced fun later _ =>
      l.readMember_seen seen later
  | wrongType quotes unseen shows s =>
    refine l.ofJson_of_readMember agree distinct quotes spaced fun text spaced => ?_
    obtain ⟨later, colon, spaced⟩ := mark_spaced spaced (by rfl)
    exact l.readMember_of_readInteger unseen colon (readInteger_of_shows _ _ _ shows spaced)
  | outOfRange quotes unseen fits outside stops =>
    refine l.ofJson_of_readMember agree distinct quotes spaced fun text spaced => ?_
    obtain ⟨later, colon, spaced⟩ := mark_spaced spaced (by rfl)
    exact l.readMember_of_readInteger unseen colon
      (readInteger_of_outside _ fits outside spaced stops)
  | missing first s =>
    rw [l.ofJson_of_close agree distinct spaced, finish_draft, first]
  | @complete l s there agree blank =>
    rw [l.ofJson_of_close agree distinct spaced, l.finish_of_forall_mem there]
    exact if_pos (by rwa [List.isEmpty_iff, skipSpace_eq_nil_iff])
  | trailing there more =>
    rw [l.ofJson_of_close agree distinct spaced, l.finish_of_forall_mem there]
    exact if_neg (by rwa [List.isEmpty_iff, skipSpace_eq_nil_iff])

theorem duplicate_before_anything :
    ofJson r#"{ "size":1,"size"?}"# = .error (.data (.duplicateField "size")) := by
  have size : Quotes (nameToken "size") "size" := quotes_nameToken (by decide)
  have inside : Field.size.Holds 1 := by decide
  have again : Decides [⟨"size", _, numberTokens 1, size⟩] _ ['?', '}'] _ :=
    .again size (List.mem_singleton_self Field.size) _
  refine first_problem_decides [⟨"size", _, numberTokens 1, size⟩]
    (List.forall_mem_singleton.mpr (.field rfl inside rfl)) (List.pairwise_singleton _ _) again ?_
  exact .flush _ <| .cons (by decide : Blank [' ']) _ <| .flatten _ _

end Mempool.Limits
