import Mempool.Proofs.Json.Literals
import Mempool.Proofs.Limits.FirstProblem

/-! Number literals as values of limits. In a text in which nothing else is wrong, a literal is
taken as just the integer that it denotes, or the text is refused. -/
namespace Mempool.Limits

open Json

/-- Texts that leave the value of one field open. The other fields have the values of these limits:
the members of an object may stand in any order and among others, and a list has the five values. -/
inductive Around (l : Limits) (f : Field) (value : List Token) : List Token → Prop
  | object {before after : List WrittenMember} {spelling : Token}
      (quotes : Quotes spelling f.name)
      (others : ∀ m ∈ before ++ after, m.Fits fun g i => i = l.value g)
      (once : (fields (before ++ ⟨f.name, spelling, value, quotes⟩ :: after)).Perm Field.all) :
      Around l f value (objectOf (before ++ ⟨f.name, spelling, value, quotes⟩ :: after))
  | list : Around l f value
      (listTokens (Field.all.map fun g => if g = f then value else numberTokens (l.value g)))

theorem Field.ofName?_name (f : Field) : ofName? f.name = some f := by
  cases f <;> rfl

section Texts

variable {f : Field} {value : List Token} {before after : List WrittenMember} {spelling : Token}
  {quotes : Quotes spelling f.name}

theorem fields_around :
    fields (before ++ ⟨f.name, spelling, value, quotes⟩ :: after) =
      fields before ++ f :: fields after := by
  have known : (WrittenMember.mk f.name spelling value quotes).field? = some f := f.ofName?_name
  rw [← fields_cons_of_field known, fields, fields, fields, List.filterMap_append]

theorem objectOf_around :
    objectOf (before ++ ⟨f.name, spelling, value, quotes⟩ :: after) =
      opened before ++ (lead before.isEmpty ++ spelling :: [':'] :: value) ++
        (following false (after.map WrittenMember.tokens) ++ [['}']]) := by
  rw [objectOf, separated_eq_following, List.map_append, List.map_cons, following_append,
    List.isEmpty_map, Bool.true_and]
  simp only [opened, following, WrittenMember.tokens, List.append_assoc, List.cons_append,
    List.nil_append]

end Texts

variable {l : Limits} {f : Field} {value tokens : List Token} {text : String}

/-! ## Refused values -/

section Refused

variable {e : ReadError} (failed : ∀ later rest, Spaced value later rest → Stops rest →
  readInteger f.expected f.low f.high later = .error e)

include failed

theorem readListed_of_error (opens : Opens value) {members : List (Member Draft)}
    {fs : List Field}
    (aligned : List.Forall₂ (fun m g => schema.member? (Field.name g) = some m) members fs)
    (there : f ∈ fs) (count : Nat) (seen : List Field) {text rest : List Char}
    (spaced : Spaced (following (count == 0)
      (fs.map fun g => if g = f then value else numberTokens (l.value g)) ++ [[']']]) text rest) :
    schema.readListed members count (l.draft seen) text = .error e := by
  induction aligned generalizing count seen text with
  | nil => contradiction
  | @cons m g members fs known _ ih =>
    obtain ⟨_, get, set, _, _, entry⟩ := l.exists_entry g
    obtain rfl := Option.some.inj (known.symm.trans entry.known)
    rw [List.map_cons, following, List.append_assoc] at spaced
    obtain ⟨between, front, spaced⟩ := Spaced.append_iff.mp spaced
    have stops := stops_of_following (by rfl) spaced
    -- Fields before the open one are taken up, and it is refused before any behind it is reached.
    by_cases here : g = f
    · subst here
      rw [if_pos rfl] at front
      obtain ⟨inner, item, front⟩ := nextItem_spaced (count == 0) opens front
      have refused := entry.fails (failed inner between front stops)
      rw [Schema.readListed, item, ok_bind]
      simp only [Member.read_of, refused, error_bind]
    · rw [if_neg here] at front
      obtain ⟨inner, item, front⟩ := nextItem_spaced (count == 0) (opens_number _) front
      have taken := entry.reads inner between front stops
      have later := (List.mem_cons.mp there).resolve_left (Ne.symm here)
      rw [Schema.readListed, item, ok_bind]
      simp only [Member.read_of, taken, ok_bind, pure, Except.pure, entry.set_draft]
      exact ih later (count + 1) (seen ++ [g]) spaced

/-- A value that is refused where it stands is the answer. -/
theorem Around.ofJson_of_error (around : l.Around f value tokens) (opens : Opens value)
    (spaced : SpacedOut tokens text) : ofJson text = .error e := by
  obtain ⟨space, spaced, _⟩ := spaced
  cases around with
  | @object before after spelling quotes others once =>
    obtain ⟨agree, _⟩ := List.forall_mem_append.mp others
    rw [fields_around] at once
    have distinct : (fields before ++ f :: fields after).Nodup := once.nodup_iff.mpr (by decide)
    obtain ⟨front, _, apart⟩ := List.nodup_append.mp distinct
    have unseen : f ∉ fields before := fun member => apart f member f List.mem_cons_self rfl
    rw [objectOf_around] at spaced
    obtain ⟨middle, spaced, others⟩ := Spaced.append_iff.mp spaced
    have stops := stops_of_following (by rfl) others
    refine l.ofJson_of_readMember agree front quotes spaced fun later spaced => ?_
    obtain ⟨inner, colon, spaced⟩ := mark_spaced spaced (by rfl)
    exact l.readMember_of_readInteger unseen colon (failed inner middle spaced stops)
  | list =>
    have aligned :
        List.Forall₂ (fun m g => schema.member? (Field.name g) = some m) schema.members Field.all :=
      .cons rfl <| .cons rfl <| .cons rfl <| .cons rfl <| .cons rfl .nil
    rw [listTokens, separated_eq_following, List.append_assoc, List.singleton_append] at spaced
    obtain ⟨inner, here, spaced⟩ := spaced.head (by rfl)
    have refused := readListed_of_error failed opens aligned f.mem_all 0 [] spaced
    rw [ofJson]
    apply readText_of_error
    rw [Schema.read_of_list here]
    exact congrArg (· >>= _) refused

end Refused

/-! ## Stored values -/

theorem exists_value_update (l : Limits) {i : Int} (holds : f.Holds i) :
    ∃ l' : Limits, l'.value = Function.update l.value f i := by
  refine ⟨_, value_ofValues fun g => ?_⟩
  by_cases same : g = f
  · rw [same, Function.update_self]
    exact holds
  · rw [Function.update_of_ne same]
    exact l.holds_value g

/-- The written form of an integer in range is stored, and the other fields are as they were. -/
theorem Around.ofJson_of_holds {i : Int} (around : l.Around f (numberTokens i) tokens)
    {l' : Limits} (stored : l'.value = Function.update l.value f i)
    (spaced : SpacedOut tokens text) : ofJson text = .ok l' := by
  have here : l'.value f = i := by rw [stored, Function.update_self]
  have elsewhere {g : Field} (other : g ≠ f) : l'.value g = l.value g := by
    rw [stored, Function.update_of_ne other]
  cases around with
  | @object before after spelling quotes others once =>
    have distinct : (fields (before ++ ⟨f.name, spelling, numberTokens i, quotes⟩ :: after)).Nodup :=
      once.nodup_iff.mpr (by decide)
    have apart : f ∉ fields (before ++ after) := by
      rw [fields_around, List.perm_middle.nodup_iff] at distinct
      rw [fields, List.filterMap_append]
      exact (List.nodup_cons.mp distinct).1
    have agree : ∀ m ∈ before ++ ⟨f.name, spelling, numberTokens i, quotes⟩ :: after,
        m.Fits fun g j => j = l'.value g := by
      intro m listed
      rcases List.mem_cons.mp (List.perm_middle.mem_iff.mp listed) with rfl | member
      · exact .field f.ofName?_name here.symm rfl
      · refine (others m member).imp fun g j known same => ?_
        have other : g ≠ f := by
          rintro rfl
          exact apart (List.mem_filterMap.mpr ⟨m, member, known⟩)
        rw [same, elsewhere other]
    have fills : schema.Fills schema.blank _ _ := l'.fills_draft [] agree distinct
    have finished := l'.finish_of_forall_mem fun g => once.mem_iff.mpr g.mem_all
    exact (fills.reads finished).whole spaced
  | list =>
    have values :
        (fun g => if g = f then numberTokens i else numberTokens (l.value g)) =
          fun g => numberTokens (l'.value g) := by
      funext g
      split
      · rename_i same
        rw [same, here]
      · rename_i other
        rw [elsewhere other]
    rw [values] at spaced
    exact (l'.lists_draft.reads (l'.finish_of_forall_mem Field.mem_all)).whole spaced

/-! ## Number literals -/

theorem message_outOfRange (i : Int) (expected : String) :
    (DataError.outOfRange i expected).message =
      "invalid value: integer `" ++ Decimal.ofInt i ++ "`, expected " ++ expected := by
  have parts : (DataError.outOfRange i expected).message =
      "invalid value: " ++ ("integer " ++ quoteName (Decimal.ofInt i)) ++ ", expected " ++ expected :=
    rfl
  apply String.toList_inj.mp
  simp only [parts, quoteName, String.toList_append, List.append_assoc]
  rfl

/-- A number literal of any length as the value of a field. An integer literal other than minus
zero is stored as the integer that it denotes if the field has it, and is named as the problem if
it is out of range but fits 64 bits. Every other literal is refused, minus zero and those with a
fraction or an exponent among them. So what is accepted is the very integer of the literal. -/
theorem number_never_misread {token : Token} (number : IsNumber token)
    (around : l.Around f [token] tokens) (spaced : SpacedOut tokens text) :
    (∀ i, IsInteger token i → token ≠ minusZero → f.Holds i →
      ∃ l' : Limits, ofJson text = .ok l' ∧ l'.value = Function.update l.value f i) ∧
    (∀ i, IsInteger token i → token ≠ minusZero → FitsWord i → ¬f.Holds i →
      ofJson text = .error (.data (.outOfRange i f.expected)) ∧
      (DataError.outOfRange i f.expected).message =
        "invalid value: integer `" ++ Decimal.ofInt i ++ "`, expected " ++ f.expected) ∧
    ((¬∃ i, IsInteger token i ∧ token ≠ minusZero ∧ FitsWord i) →
      ∃ e, ofJson text = .error e ∧ NoInteger f.expected e) ∧
    ('.' ∈ token ∨ 'e' ∈ token ∨ 'E' ∈ token → ∃ e, ofJson text = .error e) ∧
    ∀ l', ofJson text = .ok l' →
      IsInteger token (l'.value f) ∧ token ≠ minusZero ∧ ∀ g, g ≠ f → l'.value g = l.value g := by
  have opens : Opens [token] := (IsValue.number number).opens
  have stored (i : Int) (literal : IsInteger token i) (proper : token ≠ minusZero)
      (holds : f.Holds i) :
      ∃ l' : Limits, ofJson text = .ok l' ∧ l'.value = Function.update l.value f i := by
    obtain rfl := literal.eq_signed proper
    obtain ⟨l', stored⟩ := l.exists_value_update holds
    exact ⟨l', around.ofJson_of_holds stored spaced, stored⟩
  have outside (i : Int) (literal : IsInteger token i) (proper : token ≠ minusZero)
      (fits : FitsWord i) (outside : ¬f.Holds i) :
      ofJson text = .error (.data (.outOfRange i f.expected)) := by
    obtain rfl := literal.eq_signed proper
    refine around.ofJson_of_error (fun later rest spaced stops => ?_) opens spaced
    exact readInteger_of_outside f.expected fits outside spaced stops
  have refused (other : ¬∃ i, IsInteger token i ∧ token ≠ minusZero ∧ FitsWord i) :
      ∃ e, ofJson text = .error e ∧ NoInteger f.expected e := by
    have unwritten (i : Int) (fits : FitsWord i) : token ≠ Decimal.signed i := by
      rintro rfl
      exact other ⟨i, .of_signed i, IsInteger.signed_ne_minusZero i, fits⟩
    obtain ⟨e, none, failed⟩ := readInteger_of_other f.expected f.low f.high number unwritten
    exact ⟨e, around.ofJson_of_error failed opens spaced, none⟩
  refine ⟨stored, fun i literal proper fits beyond =>
    ⟨outside i literal proper fits beyond, message_outOfRange i f.expected⟩, refused, ?_, ?_⟩
  · intro marked
    obtain ⟨e, failed, _⟩ := refused fun ⟨i, literal, _⟩ => by
      have plain (c : Char) (other : startsInteger c = false) : c ∉ token := fun member =>
        ne_of_startsInteger (literal.plain c member) other rfl
      rcases marked with point | small | large
      · exact plain '.' rfl point
      · exact plain 'e' rfl small
      · exact plain 'E' rfl large
    exact ⟨e, failed⟩
  · intro l' accepted
    by_cases written : ∃ i, IsInteger token i ∧ token ≠ minusZero ∧ FitsWord i
    · obtain ⟨i, literal, proper, fits⟩ := written
      by_cases holds : f.Holds i
      · obtain ⟨_, read, value⟩ := stored i literal proper holds
        obtain rfl := Except.ok.inj (accepted.symm.trans read)
        rw [value, Function.update_self]
        exact ⟨literal, proper, fun g other => Function.update_of_ne other _ _⟩
      · have read := outside i literal proper fits holds
        cases accepted.symm.trans read
    · obtain ⟨e, read, _⟩ := refused written
      cases accepted.symm.trans read

/-- The first integer above the signed range, where it fits and where it does not. -/
theorem number_at_signed_end :
    ofJson "[1,9223372036854775808,3,4,5]" = .ok ⟨1, ⟨9223372036854775808, 3⟩, ⟨4, 5⟩⟩ ∧
      ofJson "[1,2, 9223372036854775808,4,5]" =
        .error (.data (.outOfRange 9223372036854775808 "i64")) := by
  have literal : IsInteger (Decimal.signed 9223372036854775808) 9223372036854775808 := .of_signed _
  have proper := IsInteger.signed_ne_minusZero 9223372036854775808
  have number : IsNumber (Decimal.signed 9223372036854775808) :=
    .intro (.inl rfl) (isWhole_digits 9223372036854775808) .none .none
  have around (f : Field) :
      Around ⟨1, ⟨2, 3⟩, ⟨4, 5⟩⟩ f [Decimal.signed 9223372036854775808] _ := .list
  constructor
  · have spaced : SpacedOut _ "[1,9223372036854775808,3,4,5]" :=
      ⟨[], .flatten (listTokens ([1, 9223372036854775808, 3, 4, 5].map numberTokens)) [], by decide⟩
    obtain ⟨stored, _⟩ := number_never_misread number (around .size) spaced
    obtain ⟨l', read, value⟩ := stored _ literal proper (by decide)
    rw [read]
    refine congrArg Except.ok (value_injective ?_)
    rw [value]
    funext f
    cases f <;> rfl
  · have spaced : SpacedOut _ "[1,2, 9223372036854775808,4,5]" :=
      ⟨[], .flush ['['] <| .flush ['1'] <| .flush [','] <| .flush ['2'] <| .flush [','] <|
        .cons (by decide : Blank [' ']) (Decimal.signed 9223372036854775808) <|
        .flatten [[','], ['4'], [','], ['5'], [']']] [], by decide⟩
    obtain ⟨_, outside, _⟩ := number_never_misread number (around .maxTxsBytes) spaced
    exact (outside _ literal proper (by simp [FitsWord]) (by decide)).1

end Mempool.Limits
