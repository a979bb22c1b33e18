import Mempool.Proofs.Json.ListCuts

/-! Records that are cut short. Only a cut in a number that is passed over can look like something
else than the end of the text, and only where the number may not end. -/
namespace Mempool.Json

namespace Ignored

/-- Where the characters lead, if they all belong to one value and it goes on after them. -/
def run? : State → List Char → Option State
  | s, [] => some s
  | s, c :: rest =>
    match step s c with
    | .more s => run? s rest
    | _ => none

/-- The text is cut in a number, after a sign, a point or an exponent mark. -/
def EndsInNumber (s : State) (text : List Char) : Prop :=
  ∃ mode opened, run? s text = some ⟨.number mode, opened⟩ ∧ mode.endsHere = false

variable {s : State} {text front back rest : List Char}

theorem skipFrom_suffix (skipped : skipFrom s text = .ok rest) : rest <:+ text := by
  induction text generalizing s with
  | nil =>
    unfold skipFrom atEnd at skipped
    split at skipped
    · split at skipped
      · contradiction
      · split at skipped <;> cases skipped
        exact List.suffix_refl _
    · contradiction
  | cons c text ih =>
    rw [skipFrom] at skipped
    split at skipped
    · exact (ih skipped).trans (List.suffix_cons c text)
    · cases skipped
      exact List.suffix_cons c _
    · cases skipped
      exact List.suffix_refl _
    · contradiction

theorem skipFrom_of_run? {last : State} (run : run? s text = some last) :
    skipFrom s text = atEnd last := by
  induction text generalizing s with
  | nil =>
    obtain rfl := Option.some.inj run
    rfl
  | cons c text ih =>
    rw [run?] at run
    rw [skipFrom]
    split at run
    · rename_i next stepped
      rw [stepped]
      exact ih run
    · contradiction

theorem EndsInNumber.malformed (number : EndsInNumber s text) :
    skipFrom s text = .error .malformed := by
  obtain ⟨mode, opened, run, open_⟩ := number
  rw [skipFrom_of_run? run]
  simp [atEnd, open_]

theorem skipFrom_cut (skipped : skipFrom s (front ++ back) = .ok rest) (a : α) :
    Cut (EndsInNumber s front) front back a rest (do return (a, ← skipFrom s front)) := by
  induction front generalizing s with
  | nil =>
    -- The text ends here, which only a number with no container around it survives.
    have within := skipFrom_suffix skipped
    obtain ⟨mode, opened⟩ := s
    rw [skipFrom, atEnd]
    split
    · rename_i mode here
      obtain rfl : _ = Mode.number mode := here
      split
      · rename_i open_
        exact .malformed within ⟨mode, opened, rfl, by simpa using open_⟩
      · split
        · exact .out within
        · exact .truncated within
    · exact .truncated within
  | cons c front ih =>
    rw [List.cons_append, skipFrom] at skipped
    rw [skipFrom]
    cases stepped : step s c with
    | more next =>
      simp only [stepped] at skipped
      refine (ih skipped).mono (List.suffix_cons c front) ?_
      rintro ⟨mode, opened, run, open_⟩
      exact ⟨mode, opened, by rw [run?, stepped]; exact run, open_⟩
    | last =>
      rw [stepped] at skipped
      cases skipped
      exact .of_ok (List.suffix_cons c front) rfl
    | past =>
      rw [stepped] at skipped
      cases skipped
      exact .of_ok (List.suffix_refl _) rfl
    | bad => simp [stepped] at skipped

end Ignored

/-! ## Members -/

section Members

variable {draft : Type} {name : String} {get : draft → Option α} {set : draft → α → draft}
  {value : Reader α} {d d' : draft} {s rest : List Char}

theorem Member.of_read_eq_ok (read : (Member.of name get set value).read d s = .ok (d', rest)) :
    ∃ a, d' = set d a := by
  rw [Member.read_of] at read
  obtain ⟨⟨a, rest⟩, _, read⟩ := bind_eq_ok.mp read
  cases read
  exact ⟨a, rfl⟩

theorem Member.gradual_of (gradual : Gradual value never) :
    Gradual ((Member.of name get set value).read d) never := by
  intro front back d' rest read
  rw [Member.read_of] at read ⊢
  exact gradual.map (set d) front back d' rest read

end Members

namespace Schema

open Ignored

variable {draft record : Type} (schema : Schema draft record)

/-- From here, reading members leads to the value of one that the record does not have. -/
inductive Reaches : draft → (first : Bool) → List Char → (value : List Char) → Prop
  | here {d : draft} {first : Bool} {s rest rest' value : List Char} {name : String}
      (next : nextMember first s = .ok (true, rest))
      (named : StringLiteral.read rest = .ok (name, rest')) (other : schema.member? name = none)
      (colon : mark ':' rest' = .ok value) : Reaches d first s value
  | later {d d' : draft} {first : Bool} {s rest rest' left value : List Char} {name : String}
      (next : nextMember first s = .ok (true, rest))
      (named : StringLiteral.read rest = .ok (name, rest'))
      (taken : schema.readMember name d rest' = .ok (d', left))
      (reaches : Reaches d' false left value) : Reaches d first s value

/-- The members are cut in a number that is the value of another member, or part of it. -/
def CutsMember (d : draft) (first : Bool) (s : List Char) : Prop :=
  ∃ value, schema.Reaches d first s value ∧ EndsInNumber ⟨.value, []⟩ value

/-- The object is cut in a number that is the value of a member which the record does not have, or
part of the value. -/
def CutsNumber (text : List Char) : Prop :=
  ∃ members, skipSpace text = '{' :: members ∧ schema.CutsMember schema.blank true members

/-- What the members of a schema keep to: each one notices cuts and takes itself up, and a draft
that has all of them can be finished. -/
structure Lawful : Prop where
  gradual {m : Member draft} (member : m ∈ schema.members) (d : draft) : Gradual (m.read d) never
  sets {m : Member draft} {d d' : draft} {s rest : List Char} (member : m ∈ schema.members) :
    m.read d s = .ok (d', rest) → m.isSet d' = true
  keeps {m other : Member draft} {d d' : draft} {s rest : List Char} (member : m ∈ schema.members)
    (another : other ∈ schema.members) :
    m.read d s = .ok (d', rest) → other.isSet d = true → other.isSet d' = true
  finishes {d : draft} : (∀ m ∈ schema.members, m.isSet d = true) →
    ∃ value, schema.finish d = .ok value

variable {schema} (lawful : schema.Lawful) {d d' : draft} {first : Bool} {name : String}
  {front back s rest : List Char}

include lawful

/-! ## Objects -/

theorem Lawful.gradual_readMember (name : String) (d : draft) :
    Gradual (schema.readMember name d) fun front => schema.member? name = none ∧
      ∃ value, mark ':' front = .ok value ∧ EndsInNumber ⟨.value, []⟩ value := by
  intro front back d' rest read
  cases known : schema.member? name with
  | none =>
    simp only [readMember, known] at read ⊢
    obtain ⟨middle, colon, read⟩ := bind_eq_ok.mp read
    obtain ⟨_, skipped, ⟨⟩⟩ := bind_eq_ok.mp read
    refine .mark colon (skipFrom_suffix skipped) fun left here split => ?_
    exact (skipFrom_cut (split ▸ skipped) d).excuse fun number => ⟨trivial, left, here, number⟩
  | some m =>
    simp only [readMember, known] at read ⊢
    split at read
    · contradiction
    · rename_i free
      obtain ⟨middle, colon, read⟩ := bind_eq_ok.mp read
      rw [if_neg free]
      have gradual := lawful.gradual (List.mem_of_find?_eq_some known) d
      refine .mark colon (gradual.suffix read) fun left _ split => ?_
      exact (gradual left back _ _ (split ▸ read)).excuse False.elim

omit lawful in
/-- Members that have been read end at the closing brace, or start with one more of them. -/
theorem readMembers_step {limit : Nat}
    (read : schema.readMembers (limit + 1) first d s = .ok (d', rest)) :
    nextMember first s = .ok (false, rest) ∧ d' = d ∨
      ∃ name middle left left' left'', nextMember first s = .ok (true, left) ∧
        StringLiteral.read left = .ok (name, left') ∧
        schema.readMember name d left' = .ok (middle, left'') ∧
        schema.readMembers limit false middle left'' = .ok (d', rest) := by
  obtain ⟨⟨more, left⟩, next, read⟩ := bind_eq_ok.mp read
  cases more with
  | false =>
    cases read
    exact .inl ⟨next, rfl⟩
  | true =>
    obtain ⟨⟨name, left'⟩, named, read⟩ := bind_eq_ok.mp read
    obtain ⟨⟨middle, left''⟩, taken, later⟩ := bind_eq_ok.mp read
    exact .inr ⟨name, middle, left, left', left'', next, named, taken, later⟩

theorem Lawful.member_suffix {left left' : List Char}
    (named : StringLiteral.read left = .ok (name, left'))
    (taken : schema.readMember name d left' = .ok (d', rest)) : rest <:+ left :=
  ((lawful.gradual_readMember name d).suffix taken).trans
    ((List.suffix_cons '"' left').trans (StringLiteral.read_suffix named))

omit lawful in
theorem quote_suffix {left : List Char} (next : nextMember first s = .ok (true, left)) :
    '"' :: left <:+ s := by
  rcases nextMember_left next with ⟨_, ⟨⟩, _⟩ | ⟨_, inside⟩
  exact inside

theorem Lawful.readMembers_left {limit : Nat}
    (read : schema.readMembers limit first d s = .ok (d', rest)) : rest ≠ [] ∧ rest <:+ s := by
  induction limit generalizing first d s with
  | zero => contradiction
  | succ limit ih =>
    rcases readMembers_step read with ⟨next, _⟩ | ⟨_, _, left, _, _, next, named, taken, later⟩
    · rcases nextMember_left next with ⟨_, _, rfl, inside⟩ | ⟨⟨⟩, _⟩
      exact ⟨List.cons_ne_nil _ _, inside⟩
    · obtain ⟨more, inside⟩ := ih later
      have start := (List.suffix_cons '"' left).trans (quote_suffix next)
      exact ⟨more, inside.trans ((lawful.member_suffix named taken).trans start)⟩

theorem Lawful.readMembers_cut {m n : Nat} (enough : front.length ≤ m)
    (read : schema.readMembers n first d (front ++ back) = .ok (d', rest)) :
    Cut (schema.CutsMember d first front) front back d' rest
      (schema.readMembers m first d front) := by
  induction n generalizing m first d front with
  | zero => contradiction
  | succ n ih =>
    cases m with
    | zero =>
      obtain rfl := List.eq_nil_of_length_eq_zero (Nat.le_zero.mp enough)
      exact .truncated (lawful.readMembers_left read).2
    | succ m =>
      rw [readMembers]
      rcases readMembers_step read with
        ⟨next, rfl⟩ | ⟨name, middle, whole, whole', whole'', next, named, taken, later⟩
      · refine ((gradual_nextMember first front back _ _ next).excuse False.elim).bind
          (List.suffix_refl rest) ?_ ?_
        · exact fun left _ split _ => .of_ok (List.suffix_refl left) split
        · intro more within _
          cases more with
          | false => exact .out within
          | true => exact .truncated within
      · have gradual := lawful.gradual_readMember name d
        have after := (lawful.readMembers_left later).2
        -- The cut is before the name, in it, in the rest of its member, or among later members.
        refine ((gradual_nextMember first front back _ _ next).excuse False.elim).bind
          (after.trans (lawful.member_suffix named taken)) ?_ ?_
        · intro left _ split found
          subst split
          refine ((StringLiteral.read_closed named).mono (List.suffix_refl left) False.elim).bind
            (after.trans (gradual.suffix taken)) ?_
          intro left' _ split named'
          subst split
          refine ((gradual left' back _ _ taken).excuse ?_).bind after ?_ ?_
          · rintro ⟨other, value, colon, number⟩
            exact ⟨value, .here found named' other colon, number⟩
          · intro left'' _ split taken'
            subst split
            have few : left''.length ≤ m := by
              have shorter := (lawful.member_suffix named' taken').length_le
              have shorter' := (quote_suffix found).length_le
              simp only [List.length_cons] at shorter'
              omega
            refine (ih few later).excuse ?_
            rintro ⟨value, reaches, number⟩
            exact ⟨value, .later found named' taken' reaches, number⟩
          · intro other within _
            cases m <;> exact .truncated within
        · intro more within _
          cases more with
          | false => exact .out within
          | true => exact .truncated within

theorem Lawful.gradual_members :
    Gradual (fun s => schema.readMembers s.length true schema.blank s)
      (schema.CutsMember schema.blank true) :=
  fun _ _ _ _ read => lawful.readMembers_cut (Nat.le_refl _) read

/-- A cut in a number that is passed over, where it may not end, is an error of the text. -/
theorem Lawful.malformed_of_reaches {limit : Nat} {value : List Char}
    (reaches : schema.Reaches d first s value) (number : EndsInNumber ⟨.value, []⟩ value)
    (enough : s.length ≤ limit) : schema.readMembers limit first d s = .error .malformed := by
  induction reaches generalizing limit with
  | here next named other colon =>
    have shorter := (quote_suffix next).length_le
    cases limit with
    | zero => simp_all
    | succ limit =>
      rw [readMembers, next, ok_bind]
      simp only [named, ok_bind, readMember, other, colon, skip, number.malformed]
      rfl
  | later next named taken _ ih =>
    have shorter := (quote_suffix next).length_le
    have shorter' := (lawful.member_suffix named taken).length_le
    simp only [List.length_cons] at shorter
    cases limit with
    | zero => omega
    | succ limit =>
      rw [readMembers, next, ok_bind]
      simp only [named, ok_bind, taken]
      exact ih number (by omega)

/-! ## Lists -/

omit lawful in
theorem readListed_step {m : Member draft} {members : List (Member draft)} {count : Nat}
    (read : schema.readListed (m :: members) count d s = .ok (d', rest)) :
    ∃ middle left left', nextItem (count == 0) s = .ok (true, left) ∧
      m.read d left = .ok (middle, left') ∧
      schema.readListed members (count + 1) middle left' = .ok (d', rest) := by
  obtain ⟨⟨more, left⟩, next, read⟩ := bind_eq_ok.mp read
  cases more with
  | false => contradiction
  | true =>
    obtain ⟨⟨middle, left'⟩, taken, later⟩ := bind_eq_ok.mp read
    exact ⟨middle, left, left', next, taken, later⟩

theorem Lawful.gradual_readListed {members : List (Member draft)}
    (inside : ∀ m ∈ members, m ∈ schema.members) (count : Nat) (d : draft) :
    Gradual (schema.readListed members count d) never := by
  induction members generalizing count d with
  | nil =>
    rintro front back _ _ ⟨⟩
    exact .of_ok (List.suffix_refl front) rfl
  | cons m members ih =>
    obtain ⟨here, others⟩ := List.forall_mem_cons.mp inside
    intro front back d' rest read
    obtain ⟨middle, whole, whole', next, taken, later⟩ := readListed_step read
    have after := (ih others (count + 1) middle).suffix later
    have gradual := lawful.gradual here d
    rw [readListed]
    refine (gradual_nextItem _ front back _ _ next).bind (after.trans (gradual.suffix taken)) ?_ ?_
    · intro left _ split _
      subst split
      refine (gradual left back _ _ taken).bind after ?_ ?_
      · intro left' _ split _
        subst split
        exact ih others (count + 1) middle left' back _ _ later
      · intro other within _
        cases members with
        | nil => exact .out within
        | cons => exact .truncated within
    · exact fun _ _ out => absurd rfl (nextItem_left out).1

theorem Lawful.readListed_sets {members : List (Member draft)}
    (inside : ∀ m ∈ members, m ∈ schema.members) {count : Nat}
    (read : schema.readListed members count d s = .ok (d', rest)) {m : Member draft}
    (member : m ∈ schema.members) (here : m ∈ members ∨ m.isSet d = true) : m.isSet d' = true := by
  induction members generalizing count d s with
  | nil =>
    cases read
    exact here.resolve_left List.not_mem_nil
  | cons first members ih =>
    obtain ⟨front, others⟩ := List.forall_mem_cons.mp inside
    obtain ⟨middle, _, _, _, taken, later⟩ := readListed_step read
    refine ih others later ?_
    rcases here with here | set
    · rcases List.mem_cons.mp here with rfl | here
      · exact .inr (lawful.sets front taken)
      · exact .inl here
    · exact .inr (lawful.keeps front member taken set)

/-! ## Whole records -/

theorem Lawful.bracketed_read : Bracketed schema.read schema.CutsNumber := by
  refine .of_opening ?_ ?_
  · intro s empty
    simp only [read, empty]
    exact refuse_nil _
  · intro s value rest found
    unfold read at found
    split at found
    · rename_i left start
      refine ⟨'[', left, start, _, never, .of_contents schema.complete
        (lawful.gradual_readListed (fun _ => id) 0 schema.blank) (.inl rfl) ?_, ?_⟩
      · intro front d out
        obtain ⟨value, finished⟩ := lawful.finishes fun m member =>
          lawful.readListed_sets (fun _ => id) out member (.inl member)
        exact ⟨value, complete_of_finished finished⟩
      · exact fun s left start => ⟨read_of_list start, False.elim⟩
    · rename_i left start
      refine ⟨'{', left, start, _, _, .of_contents schema.complete
        lawful.gradual_members (.inr rfl) ?_, ?_⟩
      · exact fun front d out => absurd rfl (lawful.readMembers_left out).1
      · exact fun s left start => ⟨read_of_object start, fun cut => ⟨left, start, cut⟩⟩
    · exact absurd found refuse_ne_ok

theorem Lawful.malformed_of_cutsNumber (cut : schema.CutsNumber s) :
    schema.read s = .error .malformed := by
  obtain ⟨members, start, value, reaches, number⟩ := cut
  rw [read_of_object start, lawful.malformed_of_reaches reaches number (Nat.le_refl _)]
  rfl

end Schema

end Mempool.Json
