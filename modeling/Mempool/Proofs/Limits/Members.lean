import Mempool.Limits.Json
import Mempool.Proofs.Json.Records

/-! Limits as members of a JSON object, among any others. The members may stand in any order and
their names be spelled in any way; a draft of the limits shows which ones have been read. -/
namespace Mempool.Limits

open Json

/-- The five limits, in their order. -/
inductive Field where
  | maxTxBytes
  | size
  | maxTxsBytes
  | pendingSize
  | maxPendingTxsBytes
deriving DecidableEq, Repr

namespace Field

def all : List Field := [maxTxBytes, size, maxTxsBytes, pendingSize, maxPendingTxsBytes]

def name : Field → String
  | maxTxBytes => "max_tx_bytes"
  | size => "size"
  | maxTxsBytes => "max_txs_bytes"
  | pendingSize => "pending_size"
  | maxPendingTxsBytes => "max_pending_txs_bytes"

/-- What a value of the field is expected to be, for the range that it has. -/
def expected : Field → String
  | maxTxBytes | size | pendingSize => "usize"
  | maxTxsBytes | maxPendingTxsBytes => "i64"

def low : Field → Int
  | maxTxBytes | size | pendingSize => 0
  | maxTxsBytes | maxPendingTxsBytes => -0x8000000000000000

def high : Field → Int
  | maxTxBytes | size | pendingSize => 0xffffffffffffffff
  | maxTxsBytes | maxPendingTxsBytes => 0x7fffffffffffffff

def Holds (f : Field) (i : Int) : Prop := f.low ≤ i ∧ i ≤ f.high

instance (f : Field) (i : Int) : Decidable (f.Holds i) :=
  inferInstanceAs (Decidable (f.low ≤ i ∧ i ≤ f.high))

def ofName? (name : String) : Option Field := all.find? fun f => f.name = name

theorem mem_all (f : Field) : f ∈ all := by cases f <;> decide

theorem name_of_ofName? {name : String} {f : Field} (found : ofName? name = some f) :
    f.name = name := by
  simpa using List.find?_some found

end Field

def value (l : Limits) : Field → Int
  | .maxTxBytes => l.maxTxBytes.toNat
  | .size => l.admitted.count.toNat
  | .maxTxsBytes => l.admitted.bytes.toInt
  | .pendingSize => l.pending.count.toNat
  | .maxPendingTxsBytes => l.pending.bytes.toInt

theorem holds_value (l : Limits) (f : Field) : f.Holds (l.value f) := by
  have unsigned (w : UInt64) : 0 ≤ (w.toNat : Int) ∧ (w.toNat : Int) ≤ 0xffffffffffffffff := by
    have bound := w.toNat_lt
    omega
  have signed (w : Int64) : -0x8000000000000000 ≤ w.toInt ∧ w.toInt ≤ 0x7fffffffffffffff := by
    have low := w.le_toInt
    have high := w.toInt_lt
    omega
  cases f with
  | maxTxBytes | size | pendingSize => exact unsigned _
  | maxTxsBytes | maxPendingTxsBytes => exact signed _

theorem value_injective : Function.Injective value := by
  rintro ⟨a, ⟨b, c⟩, ⟨d, e⟩⟩ ⟨a', ⟨b', c'⟩, ⟨d', e'⟩⟩ same
  have unsigned {w w' : UInt64} (same : (w.toNat : Int) = w'.toNat) : w = w' :=
    UInt64.toNat_inj.mp (Int.natCast_inj.mp same)
  obtain rfl := unsigned (congrFun same .maxTxBytes)
  obtain rfl := unsigned (congrFun same .size)
  obtain rfl := Int64.toInt_inj.mp (congrFun same .maxTxsBytes)
  obtain rfl := unsigned (congrFun same .pendingSize)
  obtain rfl := Int64.toInt_inj.mp (congrFun same .maxPendingTxsBytes)
  rfl

/-- The draft in which just these fields have been read. -/
def draft (l : Limits) (seen : List Field) : Draft where
  maxTxBytes := if .maxTxBytes ∈ seen then some l.maxTxBytes else none
  size := if .size ∈ seen then some l.admitted.count else none
  maxTxsBytes := if .maxTxsBytes ∈ seen then some l.admitted.bytes else none
  pendingSize := if .pendingSize ∈ seen then some l.pending.count else none
  maxPendingTxsBytes := if .maxPendingTxsBytes ∈ seen then some l.pending.bytes else none

/-! ## Reading a member -/

theorem member?_of_other {name : String} (other : Field.ofName? name = none) :
    schema.member? name = none := by
  -- The schema has members of the same names, in the same order.
  have names : schema.members.map Member.name = Field.all.map Field.name := rfl
  apply List.find?_eq_none.mpr
  intro m member found
  have listed : m.name ∈ Field.all.map Field.name := names ▸ List.mem_map_of_mem member
  obtain ⟨f, inside, alike⟩ := List.mem_map.mp listed
  have same : f.name = name := alike.trans (of_decide_eq_true found)
  exact List.find?_eq_none.mp other f inside (decide_eq_true same)

/-- How the schema has a field: under its name, with a reader of its range, and with a place in the
draft that is set once the field has been read. -/
structure Entry (l : Limits) (f : Field) (get : Draft → Option α) (set : Draft → α → Draft)
    (reader : Reader α) (a : α) : Prop where
  known : schema.member? f.name = some (.of f.name get set reader)
  get_draft (seen : List Field) : get (l.draft seen) = if f ∈ seen then some a else none
  set_draft (seen : List Field) : set (l.draft seen) a = l.draft (seen ++ [f])
  reads : Reads reader (numberTokens (l.value f)) a
  fails {text : List Char} {e : ReadError} :
    readInteger f.expected f.low f.high text = .error e → reader text = .error e

theorem exists_entry (l : Limits) (f : Field) :
    ∃ (α : Type) (get : Draft → Option α) (set : Draft → α → Draft) (reader : Reader α) (a : α),
      l.Entry f get set reader a := by
  cases f with
  | maxTxBytes =>
    exact ⟨_, Draft.maxTxBytes, fun d n => { d with maxTxBytes := some n }, readUInt64,
      l.maxTxBytes, rfl, fun _ => rfl, fun _ => by simp [draft], reads_readUInt64 l.maxTxBytes,
      readUInt64_of_error⟩
  | size =>
    exact ⟨_, Draft.size, fun d n => { d with size := some n }, readUInt64, l.admitted.count,
      rfl, fun _ => rfl, fun _ => by simp [draft], reads_readUInt64 l.admitted.count,
      readUInt64_of_error⟩
  | maxTxsBytes =>
    exact ⟨_, Draft.maxTxsBytes, fun d n => { d with maxTxsBytes := some n }, readInt64,
      l.admitted.bytes, rfl, fun _ => rfl, fun _ => by simp [draft],
      reads_readInt64 l.admitted.bytes, readInt64_of_error⟩
  | pendingSize =>
    exact ⟨_, Draft.pendingSize, fun d n => { d with pendingSize := some n }, readUInt64,
      l.pending.count, rfl, fun _ => rfl, fun _ => by simp [draft],
      reads_readUInt64 l.pending.count, readUInt64_of_error⟩
  | maxPendingTxsBytes =>
    exact ⟨_, Draft.maxPendingTxsBytes, fun d n => { d with maxPendingTxsBytes := some n },
      readInt64, l.pending.bytes, rfl, fun _ => rfl, fun _ => by simp [draft],
      reads_readInt64 l.pending.bytes, readInt64_of_error⟩

section Reading

variable (l : Limits) {seen : List Field} {f : Field}

theorem reads_field (unseen : f ∉ seen) :
    Reads (schema.readMember f.name (l.draft seen)) ([':'] :: numberTokens (l.value f))
      (l.draft (seen ++ [f])) := by
  obtain ⟨_, _, _, _, _, entry⟩ := l.exists_entry f
  rw [← entry.set_draft]
  exact Schema.reads_known entry.known ((entry.get_draft seen).trans (if_neg unseen)) entry.reads

/-- What a reader of the field's range refuses is refused as its value. -/
theorem readMember_of_readInteger (unseen : f ∉ seen) {text later : List Char} {e : ReadError}
    (colon : mark ':' text = .ok later)
    (failed : readInteger f.expected f.low f.high later = .error e) :
    schema.readMember f.name (l.draft seen) text = .error e := by
  obtain ⟨_, _, _, _, _, entry⟩ := l.exists_entry f
  exact Schema.readMember_of_error entry.known ((entry.get_draft seen).trans (if_neg unseen))
    colon (entry.fails failed)

theorem readMember_seen (again : f ∈ seen) (text : List Char) :
    schema.readMember f.name (l.draft seen) text = .error (.data (.duplicateField f.name)) := by
  obtain ⟨_, _, _, _, _, entry⟩ := l.exists_entry f
  have set := (entry.get_draft seen).trans (if_pos again)
  exact Schema.readMember_again entry.known (congrArg Option.isSome set) text

end Reading

/-! ## Finishing a draft -/

theorem required_bind (name : String) (a : α) (there : Prop) [Decidable there]
    (next : α → Except DataError β) :
    (required name (if there then some a else none) >>= next) =
      if there then next a else .error (.missingField name) := by
  split <;> rfl

/-- The first field that is missing decides, in the order of the fields and not of the members. -/
theorem finish_draft (l : Limits) (seen : List Field) :
    schema.finish (l.draft seen) = match Field.all.find? fun f => f ∉ seen with
      | some f => .error (.missingField f.name)
      | none => .ok l := by
  simp only [schema, Draft.finish, draft, required_bind]
  split_ifs <;> simp [Field.all, Field.name, pure, Except.pure, *]

/-! ## Members in any order -/

/-- A member as it stands in a text: its name, a literal of the name, and the tokens of its
value. -/
structure WrittenMember where
  name : String
  spelling : Token
  value : List Token
  quotes : Quotes spelling name

namespace WrittenMember

def tokens (m : WrittenMember) : List Token := m.spelling :: [':'] :: m.value

def field? (m : WrittenMember) : Option Field := Field.ofName? m.name

/-- A field has one of the integers that it may have; any other member has any value. -/
inductive Fits (may : Field → Int → Prop) (m : WrittenMember) : Prop
  | field {f : Field} {i : Int} (known : m.field? = some f) (allowed : may f i)
      (value : m.value = numberTokens i)
  | other (unknown : m.field? = none) (value : IsValue m.value)

end WrittenMember

def fields (members : List WrittenMember) : List Field := members.filterMap WrittenMember.field?

theorem fields_cons_of_field {m : WrittenMember} {f : Field} (known : m.field? = some f)
    (members : List WrittenMember) : fields (m :: members) = f :: fields members :=
  List.filterMap_cons_some known

theorem fields_cons_of_other {m : WrittenMember} (unknown : m.field? = none)
    (members : List WrittenMember) : fields (m :: members) = fields members :=
  List.filterMap_cons_none unknown

def objectOf (members : List WrittenMember) : List Token :=
  [['{']] ++ separated (members.map WrittenMember.tokens) ++ [['}']]

def listOf (l : Limits) : List Token :=
  listTokens (Field.all.map fun f => numberTokens (l.value f))

variable {members : List WrittenMember}

/-- Members that agree with the limits fill a draft of them by the fields that are among them. -/
theorem fills_draft (l : Limits) (seen : List Field)
    (agree : ∀ m ∈ members, m.Fits fun f i => i = l.value f)
    (distinct : (seen ++ fields members).Nodup) :
    schema.Fills (l.draft seen) (members.map WrittenMember.tokens)
      (l.draft (seen ++ fields members)) := by
  induction members generalizing seen with
  | nil =>
    rw [fields, List.filterMap_nil, List.append_nil]
    exact .nil _
  | cons m members ih =>
    obtain ⟨here, later⟩ := List.forall_mem_cons.mp agree
    cases here with
    | other unknown value =>
      rw [fields_cons_of_other unknown] at distinct ⊢
      exact .cons m.quotes.spells (Schema.reads_other (member?_of_other unknown) value _)
        (ih seen later distinct)
    | @field f _ known same value =>
      rw [fields_cons_of_field known, List.append_cons] at distinct ⊢
      have unseen : f ∉ seen := by
        have apart := (List.nodup_append.mp (List.nodup_append.mp distinct).1).2.2
        exact fun member => apart f member f List.mem_cons_self rfl
      have reads := l.reads_field unseen
      rw [Field.name_of_ofName? known, ← same, ← value] at reads
      exact .cons m.quotes.spells reads (ih (seen ++ [f]) later distinct)

theorem finish_of_forall_mem (l : Limits) {seen : List Field} (there : ∀ f, f ∈ seen) :
    schema.finish (l.draft seen) = .ok l := by
  have none_missing : (Field.all.find? fun f => f ∉ seen) = none := by
    simp [there]
  rw [finish_draft, none_missing]

theorem lists_draft (l : Limits) :
    Schema.Lists schema.members schema.blank (Field.all.map fun f => numberTokens (l.value f))
      (l.draft Field.all) :=
  .cons (Member.reads_of (reads_readUInt64 l.maxTxBytes)) (opens_number _) <|
  .cons (Member.reads_of (reads_readUInt64 l.admitted.count)) (opens_number _) <|
  .cons (Member.reads_of (reads_readInt64 l.admitted.bytes)) (opens_number _) <|
  .cons (Member.reads_of (reads_readUInt64 l.pending.count)) (opens_number _) <|
  .cons (Member.reads_of (reads_readInt64 l.pending.bytes)) (opens_number _) <|
  .nil _

/-- Nothing but the five values counts: not the order of the members, not how their names are
spelled, not what else the object has, and not the white space. A list of the values does as
well. -/
theorem read_by_values (l : Limits) :
    (∀ members : List WrittenMember, (fields members).Perm Field.all →
      (∀ m ∈ members, m.Fits fun f i => i = l.value f) →
      ∀ text, SpacedOut (objectOf members) text → ofJson text = .ok l) ∧
    ∀ text, SpacedOut l.listOf text → ofJson text = .ok l := by
  constructor
  · intro members once agree text spaced
    have distinct : (fields members).Nodup := once.nodup_iff.mpr (by decide)
    have fills : schema.Fills schema.blank _ _ := l.fills_draft [] agree distinct
    have finished := l.finish_of_forall_mem fun f => once.mem_iff.mpr f.mem_all
    exact (fills.reads finished).whole spaced
  · intro text spaced
    have finished := l.finish_of_forall_mem Field.mem_all
    exact (l.lists_draft.reads finished).whole spaced

theorem read_among_other_members :
    ofJson ("\n" ++ Text.braced (r#""x":[1e999],"pending_size":4,"s\u0069ze":1,"# ++
      r#""max_txs_bytes":-3,"max_tx_bytes":2,"max_pending_txs_bytes":5"#) ++ "\t") =
      .ok ⟨2, ⟨1, -3⟩, ⟨4, 5⟩⟩ := by
  have huge : IsNumber ([] ++ (['1'] ++ ([] ++ 'e' :: ([] ++ ['9', '9', '9'])))) :=
    .intro (.inl rfl) (.digits (by decide) ⟨List.cons_ne_nil _ _, List.all_eq_true.mp rfl⟩) .none
      (.some (.inl rfl) (.inl rfl) ⟨List.cons_ne_nil _ _, List.all_eq_true.mp rfl⟩)
  have list : IsValue (listTokens [[['1', 'e', '9', '9', '9']]]) :=
    .list (List.forall_mem_singleton.mpr (.number huge))
  have digits : FourDigits ['0', '0', '6', '9'] (0x1000 * 0 + 0x100 * 0 + 0x10 * 6 + 9) :=
    .intro rfl rfl rfl rfl
  have size : Quotes ['"', 's', '\\', 'u', '0', '0', '6', '9', 'z', 'e', '"'] "size" :=
    ⟨[['s'], ['\\', 'u', '0', '0', '6', '9'], ['z'], ['e']], rfl,
      .cons (.plain (by decide)) <| .cons (.unit digits) <| .cons (.plain (by decide)) <|
      .cons (.plain (by decide)) .nil⟩
  have once : List.Perm [.pendingSize, .size, .maxTxsBytes, .maxTxBytes, .maxPendingTxsBytes]
      Field.all := by decide
  obtain ⟨objects, _⟩ := read_by_values ⟨2, ⟨1, -3⟩, ⟨4, 5⟩⟩
  refine objects
    [⟨"x", _, listTokens [[['1', 'e', '9', '9', '9']]], quotes_nameToken (by decide)⟩,
     ⟨"pending_size", _, numberTokens 4, quotes_nameToken (by decide)⟩,
     ⟨"size", _, numberTokens 1, size⟩,
     ⟨"max_txs_bytes", _, numberTokens (-3), quotes_nameToken (by decide)⟩,
     ⟨"max_tx_bytes", _, numberTokens 2, quotes_nameToken (by decide)⟩,
     ⟨"max_pending_txs_bytes", _, numberTokens 5, quotes_nameToken (by decide)⟩]
    once ?_ _ ?_
  · simp only [List.forall_mem_cons, List.not_mem_nil, false_implies, implies_true, and_true]
    exact ⟨.other rfl list, .field rfl rfl rfl, .field rfl rfl rfl, .field rfl rfl rfl,
      .field rfl rfl rfl, .field rfl rfl rfl⟩
  · refine ⟨['\t'], ?_, by decide⟩
    simp only [String.toList_append, Text.toList_braced]
    exact .cons (by decide : Blank ['\n']) _ (.flatten _ ['\t'])

end Mempool.Limits
