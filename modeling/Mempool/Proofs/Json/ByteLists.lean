import Mempool.Proofs.Json.Records
import Mempool.Proofs.Json.RoundTrip

/-! Lists of integers where bytes are expected. The readers of keys and of messages look at the
integers from left to right and stop at the first one that is no byte; a key also stops after its
thirty-two bytes, and is the only one to ask for so many. -/
namespace Mempool

namespace Json

def IsByte (i : Int) : Prop := 0 ≤ i ∧ i ≤ 255

instance (i : Int) : Decidable (IsByte i) := inferInstanceAs (Decidable (0 ≤ i ∧ i ≤ 255))

def integers (bytes : List UInt8) : List Int := bytes.map fun b => (b.toNat : Int)

theorem length_integers (bytes : List UInt8) : (integers bytes).length = bytes.length :=
  List.length_map _

/-- The first of the integers that is no byte. -/
def firstOutside? (values : List Int) : Option Int := values.find? fun i => ¬IsByte i

def integersTokens (values : List Int) : List Token := listTokens (values.map numberTokens)

theorem exists_integers {values : List Int} (bytes : ∀ i ∈ values, IsByte i) :
    ∃ bs, integers bs = values := by
  induction values with
  | nil => exact ⟨[], rfl⟩
  | cons i values ih =>
    obtain ⟨here, later⟩ := List.forall_mem_cons.mp bytes
    obtain ⟨bs, rfl⟩ := ih later
    obtain ⟨low, high⟩ := here
    refine ⟨UInt8.ofNat i.toNat :: bs, ?_⟩
    simp only [integers, List.map_cons, UInt8.toNat_ofNat']
    rw [Nat.mod_eq_of_lt (by omega), Int.toNat_of_nonneg low]

theorem bytes_of_firstOutside? {values : List Int} (none : firstOutside? values = none) :
    ∃ bs, integers bs = values := by
  apply exists_integers
  intro i member
  simpa using List.find?_eq_none.mp none i member

theorem split_of_firstOutside? {values : List Int} {i : Int}
    (some : firstOutside? values = some i) :
    ¬IsByte i ∧ ∃ front others, values = integers front ++ i :: others := by
  obtain ⟨outside, front, others, rfl, before⟩ := List.find?_eq_some_iff_append.mp some
  have bytes : ∀ i ∈ front, IsByte i := by simpa using before
  obtain ⟨bs, rfl⟩ := exists_integers bytes
  exact ⟨by simpa using outside, bs, others, rfl⟩

theorem integersTokens_eq (values : List Int) :
    integersTokens values = ['['] :: (following true (values.map numberTokens) ++ [[']']]) := by
  rw [integersTokens, listTokens, separated_eq_following]
  rfl

theorem integersTokens_integers (bytes : List UInt8) :
    integersTokens (integers bytes) = bytesTokens bytes := by
  rw [integersTokens, integers, List.map_map]
  rfl

/-! ## Items -/

section Items

variable {text rest : List Char}

theorem readByte_outside {i : Int} (fits : FitsWord i) (outside : ¬IsByte i)
    (spaced : Spaced (numberTokens i) text rest) (stops : Stops rest) :
    readByte text = .error (.data (.outOfRange i "u8")) := by
  rw [readByte, readInteger_of_outside "u8" fits outside spaced stops, error_bind]

theorem items_integers (front : List UInt8) {others : List (List Token)} (limit : Nat)
    (spaced : Spaced (following true ((integers front).map numberTokens ++ others) ++ [[']']])
      text rest) :
    ∃ middle, Spaced (following front.isEmpty others ++ [[']']]) middle rest ∧
      items readByte (limit + front.length) true text = (do
        let (bytes, rest) ← items readByte limit front.isEmpty middle
        return (front ++ bytes, rest)) := by
  rw [following_append, List.append_assoc, integers, List.map_map] at spaced
  obtain ⟨middle, first, spaced⟩ := Spaced.append_iff.mp spaced
  rw [Bool.true_and, List.isEmpty_map] at spaced
  refine ⟨middle, spaced, ?_⟩
  apply items_values reads_readByte (fun b => opens_number b.toNat) front limit true first
  intro more
  rw [List.isEmpty_eq_false_iff.mpr more] at spaced
  exact stops_of_following (by rfl) spaced

/-- The first integer that is no byte ends the reading, if the reader gets so far. -/
theorem items_outside {i : Int} (fits : FitsWord i) (outside : ¬IsByte i) {front : List UInt8}
    {others : List Int} {limit : Nat} (room : front.length < limit)
    (spaced : Spaced (following true ((integers front ++ i :: others).map numberTokens) ++ [[']']])
      text rest) :
    items readByte limit true text = .error (.data (.outOfRange i "u8")) := by
  obtain ⟨more, rfl⟩ := Nat.exists_eq_add_of_lt room
  have total : front.length + more + 1 = (more + 1) + front.length := by omega
  rw [List.map_append, List.map_cons] at spaced
  obtain ⟨middle, spaced, read⟩ := items_integers front (more + 1) spaced
  rw [following, List.append_assoc] at spaced
  obtain ⟨between, here, spaced⟩ := Spaced.append_iff.mp spaced
  obtain ⟨later, item, here⟩ := nextItem_spaced front.isEmpty (opens_number i) here
  have refused := readByte_outside fits outside here (stops_of_following (by rfl) spaced)
  rw [total, read, items, item, ok_bind]
  simp only [refused]
  rfl

theorem readBytes_outside {i : Int} (fits : FitsWord i) (outside : ¬IsByte i)
    {front : List UInt8} {others : List Int}
    (spaced : Spaced (integersTokens (integers front ++ i :: others)) text rest) :
    readBytes text = .error (.data (.outOfRange i "u8")) := by
  rw [integersTokens_eq] at spaced
  obtain ⟨inner, here, spaced⟩ := spaced.head (by rfl)
  -- There are as many characters as items, so that the limit is not reached before.
  have room := length_le_of_items opens_number spaced
  rw [List.length_append, List.length_cons, length_integers] at room
  have within : front.length < inner.length := by omega
  rw [readBytes_of_start here]
  simp only [List.nil_append, items_outside fits outside within spaced, error_bind]

end Items

end Json

open Json

/-! ## Keys -/

namespace Key

variable {text rest : List Char}

theorem readJson_outside {i : Int} (fits : FitsWord i) (outside : ¬IsByte i)
    {front : List UInt8} (within : front.length < 32) {others : List Int}
    (spaced : Spaced (integersTokens (integers front ++ i :: others)) text rest) :
    readJson text = .error (.data (.outOfRange i "u8")) := by
  rw [integersTokens_eq] at spaced
  obtain ⟨inner, here, spaced⟩ := spaced.head (by rfl)
  rw [readJson_of_start here]
  simp only [List.nil_append, size, items_outside fits outside within spaced, error_bind]

theorem readJson_short {bytes : List UInt8} (short : bytes.length < 32)
    (spaced : Spaced (bytesTokens bytes) text rest) :
    readJson text = .error (.data (.wrongLength bytes.length arrayTitle)) := by
  rw [bytesTokens_eq] at spaced
  obtain ⟨inner, here, spaced⟩ := spaced.head (by rfl)
  obtain ⟨later, found, _⟩ := items_bytes (Nat.le_of_lt short) spaced
  have none : ofBytes? bytes = none := dif_neg (Nat.ne_of_lt short)
  rw [readJson_of_start here]
  simp only [List.nil_append, size, found, ok_bind, ofItems, none, error_bind]

/-- After thirty-two bytes nothing but the closing bracket may stand, whatever it is. -/
theorem readJson_long {front : List UInt8} (exact : front.length = 32)
    {others : List (List Token)} (more : others ≠ [])
    (spaced : Spaced (listTokens ((integers front).map numberTokens ++ others)) text rest) :
    readJson text = .error .malformed := by
  rw [listTokens, separated_eq_following, List.append_assoc, List.singleton_append] at spaced
  obtain ⟨inner, here, spaced⟩ := spaced.head (by rfl)
  obtain ⟨middle, spaced, read⟩ := items_integers front 0 spaced
  rw [exact, Nat.zero_add] at read
  have whole : ofBytes? front = some ⟨front, exact⟩ := dif_pos exact
  have comma : mark ']' middle = .error .malformed := by
    obtain ⟨other, others, rfl⟩ := List.exists_cons_of_ne_nil more
    have some : front.isEmpty = false := by
      cases front with
      | nil => contradiction
      | cons => rfl
    rw [some] at spaced
    obtain ⟨_, found, _⟩ := spaced.head (by rfl)
    rw [mark, found]
    rfl
  rw [readJson_of_start here]
  simp only [List.nil_append, size, read, items, ok_bind, List.append_nil, pure, Except.pure,
    ofItems, whole, comma, error_bind]

end Key

/-! ## Messages -/

namespace KeyMessage

inductive Stranger : List Token → Prop
  | intro {name : String} {token : Token} {tokens : List Token} (quotes : Quotes token name)
      (different : name ≠ "tx_key") (value : IsValue tokens) :
      Stranger (token :: [':'] :: tokens)

/-- A message with a field of these tokens: an object, also with other members, or a list of the
field alone. -/
inductive Carries (field : List Token) : List Token → Prop
  | object {token : Token} {before after : List (List Token)} (quotes : Quotes token "tx_key")
      (others : ∀ part ∈ before ++ after, Stranger part) :
      Carries field
        ([['{']] ++ separated (before ++ (token :: [':'] :: field) :: after) ++ [['}']])
  | list : Carries field (listTokens [field])

theorem member?_tx_key : schema.member? "tx_key" =
    some (.of "tx_key" id (fun _ field => some field) readBytes) := rfl

theorem member?_of_ne {name : String} (different : name ≠ "tx_key") :
    schema.member? name = none := by
  simp [Schema.member?, schema, Member.of, different.symm]

theorem fills_strangers {parts : List (List Token)} (others : ∀ part ∈ parts, Stranger part)
    (d : Option (List UInt8)) : schema.Fills d parts d := by
  induction parts with
  | nil => exact .nil d
  | cons part parts ih =>
    obtain ⟨⟨quotes, different, value⟩, later⟩ := List.forall_mem_cons.mp others
    exact .cons quotes.spells (Schema.reads_other (member?_of_ne different) value d) (ih later)

theorem opens_integersTokens (values : List Int) : Opens (integersTokens values) :=
  ⟨'[', [], _, rfl, rfl, by decide⟩

variable {tokens : List Token}

theorem reads_of_carries {bytes : List UInt8} (carries : Carries (bytesTokens bytes) tokens) :
    Reads schema.read tokens ⟨bytes⟩ := by
  have reads := reads_readBytes bytes
  cases carries with
  | object quotes others =>
    obtain ⟨before, after⟩ := List.forall_mem_append.mp others
    have known := Schema.reads_known (d := none) member?_tx_key rfl reads
    exact ((fills_strangers before none).append
      (.cons quotes.spells known (fills_strangers after _))).reads rfl
  | list =>
    have opens := opens_integersTokens (integers bytes)
    rw [integersTokens_integers] at opens
    have lists : Schema.Lists schema.members schema.blank [bytesTokens bytes] (some bytes) :=
      .cons (Member.reads_of reads) opens (.nil _)
    exact lists.reads rfl

theorem read_outside {i : Int} (fits : FitsWord i) (outside : ¬IsByte i) {front : List UInt8}
    {others : List Int}
    (carries : Carries (integersTokens (integers front ++ i :: others)) tokens)
    {text rest : List Char} (spaced : Spaced tokens text rest) :
    schema.read text = .error (.data (.outOfRange i "u8")) := by
  cases carries with
  | object quotes strangers =>
    obtain ⟨strangers, _⟩ := List.forall_mem_append.mp strangers
    rw [separated_eq_following, following_append, following] at spaced
    apply (fills_strangers strangers none).read_of_error quotes.spells
    · simpa using spaced
    · intro later spaced
      obtain ⟨value, colon, spaced⟩ := mark_spaced spaced (by rfl)
      obtain ⟨_, field, _⟩ := Spaced.append_iff.mp spaced
      exact Schema.readMember_of_error member?_tx_key rfl colon
        (readBytes_outside fits outside field)
  | list =>
    rw [listTokens, separated_eq_following, List.append_assoc, List.singleton_append] at spaced
    obtain ⟨inner, here, spaced⟩ := spaced.head (by rfl)
    rw [following, List.append_assoc] at spaced
    obtain ⟨_, front, _⟩ := Spaced.append_iff.mp spaced
    obtain ⟨later, item, field⟩ := nextItem_spaced true (opens_integersTokens _) front
    have refused := readBytes_outside fits outside field
    rw [Schema.read_of_list here]
    simp only [List.nil_append, schema, Schema.readListed, BEq.rfl, item, ok_bind, Member.read_of,
      refused, error_bind]

end KeyMessage

/-! ## Answers -/

/-- What is answered to a list of these integers where a key is expected: the bytes of the key or
the problem. -/
def Key.listAnswer (values : List Int) : Except ReadError (List Int) :=
  match firstOutside? (values.take 32) with
  | some i => .error (.data (.outOfRange i "u8"))
  | none =>
    if values.length < 32 then
      .error (.data (.wrongLength values.length "an array of length 32"))
    else if 32 < values.length then .error .malformed
    else .ok values

/-- What is answered to a message with a list of these integers as its field. -/
def KeyMessage.listAnswer (values : List Int) : Except ReadError (List Int) :=
  match firstOutside? values with
  | some i => .error (.data (.outOfRange i "u8"))
  | none => .ok values

theorem Key.ofJson_integers {values : List Int} (fits : ∀ i ∈ values, FitsWord i) {text : String}
    (spaced : SpacedOut (integersTokens values) text) :
    (ofJson text).map (integers ·.bytes) = listAnswer values := by
  have ⟨_, here, _⟩ := spaced
  unfold listAnswer
  cases first : firstOutside? (values.take 32) with
  | some i =>
    obtain ⟨outside, front, others, taken⟩ := split_of_firstOutside? first
    have within : front.length < 32 := by
      have bound := congrArg List.length taken
      simp [length_integers] at bound
      omega
    rw [← List.take_append_drop 32 values, taken, List.append_assoc, List.cons_append] at here fits
    have fit := fits i (List.mem_append_right _ List.mem_cons_self)
    have refused := readJson_outside fit outside within here
    rw [ofJson, readText_of_error refused]
    rfl
  | none =>
    obtain ⟨front, taken⟩ := bytes_of_firstOutside? first
    have width : front.length = min 32 values.length := by
      rw [← length_integers, taken, List.length_take]
    -- The key is counted after thirty-two items, so a long list is no matter of its length.
    obtain short | exact | long := Nat.lt_trichotomy values.length 32
    · rw [List.take_of_length_le (Nat.le_of_lt short)] at taken
      subst taken
      rw [length_integers] at short
      rw [integersTokens_integers] at here
      rw [ofJson, readText_of_error (readJson_short short here)]
      simp only [length_integers, if_pos short]
      rfl
    · rw [List.take_of_length_le (Nat.le_of_eq exact)] at taken
      subst taken
      rw [length_integers] at exact
      rw [integersTokens_integers] at spaced
      have read := (reads_jsonTokens ⟨front, exact⟩).whole spaced
      rw [ofJson, read, length_integers, exact]
      rfl
    · rw [Nat.min_eq_left (Nat.le_of_lt long)] at width
      have more : values.drop 32 ≠ [] := by simpa using long
      have others : (values.drop 32).map numberTokens ≠ [] := by simpa using more
      rw [integersTokens, ← List.take_append_drop 32 values, List.map_append, ← taken] at here
      rw [ofJson, readText_of_error (readJson_long width others here)]
      simp only [if_neg (Nat.lt_asymm long), if_pos long]
      rfl

theorem KeyMessage.ofJson_integers {values : List Int} (fits : ∀ i ∈ values, FitsWord i)
    {tokens : List Token} (carries : Carries (integersTokens values) tokens) {text : String}
    (spaced : SpacedOut tokens text) :
    (ofJson text).map (integers ·.field) = listAnswer values := by
  unfold listAnswer
  cases first : firstOutside? values with
  | some i =>
    obtain ⟨_, here, _⟩ := spaced
    obtain ⟨outside, front, others, rfl⟩ := split_of_firstOutside? first
    have fit := fits i (List.mem_append_right _ List.mem_cons_self)
    rw [ofJson, readText_of_error (read_outside fit outside carries here)]
    rfl
  | none =>
    obtain ⟨bytes, rfl⟩ := bytes_of_firstOutside? first
    rw [integersTokens_integers] at carries
    rw [ofJson, (reads_of_carries carries).whole spaced]
    rfl

namespace Json

/-- Lists of any integers of 64 bits, of any length and with any white space, as keys and as the
fields of messages. -/
theorem byte_lists_answered {values : List Int} (fits : ∀ i ∈ values, FitsWord i) :
    (∀ text, SpacedOut (integersTokens values) text →
      (Key.ofJson text).map (integers ·.bytes) = Key.listAnswer values) ∧
    ∀ tokens text, KeyMessage.Carries (integersTokens values) tokens → SpacedOut tokens text →
      (KeyMessage.ofJson text).map (integers ·.field) = KeyMessage.listAnswer values :=
  ⟨fun _ spaced => Key.ofJson_integers fits spaced,
    fun _ _ carries spaced => KeyMessage.ofJson_integers fits carries spaced⟩

theorem byte_lists_answered_outside :
    (Key.ofJson "[1 , 300,-1]\n").map (integers ·.bytes) = .error (.data (.outOfRange 300 "u8")) ∧
      (KeyMessage.ofJson "\t[[1,300,-1]]").map (integers ·.field) =
        .error (.data (.outOfRange 300 "u8")) := by
  have fits : ∀ i ∈ [1, 300, -1], FitsWord i := by simp [FitsWord]
  obtain ⟨keys, messages⟩ := byte_lists_answered fits
  have space : Blank [' '] := by decide
  constructor
  · refine keys _ ⟨['\n'], ?_, by decide⟩
    exact .flush _ <| .flush _ <| .cons space _ <| .cons space _ <| .flush _ <| .flush _ <|
      .flush _ <| .nil _
  · refine messages _ _ .list ⟨[], ?_, by decide⟩
    exact .cons (by decide : Blank ['\t']) _ <| .flush _ <| .flush _ <| .flush _ <| .flush _ <|
      .flush _ <| .flush _ <| .flush _ <| .flush _ <| .nil _

end Json

end Mempool
