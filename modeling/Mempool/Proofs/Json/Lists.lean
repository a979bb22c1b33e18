import Mempool.Proofs.Json.Integers

/-! Written lists are read back: items one after another, with a comma before each one but the
first, up to the closing bracket. -/
namespace Mempool.Json

/-- The comma before an item or a member, unless it is the first. -/
def lead (first : Bool) : List Token := if first then [] else [[',']]

/-- The parts of a list or an object after an opening bracket, or after earlier parts. -/
def following : (first : Bool) → List (List Token) → List Token
  | _, [] => []
  | first, part :: parts => lead first ++ part ++ following false parts

theorem separated_cons_cons (part other : List Token) (parts : List (List Token)) :
    separated (part :: other :: parts) = part ++ [','] :: separated (other :: parts) := rfl

theorem separated_eq_following (parts : List (List Token)) :
    separated parts = following true parts := by
  have later (part : List Token) (parts : List (List Token)) :
      separated (part :: parts) = part ++ following false parts := by
    induction parts generalizing part with
    | nil => simp [separated, following]
    | cons other parts ih =>
      rw [separated_cons_cons, ih]
      rfl
  cases parts with
  | nil => rfl
  | cons part parts => exact later part parts

theorem following_append (first : Bool) (parts others : List (List Token)) :
    following first (parts ++ others) =
      following first parts ++ following (first && parts.isEmpty) others := by
  induction parts generalizing first with
  | nil => simp [following]
  | cons part parts ih => simp [following, ih]

/-- A number before further parts ends: a comma comes next, or what follows them all. -/
theorem Stops.before {parts : List (List Token)} {text rest : List Char} (stops : Stops rest)
    (spaced : Spaced (following false parts) text rest) : Stops text := by
  cases parts with
  | nil =>
    obtain ⟨⟩ := spaced
    exact stops
  | cons part parts => exact spaced.stops (by rfl)

theorem stops_of_following {parts : List (List Token)} {close : Char} {text rest : List Char}
    (apart : continuesNumber close = false)
    (spaced : Spaced (following false parts ++ [[close]]) text rest) : Stops text := by
  obtain ⟨_, spaced, close⟩ := Spaced.append_iff.mp spaced
  exact (close.stops apart).before spaced

/-- If no part is empty, the parts take as many characters as there are parts. -/
theorem length_le_following {parts : List (List Token)} (solid : ∀ part ∈ parts, part.flatten ≠ [])
    (first : Bool) : parts.length ≤ (following first parts).flatten.length := by
  induction parts generalizing first with
  | nil => exact Nat.zero_le _
  | cons part parts ih =>
    have here := List.length_pos_iff.mpr (solid part List.mem_cons_self)
    have later := ih (fun part member => solid part (List.mem_cons_of_mem _ member)) false
    simp only [following, List.flatten_append, List.length_append, List.length_cons]
    omega

/-- The tokens start with a character that neither is white space nor closes a list. -/
def Opens (tokens : List Token) : Prop :=
  ∃ c token others, tokens = (c :: token) :: others ∧ isSpace c = false ∧ c ≠ ']'

theorem Opens.flatten_ne_nil {tokens : List Token} (opens : Opens tokens) :
    tokens.flatten ≠ [] := by
  obtain ⟨c, token, others, rfl, _⟩ := opens
  exact List.cons_ne_nil c _

theorem opens_number (i : Int) : Opens (numberTokens i) := by
  obtain ⟨c, cs, front, start⟩ := exists_signed_eq_cons i
  refine ⟨c, cs, [], by rw [numberTokens, front], isSpace_of_startsInteger start, ?_⟩
  exact ne_of_startsInteger start rfl

section Items

variable {tokens : List Token} {text rest : List Char}

theorem nextItem_comma (comma : skipSpace text = ',' :: rest) :
    nextItem false text = match skipSpace rest with
      | [] => .error .truncated
      | ']' :: _ => .error .malformed
      | rest => .ok (true, rest) := by
  unfold nextItem
  rw [comma]
  rfl

theorem nextItem_spaced (first : Bool) (opens : Opens tokens)
    (spaced : Spaced (lead first ++ tokens) text rest) :
    ∃ later, nextItem first text = .ok (true, later) ∧ Spaced tokens later rest := by
  obtain ⟨c, token, others, rfl, visible, inside⟩ := opens
  cases first with
  | true =>
    obtain ⟨later, here, spaced⟩ := spaced.head visible
    refine ⟨c :: (token ++ later), ?_, spaced.flush (c :: token)⟩
    unfold nextItem
    rw [here]
    split
    · contradiction
    · rename_i closes
      exact absurd (List.cons.inj closes).1 inside
    · rename_i same
      rw [same]
      rfl
  | false =>
    obtain ⟨middle, comma, spaced⟩ := spaced.head (by rfl)
    obtain ⟨later, here, spaced⟩ := spaced.head visible
    refine ⟨c :: (token ++ later), ?_, spaced.flush (c :: token)⟩
    rw [nextItem_comma comma, List.nil_append, here]
    split
    · contradiction
    · rename_i closes
      exact absurd (List.cons.inj closes).1 inside
    · rfl

theorem nextItem_close (first : Bool) (spaced : Spaced ([']'] :: tokens) text rest) :
    ∃ later, nextItem first text = .ok (false, ']' :: later) ∧ Spaced tokens later rest := by
  obtain ⟨later, here, spaced⟩ := spaced.head (by rfl)
  refine ⟨later, ?_, spaced⟩
  unfold nextItem
  rw [here]
  rfl

variable {item : Reader α} {value : α}

theorem items_spaced (reads : Reads item tokens value) (opens : Opens tokens) (limit : Nat)
    (first : Bool) (spaced : Spaced (lead first ++ tokens) text rest) (stops : Stops rest) :
    items item (limit + 1) first text = (do
      let (values, rest) ← items item limit false rest
      return (value :: values, rest)) := by
  obtain ⟨later, here, spaced⟩ := nextItem_spaced first opens spaced
  rw [items, here, ok_bind]
  simp only [reads later rest spaced stops, ok_bind]

variable {form : α → List Token}

theorem length_le_of_items (opens : ∀ value, Opens (form value)) {values : List α} {first : Bool}
    (spaced : Spaced (following first (values.map form) ++ tokens) text rest) :
    values.length ≤ text.length := by
  have solid : ∀ part ∈ values.map form, part.flatten ≠ [] := by
    intro part member
    obtain ⟨value, _, rfl⟩ := List.mem_map.mp member
    exact (opens value).flatten_ne_nil
  have room := spaced.length_le
  have taken := length_le_following solid first
  rw [List.length_map] at taken
  rw [List.flatten_append, List.length_append] at room
  omega

/-- Items one after another. What is left is read on. -/
theorem items_values (reads : ∀ value, Reads item (form value) value)
    (opens : ∀ value, Opens (form value)) (values : List α) (limit : Nat) (first : Bool)
    (spaced : Spaced (following first (values.map form)) text rest)
    (stops : values ≠ [] → Stops rest) :
    items item (limit + values.length) first text = (do
      let (others, rest) ← items item limit (first && values.isEmpty) rest
      return (values ++ others, rest)) := by
  induction values generalizing first text with
  | nil =>
    obtain ⟨⟩ := spaced
    rw [List.isEmpty_nil, Bool.and_true, List.length_nil, Nat.add_zero]
    cases items item limit first rest <;> rfl
  | cons value values ih =>
    have stops := stops (List.cons_ne_nil value values)
    obtain ⟨middle, front, spaced⟩ := Spaced.append_iff.mp spaced
    rw [List.length_cons, ← Nat.add_assoc,
      items_spaced (reads value) (opens value) _ first front (stops.before spaced),
      ih false spaced fun _ => stops]
    simp only [Bool.false_and, List.isEmpty_cons, Bool.and_false]
    cases items item limit false rest <;> rfl

/-- All items of a list, if their number is within the limit. What is left is the closing bracket
and the rest. -/
theorem items_following (reads : ∀ value, Reads item (form value) value)
    (opens : ∀ value, Opens (form value)) (values : List α) {limit : Nat}
    (within : values.length ≤ limit) (first : Bool)
    (spaced : Spaced (following first (values.map form) ++ [[']']]) text rest) :
    ∃ later, items item limit first text = .ok (values, later) ∧ mark ']' later = .ok rest := by
  obtain ⟨middle, front, close⟩ := Spaced.append_iff.mp spaced
  obtain ⟨more, rfl⟩ := Nat.exists_eq_add_of_le' within
  rw [items_values reads opens values more first front fun _ => close.stops (by rfl)]
  cases more with
  | zero =>
    -- The limit is used up: the reader has not moved on to the bracket, which is still to come.
    obtain ⟨_, closed, ⟨⟩⟩ := mark_spaced close (by rfl)
    exact ⟨middle, by simp [items, ok_bind, pure, Except.pure], closed⟩
  | succ more =>
    obtain ⟨_, closed, ⟨⟩⟩ := nextItem_close (first && values.isEmpty) close
    refine ⟨']' :: rest, ?_, rfl⟩
    rw [items, closed, ok_bind]
    simp [ok_bind, pure, Except.pure]

end Items

theorem bytesTokens_eq (bytes : List UInt8) :
    bytesTokens bytes =
      ['['] :: (following true (bytes.map fun b => numberTokens b.toNat) ++ [[']']]) := by
  rw [bytesTokens, listTokens, separated_eq_following]
  rfl

theorem items_bytes {bytes : List UInt8} {text rest : List Char} {limit : Nat}
    (within : bytes.length ≤ limit)
    (spaced :
      Spaced (following true (bytes.map fun b => numberTokens b.toNat) ++ [[']']]) text rest) :
    ∃ later, items readByte limit true text = .ok (bytes, later) ∧ mark ']' later = .ok rest :=
  items_following reads_readByte (fun b => opens_number b.toNat) bytes within true spaced

theorem readBytes_of_start {s left : List Char} (start : skipSpace s = '[' :: left) :
    readBytes s = (do
      let (bytes, rest) ← items readByte left.length true left
      return (bytes, ← mark ']' rest)) := by
  simp only [readBytes, start]

theorem reads_readBytes (bytes : List UInt8) : Reads readBytes (bytesTokens bytes) bytes := by
  intro text rest spaced _
  rw [bytesTokens_eq] at spaced
  obtain ⟨inner, here, spaced⟩ := spaced.head (by rfl)
  have within := length_le_of_items (fun b : UInt8 => opens_number b.toNat) spaced
  obtain ⟨later, found, closed⟩ := items_bytes within spaced
  rw [readBytes_of_start here]
  simp only [List.nil_append, found, ok_bind, closed]
  rfl

end Mempool.Json
