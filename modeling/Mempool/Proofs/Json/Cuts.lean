import Mempool.Proofs.Json.Objects

/-! Readers on texts that end early. Where a reader takes a value off a text, it also takes one off
the front of the text, or runs out of characters there, or notices that the text ends. -/
namespace Mempool.Json

theorem bind_eq_ok {first : Except ReadError α} {next : α → Except ReadError β} {b : β} :
    (first >>= next) = .ok b ↔ ∃ a, first = .ok a ∧ next a = .ok b := by
  cases first with
  | error e => simp [bind, Except.bind]
  | ok a => simp [ok_bind]

/-- What a reader answers on the front of a text if on the whole of it the answer is a value `a`
and the rest. The cut is in the rest, or else it is in what is taken: then the reader may take some
other value and with it all of the front, and it may call the front malformed if it is excused. -/
inductive Cut (excused : Prop) (front back : List Char) (a : α) (rest : List Char) :
    Except ReadError (α × List Char) → Prop
  | beyond {left : List Char} (inside : left <:+ front) (more : left ≠ [])
      (split : rest = left ++ back) : Cut excused front back a rest (.ok (a, left))
  | out {other : α} (within : rest <:+ back) : Cut excused front back a rest (.ok (other, []))
  | truncated (within : rest <:+ back) : Cut excused front back a rest (.error .truncated)
  | malformed (within : rest <:+ back) (excuse : excused) :
      Cut excused front back a rest (.error .malformed)

namespace Cut

variable {excused : Prop} {front back middle rest left : List Char} {a : α}
  {answer : Except ReadError (α × List Char)}

theorem of_ok (inside : left <:+ front) (split : rest = left ++ back) :
    Cut excused front back a rest (.ok (a, left)) := by
  by_cases more : left = []
  · subst more
    exact .out (by simp [split])
  · exact .beyond inside more split

theorem mono {other : Prop} (cut : Cut excused left back a rest answer) (longer : left <:+ front)
    (implies : excused → other) : Cut other front back a rest answer := by
  cases cut with
  | beyond inside more split => exact .beyond (inside.trans longer) more split
  | out within => exact .out within
  | truncated within => exact .truncated within
  | malformed within excuse => exact .malformed within (implies excuse)

theorem widen (cut : Cut excused left back a rest answer) (longer : left <:+ front) :
    Cut excused front back a rest answer := cut.mono longer id

theorem excuse {other : Prop} (cut : Cut excused front back a rest answer)
    (implies : excused → other) : Cut other front back a rest answer :=
  cut.mono (List.suffix_refl front) implies

/-- One reader after another. If the first one goes beyond the cut, the second one meets it; if
the first one runs out of characters, the second one has none. -/
theorem bind {b : β} {next : α × List Char → Except ReadError (β × List Char)}
    (cut : Cut excused front back a middle answer) (fewer : rest <:+ middle)
    (beyond : ∀ left, left <:+ front → middle = left ++ back → answer = .ok (a, left) →
      Cut excused left back b rest (next (a, left)))
    (out : ∀ other, rest <:+ back → answer = .ok (other, []) →
      Cut excused front back b rest (next (other, []))) :
    Cut excused front back b rest (answer >>= next) := by
  cases cut with
  | beyond inside _ split => exact (beyond _ inside split rfl).widen inside
  | out within => exact out _ (fewer.trans within) rfl
  | truncated within => exact .truncated (fewer.trans within)
  | malformed within excuse => exact .malformed (fewer.trans within) excuse

theorem map (cut : Cut excused front back a rest answer) (convert : α → β) :
    Cut excused front back (convert a) rest
      (answer >>= fun (value, rest) => pure (convert value, rest)) := by
  cases cut with
  | beyond inside more split => exact .beyond inside more split
  | out within => exact .out within
  | truncated within => exact .truncated within
  | malformed within excuse => exact .malformed within excuse

end Cut

/-- What a reader answers on the front of a text if what it takes ends with a mark of its own. The
mark stands before the cut, and nothing has changed, or else it is missed. -/
inductive ClosedCut (close : Char) (excused : Prop) (front back : List Char) (a : α)
    (rest : List Char) : Except ReadError (α × List Char) → Prop
  | beyond {left : List Char} (inside : close :: left <:+ front) (split : rest = left ++ back) :
      ClosedCut close excused front back a rest (.ok (a, left))
  | truncated (within : close :: rest <:+ back) :
      ClosedCut close excused front back a rest (.error .truncated)
  | malformed (within : close :: rest <:+ back) (excuse : excused) :
      ClosedCut close excused front back a rest (.error .malformed)

namespace ClosedCut

variable {close : Char} {excused : Prop} {front back middle rest left : List Char} {a : α}
  {answer : Except ReadError (α × List Char)}

theorem cut (closed : ClosedCut close excused front back a rest answer) :
    Cut excused front back a rest answer := by
  cases closed with
  | beyond inside split => exact .of_ok ((List.suffix_cons close _).trans inside) split
  | truncated within => exact .truncated ((List.suffix_cons close rest).trans within)
  | malformed within excuse => exact .malformed ((List.suffix_cons close rest).trans within) excuse

theorem mono {other : Prop} (closed : ClosedCut close excused left back a rest answer)
    (longer : left <:+ front) (implies : excused → other) :
    ClosedCut close other front back a rest answer := by
  cases closed with
  | beyond inside split => exact .beyond (inside.trans longer) split
  | truncated within => exact .truncated within
  | malformed within excuse => exact .malformed within (implies excuse)

theorem map (closed : ClosedCut close excused front back a rest answer) (convert : α → β) :
    ClosedCut close excused front back (convert a) rest
      (answer.map fun (value, rest) => (convert value, rest)) := by
  cases closed with
  | beyond inside split => exact .beyond inside split
  | truncated within => exact .truncated within
  | malformed within excuse => exact .malformed within excuse

theorem suffix (closed : ClosedCut close excused [] back a rest answer) :
    close :: rest <:+ back := by
  cases closed with
  | beyond inside _ => exact absurd (List.suffix_nil.mp inside) (List.cons_ne_nil _ _)
  | truncated within | malformed within => exact within

theorem bind {b : β} {next : α × List Char → Except ReadError (β × List Char)}
    (closed : ClosedCut close excused front back a middle answer) (fewer : rest <:+ middle)
    (beyond : ∀ left, close :: left <:+ front → middle = left ++ back → answer = .ok (a, left) →
      Cut excused left back b rest (next (a, left))) :
    Cut excused front back b rest (answer >>= next) := by
  have later := fewer.trans (List.suffix_cons close middle)
  cases closed with
  | beyond inside split =>
    exact (beyond _ inside split rfl).widen ((List.suffix_cons close _).trans inside)
  | truncated within => exact .truncated (later.trans within)
  | malformed within excuse => exact .malformed (later.trans within) excuse

end ClosedCut

/-- The reader meets every cut of the texts that it takes a value from. -/
def Gradual (reader : Reader α) (excused : List Char → Prop) : Prop :=
  ∀ front back a rest, reader (front ++ back) = .ok (a, rest) →
    Cut (excused front) front back a rest (reader front)

def never (_ : List Char) : Prop := False

namespace Gradual

variable {reader : Reader α} {excused : List Char → Prop} {s rest : List Char} {a : α}

theorem suffix (gradual : Gradual reader excused) (read : reader s = .ok (a, rest)) :
    rest <:+ s := by
  have start := gradual [] s a rest read
  generalize reader [] = answer at start
  cases start with
  | beyond inside more _ => exact absurd (List.suffix_nil.mp inside) more
  | out within | truncated within | malformed within => exact within

theorem map (gradual : Gradual reader excused) (convert : α → β) :
    Gradual (fun s => do
      let (value, rest) ← reader s
      return (convert value, rest)) excused := by
  intro front back b rest read
  obtain ⟨⟨a, rest⟩, here, ⟨⟩⟩ := bind_eq_ok.mp read
  exact (gradual front back a _ here).map convert

end Gradual

/-! ## White space and marks -/

section Marks

variable {front back rest : List Char} {c : Char}

theorem skipSpace_suffix (s : List Char) : skipSpace s <:+ s := List.dropWhile_suffix _

theorem skipSpace_front (front back : List Char) :
    skipSpace front = [] ∧ skipSpace (front ++ back) = skipSpace back ∨
      ∃ c left, skipSpace front = c :: left ∧ skipSpace (front ++ back) = c :: (left ++ back) ∧
        c :: left <:+ front := by
  cases here : skipSpace front with
  | nil => exact .inl ⟨rfl, skipSpace_append (skipSpace_eq_nil_iff.mp here) back⟩
  | cons c left =>
    have whole : skipSpace (front ++ back) = _ := List.dropWhile_append
    refine .inr ⟨c, left, rfl, ?_, here ▸ skipSpace_suffix front⟩
    rw [skipSpace] at here
    simpa [here] using whole

theorem word_eq_ok_iff {expected s : List Char} :
    word expected s = .ok rest ↔ s = expected ++ rest := by
  induction expected generalizing s with
  | nil => simp [word]
  | cons e expected ih =>
    cases s with
    | nil => simp [word]
    | cons c s =>
      by_cases same : c = e
      · simp [word, same, ih]
      · simp [word, same]

theorem mark_eq_ok_iff {s : List Char} : mark c s = .ok rest ↔ skipSpace s = c :: rest :=
  word_eq_ok_iff

theorem mark_suffix {s : List Char} (found : mark c s = .ok rest) : c :: rest <:+ s :=
  mark_eq_ok_iff.mp found ▸ skipSpace_suffix s

theorem mark_front (found : mark c (front ++ back) = .ok rest) :
    (∃ left, mark c front = .ok left ∧ rest = left ++ back ∧ c :: left <:+ front) ∨
      mark c front = .error .truncated ∧ c :: rest <:+ back := by
  have whole := mark_eq_ok_iff.mp found
  rcases skipSpace_front front back with ⟨here, same⟩ | ⟨d, left, here, same, inside⟩
  · refine .inr ⟨?_, ?_⟩
    · rw [mark, here]
      rfl
    · rw [← whole, same]
      exact skipSpace_suffix back
  · obtain ⟨rfl, rfl⟩ := List.cons.inj (same.symm.trans whole)
    exact .inl ⟨left, mark_eq_ok_iff.mpr here, rfl, inside⟩

theorem Cut.mark {excused : Prop} {a : α} {next : List Char → Except ReadError (α × List Char)}
    {middle : List Char} (found : Json.mark c (front ++ back) = .ok middle)
    (fewer : rest <:+ middle)
    (beyond : ∀ left, Json.mark c front = .ok left → middle = left ++ back →
      Cut excused left back a rest (next left)) :
    Cut excused front back a rest (Json.mark c front >>= next) := by
  rcases mark_front found with ⟨left, here, split, inside⟩ | ⟨here, past⟩
  · rw [here]
    exact (beyond left here split).widen ((List.suffix_cons c left).trans inside)
  · rw [here]
    exact .truncated (fewer.trans ((List.suffix_cons c middle).trans past))

end Marks

/-! ## Items, members and strings -/

section Parts

variable {first : Bool} {s front back left : List Char}

/-- How a reader moves on from part to part of a container: it stops at the closing bracket, and
otherwise looks for the start of a part, behind a comma unless the part is the first. -/
structure Advances (close : Char) (start : Reader Bool) (next : Bool → Reader Bool) : Prop where
  ended {first : Bool} {s : List Char} : skipSpace s = [] → next first s = .error .truncated
  closed {first : Bool} {s left : List Char} :
    skipSpace s = close :: left → next first s = .ok (false, close :: left)
  goes_on {first : Bool} {s : List Char} : (∀ left, skipSpace s ≠ close :: left) →
    next first s = if first then start s else mark ',' s >>= start

namespace Advances

variable {close : Char} {start : Reader Bool} {next : Bool → Reader Bool}
  (advances : Advances close start next)

include advances

/-- What is left in the text is the closing bracket, or what a start leaves. -/
theorem left_eq_or {more : Bool} (found : next first s = .ok (more, left)) :
    (∃ rest, more = false ∧ left = close :: rest ∧ left <:+ s) ∨
      ∃ s', s' <:+ s ∧ start s' = .ok (more, left) := by
  by_cases here : ∃ rest, skipSpace s = close :: rest
  · obtain ⟨rest, here⟩ := here
    rw [advances.closed here] at found
    cases found
    exact .inl ⟨rest, rfl, rfl, here ▸ skipSpace_suffix s⟩
  · rw [advances.goes_on (not_exists.mp here)] at found
    cases first with
    | true => exact .inr ⟨s, List.suffix_refl s, found⟩
    | false =>
      obtain ⟨middle, comma, found⟩ := bind_eq_ok.mp found
      exact .inr ⟨middle, (List.suffix_cons ',' middle).trans (mark_suffix comma), found⟩

theorem gradual (meets : Gradual start never) (first : Bool) : Gradual (next first) never := by
  intro front back more rest found
  have split := skipSpace_front front back
  by_cases here : ∃ left, skipSpace (front ++ back) = close :: left
  · obtain ⟨left, here⟩ := here
    rw [advances.closed here] at found
    cases found
    rcases split with ⟨none, same⟩ | ⟨c, left, some, whole, inside⟩
    · rw [advances.ended none]
      exact .truncated (here ▸ same ▸ skipSpace_suffix back)
    · obtain ⟨rfl, rfl⟩ := List.cons.inj (whole.symm.trans here)
      rw [advances.closed some]
      exact .of_ok inside rfl
  · have open_ : ∀ left, skipSpace front ≠ close :: left := by
      intro left close
      rcases split with ⟨none, _⟩ | ⟨c, left, some, whole, _⟩
      · simp [none] at close
      · obtain ⟨rfl, rfl⟩ := List.cons.inj (some.symm.trans close)
        exact here ⟨_, whole⟩
    rw [advances.goes_on (not_exists.mp here)] at found
    rw [advances.goes_on open_]
    cases first with
    | true => exact meets front back more rest found
    | false =>
      obtain ⟨middle, comma, found⟩ := bind_eq_ok.mp found
      refine .mark comma (meets.suffix found) fun left _ split => ?_
      exact meets left back more rest (split ▸ found)

end Advances

def startItem : Reader Bool := fun s =>
  match skipSpace s with
  | [] => .error .truncated
  | ']' :: _ => .error .malformed
  | rest => .ok (true, rest)

theorem startItem_of_ne {c : Char} (here : skipSpace s = c :: left) (inside : c ≠ ']') :
    startItem s = .ok (true, c :: left) := by
  unfold startItem
  rw [here]
  split
  · contradiction
  · rename_i close
    exact absurd (List.cons.inj close).1 inside
  · rfl

theorem startItem_left {more : Bool} (found : startItem s = .ok (more, left)) :
    skipSpace s = left ∧ left ≠ [] := by
  unfold startItem at found
  split at found
  · contradiction
  · contradiction
  · rename_i some _
    obtain ⟨_, rfl⟩ := found
    exact ⟨rfl, some⟩

theorem gradual_startItem : Gradual startItem never := by
  intro front back more rest found
  rcases skipSpace_front front back with ⟨here, same⟩ | ⟨c, left, here, whole, inside⟩
  · have ended : startItem front = .error .truncated := by simp only [startItem, here]
    obtain ⟨past, _⟩ := startItem_left found
    rw [ended]
    exact .truncated (past ▸ same ▸ skipSpace_suffix back)
  · by_cases close : c = ']'
    · simp [startItem, whole, close] at found
    · rw [startItem_of_ne whole close] at found
      rw [startItem_of_ne here close]
      cases found
      exact .of_ok inside rfl

theorem advances_items : Advances ']' startItem nextItem where
  ended none := by simp only [nextItem, none]
  closed here := by simp only [nextItem, here]
  goes_on := by
    intro first s inside
    unfold nextItem
    split
    · rename_i none
      cases first with
      | true => simp [startItem, none]
      | false =>
        simp only [mark, none]
        rfl
    · rename_i here
      exact absurd here (inside _)
    · rename_i c rest other here
      rw [startItem_of_ne here fun close => inside rest (close ▸ here), mark, here]
      by_cases comma : c = ','
      · subst comma
        rfl
      · simp [word, comma]
        rfl

theorem nextItem_left {more : Bool} (found : nextItem first s = .ok (more, left)) :
    left ≠ [] ∧ left <:+ s := by
  rcases advances_items.left_eq_or found with ⟨_, _, rfl, inside⟩ | ⟨s', inside, start⟩
  · exact ⟨List.cons_ne_nil _ _, inside⟩
  · exact ⟨(startItem_left start).2, (gradual_startItem.suffix start).trans inside⟩

theorem gradual_nextItem (first : Bool) : Gradual (nextItem first) never :=
  advances_items.gradual gradual_startItem first

def startName : Reader Bool := fun s => do
  return (true, ← mark '"' s)

theorem startName_left {more : Bool} (found : startName s = .ok (more, left)) :
    more = true ∧ '"' :: left <:+ s := by
  obtain ⟨_, quote, ⟨⟩⟩ := bind_eq_ok.mp found
  exact ⟨rfl, mark_suffix quote⟩

theorem gradual_startName : Gradual startName never := by
  intro front back more rest found
  obtain ⟨_, quote, ⟨⟩⟩ := bind_eq_ok.mp found
  exact .mark quote (List.suffix_refl _) fun left _ split => .of_ok (List.suffix_refl _) split

theorem advances_members : Advances '}' startName nextMember where
  ended none := by simp only [nextMember, none]
  closed here := by simp only [nextMember, here]
  goes_on := by
    intro first s inside
    unfold nextMember
    split
    · rename_i none
      simp only [startName, mark, none]
      cases first <;> rfl
    · rename_i here
      exact absurd here (inside _)
    · rename_i c rest other here
      simp only [startName, mark, here]
      by_cases comma : c = ','
      · subst comma
        rfl
      · simp [word, comma]
        rfl

theorem nextMember_left {more : Bool} (found : nextMember first s = .ok (more, left)) :
    (∃ rest, more = false ∧ left = '}' :: rest ∧ left <:+ s) ∨
      more = true ∧ '"' :: left <:+ s := by
  refine (advances_members.left_eq_or found).imp_right ?_
  rintro ⟨s', inside, start⟩
  exact ⟨(startName_left start).1, (startName_left start).2.trans inside⟩

theorem gradual_nextMember (first : Bool) : Gradual (nextMember first) never :=
  advances_members.gradual gradual_startName first

end Parts

namespace StringLiteral

theorem quote_of_closes {mode : Mode} {c : Char} (close : closes mode c = true) : c = '"' := by
  simp only [closes, Bool.and_eq_true, decide_eq_true_eq] at close
  exact close.2

theorem readFrom_suffix {mode : Mode} {text s name rest : List Char}
    (read : readFrom mode text s = .ok (name, rest)) : '"' :: rest <:+ s := by
  induction s generalizing mode text with
  | nil => contradiction
  | cons c s ih =>
    rw [readFrom] at read
    split at read
    · rename_i close
      cases read
      exact quote_of_closes close ▸ List.suffix_refl _
    · split at read
      · contradiction
      · exact (ih read).trans (List.suffix_cons c s)

/-- A cut in a literal leaves it without its closing quote, in escapes as elsewhere. -/
theorem readFrom_closed {mode : Mode} {text front back name rest : List Char}
    (read : readFrom mode text (front ++ back) = .ok (name, rest)) :
    ClosedCut '"' False front back name rest (readFrom mode text front) := by
  induction front generalizing mode text with
  | nil => exact .truncated (readFrom_suffix read)
  | cons c front ih =>
    rw [List.cons_append, readFrom] at read
    rw [readFrom]
    by_cases close : closes mode c = true
    · rw [if_pos close] at read ⊢
      cases read
      exact .beyond (quote_of_closes close ▸ List.suffix_refl _) rfl
    · rw [if_neg close] at read ⊢
      cases next : step true mode c with
      | none => simp [next] at read
      | some after =>
        simp only [next] at read
        exact (ih read).mono (List.suffix_cons c front) id

theorem read_closed {front back rest : List Char} {name : String}
    (found : read (front ++ back) = .ok (name, rest)) :
    ClosedCut '"' False front back name rest (read front) := by
  rw [read] at found
  cases whole : readFrom .plain [] (front ++ back) with
  | error e => simp [whole, Except.map] at found
  | ok answer =>
    rw [whole] at found
    cases found
    exact (readFrom_closed whole).map String.ofList

theorem read_suffix {s rest : List Char} {name : String} (found : read s = .ok (name, rest)) :
    '"' :: rest <:+ s := by
  have whole : read ([] ++ s) = .ok (name, rest) := found
  exact (read_closed whole).suffix

end StringLiteral

/-! ## Closing brackets -/

def IsClose (c : Char) : Prop := c = ']' ∨ c = '}'

theorem isSpace_of_isClose {c : Char} (close : IsClose c) : isSpace c = false := by
  rcases close with rfl | rfl <;> rfl

/-- The reader takes values that end with a bracket, and meets every cut. -/
def Bracketed (reader : Reader α) (excused : List Char → Prop) : Prop :=
  ∀ front back a rest, reader (front ++ back) = .ok (a, rest) →
    ∃ close, IsClose close ∧
      ClosedCut close (excused front) front back a rest (reader front)

namespace Bracketed

variable {reader : Reader α} {excused : List Char → Prop}

theorem gradual (bracketed : Bracketed reader excused) : Gradual reader excused := by
  intro front back a rest read
  obtain ⟨close, _, closed⟩ := bracketed front back a rest read
  exact closed.cut

/-- After white space and this bracket the reader goes on as one that meets every cut. -/
def OpensWith (reader : Reader α) (excused : List Char → Prop) (c : Char) : Prop :=
  ∃ (inner : Reader α) (inside : List Char → Prop), Bracketed inner inside ∧
    ∀ s left, skipSpace s = c :: left → reader s = inner left ∧ (inside left → excused s)

theorem of_opening (empty : ∀ s, skipSpace s = [] → reader s = .error .truncated)
    (opening : ∀ s a rest, reader s = .ok (a, rest) →
      ∃ c left, skipSpace s = c :: left ∧ OpensWith reader excused c) :
    Bracketed reader excused := by
  intro front back a rest read
  obtain ⟨c, left, start, inner, inside, bracketed, goes_on⟩ := opening _ _ _ read
  rw [(goes_on _ left start).1] at read
  rcases skipSpace_front front back with ⟨here, same⟩ | ⟨d, left', here, whole, within⟩
  · -- The bracket is behind the cut, and so is all that follows it.
    obtain ⟨close, closing, closed⟩ := bracketed [] left a rest read
    have past : c :: left <:+ back := start.symm.trans same ▸ skipSpace_suffix back
    refine ⟨close, closing, ?_⟩
    rw [empty front here]
    exact .truncated (closed.suffix.trans ((List.suffix_cons c left).trans past))
  · obtain ⟨rfl, rfl⟩ := List.cons.inj (start.symm.trans whole)
    obtain ⟨close, closing, closed⟩ := bracketed left' back a rest read
    obtain ⟨same, excuse⟩ := goes_on front left' here
    refine ⟨close, closing, ?_⟩
    rw [same]
    exact closed.mono ((List.suffix_cons c left').trans within) excuse

/-- A reader that takes the closing bracket last, after the contents have been read and converted.
Contents that take all of a front have to be convertible, or the end would go unnoticed. -/
theorem of_contents {contents : Reader α} (convert : α → Except ReadError β) {close : Char}
    (gradual : Gradual contents excused) (closing : IsClose close)
    (whole : ∀ front a, contents front = .ok (a, []) → ∃ b, convert a = .ok b) :
    Bracketed (fun s => do
      let (a, s) ← contents s
      let b ← convert a
      return (b, ← mark close s)) excused := by
  intro front back b rest read
  obtain ⟨⟨a, middle⟩, found, read⟩ := bind_eq_ok.mp read
  obtain ⟨_, converted, read⟩ := bind_eq_ok.mp read
  obtain ⟨_, closed, ⟨⟩⟩ := bind_eq_ok.mp read
  refine ⟨close, closing, ?_⟩
  have cut := gradual front back a middle found
  have after := mark_suffix closed
  generalize answered : contents front = answer at cut
  dsimp only
  rw [answered]
  cases cut with
  | @beyond left inside _ split =>
    rw [ok_bind]
    simp only [converted, ok_bind]
    rcases mark_front (split ▸ closed) with ⟨left', here, split', inside'⟩ | ⟨here, past⟩
    · rw [here]
      exact .beyond (inside'.trans inside) split'
    · rw [here]
      exact .truncated past
  | out within =>
    -- Other contents have taken all of the front; they are converted, and only then the end is seen.
    obtain ⟨other, converted⟩ := whole front _ answered
    rw [ok_bind]
    simp only [converted, ok_bind]
    exact .truncated (after.trans within)
  | truncated within => exact .truncated (after.trans within)
  | malformed within excuse => exact .malformed (after.trans within) excuse

end Bracketed

end Mempool.Json
