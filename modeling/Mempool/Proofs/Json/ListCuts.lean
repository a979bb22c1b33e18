import Mempool.Proofs.Json.NumberCuts

/-! Lists that are cut short. A list of which the items run out at the cut has no further item and
no closing bracket there, whatever its last item has become. -/
namespace Mempool.Json

section Items

variable {item : Reader α} {limit : Nat} {first : Bool} {front back s rest : List Char}
  {values : List α}

/-- Items that have been read end at the closing bracket, or start with one more of them. -/
theorem items_step (read : items item (limit + 1) first s = .ok (values, rest)) :
    nextItem first s = .ok (false, rest) ∧ values = [] ∨
      ∃ value others left left', nextItem first s = .ok (true, left) ∧
        item left = .ok (value, left') ∧ items item limit false left' = .ok (others, rest) ∧
        values = value :: others := by
  obtain ⟨⟨more, left⟩, next, read⟩ := bind_eq_ok.mp read
  cases more with
  | false =>
    cases read
    exact .inl ⟨next, rfl⟩
  | true =>
    obtain ⟨⟨value, left'⟩, here, read⟩ := bind_eq_ok.mp read
    obtain ⟨⟨others, _⟩, later, ⟨⟩⟩ := bind_eq_ok.mp read
    exact .inr ⟨value, others, left, left', next, here, later, rfl⟩

theorem items_suffix (gradual : Gradual item never)
    (read : items item limit first s = .ok (values, rest)) : rest <:+ s := by
  induction limit generalizing first s values with
  | zero =>
    cases read
    exact List.suffix_refl _
  | succ limit ih =>
    rcases items_step read with ⟨next, _⟩ | ⟨_, _, _, _, next, here, later, _⟩
    · exact (nextItem_left next).2
    · exact (ih later).trans ((gradual.suffix here).trans (nextItem_left next).2)

theorem length_of_items_out (read : items item limit first s = .ok (values, [])) :
    values.length = limit := by
  induction limit generalizing first s values with
  | zero =>
    cases read
    rfl
  | succ limit ih =>
    rcases items_step read with ⟨next, _⟩ | ⟨_, _, _, _, _, _, later, rfl⟩
    · exact absurd rfl (nextItem_left next).1
    · exact congrArg (· + 1) (ih later)

theorem cut_items_nil {excused : Prop} (within : rest <:+ back)
    {convert : List α → β} {b : β} :
    Cut excused front back b rest (items item limit first [] >>= fun (values, rest) =>
      pure (convert values, rest)) := by
  cases limit with
  | zero => exact .out within
  | succ limit => exact .truncated within

theorem items_cut (gradual : Gradual item never)
    (shorter : ∀ {s a rest}, item s = .ok (a, rest) → rest.length < s.length) {m n : Nat}
    (enough : m = n ∨ front.length ≤ m ∧ (front ++ back).length ≤ n)
    (read : items item n first (front ++ back) = .ok (values, rest)) :
    Cut False front back values rest (items item m first front) := by
  -- The limits are the same, or each is as large as its text: then it is not reached, as every item
  -- takes some character.
  induction n generalizing m first front values with
  | zero =>
    have within := items_suffix gradual read
    rcases enough with rfl | ⟨_, empty⟩
    · cases read
      exact .of_ok (List.suffix_refl front) rfl
    · obtain ⟨rfl, rfl⟩ : front = [] ∧ back = [] := by simpa using empty
      cases m with
      | zero => exact .out within
      | succ m => exact .truncated within
  | succ n ih =>
    cases m with
    | zero =>
      obtain ⟨rfl, _⟩ : front = [] ∧ _ := by simpa using enough
      exact .out (items_suffix gradual read)
    | succ m =>
      rw [items]
      rcases items_step read with
        ⟨next, rfl⟩ | ⟨value, others, whole, whole', next, here, later, rfl⟩
      · refine (gradual_nextItem first front back _ _ next).bind (List.suffix_refl rest) ?_ ?_
        · exact fun left _ split _ => .of_ok (List.suffix_refl left) split
        · exact fun _ _ out => absurd rfl (nextItem_left out).1
      · have after := items_suffix gradual later
        refine (gradual_nextItem first front back _ _ next).bind
          (after.trans (gradual.suffix here)) ?_ ?_
        · intro left _ split found
          dsimp only
          subst split
          refine (gradual left back _ _ here).bind after ?_ ?_
          · intro left' inside split read
            subst split
            refine Cut.map (ih ?_ later) (value :: ·)
            have less := shorter read
            have less' := shorter here
            have few := (nextItem_left found).2.length_le
            have few' := (nextItem_left next).2.length_le
            simp only [List.length_append] at *
            omega
          · exact fun other within _ => cut_items_nil within
        · exact fun _ _ out => absurd rfl (nextItem_left out).1

end Items

section Readers

variable {item : Reader α} (gradual : Gradual item never)
  (shorter : ∀ {s a rest}, item s = .ok (a, rest) → rest.length < s.length)

include gradual shorter

theorem gradual_items (limit : Nat) (first : Bool) : Gradual (items item limit first) never :=
  fun _ _ _ _ read => items_cut gradual shorter (.inl rfl) read

theorem gradual_allItems : Gradual (fun s => items item s.length true s) never :=
  fun _ _ _ _ read => items_cut gradual shorter (.inr ⟨Nat.le_refl _, Nat.le_refl _⟩) read

end Readers

theorem refuse_ne_ok {expected : String} {s rest : List Char} {a : α} :
    refuse expected s ≠ .ok (a, rest) := by
  intro read
  obtain ⟨_, _, ⟨⟩⟩ := bind_eq_ok.mp read

theorem refuse_nil (expected : String) :
    (refuse expected [] : Except ReadError (α × List Char)) = .error .truncated := rfl

theorem bracketed_readBytes : Bracketed readBytes never := by
  refine .of_opening ?_ ?_
  · intro s empty
    simp only [readBytes, empty]
    exact refuse_nil _
  · intro s bytes rest read
    unfold readBytes at read
    split at read
    · rename_i left start
      refine ⟨'[', left, start, _, never, .of_contents .ok
        (gradual_allItems gradual_readByte readByte_shorter) (.inl rfl) ?_, ?_⟩
      · exact fun _ bytes _ => ⟨bytes, rfl⟩
      · exact fun s left start => ⟨readBytes_of_start start, id⟩
    · exact absurd read refuse_ne_ok

end Mempool.Json
