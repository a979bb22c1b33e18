import Mathlib.Data.List.Basic
import Mempool.Admission.Fault
import Mempool.Proofs.Decimal.Digits

/-! Messages and dumps of refusals. Each one tells the reason by its first words, and then every
number, so that no two refusals are reported alike. -/
namespace Mempool

theorem Occupancy.ext_iff {o p : Occupancy} : o = p ↔ o.numTxs = p.numTxs ∧ o.maxTxs = p.maxTxs ∧
    o.txsBytes = p.txsBytes ∧ o.maxTxsBytes = p.maxTxsBytes := by
  cases o
  cases p
  simp

theorem Occupancy.message_inj {o p : Occupancy} : o.message = p.message ↔ o = p := by
  unfold message
  simp (disch := decide) only [String.append_assoc, String.append_right_inj, String.append_left_inj,
    Decimal.ofUInt64_append_inj, Decimal.ofInt64_append_inj, Decimal.ofInt64_inj, ext_iff]

namespace Refusal

/-- The words of the message up to its first number. -/
def heading : Refusal → String
  | alreadyKnown => "tx already exists in cache"
  | wrongHeight _ _ => "Tx submitted for wrong height, asked for "
  | bundleFull _ _ => "Tx submitted but bundle is full, for bundleId "
  | malformedForBundle _ _ _ _ =>
    "Tx submitted but malformed with respect to bundling, for bundleId "
  | tooLarge _ _ => "Tx too large. Max size is "
  | full _ => "mempool is full: "
  | pendingFull _ => "mempool pending set is full: "

theorem exists_message_eq (r : Refusal) : ∃ rest, r.message = r.heading ++ rest := by
  cases r with
  | alreadyKnown => exact ⟨"", rfl⟩
  | _ =>
    unfold message heading
    simp only [String.append_assoc]
    exact ⟨_, rfl⟩

theorem exists_debugText_eq (r : Refusal) : ∃ rest, r.debugText = r.fields.1 ++ rest := by
  cases r with
  | alreadyKnown => exact ⟨"", rfl⟩
  | _ =>
    simp only [debugText, fields, Text.record, String.append_assoc]
    exact ⟨_, rfl⟩

/-- First words that are not the beginning of those for another reason tell the reason. -/
theorem reason_of_first_words {first : Refusal → String}
    (apart : ∀ x y, (first x).toList <+: (first y).toList → x.reason = y.reason) {x y : Refusal}
    {s t : String} (same : first x ++ s = first y ++ t) : x.reason = y.reason := by
  have chars := congrArg String.toList same
  rw [String.toList_append, String.toList_append] at chars
  have left : (first x).toList <+: (first x).toList ++ s.toList := List.prefix_append _ _
  have right : (first y).toList <+: (first x).toList ++ s.toList := chars ▸ List.prefix_append _ _
  rcases List.prefix_or_prefix_of_prefix left right with before | before
  · exact apart x y before
  · exact (apart y x before).symm

theorem reason_of_heading (x y : Refusal) (before : x.heading.toList <+: y.heading.toList) :
    x.reason = y.reason := by
  revert before
  cases x <;> cases y <;> simp only [heading, reason] <;> decide

theorem reason_of_name (x y : Refusal) (before : x.fields.1.toList <+: y.fields.1.toList) :
    x.reason = y.reason := by
  revert before
  cases x <;> cases y <;> simp only [fields, reason] <;> decide

theorem message_inj {x y : Refusal} : x.message = y.message ↔ x = y := by
  refine ⟨fun same => ?_, congrArg message⟩
  have reasons : x.reason = y.reason := by
    obtain ⟨rest, front⟩ := x.exists_message_eq
    obtain ⟨rest', front'⟩ := y.exists_message_eq
    rw [front, front'] at same
    exact reason_of_first_words reason_of_heading same
  cases x <;> cases y <;> simp only [reason, reduceCtorEq] at reasons
  · rfl
  all_goals
    unfold message at same
    simp (disch := decide) only [String.append_assoc, String.append_right_inj,
      Decimal.ofUInt64_append_inj, Decimal.ofInt64_append_inj, Decimal.ofUInt64_inj,
      Decimal.ofInt64_inj, Occupancy.message_inj] at same
    simp only [same]

theorem debugText_inj {x y : Refusal} : x.debugText = y.debugText ↔ x = y := by
  refine ⟨fun same => ?_, congrArg debugText⟩
  have reasons : x.reason = y.reason := by
    obtain ⟨rest, front⟩ := x.exists_debugText_eq
    obtain ⟨rest', front'⟩ := y.exists_debugText_eq
    rw [front, front'] at same
    exact reason_of_first_words reason_of_name same
  cases x <;> cases y <;> simp only [reason, reduceCtorEq] at reasons
  · rfl
  all_goals
    simp (disch := decide) only [debugText, fields, Occupancy.fields, Text.record,
      Text.commaSeparated, List.map, String.intercalate_cons_cons, String.intercalate_singleton,
      String.append_assoc, String.append_right_inj, String.append_left_inj,
      Text.braced_inj, Decimal.ofUInt64_append_inj, Decimal.ofInt64_append_inj,
      Decimal.ofUInt64_inj, Decimal.ofInt64_inj] at same
    simp [same, Occupancy.ext_iff]

end Refusal

/-- Refusals with the same message are the same in every number, and so are those with the same
dump. -/
theorem Rejection.texts_tell_apart (x y : Refusal) :
    ((refused x).message = (refused y).message ↔ x = y) ∧
    ((refused x).debugText? = (refused y).debugText? ↔ x = y) := by
  refine ⟨Refusal.message_inj, ?_⟩
  rw [debugText?, debugText?, Option.some_inj]
  exact Refusal.debugText_inj

end Mempool
