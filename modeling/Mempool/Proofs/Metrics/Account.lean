import Mathlib.Algebra.BigOperators.Group.List.Basic
import Mathlib.Algebra.GroupWithZero.Nat
import Mathlib.Data.List.Nodup
import Mathlib.Data.List.Perm.Basic
import Mempool.Proofs.Metrics.Session

/-! The counters account for the calls of a session. Each rejection and each message that was
looked at is counted once, under its own labels, and nothing else is. -/
namespace Mempool

theorem Reason.label_inj {a b : Reason} : a.label = b.label ↔ a = b := by
  cases a <;> cases b <;> simp [label]

/-! ## Events of a use -/

namespace Use

theorem count_rejected_fieldEvents (length : Nat) (reason : Reason) :
    (Key.fieldEvents length).count (.rejected reason) = 0 := by
  unfold Key.fieldEvents
  split <;> simp

theorem count_converted_fieldEvents (length : Nat) (success : Bool) :
    (Key.fieldEvents length).count (.keyConverted success) = if success then 1 else 0 := by
  unfold Key.fieldEvents
  cases success <;> split <;> simp

theorem count_rejected_receiveAll (ms : List (Option KeyMessage)) (reason : Reason) :
    (Key.receiveAll ms).events.count (.rejected reason) = 0 := by
  induction ms with
  | nil => rfl
  | cons m ms ih =>
    cases m with
    | none => simp
    | some m => simp [count_rejected_fieldEvents, ih]

theorem count_converted_receiveAll (ms : List (Option KeyMessage)) (success : Bool) :
    (Key.receiveAll ms).events.count (.keyConverted success) =
      (ms.take (ms.findIdx Option.isNone + 1)).countP (·.isSome = success) := by
  -- An absent message is looked at, but nothing after it.
  induction ms with
  | nil => rfl
  | cons m ms ih =>
    cases m with
    | none => cases success <;> simp [List.findIdx_cons]
    | some m =>
      have looked : (some m :: ms).take ((some m :: ms).findIdx Option.isNone + 1) =
          some m :: ms.take (ms.findIdx Option.isNone + 1) := by simp [List.findIdx_cons]
      rw [Key.receiveAll_some_cons, List.count_append, ih, count_converted_fieldEvents, looked,
        List.countP_cons, Nat.add_comm]
      cases success <;> rfl

theorem count_rejected (u : Use) (reason : Reason) :
    u.events.count (.rejected reason) =
      u.reported.countP (·.reason.label = reason.label) := by
  cases u with
  | rejection r => simp [events, reported, List.count_cons, Reason.label_inj]
  | conversion success => simp [events, reported]
  | message m =>
    cases m with
    | none => simp [events, reported, Key.receive]
    | some m => exact count_rejected_fieldEvents m.field.length reason
  | messages ms => exact count_rejected_receiveAll ms reason

theorem count_converted (u : Use) (success : Bool) :
    u.events.count (.keyConverted success) =
      u.met.countP (·.isSome = success) + u.told.count success := by
  cases u with
  | rejection r => simp [events, met, told]
  | conversion s => simp [events, met, told, List.count_cons]
  | message m =>
    cases m with
    | none => cases success <;> simp [events, met, told, Key.receive]
    | some m =>
      have counted := count_converted_fieldEvents m.field.length success
      cases success <;> simp_all [events, met, told, Key.receive]
  | messages ms => exact count_converted_receiveAll ms success

end Use

/-! ## The account of a history -/

abbrev History := List Entry

namespace History

/-- The rejections that submissions ended in. -/
def rejected (h : History) : List Rejection := h.flatMap Entry.rejected

def admitted (h : History) : List Key := h.flatMap Entry.admitted

def uses (h : History) : List Use := h.flatMap Entry.uses

def reported (h : History) : List Rejection := h.uses.flatMap Use.reported

/-- The messages that were looked at, present or absent. -/
def met (h : History) : List (Option KeyMessage) := h.uses.flatMap Use.met

def told (h : History) : List Bool := h.uses.flatMap Use.told

def events (h : History) : List Event := h.flatMap Entry.events

/-- The same events, those from outside the pools first. -/
theorem events_perm (h : History) :
    h.events.Perm (h.uses.flatMap Use.events ++ h.rejected.map fun r => .rejected r.reason) := by
  rw [uses, rejected, List.flatMap_assoc, List.map_flatMap]
  exact (List.flatMap_append_perm ..).symm

theorem count_rejected (h : History) (reason : Reason) :
    h.events.count (.rejected reason) =
      h.rejected.countP (·.reason.label = reason.label) +
      h.reported.countP (·.reason.label = reason.label) := by
  have own : (h.rejected.map fun r => Event.rejected r.reason).count (.rejected reason) =
      h.rejected.countP (·.reason.label = reason.label) := by
    rw [List.count, List.countP_map]
    apply List.countP_congr
    intro r _
    simp [Reason.label_inj]
  have outside : (h.uses.flatMap Use.events).count (.rejected reason) =
      h.reported.countP (·.reason.label = reason.label) := by
    simp only [reported, List.count_flatMap, List.countP_flatMap, Function.comp_def,
      Use.count_rejected]
  rw [h.events_perm.count_eq, List.count_append, own, outside, Nat.add_comm]

theorem count_converted (h : History) (success : Bool) :
    h.events.count (.keyConverted success) =
      h.met.countP (·.isSome = success) + h.told.count success := by
  have own : (h.rejected.map fun r => Event.rejected r.reason).count (.keyConverted success) =
      0 := by
    apply List.count_eq_zero.mpr
    simp
  rw [h.events_perm.count_eq, List.count_append, own, Nat.add_zero, met, told]
  simp only [List.count_flatMap, List.countP_flatMap, Function.comp_def, Use.count_converted,
    List.sum_map_add]

end History

/-! ## Series -/

namespace Counters

theorem mem_rejectionFamily_iff (c : Counters) (sample : Sample) :
    sample ∈ c.rejectionFamily.samples ↔ 1 ≤ sample.count ∧ ∃ reason : Reason,
      sample = ⟨[("kind", reason.kind.label), ("reason", reason.label)], c.rejections reason⟩ := by
  simp only [rejectionFamily, touchedReasons, List.mem_map, List.mem_filter]
  constructor
  · rintro ⟨reason, ⟨_, touched⟩, rfl⟩
    exact ⟨of_decide_eq_true touched, reason, rfl⟩
  · rintro ⟨counted, reason, rfl⟩
    exact ⟨reason, ⟨reason.mem_all, decide_eq_true counted⟩, rfl⟩

theorem mem_conversionFamily_iff (c : Counters) (sample : Sample) :
    sample ∈ c.conversionFamily.samples ↔ 1 ≤ sample.count ∧ ∃ success : Bool,
      sample = ⟨[("result", resultLabel success)], c.conversions success⟩ := by
  simp only [conversionFamily, touchedResults, List.mem_map, List.mem_filter]
  constructor
  · rintro ⟨success, ⟨_, touched⟩, rfl⟩
    exact ⟨of_decide_eq_true touched, success, rfl⟩
  · rintro ⟨counted, success, rfl⟩
    exact ⟨success, ⟨by cases success <;> decide, decide_eq_true counted⟩, rfl⟩

theorem nodup_labels_rejectionFamily (c : Counters) :
    (c.rejectionFamily.samples.map Sample.labels).Nodup := by
  have reasons : c.touchedReasons.Nodup := List.Nodup.filter _ (by decide)
  rw [rejectionFamily, List.map_map]
  refine reasons.map fun a b same => ?_
  have labels : a.kind.label = b.kind.label ∧ a = b := by simpa [Reason.label_inj] using same
  exact labels.2

/-- The series that are left out count nothing. -/
theorem sum_rejectionFamily (c : Counters) :
    (c.rejectionFamily.samples.map Sample.count).sum = (Reason.all.map c.rejections).sum := by
  have touched (rs : List Reason) : ((rs.filter fun r => 0 < c.rejections r).map c.rejections).sum =
      (rs.map c.rejections).sum := by
    induction rs with
    | nil => rfl
    | cons r rs ih =>
      by_cases counted : 0 < c.rejections r
      · simp [counted, ih]
      · have none : c.rejections r = 0 := by omega
        simp [none, ih]
  rw [rejectionFamily, List.map_map]
  exact touched Reason.all

end Counters

theorem sum_countP_reason (rs : List Rejection) :
    (Reason.all.map fun reason => rs.countP (·.reason.label = reason.label)).sum = rs.length := by
  induction rs with
  | nil => rfl
  | cons r rs ih =>
    have once : (Reason.all.map fun reason =>
        if r.reason.label = reason.label then 1 else 0).sum = 1 := by
      cases r.reason <;> rfl
    simp only [List.countP_cons, List.sum_map_add, ih, List.length_cons, decide_eq_true_eq, once]

namespace Session

theorem countP_isSubmission (s : Session) (calls : List Call) :
    calls.countP Call.isSubmission =
      (History.admitted (s.history calls)).length + (History.rejected (s.history calls)).length := by
  induction calls generalizing s with
  | nil => rfl
  | cons call calls ih =>
    have one : (if call.isSubmission then 1 else 0) =
        (s.step call).1.admitted.length + (s.step call).1.rejected.length := by
      cases call with
      | submit pool tx height check =>
        simp only [step]
        cases ((s.pools pool).submit tx height check.verdict).value.1 <;> rfl
      | _ => rfl
    rw [List.countP_cons, ih (s.step call).2, one]
    simp only [history, History.admitted, History.rejected, List.flatMap_cons, List.length_append]
    omega

/-- After a session that began with a reset, each counter of rejections shows how many submissions
ended for its reason and how many rejections were reported, and those of conversions show how many
messages were looked at, present or absent, and how many outcomes were reported. The series that
are present are the counters above zero, with the kind of their reason. -/
theorem counters_account_for_calls (pools : Nat → Pool) (calls : List Call) :
    let history : History := (start pools).history calls
    let counters := ((start pools).after calls).counters
    (∀ reason : Reason, counters.rejections reason =
      history.rejected.countP (·.reason.label = reason.label) +
      history.reported.countP (·.reason.label = reason.label)) ∧
    (∀ sample : Sample, sample ∈ counters.rejectionFamily.samples ↔
      1 ≤ sample.count ∧ ∃ reason : Reason, sample =
        ⟨[("kind", reason.kind.label), ("reason", reason.label)], counters.rejections reason⟩) ∧
    (counters.rejectionFamily.samples.map Sample.labels).Nodup ∧
    (counters.rejectionFamily.samples.map Sample.count).sum =
      history.rejected.length + history.reported.length ∧
    calls.countP Call.isSubmission = history.admitted.length + history.rejected.length ∧
    (∀ success : Bool, counters.conversions success =
      history.met.countP (·.isSome = success) + history.told.count success) ∧
    ∀ sample : Sample, sample ∈ counters.conversionFamily.samples ↔
      1 ≤ sample.count ∧ ∃ success : Bool, sample =
        ⟨[("result", Counters.resultLabel success)], counters.conversions success⟩ := by
  intro history counters
  have found : counters = Counters.empty.recordAll history.events := counters_after _ calls
  have rejections (reason : Reason) : counters.rejections reason =
      history.rejected.countP (·.reason.label = reason.label) +
      history.reported.countP (·.reason.label = reason.label) := by
    rw [found, Counters.rejections_recordAll, history.count_rejected]
    exact Nat.zero_add _
  refine ⟨rejections, counters.mem_rejectionFamily_iff, counters.nodup_labels_rejectionFamily,
    ?_, countP_isSubmission _ calls, ?_, counters.mem_conversionFamily_iff⟩
  · rw [Counters.sum_rejectionFamily, funext rejections, List.sum_map_add, sum_countP_reason,
      sum_countP_reason]
  · intro success
    rw [found, Counters.conversions_recordAll, history.count_converted]
    exact Nat.zero_add _

end Session

end Mempool
