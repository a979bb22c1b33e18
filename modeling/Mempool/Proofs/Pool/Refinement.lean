import Mempool.Proofs.Pool.Representation

/-! The pool answers every submission as its log does. Map, byte counter, height and limits are
thus no more than a summary of the earlier steps and their outcomes. -/
namespace Mempool.Pool

namespace Represents

variable {initial : Limits} {log : Log} {p : Pool}

theorem submit_eq (valid : Represents initial log p) {tx : List UInt8} (height : Int64)
    (small : (tx.length : Int) ≤ Int64.maxValue.toInt) (verdict : Observed (Option Fault)) :
    (p.submit tx height verdict).value.1 = log.answer initial tx height verdict.value := by
  unfold Log.answer
  rw [value_submit, valid.check_eq height small]
  cases log.check initial tx height with
  | error refusal => rfl
  | ok passed => cases verdict.value <;> rfl

theorem outcome_eq (valid : Represents initial log p) (s : Step) (bounded : s.Bounded) :
    (p.step s).value.1 = log.outcome initial s := by
  cases s with
  | setHeight height => rfl
  | setLimits limits => rfl
  | submit tx height verdict =>
    exact congrArg Outcome.submitted (valid.submit_eq height bounded verdict)

/-- The simulation: from matching states, pool and log answer all further steps alike. -/
theorem log_eq_replay (valid : Represents initial log p) (steps : List Step)
    (bounded : ∀ s ∈ steps, s.Bounded) : log ++ p.log steps = log.replay initial steps := by
  induction steps generalizing log p with
  | nil => simp [Pool.log, Log.replay]
  | cons s steps ih =>
    have first : s.Bounded := bounded s List.mem_cons_self
    have later := ih (valid.step s first) fun t member => bounded t (List.mem_cons_of_mem s member)
    rw [Log.replay, ← valid.outcome_eq s first, ← later]
    simp [Pool.log]

end Represents

/-- Every submission of every run has the answer that the log of the earlier steps calls for, and
the words in that answer are the exact historical count, total and length. -/
theorem submission_answered_by_log (initial : Limits) (initially : initial.Bounded)
    (c : Counters) (steps : List Step) (bounded : ∀ s ∈ steps, s.Bounded) (i : Nat)
    (tx : List UInt8) (height : Int64) (verdict : Observed (Option Fault))
    (submitted : steps[i]? = some (.submit tx height verdict)) :
    let outcomes := ((new initial).run c steps).map Snapshot.outcome
    let earlier : Log := (steps.zip outcomes).take i
    earlier = Log.replay initial [] (steps.take i) ∧
    outcomes[i]? = some (.submitted (earlier.answer initial tx height verdict.value)) ∧
    (UInt64.ofNat earlier.admitted.length).toNat = earlier.admitted.length ∧
    (Int64.ofNat (totalSize earlier.admitted)).toInt = totalSize earlier.admitted ∧
    (UInt64.ofNat tx.length).toNat = tx.length := by
  intro outcomes earlier
  have before : ∀ s ∈ steps.take i, s.Bounded := fun s member =>
    bounded s (List.mem_of_mem_take member)
  have small : (tx.length : Int) ≤ Int64.maxValue.toInt :=
    bounded _ (List.mem_of_getElem? submitted)
  -- Outcomes do not look ahead, so the log so far is that of the shorter run.
  have history : earlier = (new initial).log (steps.take i) := by
    rw [← take_log, ← zip_outcomes_run]
  have valid : Represents initial earlier ((new initial).after (steps.take i)) := by
    rw [history]
    exact run_represents initially _ before
  refine ⟨?_, ?_, ?_, ?_, ?_⟩
  · rw [history]
    exact (Represents.new initially).log_eq_replay _ before
  · obtain ⟨snapshot, found, taken⟩ := run_at (new initial) c steps i _ submitted
    have outcome := congrArg Prod.fst taken
    rw [List.getElem?_map, found, Option.map_some]
    exact congrArg some (outcome.trans (valid.outcome_eq _ small))
  · exact toNat_ofNat_of_fits valid.count
  · exact toInt_ofNat_of_fits valid.total_fits
  · apply toNat_ofNat_of_fits
    rw [toInt_maxValue] at small
    omega

/-- A transaction admitted at one auction is known at the next, although by then its size, the
count, the budget, the height and the pre-check would all speak against it. -/
theorem resubmission_known_from_log :
    let limits : Limits := ⟨16, ⟨3, 1000⟩, ⟨3, 1000⟩⟩
    let steps : List Step := [.submit [7] 10 (pure none), .setHeight 11,
      .setLimits ⟨0, ⟨0, -5⟩, ⟨0, 0⟩⟩, .submit [7] 12 (pure (some (.note "no")))]
    limits.Bounded ∧ (∀ s ∈ steps, s.Bounded) ∧
    steps[3]? = some (.submit [7] 12 (pure (some (.note "no")))) ∧
    (((new limits).run .empty steps).map Snapshot.outcome)[3]? =
      some (.submitted (.error (.refused .alreadyKnown))) := by
  intro limits steps
  have initially : limits.Bounded := by decide
  have bounded : ∀ s ∈ steps, s.Bounded := by decide
  have submitted : steps[3]? = some (.submit [7] 12 (pure (some (.note "no")))) := by decide
  obtain ⟨history, outcome, _⟩ := submission_answered_by_log limits initially .empty steps bounded
    3 [7] 12 (pure (some (.note "no"))) submitted
  have answer : (Log.replay limits [] (steps.take 3)).answer limits [7] 12 (some (.note "no")) =
      .error (.refused .alreadyKnown) := by decide +kernel
  rw [history] at outcome
  exact ⟨initially, bounded, submitted,
    outcome.trans (congrArg (fun result => some (Outcome.submitted result)) answer)⟩

end Mempool.Pool
