import Mathlib.Data.List.Nodup
import Mempool.Proofs.Pool.Log

/-! Rejected submissions are invisible. A run from which some of them are left out has the same
outcomes and the same pools elsewhere. -/
namespace Mempool.Pool

deriving instance DecidableEq for Outcome

/-- The list without the places that `gone` picks. -/
def without (gone : Nat → Bool) : List α → List α
  | [] => []
  | x :: xs =>
    if gone 0 then without (fun i => gone (i + 1)) xs
    else x :: without (fun i => gone (i + 1)) xs

theorem step_rejected {p : Pool} {s : Step} {rejection : Rejection}
    (rejected : (p.step s).value.1 = .submitted (.error rejection)) : (p.step s).value.2 = p := by
  cases s with
  | setHeight height => contradiction
  | setLimits limits => contradiction
  | submit tx height verdict =>
    exact submit_error p tx height verdict (Outcome.submitted.inj rejected)

/-- The places of a run that `gone` may pick: submissions that were rejected there. -/
def Rejected (p : Pool) (c : Counters) (steps : List Step) (gone : Nat → Bool) : Prop :=
  ∀ i, gone i = true → ∃ rejection,
    ((p.run c steps).map Snapshot.outcome)[i]? = some (.submitted (.error rejection))

namespace Rejected

variable {p : Pool} {c : Counters} {s : Step} {steps : List Step} {gone : Nat → Bool}

theorem tail (rejected : Rejected p c (s :: steps) gone) :
    Rejected (p.step s).value.2 (c.recordAll (p.step s).events) steps fun i => gone (i + 1) :=
  fun i picked => rejected (i + 1) picked

theorem head (rejected : Rejected p c (s :: steps) gone) (picked : gone 0 = true) :
    (p.step s).value.2 = p := by
  obtain ⟨rejection, outcome⟩ := rejected 0 picked
  exact step_rejected (Option.some.inj outcome)

end Rejected

/-- The thinned run starts each remaining step in the pool that the full run starts it in. -/
theorem run_without (p : Pool) (c d : Counters) (steps : List Step) (gone : Nat → Bool)
    (rejected : Rejected p c steps gone) :
    (p.run d (without gone steps)).map (fun seen => (seen.outcome, seen.pool)) =
      without gone ((p.run c steps).map fun seen => (seen.outcome, seen.pool)) := by
  induction steps generalizing p c d gone with
  | nil => rfl
  | cons s steps ih =>
    by_cases picked : gone 0 = true
    -- The full run counts the rejection, the thinned one does not; pools and outcomes ignore counts.
    · have later := ih _ _ d _ rejected.tail
      rw [rejected.head picked] at later
      simp only [run, List.map_cons, without, if_pos picked, rejected.head picked]
      exact later
    · have later := ih _ _ (d.recordAll (p.step s).events) _ rejected.tail
      simp only [run, List.map_cons, without, if_neg picked]
      rw [later]

theorem after_without (p : Pool) (c : Counters) (steps : List Step) (gone : Nat → Bool)
    (rejected : Rejected p c steps gone) : p.after (without gone steps) = p.after steps := by
  induction steps generalizing p c gone with
  | nil => rfl
  | cons s steps ih =>
    have later := ih _ _ _ rejected.tail
    by_cases picked : gone 0 = true
    · rw [rejected.head picked] at later
      rw [without, if_pos picked, after, rejected.head picked]
      exact later
    · rw [without, if_neg picked, after, after]
      exact later

/-- No rejection changes a pool. So any choice of rejected submissions can be left out of a run:
each other step has the same outcome and pool as before, whatever was counted so far. -/
theorem rejections_invisible (p : Pool) :
    (∀ (tx : List UInt8) (height : Int64) (verdict : Observed (Option Fault))
      (rejection : Rejection), (p.submit tx height verdict).value.1 = .error rejection →
      (p.submit tx height verdict).value.2 = p) ∧
    ∀ (c d : Counters) (steps : List Step) (gone : Nat → Bool), Rejected p c steps gone →
      (p.run d (without gone steps)).map (fun seen => (seen.outcome, seen.pool)) =
        without gone ((p.run c steps).map fun seen => (seen.outcome, seen.pool)) ∧
      p.after (without gone steps) = p.after steps := by
  constructor
  · intro tx height verdict rejection rejected
    exact submit_error p tx height verdict rejected
  · intro c d steps gone rejected
    exact ⟨run_without p c d steps gone rejected, after_without p c steps gone rejected⟩

/-- A submission for another auction and a repeated one leave no trace when they are left out. -/
theorem rejections_invisible_around_admission :
    let p := new ⟨16, ⟨3, 1000⟩, ⟨3, 1000⟩⟩
    let steps : List Step := [.submit [7] 9 (pure none), .submit [7] 10 (pure none),
      .submit [7] 10 (pure none), .setHeight 11]
    let gone : Nat → Bool := fun i => i = 0 || i = 2
    (p.submit [7] 9 (pure none)).value.1 = .error (.refused (.wrongHeight 9 10)) ∧
    (p.submit [7] 9 (pure none)).value.2 = p ∧ Rejected p .empty steps gone ∧
    without gone steps = [.submit [7] 10 (pure none), .setHeight 11] ∧
    p.after (without gone steps) = p.after steps := by
  intro p steps gone
  obtain ⟨single, many⟩ := rejections_invisible p
  have elsewhere : (p.submit [7] 9 (pure none)).value.1 =
      .error (.refused (.wrongHeight 9 10)) := by decide +kernel
  have rejected : Rejected p .empty steps gone := by
    intro i picked
    obtain first | third : i = 0 ∨ i = 2 := by simpa [gone] using picked
    · subst first
      exact ⟨.refused (.wrongHeight 9 10), by decide +kernel⟩
    · subst third
      exact ⟨.refused .alreadyKnown, by decide +kernel⟩
  exact ⟨elsewhere, single [7] 9 (pure none) _ elsewhere, rejected, by decide,
    (many .empty .empty steps gone rejected).2⟩

end Mempool.Pool
