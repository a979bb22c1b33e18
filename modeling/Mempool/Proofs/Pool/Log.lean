import Mempool.Pool
import Mempool.Proofs.Limits.Capacity

/-! The log of a run: its steps, each with the outcome it had. Heights, limits and admissions are
read off the log alone, without the pool. A submission is refused by a check, turned away by the
pre-check, or stored, and only the last of these changes the pool. -/
namespace Mempool.Pool

abbrev Log := List (Step × Outcome)

def Step.height? : Step → Option Int64
  | .setHeight height => some height
  | _ => none

def Step.limits? : Step → Option Limits
  | .setLimits limits => some limits
  | _ => none

def admission? : Step × Outcome → Option (List UInt8)
  | (.submit tx _ _, .submitted (.ok _)) => some tx
  | _ => none

/-- The sum of the lengths, which no word bounds. -/
def totalSize : List (List UInt8) → Nat
  | [] => 0
  | tx :: txs => tx.length + totalSize txs

theorem totalSize_append (xs ys : List (List UInt8)) :
    totalSize (xs ++ ys) = totalSize xs + totalSize ys := by
  induction xs with
  | nil => simp [totalSize]
  | cons tx xs ih => simp only [List.cons_append, totalSize, ih, Nat.add_assoc]

theorem totalSize_perm {xs ys : List (List UInt8)} (same : xs.Perm ys) :
    totalSize xs = totalSize ys := by
  induction same with
  | nil => rfl
  | cons tx _ ih => simp only [totalSize, ih]
  | swap tx other txs => simp only [totalSize, Nat.add_left_comm]
  | trans _ _ first second => exact first.trans second

namespace Log

def heightsSet (log : Log) : List Int64 := log.filterMap (Step.height? ·.1)

def limitsSet (log : Log) : List Limits := log.filterMap (Step.limits? ·.1)

/-- The transactions admitted so far, earliest first. -/
def admitted (log : Log) : List (List UInt8) := log.filterMap admission?

/-- The height set last, or that of a new pool. -/
def height (log : Log) : Int64 := log.heightsSet.getLastD firstHeight

/-- The limits set last, or those of the new pool. -/
def limits (initial : Limits) (log : Log) : Limits := log.limitsSet.getLastD initial

variable (initial : Limits) (log later : Log) (outcome : Outcome) (s : Step)

@[simp] theorem heightsSet_append :
    heightsSet (log ++ later) = log.heightsSet ++ later.heightsSet := List.filterMap_append

@[simp] theorem limitsSet_append :
    limitsSet (log ++ later) = log.limitsSet ++ later.limitsSet := List.filterMap_append

@[simp] theorem admitted_append :
    admitted (log ++ later) = log.admitted ++ later.admitted := List.filterMap_append

@[simp] theorem heightsSet_singleton : heightsSet [(s, outcome)] = s.height?.toList := by
  cases s <;> rfl

@[simp] theorem limitsSet_singleton : limitsSet [(s, outcome)] = s.limits?.toList := by
  cases s <;> rfl

@[simp] theorem height_append_singleton :
    height (log ++ [(s, outcome)]) = s.height?.getD log.height := by
  rw [height, heightsSet_append, heightsSet_singleton]
  cases s.height? with
  | none => simp [height]
  | some h => simp

@[simp] theorem limits_append_singleton :
    limits initial (log ++ [(s, outcome)]) = s.limits?.getD (log.limits initial) := by
  rw [limits, limitsSet_append, limitsSet_singleton]
  cases s.limits? with
  | none => simp [limits]
  | some l => simp

theorem admitted_append_nothing (nothing : admitted [(s, outcome)] = []) :
    admitted (log ++ [(s, outcome)]) = log.admitted := by
  rw [admitted_append, nothing, List.append_nil]

@[simp] theorem admitted_append_ok (tx : List UInt8) (h : Int64)
    (verdict : Observed (Option Fault)) (key : Key) :
    admitted (log ++ [(.submit tx h verdict, .submitted (.ok key))]) = log.admitted ++ [tx] :=
  admitted_append ..

end Log

def log (p : Pool) : List Step → Log
  | [] => []
  | s :: steps => (s, (p.step s).value.1) :: log (p.step s).value.2 steps

def after (p : Pool) : List Step → Pool
  | [] => p
  | s :: steps => after (p.step s).value.2 steps

theorem take_log (p : Pool) (steps : List Step) (i : Nat) :
    (p.log steps).take i = p.log (steps.take i) := by
  induction steps generalizing p i with
  | nil => simp [log]
  | cons s steps ih =>
    cases i with
    | zero => rfl
    | succ i => simp [log, ih]

/-- The log pairs the steps with the outcomes that the executed run shows. -/
theorem zip_outcomes_run (p : Pool) (c : Counters) (steps : List Step) :
    steps.zip ((p.run c steps).map Snapshot.outcome) = p.log steps := by
  induction steps generalizing p c with
  | nil => rfl
  | cons s steps ih => simp only [run, log, List.map_cons, List.zip_cons_cons, ih]

theorem run_at (p : Pool) (c : Counters) (steps : List Step) (i : Nat) (s : Step)
    (atIndex : steps[i]? = some s) :
    ∃ snapshot, (p.run c steps)[i]? = some snapshot ∧
      (snapshot.outcome, snapshot.pool) = ((p.after (steps.take i)).step s).value := by
  induction steps generalizing p c i with
  | nil => simp at atIndex
  | cons first steps ih =>
    cases i with
    | zero =>
      obtain rfl : first = s := by simpa using atIndex
      exact ⟨_, rfl, rfl⟩
    | succ i =>
      obtain ⟨snapshot, found, same⟩ := ih _ _ i (by simpa using atIndex)
      exact ⟨snapshot, by simpa [run] using found, same⟩

/-- What every step keeps of a log and the pool it leads to, every run keeps. -/
theorem run_keeps {Allowed : Step → Prop} {I : Log → Pool → Prop}
    (kept : ∀ log p s, Allowed s → I log p →
      I (log ++ [(s, (p.step s).value.1)]) (p.step s).value.2)
    (earlier : Log) (p : Pool) (steps : List Step) (allowed : ∀ s ∈ steps, Allowed s)
    (holds : I earlier p) : I (earlier ++ p.log steps) (p.after steps) := by
  induction steps generalizing earlier p with
  | nil => simpa [log, after] using holds
  | cons s steps ih =>
    have now := kept earlier p s (allowed s List.mem_cons_self) holds
    have later := ih _ _ (fun t member => allowed t (List.mem_cons_of_mem s member)) now
    simpa [log, after] using later

/-- A transaction no longer than the signed range allows; limits with a budget below its top. -/
def Step.Bounded : Step → Prop
  | .setHeight _ => True
  | .setLimits limits => limits.Bounded
  | .submit tx _ _ => (tx.length : Int) ≤ Int64.maxValue.toInt

theorem Step.Bounded.limits {s : Step} (bounded : s.Bounded) {l : Limits} (before : l.Bounded) :
    (s.limits?.getD l).Bounded := by
  cases s with
  | setHeight height => exact before
  | setLimits limits => exact bounded
  | submit tx height verdict => exact before

instance : DecidablePred Step.Bounded
  | .setHeight _ => .isTrue trivial
  | .setLimits limits => inferInstanceAs (Decidable limits.Bounded)
  | .submit tx _ _ => inferInstanceAs (Decidable ((tx.length : Int) ≤ _))

/-! ## One submission -/

variable (p : Pool) (tx : List UInt8) (height : Int64) (verdict : Observed (Option Fault))

theorem check_eq : p.check tx height =
    if p.contains (Key.ofTx tx) then .error .alreadyKnown
    else if height ≠ p.height then .error (.wrongHeight height p.height)
    else match p.limits.checkTxSize (UInt64.ofNat tx.length) with
      | .error refusal => .error refusal
      | .ok () => p.limits.checkAdmitted p.numTxs p.txsBytes (UInt64.ofNat tx.length) := by
  unfold check
  by_cases known : p.contains (Key.ofTx tx) = true
  · rw [if_pos known, if_pos known]
    rfl
  · rw [if_neg known, if_neg known]
    by_cases elsewhere : height ≠ p.height
    · rw [if_pos elsewhere, if_pos elsewhere]
      rfl
    · rw [if_neg elsewhere, if_neg elsewhere]
      cases p.limits.checkTxSize (UInt64.ofNat tx.length) <;> rfl

theorem value_submit : (p.submit tx height verdict).value =
    match p.check tx height, verdict.value with
    | .error refusal, _ => (.error (.refused refusal), p)
    | .ok (), some fault => (.error (.preCheck fault), p)
    | .ok (), none => (.ok (Key.ofTx tx), p.store (Key.ofTx tx) tx) := by
  simp only [submit, accept, Observed.value_bind]
  cases p.check tx height with
  | error refusal => rfl
  | ok passed =>
    simp only [Observed.value_bind]
    cases verdict.value with
    | some fault => rfl
    | none => rfl

theorem submit_ok {key : Key} (admitted : (p.submit tx height verdict).value.1 = .ok key) :
    p.check tx height = .ok () ∧ verdict.value = none ∧ key = Key.ofTx tx ∧
      (p.submit tx height verdict).value.2 = p.store (Key.ofTx tx) tx := by
  rw [value_submit] at admitted ⊢
  split at admitted
  · contradiction
  · contradiction
  · rename_i passed nothing
    exact ⟨passed, nothing, (Except.ok.inj admitted).symm, rfl⟩

theorem submit_error {rejection : Rejection}
    (rejected : (p.submit tx height verdict).value.1 = .error rejection) :
    (p.submit tx height verdict).value.2 = p := by
  rw [value_submit] at rejected ⊢
  split at rejected
  · rfl
  · rfl
  · contradiction

/-- All that a step can do: either it admits nothing and at most sets the limits or the height, or
it is a submission that passed every check and is stored. -/
theorem step_cases (s : Step) :
    (Log.admitted [(s, (p.step s).value.1)] = [] ∧
      (p.step s).value.2 =
        { p with limits := s.limits?.getD p.limits, height := s.height?.getD p.height }) ∨
    ∃ tx height verdict, s = .submit tx height verdict ∧ p.check tx height = .ok () ∧
      verdict.value = none ∧
      (p.step s).value = (.submitted (.ok (Key.ofTx tx)), p.store (Key.ofTx tx) tx) := by
  cases s with
  | setHeight height => exact .inl ⟨rfl, rfl⟩
  | setLimits limits => exact .inl ⟨rfl, rfl⟩
  | submit tx height verdict =>
    have taken : (p.step (.submit tx height verdict)).value =
        (.submitted (p.submit tx height verdict).value.1, (p.submit tx height verdict).value.2) :=
      rfl
    rw [taken]
    cases result : (p.submit tx height verdict).value.1 with
    | error rejection => exact .inl ⟨rfl, submit_error p tx height verdict result⟩
    | ok key =>
      obtain ⟨passed, nothing, rfl, stored⟩ := submit_ok p tx height verdict result
      exact .inr ⟨tx, height, verdict, rfl, passed, nothing, by rw [stored]⟩

end Mempool.Pool
