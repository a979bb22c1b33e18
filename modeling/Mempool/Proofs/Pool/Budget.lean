import Mempool.Proofs.Pool.Representation

/-! Budgets under changing limits. An admission fits the limits then in force; what is stored fits
the largest limits that were ever in force, however far they have been lowered since. -/
namespace Mempool.Pool

namespace Log

/-- The largest value of a measure among the first limits and all limits set later. -/
def peak (measure : Limits → Int) (initial : Limits) (log : Log) : Int :=
  log.limitsSet.foldl (fun high limits => max high (measure limits)) (measure initial)

theorem foldl_max_bounds (measure : Limits → Int) (later : List Limits) (high : Int) :
    high ≤ later.foldl (fun high limits => max high (measure limits)) high ∧
    ∀ limits ∈ later,
      measure limits ≤ later.foldl (fun high limits => max high (measure limits)) high := by
  induction later generalizing high with
  | nil => simp
  | cons first later ih =>
    obtain ⟨above, members⟩ := ih (max high (measure first))
    simp only [List.foldl_cons]
    refine ⟨by omega, ?_⟩
    intro limits member
    rcases List.mem_cons.mp member with rfl | old
    · omega
    · exact members limits old

variable (measure : Limits → Int) (initial : Limits) (log : Log)

theorem limits_le_peak : measure (log.limits initial) ≤ log.peak measure initial := by
  obtain ⟨first, members⟩ := foldl_max_bounds measure log.limitsSet (measure initial)
  rw [limits, List.getLastD_eq_getLast?]
  cases last : log.limitsSet.getLast? with
  | none => exact first
  | some l => exact members l (List.mem_of_getLast? last)

theorem peak_le_peak_append (s : Step) (outcome : Outcome) :
    log.peak measure initial ≤ peak measure initial (log ++ [(s, outcome)]) := by
  rw [peak, peak, limitsSet_append, List.foldl_append]
  exact (foldl_max_bounds measure _ _).1

end Log

/-- What a log admitted fits the largest limits of that log. -/
structure WithinPeaks (initial : Limits) (log : Log) : Prop where
  count : (log.admitted.length : Int) ≤ log.peak (·.admitted.count.toNat) initial
  bytes : (totalSize log.admitted : Int) ≤ max 0 (log.peak (·.admitted.bytes.toInt) initial)
  lengths : ∀ tx ∈ log.admitted, (tx.length : Int) ≤ log.peak (·.maxTxBytes.toNat) initial

namespace WithinPeaks

variable {initial : Limits} {log : Log}

theorem nil : WithinPeaks initial [] where
  count := by simp [Log.admitted, Log.peak, Log.limitsSet]
  bytes := Int.le_max_left 0 _
  lengths := by simp [Log.admitted]

theorem kept (within : WithinPeaks initial log) {s : Step} {outcome : Outcome}
    (nothing : Log.admitted [(s, outcome)] = []) :
    WithinPeaks initial (log ++ [(s, outcome)]) := by
  have admitted := Log.admitted_append_nothing log outcome s nothing
  constructor
  case count =>
    rw [admitted]
    exact Int.le_trans within.count (Log.peak_le_peak_append ..)
  case bytes =>
    have rises := Log.peak_le_peak_append (·.admitted.bytes.toInt) initial log s outcome
    have before := within.bytes
    rw [admitted]
    omega
  case lengths =>
    rw [admitted]
    intro tx member
    exact Int.le_trans (within.lengths tx member) (Log.peak_le_peak_append ..)

/-- An admission fits the limits then in force, which are no larger than their peaks. -/
theorem admits (within : WithinPeaks initial log) {tx : List UInt8} {height : Int64}
    (passed : log.check initial tx height = .ok ()) (verdict : Observed (Option Fault))
    (key : Key) :
    WithinPeaks initial (log ++ [(.submit tx height verdict, .submitted (.ok key))]) := by
  obtain ⟨_, _, size, count, room⟩ := (Log.check_ok_iff initial log tx height).mp passed
  -- What the check compares with are the limits in force, and no peak is below them.
  have same (measure : Limits → Int) :
      measure (log.limits initial) ≤ Log.peak measure initial
        (log ++ [(.submit tx height verdict, .submitted (.ok key))]) :=
    Int.le_trans (Log.limits_le_peak measure initial log) (Log.peak_le_peak_append ..)
  constructor
  case count =>
    have high := same (·.admitted.count.toNat)
    rw [Log.admitted_append_ok, List.length_append, List.length_singleton]
    omega
  case bytes =>
    have high := same (·.admitted.bytes.toInt)
    rw [Log.admitted_append_ok, totalSize_append, totalSize, totalSize]
    omega
  case lengths =>
    have high := same (·.maxTxBytes.toNat)
    rw [Log.admitted_append_ok]
    intro stored member
    rcases List.mem_append.mp member with old | new
    · exact Int.le_trans (within.lengths stored old) (Log.peak_le_peak_append ..)
    · obtain rfl := List.mem_singleton.mp new
      omega

theorem step (within : WithinPeaks initial log) {p : Pool} (valid : Represents initial log p)
    (s : Step) (bounded : s.Bounded) :
    WithinPeaks initial (log ++ [(s, (p.step s).value.1)]) := by
  obtain ⟨nothing, _⟩ | ⟨tx, height, verdict, rfl, passed, _, taken⟩ := step_cases p s
  · exact within.kept nothing
  · rw [valid.check_eq height bounded] at passed
    rw [taken]
    exact within.admits passed verdict _

end WithinPeaks

theorem run_within_peaks {initial : Limits} (initially : initial.Bounded) (steps : List Step)
    (bounded : ∀ s ∈ steps, s.Bounded) : WithinPeaks initial ((new initial).log steps) := by
  have start : Represents initial [] (new initial) ∧ WithinPeaks initial [] :=
    ⟨.new initially, .nil⟩
  have both := run_keeps
    (I := fun log p => Represents initial log p ∧ WithinPeaks initial log)
    (fun _ _ s bounded holds => ⟨holds.1.step s bounded, holds.2.step holds.1 s bounded⟩)
    [] _ steps bounded start
  exact both.2

theorem Represents.admission_fits {initial : Limits} {log : Log} {p : Pool}
    (valid : Represents initial log p) {tx : List UInt8} {height : Int64}
    {verdict : Observed (Option Fault)} {key : Key}
    (small : (tx.length : Int) ≤ Int64.maxValue.toInt)
    (admitted : (p.submit tx height verdict).value.1 = .ok key) :
    (p.submit tx height verdict).value.2.entries.length ≤ p.limits.admitted.count.toNat ∧
    (p.submit tx height verdict).value.2.txsBytes ≤ p.limits.admitted.bytes ∧
    tx.length ≤ p.limits.maxTxBytes.toNat := by
  obtain ⟨passed, _, _, stored⟩ := submit_ok p tx height verdict admitted
  rw [valid.check_eq height small] at passed
  obtain ⟨_, _, size, count, room⟩ := (Log.check_ok_iff initial log tx height).mp passed
  rw [stored, valid.limits]
  refine ⟨?_, ?_, size⟩
  · have grown := length_insertEntry (Key.ofTx tx, tx) p.entries
    have before := valid.length_entries
    simp only [store]
    omega
  · rw [Int64.le_iff_toInt_le, valid.toInt_store small passed]
    exact room

/-- After every admission the pool fits the limits in force then. At all times it fits the largest
limits that were ever in force, also once they were lowered below its contents. -/
theorem budgets_kept (initial : Limits) (initially : initial.Bounded) (steps : List Step)
    (bounded : ∀ s ∈ steps, s.Bounded) :
    let p := (new initial).after steps
    let log := (new initial).log steps
    p.limits = log.limits initial ∧
    (∀ (tx : List UInt8) (height : Int64) (verdict : Observed (Option Fault)) (key : Key),
      (Step.submit tx height verdict).Bounded →
      (p.submit tx height verdict).value.1 = .ok key →
      (p.submit tx height verdict).value.2.entries.length ≤ p.limits.admitted.count.toNat ∧
      (p.submit tx height verdict).value.2.txsBytes ≤ p.limits.admitted.bytes ∧
      tx.length ≤ p.limits.maxTxBytes.toNat) ∧
    (p.entries.length : Int) ≤ log.peak (·.admitted.count.toNat) initial ∧
    p.txsBytes.toInt ≤ max 0 (log.peak (·.admitted.bytes.toInt) initial) ∧
    ∀ entry ∈ p.entries, (entry.2.length : Int) ≤ log.peak (·.maxTxBytes.toNat) initial := by
  intro p log
  have valid := run_represents initially steps bounded
  have within := run_within_peaks initially steps bounded
  refine ⟨valid.limits, ?_, ?_, ?_, ?_⟩
  · intro tx height verdict key small admitted
    exact valid.admission_fits small admitted
  · rw [valid.length_entries]
    exact within.count
  · rw [valid.total]
    exact within.bytes
  · intro entry member
    have stored := valid.stored.mem_iff.mp (List.mem_map_of_mem member)
    exact within.lengths entry.2 stored

/-- Limits lowered below the contents and into the negative: the old peaks still bound the pool. -/
theorem budgets_after_lowering :
    let limits : Limits := ⟨16, ⟨3, 1000⟩, ⟨3, 1000⟩⟩
    let steps : List Step := [.submit [7, 7] 10 (pure none), .setLimits ⟨1, ⟨0, -5⟩, ⟨0, 0⟩⟩,
      .submit [8] 10 (pure none)]
    let p := (new limits).after steps
    limits.Bounded ∧ (∀ s ∈ steps, s.Bounded) ∧
    p.limits.admitted.bytes < p.txsBytes ∧
    p.txsBytes.toInt ≤ max 0 (((new limits).log steps).peak (·.admitted.bytes.toInt) limits) := by
  intro limits steps p
  have initially : limits.Bounded := by decide
  have bounded : ∀ s ∈ steps, s.Bounded := by decide
  obtain ⟨_, _, _, bytes, _⟩ := budgets_kept limits initially steps bounded
  exact ⟨initially, bounded, by decide +kernel, bytes⟩

end Mempool.Pool
