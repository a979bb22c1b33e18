import Mathlib.Data.List.Nodup
import Mempool.Proofs.Pool.Log

/-! A pool holds what its log admitted, under the right keys and with an exact total, so it gives
the same answers as a pool that keeps nothing but its log. The total stays below the top of the
signed range because a submission passes the capacity check first. -/
namespace Mempool.Pool.Log

variable (initial : Limits) (log : Log)

/-- The reason, if any, for which the earlier steps have a transaction refused. -/
def check (tx : List UInt8) (height : Int64) : Except Refusal Unit :=
  if ∃ earlier ∈ log.admitted, Key.ofTx earlier = Key.ofTx tx then .error .alreadyKnown
  else if height ≠ log.height then .error (.wrongHeight height log.height)
  else if (log.limits initial).maxTxBytes.toNat < tx.length then
    .error (.tooLarge (log.limits initial).maxTxBytes (UInt64.ofNat tx.length))
  else if (log.limits initial).admitted.count.toNat ≤ log.admitted.length ∨
      (log.limits initial).admitted.bytes.toInt < totalSize log.admitted + tx.length then
    .error (.full ⟨UInt64.ofNat log.admitted.length, (log.limits initial).admitted.count,
      Int64.ofNat (totalSize log.admitted), (log.limits initial).admitted.bytes⟩)
  else .ok ()

/-- The answer to a submission with the pre-check's verdict, a fault or nothing. -/
def answer (tx : List UInt8) (height : Int64) (verdict : Option Fault) : Except Rejection Key :=
  match log.check initial tx height, verdict with
  | .error refusal, _ => .error (.refused refusal)
  | .ok (), some fault => .error (.preCheck fault)
  | .ok (), none => .ok (Key.ofTx tx)

def outcome : Step → Outcome
  | .submit tx height verdict => .submitted (log.answer initial tx height verdict.value)
  | _ => .set

/-- The log of a run in which every step is answered from the log before it. -/
def replay (log : Log) : List Step → Log
  | [] => log
  | s :: steps => replay (log ++ [(s, log.outcome initial s)]) steps

theorem check_ok_iff (tx : List UInt8) (height : Int64) :
    log.check initial tx height = .ok () ↔
      (∀ earlier ∈ log.admitted, Key.ofTx earlier ≠ Key.ofTx tx) ∧ height = log.height ∧
      tx.length ≤ (log.limits initial).maxTxBytes.toNat ∧
      log.admitted.length < (log.limits initial).admitted.count.toNat ∧
      (totalSize log.admitted + tx.length : Int) ≤ (log.limits initial).admitted.bytes.toInt := by
  unfold check
  constructor
  · intro passed
    split at passed
    · contradiction
    · rename_i unknown
      split at passed
      · contradiction
      · rename_i here
        split at passed
        · contradiction
        · split at passed
          · contradiction
          · refine ⟨?_, Decidable.not_not.mp here, ?_, ?_, ?_⟩
            · exact fun earlier member same => unknown ⟨earlier, member, same⟩
            all_goals omega
  · rintro ⟨unknown, here, size, count, bytes⟩
    rw [if_neg, if_neg, if_neg, if_neg]
    · omega
    · omega
    · exact Decidable.not_not.mpr here
    · rintro ⟨earlier, member, same⟩
      exact unknown earlier member same

end Mempool.Pool.Log

namespace Mempool.Pool

theorem store_entries_perm (p : Pool) (key : Key) (tx : List UInt8) :
    (p.store key tx).entries.Perm ((key, tx) :: p.entries) :=
  insertEntry_perm _ _

theorem store_keys_perm (p : Pool) (key : Key) (tx : List UInt8) :
    (p.store key tx).keys.Perm (key :: p.keys) :=
  (store_entries_perm p key tx).map Prod.fst

theorem mem_keys_store {p : Pool} {key other : Key} {tx : List UInt8} :
    other ∈ (p.store key tx).keys ↔ other = key ∨ other ∈ p.keys :=
  (store_keys_perm p key tx).mem_iff.trans List.mem_cons

theorem length_entries_store (p : Pool) (key : Key) (tx : List UInt8) :
    (p.store key tx).entries.length = p.entries.length + 1 :=
  length_insertEntry _ _

theorem limits_store (p : Pool) (key : Key) (tx : List UInt8) :
    (p.store key tx).limits = p.limits := rfl

/-- The pool as the log alone describes it. Counts and totals are numbers here, not words. -/
structure Represents (initial : Limits) (log : Log) (p : Pool) : Prop where
  limits : p.limits = log.limits initial
  height : p.height = log.height
  bounded : p.limits.Bounded
  keyed : ∀ entry ∈ p.entries, entry.1 = Key.ofTx entry.2
  distinct : p.keys.Nodup
  stored : (p.entries.map Prod.snd).Perm log.admitted
  total : p.txsBytes.toInt = totalSize log.admitted
  count : log.admitted.length < 0x10000000000000000

namespace Represents

variable {initial : Limits} {log : Log} {p : Pool}

theorem new (bounded : initial.Bounded) : Represents initial [] (new initial) where
  limits := rfl
  height := rfl
  bounded := bounded
  keyed := by simp [Pool.new]
  distinct := List.nodup_nil
  stored := .refl _
  total := rfl
  count := by simp [Log.admitted]

theorem keys_eq (valid : Represents initial log p) :
    p.keys = (p.entries.map Prod.snd).map Key.ofTx := by
  rw [keys, List.map_map]
  exact List.map_congr_left valid.keyed

theorem mem_keys_iff (valid : Represents initial log p) (key : Key) :
    key ∈ p.keys ↔ ∃ tx ∈ log.admitted, Key.ofTx tx = key := by
  rw [valid.keys_eq, (valid.stored.map Key.ofTx).mem_iff, List.mem_map]

theorem contains_iff (valid : Represents initial log p) (key : Key) :
    p.contains key = true ↔ ∃ tx ∈ log.admitted, Key.ofTx tx = key := by
  rw [contains, List.contains_iff_mem, valid.mem_keys_iff]

theorem length_entries (valid : Represents initial log p) :
    p.entries.length = log.admitted.length := by
  simpa using valid.stored.length_eq

theorem numTxs_eq (valid : Represents initial log p) :
    p.numTxs = UInt64.ofNat log.admitted.length := by
  rw [numTxs, valid.length_entries]

theorem total_fits (valid : Represents initial log p) :
    (totalSize log.admitted : Int) ≤ Int64.maxValue.toInt := by
  rw [← valid.total]
  exact p.txsBytes.toInt_le

theorem txsBytes_eq (valid : Represents initial log p) :
    p.txsBytes = Int64.ofNat (totalSize log.admitted) := by
  apply Int64.toInt_inj.mp
  rw [toInt_ofNat_of_fits valid.total_fits, valid.total]

theorem total_entries (valid : Represents initial log p) :
    totalSize (p.entries.map Prod.snd) = totalSize log.admitted :=
  totalSize_perm valid.stored

/-- The executed checks, on words, agree with the rule of the log, on numbers. -/
theorem check_eq (valid : Represents initial log p) {tx : List UInt8} (height : Int64)
    (small : (tx.length : Int) ≤ Int64.maxValue.toInt) :
    p.check tx height = log.check initial tx height := by
  have fits : tx.length < 0x10000000000000000 := by
    rw [toInt_maxValue] at small
    omega
  rw [Pool.check_eq, Log.check, Limits.checkTxSize_eq _ fits,
    Limits.checkAdmitted_eq _ valid.bounded _ _ small, valid.total, valid.numTxs_eq,
    toNat_ofNat_of_fits valid.count, valid.txsBytes_eq, ← valid.limits, ← valid.height]
  simp only [valid.contains_iff]
  split
  · rfl
  · split
    · rfl
    · by_cases large : p.limits.maxTxBytes.toNat < tx.length
      · rw [if_pos large, if_pos large]
      · rw [if_neg large, if_neg large]
        rfl

theorem check_ok_iff (valid : Represents initial log p) {tx : List UInt8} (height : Int64)
    (small : (tx.length : Int) ≤ Int64.maxValue.toInt) :
    p.check tx height = .ok () ↔
      Key.ofTx tx ∉ p.keys ∧ height = p.height ∧ tx.length ≤ p.limits.maxTxBytes.toNat ∧
      p.entries.length < p.limits.admitted.count.toNat ∧
      p.txsBytes.toInt + tx.length ≤ p.limits.admitted.bytes.toInt := by
  rw [valid.check_eq height small, Log.check_ok_iff, valid.mem_keys_iff, valid.length_entries,
    valid.total, valid.limits, valid.height]
  simp only [not_exists, not_and, ne_eq]

/-- The total after an admission is exact: the capacity check has just compared the same sum. -/
theorem toInt_store (valid : Represents initial log p) {tx : List UInt8} {height : Int64}
    (small : (tx.length : Int) ≤ Int64.maxValue.toInt)
    (passed : log.check initial tx height = .ok ()) (key : Key) :
    (p.store key tx).txsBytes.toInt = totalSize log.admitted + tx.length := by
  obtain ⟨_, _, _, _, room⟩ := (Log.check_ok_iff initial log tx height).mp passed
  have top := (log.limits initial).admitted.bytes.toInt_le
  rw [store, Int64.toInt_add, toInt_length small, valid.total]
  -- The sum is at most the budget, so the addition on words does not wrap.
  apply Int.bmod_eq_of_le
  all_goals
    rw [toInt_maxValue] at top
    omega

theorem toInt_txsBytes_store (valid : Represents initial log p) {tx : List UInt8} {height : Int64}
    (small : (tx.length : Int) ≤ Int64.maxValue.toInt) (passed : p.check tx height = .ok ())
    (key : Key) : (p.store key tx).txsBytes.toInt = p.txsBytes.toInt + tx.length := by
  rw [valid.check_eq height small] at passed
  rw [valid.toInt_store small passed, valid.total]

theorem stores (valid : Represents initial log p) {tx : List UInt8} {height : Int64}
    (small : (tx.length : Int) ≤ Int64.maxValue.toInt)
    (passed : log.check initial tx height = .ok ()) (verdict : Observed (Option Fault))
    (key : Key) :
    Represents initial (log ++ [(.submit tx height verdict, .submitted (.ok key))])
      (p.store (Key.ofTx tx) tx) := by
  obtain ⟨unknown, _, _, count, _⟩ := (Log.check_ok_iff initial log tx height).mp passed
  have entries := store_entries_perm p (Key.ofTx tx) tx
  have fresh : Key.ofTx tx ∉ p.keys := by
    rw [valid.mem_keys_iff]
    rintro ⟨earlier, member, same⟩
    exact unknown earlier member same
  constructor
  case limits =>
    rw [Log.limits_append_singleton]
    exact valid.limits
  case height =>
    rw [Log.height_append_singleton]
    exact valid.height
  case bounded => exact valid.bounded
  case keyed =>
    intro entry member
    rcases List.mem_cons.mp (entries.mem_iff.mp member) with rfl | old
    · rfl
    · exact valid.keyed entry old
  case distinct =>
    have keys := store_keys_perm p (Key.ofTx tx) tx
    exact keys.nodup_iff.mpr (List.nodup_cons.mpr ⟨fresh, valid.distinct⟩)
  case stored =>
    rw [Log.admitted_append_ok]
    have appended := (List.perm_append_singleton tx log.admitted).symm
    exact (entries.map Prod.snd).trans ((valid.stored.cons tx).trans appended)
  case total =>
    rw [valid.toInt_store small passed, Log.admitted_append_ok, totalSize_append, Int.natCast_add]
    rfl
  case count =>
    have top := (log.limits initial).admitted.count.toNat_lt
    rw [Log.admitted_append_ok, List.length_append, List.length_singleton]
    omega

theorem kept (valid : Represents initial log p) {s : Step} {outcome : Outcome}
    (nothing : Log.admitted [(s, outcome)] = []) (bounded : s.Bounded) :
    Represents initial (log ++ [(s, outcome)])
      { p with limits := s.limits?.getD p.limits, height := s.height?.getD p.height } := by
  have admitted := Log.admitted_append_nothing log outcome s nothing
  constructor
  case limits => rw [Log.limits_append_singleton, valid.limits]
  case height => rw [Log.height_append_singleton, valid.height]
  case bounded => exact bounded.limits valid.bounded
  case keyed => exact valid.keyed
  case distinct => exact valid.distinct
  case stored => rw [admitted]; exact valid.stored
  case total => rw [admitted]; exact valid.total
  case count => rw [admitted]; exact valid.count

theorem step (valid : Represents initial log p) (s : Step) (bounded : s.Bounded) :
    Represents initial (log ++ [(s, (p.step s).value.1)]) (p.step s).value.2 := by
  obtain ⟨nothing, same⟩ | ⟨tx, height, verdict, rfl, passed, _, taken⟩ := step_cases p s
  · rw [same]
    exact valid.kept nothing bounded
  · rw [valid.check_eq height bounded] at passed
    rw [taken]
    exact valid.stores bounded passed verdict _

end Represents

/-- Every run of bounded steps from a new pool leads to the pool that its log describes. -/
theorem run_represents {initial : Limits} (initially : initial.Bounded) (steps : List Step)
    (bounded : ∀ s ∈ steps, s.Bounded) :
    Represents initial ((new initial).log steps) ((new initial).after steps) := by
  have start : Represents initial [] (new initial) := .new initially
  exact run_keeps (fun _ _ s bounded valid => valid.step s bounded) [] _ steps bounded start

/-- What a reachable pool holds is what was admitted, each transaction once and under its key. Its
total is exact, and no admission takes it over the top of the signed range. -/
theorem reachable_contents (initial : Limits) (initially : initial.Bounded) (steps : List Step)
    (bounded : ∀ s ∈ steps, s.Bounded) :
    let p := (new initial).after steps
    (∀ entry ∈ p.entries, entry.1 = Key.ofTx entry.2) ∧
    p.keys.Nodup ∧ (p.entries.map Prod.snd).Nodup ∧
    (p.entries.map Prod.snd).Perm ((new initial).log steps).admitted ∧
    p.txsBytes.toInt = totalSize (p.entries.map Prod.snd) ∧
    ∀ (tx : List UInt8) (height : Int64) (verdict : Observed (Option Fault)) (key : Key),
      (Step.submit tx height verdict).Bounded →
      (p.submit tx height verdict).value.1 = .ok key →
      p.txsBytes.toInt + tx.length ≤ Int64.maxValue.toInt := by
  intro p
  have valid := run_represents initially steps bounded
  refine ⟨valid.keyed, valid.distinct, ?_, valid.stored, ?_, ?_⟩
  · have keys := valid.distinct
    rw [valid.keys_eq] at keys
    exact keys.of_map Key.ofTx
  · rw [valid.total_entries, valid.total]
  · intro tx height verdict key small admitted
    have passed := (submit_ok p tx height verdict admitted).1
    rw [valid.check_eq height small, Log.check_ok_iff] at passed
    obtain ⟨_, _, _, _, room⟩ := passed
    rw [valid.total]
    exact Int.le_trans room (Int64.toInt_le _)

/-- Two admissions around a lowered budget: the pool holds both, and its total of three is exact. -/
theorem contents_after_lowering :
    let limits : Limits := ⟨16, ⟨3, 1000⟩, ⟨3, 1000⟩⟩
    let steps : List Step := [.submit [7] 10 (pure none), .setLimits ⟨2, ⟨2, 3⟩, ⟨0, -1⟩⟩,
      .submit [7] 10 (pure none), .submit [8, 9] 10 (pure none), .submit [] 10 (pure none)]
    limits.Bounded ∧ (∀ s ∈ steps, s.Bounded) ∧
    ((new limits).after steps).keys.Nodup ∧
    ((new limits).after steps).txsBytes.toInt =
      totalSize (((new limits).after steps).entries.map Prod.snd) ∧
    ((new limits).after steps).txsBytes = 3 := by
  intro limits steps
  have initially : limits.Bounded := by decide
  have bounded : ∀ s ∈ steps, s.Bounded := by decide
  obtain ⟨_, keys, _, _, total, _⟩ := reachable_contents limits initially steps bounded
  exact ⟨initially, bounded, keys, total, by decide +kernel⟩

end Mempool.Pool
