import Mempool.Proofs.Pool.Refinement

/-! Pools only grow. An entry stays as it was stored, and neither count nor total ever falls. So a
transaction that found no room finds none later on, and no larger one does, unless the limits are
set anew. -/
namespace Mempool.Pool

/-- What a later pool has kept of an earlier one. -/
structure Grows (p q : Pool) : Prop where
  count : p.entries.length ≤ q.entries.length
  total : p.txsBytes ≤ q.txsBytes
  kept : ∀ k tx, p.get? k = some tx → q.get? k = some tx

/-- No transaction of this length fits the limits in force. -/
def Crowded (p : Pool) (length : Nat) : Prop :=
  p.limits.maxTxBytes.toNat < length ∨
  p.limits.admitted.count.toNat ≤ p.entries.length ∨
  p.limits.admitted.bytes.toInt < p.txsBytes.toInt + length

/-! ## Growth -/

theorem lookup_insertEntry {k : Key} {entry : Key × List UInt8} (different : k ≠ entry.1)
    (entries : List (Key × List UInt8)) :
    (insertEntry entry entries).lookup k = entries.lookup k := by
  have skipped : (k == entry.1) = false := beq_false_of_ne different
  induction entries with
  | nil => rw [insertEntry, List.lookup_cons, skipped]
  | cons other rest ih =>
    rw [insertEntry]
    split
    · rw [List.lookup_cons, skipped]
    · rw [List.lookup_cons, List.lookup_cons, ih]

theorem mem_keys_of_get? {p : Pool} {k : Key} {tx : List UInt8} (found : p.get? k = some tx) :
    k ∈ p.keys := by
  obtain ⟨before, after, split, _⟩ := List.lookup_eq_some_iff.mp found
  simp [keys, split]

theorem get?_store {p : Pool} {key : Key} (fresh : key ∉ p.keys) (added : List UInt8) {k : Key}
    {tx : List UInt8} (found : p.get? k = some tx) : (p.store key added).get? k = some tx := by
  have different : k ≠ key := fun same => fresh (same ▸ mem_keys_of_get? found)
  exact (lookup_insertEntry different p.entries).trans found

namespace Grows

variable {p q r : Pool}

theorem of_same (entries : q.entries = p.entries) (total : q.txsBytes = p.txsBytes) :
    p.Grows q where
  count := Nat.le_of_eq (congrArg List.length entries.symm)
  total := Int64.le_of_eq total.symm
  kept k tx found := by rwa [get?, entries]

theorem trans (first : p.Grows q) (second : q.Grows r) : p.Grows r where
  count := Nat.le_trans first.count second.count
  total := Int64.le_trans first.total second.total
  kept k tx found := second.kept k tx (first.kept k tx found)

theorem toInt_total (grows : p.Grows q) : p.txsBytes.toInt ≤ q.txsBytes.toInt :=
  Int64.le_iff_toInt_le.mp grows.total

end Grows

namespace Represents

variable {initial : Limits} {log : Log} {p : Pool}

/-- An admission adds one entry under a new key, and its length to the total. -/
theorem grows_store (valid : Represents initial log p) {tx : List UInt8} {height : Int64}
    (small : (tx.length : Int) ≤ Int64.maxValue.toInt) (passed : p.check tx height = .ok ()) :
    p.Grows (p.store (Key.ofTx tx) tx) where
  count := by
    rw [length_entries_store]
    omega
  total := by
    rw [Int64.le_iff_toInt_le, valid.toInt_txsBytes_store small passed]
    omega
  kept _ _ := get?_store ((valid.check_ok_iff height small).mp passed).1 tx

theorem grows_step (valid : Represents initial log p) (s : Step) (bounded : s.Bounded) :
    p.Grows (p.step s).value.2 := by
  obtain ⟨_, same⟩ | ⟨tx, height, verdict, rfl, passed, _, taken⟩ := step_cases p s
  · rw [same]
    exact .of_same rfl rfl
  · rw [taken]
    exact valid.grows_store bounded passed

theorem grows_after (valid : Represents initial log p) (steps : List Step)
    (bounded : ∀ s ∈ steps, s.Bounded) : p.Grows (p.after steps) := by
  have both := run_keeps (I := fun log q => Represents initial log q ∧ p.Grows q)
    (fun _ _ s bounded holds =>
      ⟨holds.1.step s bounded, holds.2.trans (holds.1.grows_step s bounded)⟩)
    log p steps bounded ⟨valid, .of_same rfl rfl⟩
  exact both.2

end Represents

/-! ## No room -/

theorem Crowded.of_grows {p q : Pool} {length : Nat} (crowded : p.Crowded length)
    (grows : p.Grows q) (limits : q.limits = p.limits) : q.Crowded length := by
  have count := grows.count
  have total := grows.toInt_total
  unfold Crowded at crowded ⊢
  rw [limits]
  omega

theorem Crowded.step {p : Pool} {length : Nat} {initial : Limits} {log : Log}
    (crowded : p.Crowded length) (valid : Represents initial log p) {s : Step}
    (bounded : s.Bounded) (unset : s.limits? = none) : (p.step s).value.2.Crowded length := by
  refine crowded.of_grows (valid.grows_step s bounded) ?_
  obtain ⟨_, same⟩ | ⟨tx, height, verdict, rfl, _, _, taken⟩ := step_cases p s
  · rw [same, unset]
    rfl
  · rw [taken]
    rfl

theorem Log.no_room_of_check {initial : Limits} {log : Log} {tx : List UInt8} {height : Int64}
    {refusal : Refusal} (refused : log.check initial tx height = .error refusal)
    (capacity : refusal.reason = .tooLarge ∨ refusal.reason = .full) :
    (log.limits initial).maxTxBytes.toNat < tx.length ∨
    (log.limits initial).admitted.count.toNat ≤ log.admitted.length ∨
    (log.limits initial).admitted.bytes.toInt < totalSize log.admitted + tx.length := by
  unfold check at refused
  split at refused
  · obtain rfl := Except.error.inj refused
    simp [Refusal.reason] at capacity
  · split at refused
    · obtain rfl := Except.error.inj refused
      simp [Refusal.reason] at capacity
    · split at refused
      · rename_i large
        exact .inl large
      · split at refused
        · rename_i full
          exact .inr full
        · contradiction

namespace Represents

variable {initial : Limits} {log : Log} {p : Pool} {tx : List UInt8} {height : Int64}

theorem crowded_of_refused (valid : Represents initial log p)
    (small : (tx.length : Int) ≤ Int64.maxValue.toInt) {verdict : Observed (Option Fault)}
    {rejection : Rejection} (refused : (p.submit tx height verdict).value.1 = .error rejection)
    (capacity : rejection.reason = .tooLarge ∨ rejection.reason = .full) :
    p.Crowded tx.length := by
  rw [value_submit, valid.check_eq height small] at refused
  unfold Crowded
  rw [valid.limits, valid.length_entries, valid.total]
  split at refused
  · rename_i reported
    obtain rfl := Except.error.inj refused
    exact Log.no_room_of_check reported capacity
  · obtain rfl := Except.error.inj refused
    simp [Rejection.reason] at capacity
  · contradiction

theorem length_lt_of_passed (valid : Represents initial log p)
    (small : (tx.length : Int) ≤ Int64.maxValue.toInt) (passed : p.check tx height = .ok ())
    {length : Nat} (crowded : p.Crowded length) : tx.length < length := by
  obtain ⟨_, _, size, count, bytes⟩ := (valid.check_ok_iff height small).mp passed
  unfold Crowded at crowded
  omega

theorem admitted_shorter (valid : Represents initial log p) {length : Nat}
    (crowded : p.Crowded length) (steps : List Step)
    (allowed : ∀ s ∈ steps, s.Bounded ∧ s.limits? = none) :
    ∀ later ∈ (p.log steps).admitted, later.length < length := by
  -- What is admitted is too short for the missing room, and takes up more of it.
  induction steps generalizing log p with
  | nil => simp [Pool.log, Log.admitted]
  | cons s steps ih =>
    obtain ⟨⟨bounded, unset⟩, others⟩ := List.forall_mem_cons.mp allowed
    have rest := ih (valid.step s bounded) (crowded.step valid bounded unset) others
    intro later member
    have split : (p.log (s :: steps)).admitted = Log.admitted [(s, (p.step s).value.1)] ++
        ((p.step s).value.2.log steps).admitted := Log.admitted_append [_] _
    rw [split, List.mem_append] at member
    rcases member with now | member
    · obtain ⟨nothing, _⟩ | ⟨tx, height, verdict, rfl, passed, _, taken⟩ := step_cases p s
      · simp [nothing] at now
      · rw [taken] at now
        obtain rfl : later = tx := List.mem_singleton.mp now
        exact valid.length_lt_of_passed bounded passed crowded
    · exact rest later member

end Represents

/-- A submission refused for its size or for a full pool shows how long no transaction can be that
is admitted before the limits are set again. And whatever happens to a pool, it keeps each entry
as it is, and neither its count nor its total falls. -/
theorem refused_for_good (initial : Limits) (initially : initial.Bounded) (steps : List Step)
    (bounded : ∀ s ∈ steps, s.Bounded) :
    let p := (new initial).after steps
    (∀ (tx : List UInt8) (height : Int64) (verdict : Observed (Option Fault))
      (rejection : Rejection), (Step.submit tx height verdict).Bounded →
      (p.submit tx height verdict).value.1 = .error rejection →
      rejection.reason = .tooLarge ∨ rejection.reason = .full →
      ∀ more : List Step, (∀ s ∈ more, s.Bounded ∧ s.limits? = none) →
      ∀ later ∈ (p.log (.submit tx height verdict :: more)).admitted,
        later.length < tx.length) ∧
    ∀ more : List Step, (∀ s ∈ more, s.Bounded) → p.Grows (p.after more) := by
  intro p
  have valid := run_represents initially steps bounded
  constructor
  · intro tx height verdict rejection small refused capacity more allowed
    have crowded := valid.crowded_of_refused small refused capacity
    exact valid.admitted_shorter crowded _ (List.forall_mem_cons.mpr ⟨⟨small, rfl⟩, allowed⟩)
  · exact fun more later => valid.grows_after more later

/-- Three bytes find no room beside one. Later two do, at another height, and three still do not. -/
theorem refused_beside_shorter :
    let limits : Limits := ⟨16, ⟨3, 3⟩, ⟨0, 0⟩⟩
    let steps : List Step := [.submit [7] 10 (pure none)]
    let refused : Step := .submit [1, 2, 3] 10 (pure none)
    let more : List Step := [.setHeight 11, .submit [8, 9] 11 (pure none),
      .submit [4, 5, 6] 11 (pure none)]
    limits.Bounded ∧ (∀ s ∈ steps, s.Bounded) ∧ refused.Bounded ∧
    (((new limits).after steps).submit [1, 2, 3] 10 (pure none)).value.1 =
      .error (.refused (.full ⟨1, 3, 1, 3⟩)) ∧
    (∀ s ∈ more, s.Bounded ∧ s.limits? = none) ∧
    (((new limits).after steps).log (refused :: more)).admitted = [[8, 9]] ∧
    (∀ later ∈ (((new limits).after steps).log (refused :: more)).admitted, later.length < 3) ∧
    ((new limits).after steps).Grows (((new limits).after steps).after more) := by
  intro limits steps refused more
  have initially : limits.Bounded := by decide
  have bounded : ∀ s ∈ steps, s.Bounded := by decide
  have small : refused.Bounded := by decide
  have full : (((new limits).after steps).submit [1, 2, 3] 10 (pure none)).value.1 =
      .error (.refused (.full ⟨1, 3, 1, 3⟩)) := by decide +kernel
  have allowed : ∀ s ∈ more, s.Bounded ∧ s.limits? = none := by decide
  obtain ⟨never, grows⟩ := refused_for_good limits initially steps bounded
  exact ⟨initially, bounded, small, full, allowed, by decide +kernel,
    never [1, 2, 3] 10 (pure none) _ small full (.inr rfl) more allowed,
    grows more fun s member => (allowed s member).1⟩

end Mempool.Pool
