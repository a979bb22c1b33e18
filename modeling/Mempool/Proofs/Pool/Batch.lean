import Mathlib.Data.List.Nodup
import Mempool.Proofs.Key.Order
import Mempool.Proofs.Pool.Representation

/-! Batches: transactions submitted one after another at the height of the current auction. All of
them are admitted exactly if they fit the pool together. That does not depend on their order, and
neither does the pool after them. -/
namespace Mempool.Pool

def Outcome.isAdmission : Outcome → Bool
  | .submitted (.ok _) => true
  | _ => false

def AdmitsAll (p : Pool) (c : Counters) (steps : List Step) : Prop :=
  ∀ seen ∈ p.run c steps, seen.outcome.isAdmission = true

instance (p : Pool) (c : Counters) (steps : List Step) : Decidable (p.AdmitsAll c steps) :=
  List.decidableBAll _ _

/-- Submissions of some transactions, each with the verdict that the pre-check has on it. -/
def batch (height : Int64) (verdict : List UInt8 → Observed (Option Fault))
    (txs : List (List UInt8)) : List Step :=
  txs.map fun tx => .submit tx height (verdict tx)

def storeAll (p : Pool) (txs : List (List UInt8)) : Pool :=
  txs.foldl (fun pool tx => pool.store (Key.ofTx tx) tx) p

/-- What a batch must satisfy as a whole. An empty one fits even a pool that is over its budget. -/
structure FitTogether (p : Pool) (verdict : List UInt8 → Observed (Option Fault))
    (txs : List (List UInt8)) : Prop where
  passed : ∀ tx ∈ txs, (verdict tx).value = none
  unknown : ∀ tx ∈ txs, Key.ofTx tx ∉ p.keys
  distinct : (txs.map Key.ofTx).Nodup
  sizes : ∀ tx ∈ txs, tx.length ≤ p.limits.maxTxBytes.toNat
  room : txs ≠ [] → p.entries.length + txs.length ≤ p.limits.admitted.count.toNat ∧
    p.txsBytes.toInt + totalSize txs ≤ p.limits.admitted.bytes.toInt

/-! ## Storing in any order -/

theorem insertEntry_comm_of_isLT {low high : Key × List UInt8}
    (less : (compare low.1 high.1).isLT) (entries : List (Key × List UInt8)) :
    insertEntry high (insertEntry low entries) = insertEntry low (insertEntry high entries) := by
  have notLess := Key.not_isLT_of_isLT less
  induction entries with
  | nil => simp only [insertEntry, if_pos less, if_neg notLess]
  | cons other rest ih =>
    by_cases highFirst : (compare high.1 other.1).isLT
    · have lowFirst := Key.isLT_trans less highFirst
      simp only [insertEntry, if_pos highFirst, if_pos lowFirst, if_pos less, if_neg notLess]
    · by_cases lowFirst : (compare low.1 other.1).isLT
      · simp only [insertEntry, if_neg highFirst, if_pos lowFirst, if_neg notLess]
      · simp only [insertEntry, if_neg highFirst, if_neg lowFirst, ih]

theorem insertEntry_comm {a b : Key × List UInt8} (different : a.1 ≠ b.1)
    (entries : List (Key × List UInt8)) :
    insertEntry b (insertEntry a entries) = insertEntry a (insertEntry b entries) := by
  rcases Key.isLT_or_isLT_of_ne different with less | less
  · exact insertEntry_comm_of_isLT less entries
  · exact (insertEntry_comm_of_isLT less entries).symm

theorem store_comm (p : Pool) {a b : Key} (different : a ≠ b) (x y : List UInt8) :
    (p.store a x).store b y = (p.store b y).store a x := by
  have entries := insertEntry_comm (a := (a, x)) (b := (b, y)) different p.entries
  simp only [store, entries, Int64.add_assoc,
    Int64.add_comm (UInt64.ofNat x.length).toInt64]

theorem storeAll_perm (p : Pool) {txs others : List (List UInt8)} (reordered : txs.Perm others)
    (distinct : (txs.map Key.ofTx).Nodup) : p.storeAll txs = p.storeAll others := by
  apply reordered.foldl_eq'
  intro x member y other pool
  by_cases same : x = y
  · rw [same]
  · apply store_comm
    intro keys
    exact same (List.inj_on_of_nodup_map distinct member other keys)

/-! ## Fitting in any order -/

namespace FitTogether

variable {p : Pool} {verdict : List UInt8 → Observed (Option Fault)}

theorem nil : p.FitTogether verdict [] := by
  constructor <;> simp

theorem perm {txs others : List (List UInt8)} (fit : p.FitTogether verdict txs)
    (reordered : txs.Perm others) : p.FitTogether verdict others where
  passed tx member := fit.passed tx (reordered.mem_iff.mpr member)
  unknown tx member := fit.unknown tx (reordered.mem_iff.mpr member)
  distinct := (reordered.map Key.ofTx).nodup_iff.mp fit.distinct
  sizes tx member := fit.sizes tx (reordered.mem_iff.mpr member)
  room nonempty := by
    have room := fit.room fun empty => nonempty (empty ▸ reordered).nil_eq.symm
    rwa [reordered.length_eq, totalSize_perm reordered] at room

variable {initial : Limits} {log : Log} {tx : List UInt8} {txs : List (List UInt8)}

theorem head (fit : p.FitTogether verdict (tx :: txs)) (valid : Represents initial log p)
    (small : (tx.length : Int) ≤ Int64.maxValue.toInt) :
    p.check tx p.height = .ok () ∧ (verdict tx).value = none := by
  obtain ⟨count, bytes⟩ := fit.room (List.cons_ne_nil tx txs)
  rw [List.length_cons] at count
  rw [totalSize] at bytes
  refine ⟨(valid.check_ok_iff p.height small).mpr ?_, fit.passed tx List.mem_cons_self⟩
  refine ⟨fit.unknown tx List.mem_cons_self, rfl, fit.sizes tx List.mem_cons_self, ?_, ?_⟩
  · omega
  · omega

/-- Once the first is stored, the others fit what room is left. -/
theorem tail (fit : p.FitTogether verdict (tx :: txs)) (valid : Represents initial log p)
    (small : (tx.length : Int) ≤ Int64.maxValue.toInt) :
    (p.store (Key.ofTx tx) tx).FitTogether verdict txs := by
  obtain ⟨count, bytes⟩ := fit.room (List.cons_ne_nil tx txs)
  obtain ⟨others, distinct⟩ := List.nodup_cons.mp fit.distinct
  constructor
  case passed => exact fun other member => fit.passed other (List.mem_cons_of_mem tx member)
  case unknown =>
    intro other member
    rw [mem_keys_store, not_or]
    refine ⟨?_, fit.unknown other (List.mem_cons_of_mem tx member)⟩
    intro same
    exact others (List.mem_map.mpr ⟨other, member, same⟩)
  case distinct => exact distinct
  case sizes => exact fun other member => fit.sizes other (List.mem_cons_of_mem tx member)
  case room =>
    intro _
    rw [length_entries_store, valid.toInt_txsBytes_store small (fit.head valid small).1,
      limits_store]
    rw [List.length_cons] at count
    rw [totalSize] at bytes
    omega

theorem cons (valid : Represents initial log p) (small : (tx.length : Int) ≤ Int64.maxValue.toInt)
    (passed : p.check tx p.height = .ok ()) (accepted : (verdict tx).value = none)
    (rest : (p.store (Key.ofTx tx) tx).FitTogether verdict txs) :
    p.FitTogether verdict (tx :: txs) := by
  obtain ⟨unknown, _, size, count, bytes⟩ := (valid.check_ok_iff p.height small).mp passed
  constructor
  case passed => exact List.forall_mem_cons.mpr ⟨accepted, rest.passed⟩
  case unknown =>
    refine List.forall_mem_cons.mpr ⟨unknown, ?_⟩
    intro other member known
    exact rest.unknown other member (mem_keys_store.mpr (.inr known))
  case distinct =>
    refine List.nodup_cons.mpr ⟨?_, rest.distinct⟩
    intro repeated
    obtain ⟨other, member, same⟩ := List.mem_map.mp repeated
    exact rest.unknown other member (mem_keys_store.mpr (.inl same))
  case sizes => exact List.forall_mem_cons.mpr ⟨size, rest.sizes⟩
  case room =>
    intro _
    rw [List.length_cons, totalSize]
    -- Without others the check of the first decides; with others the room left for them does.
    cases txs with
    | nil =>
      rw [List.length_nil, totalSize]
      omega
    | cons other later =>
      have room := rest.room (List.cons_ne_nil other later)
      rw [length_entries_store, valid.toInt_txsBytes_store small passed, limits_store] at room
      omega

end FitTogether

/-! ## Runs of a batch -/

theorem admitsAll_cons (p : Pool) (c : Counters) (s : Step) (steps : List Step) :
    p.AdmitsAll c (s :: steps) ↔ (p.step s).value.1.isAdmission = true ∧
      (p.step s).value.2.AdmitsAll (c.recordAll (p.step s).events) steps :=
  List.forall_mem_cons

theorem isAdmission_submit (p : Pool) (tx : List UInt8) (height : Int64)
    (verdict : Observed (Option Fault)) :
    (p.step (.submit tx height verdict)).value.1.isAdmission = true ↔
      p.check tx height = .ok () ∧ verdict.value = none := by
  have taken : (p.step (.submit tx height verdict)).value.1 =
      .submitted (p.submit tx height verdict).value.1 := rfl
  rw [taken, value_submit]
  cases p.check tx height with
  | error refusal => simp [Outcome.isAdmission]
  | ok passed => cases verdict.value <;> simp [Outcome.isAdmission]

theorem step_admission (p : Pool) {tx : List UInt8} {height : Int64}
    {verdict : Observed (Option Fault)}
    (admitted : (p.step (.submit tx height verdict)).value.1.isAdmission = true) :
    (p.step (.submit tx height verdict)).value.2 = p.store (Key.ofTx tx) tx := by
  obtain ⟨passed, accepted⟩ := (isAdmission_submit p tx height verdict).mp admitted
  have taken : (p.step (.submit tx height verdict)).value.2 =
      (p.submit tx height verdict).value.2 := rfl
  rw [taken, value_submit, passed, accepted]

theorem after_batch (p : Pool) (c : Counters) (height : Int64)
    (verdict : List UInt8 → Observed (Option Fault)) (txs : List (List UInt8))
    (admitted : p.AdmitsAll c (batch height verdict txs)) :
    p.after (batch height verdict txs) = p.storeAll txs := by
  induction txs generalizing p c with
  | nil => rfl
  | cons tx txs ih =>
    obtain ⟨first, later⟩ := (admitsAll_cons ..).mp admitted
    have rest := ih _ _ later
    rw [step_admission p first] at rest
    change (p.step (.submit tx height (verdict tx))).value.2.after (batch height verdict txs) = _
    rw [step_admission p first, rest]
    rfl

theorem Represents.admitsAll_batch_iff {initial : Limits} {log : Log} {p : Pool}
    (valid : Represents initial log p) (c : Counters)
    (verdict : List UInt8 → Observed (Option Fault)) (txs : List (List UInt8))
    (small : ∀ tx ∈ txs, (tx.length : Int) ≤ Int64.maxValue.toInt) :
    p.AdmitsAll c (batch p.height verdict txs) ↔ p.FitTogether verdict txs := by
  -- Each admission makes the next check one of a fuller pool, and the log tells by how much.
  induction txs generalizing log p c with
  | nil => exact ⟨fun _ => .nil, fun _ => List.forall_mem_nil _⟩
  | cons tx txs ih =>
    obtain ⟨firstSmall, laterSmall⟩ := List.forall_mem_cons.mp small
    have rest (first : (p.step (.submit tx p.height (verdict tx))).value.1.isAdmission = true)
        (d : Counters) :
        (p.step (.submit tx p.height (verdict tx))).value.2.AdmitsAll d
          (batch p.height verdict txs) ↔ (p.store (Key.ofTx tx) tx).FitTogether verdict txs := by
      have passed := ((isAdmission_submit ..).mp first).1
      rw [valid.check_eq p.height firstSmall] at passed
      rw [step_admission p first]
      exact ih (valid.stores firstSmall passed (verdict tx) (Key.ofTx tx)) d laterSmall
    constructor
    · intro admitted
      obtain ⟨first, later⟩ := (admitsAll_cons ..).mp admitted
      obtain ⟨passed, accepted⟩ := (isAdmission_submit ..).mp first
      exact .cons valid firstSmall passed accepted ((rest first _).mp later)
    · intro fit
      have first := (isAdmission_submit ..).mpr (fit.head valid firstSmall)
      exact (admitsAll_cons ..).mpr ⟨first, (rest first _).mpr (fit.tail valid firstSmall)⟩

/-- A batch that is admitted in one order is admitted in every order, and the pool after it is
the same. -/
theorem batch_admitted_in_any_order (initial : Limits) (initially : initial.Bounded)
    (steps : List Step) (bounded : ∀ s ∈ steps, s.Bounded)
    (verdict : List UInt8 → Observed (Option Fault)) (txs others : List (List UInt8))
    (small : ∀ tx ∈ txs, (tx.length : Int) ≤ Int64.maxValue.toInt)
    (reordered : txs.Perm others) (c d : Counters) :
    let p := (new initial).after steps
    p.AdmitsAll c (batch p.height verdict txs) →
      p.AdmitsAll d (batch p.height verdict others) ∧
      p.after (batch p.height verdict others) = p.after (batch p.height verdict txs) := by
  intro p admitted
  have valid := run_represents initially steps bounded
  have fit := (valid.admitsAll_batch_iff c verdict txs small).mp admitted
  have smallOthers : ∀ tx ∈ others, (tx.length : Int) ≤ Int64.maxValue.toInt := fun tx member =>
    small tx (reordered.mem_iff.mpr member)
  have again : p.AdmitsAll d (batch p.height verdict others) :=
    (valid.admitsAll_batch_iff d verdict others smallOthers).mpr (fit.perm reordered)
  refine ⟨again, ?_⟩
  rw [after_batch p c p.height verdict txs admitted, after_batch p d p.height verdict others again]
  exact (p.storeAll_perm reordered fit.distinct).symm

/-- Three transactions that use up count and bytes, in a pool that already holds one. -/
theorem batch_admitted_in_reverse :
    let limits : Limits := ⟨3, ⟨4, 7⟩, ⟨0, 0⟩⟩
    let steps : List Step := [.submit [9] 10 (pure none), .setHeight 12]
    let verdict : List UInt8 → Observed (Option Fault) := fun tx =>
      pure (if tx = [9] then some (.note "seen") else none)
    let txs : List (List UInt8) := [[1, 2, 3], [], [4, 5, 6]]
    let p := (new limits).after steps
    limits.Bounded ∧ (∀ s ∈ steps, s.Bounded) ∧
    (∀ tx ∈ txs, (tx.length : Int) ≤ Int64.maxValue.toInt) ∧ txs.Perm txs.reverse ∧
    p.AdmitsAll .empty (batch p.height verdict txs) ∧
    p.AdmitsAll .empty (batch p.height verdict txs.reverse) ∧
    p.after (batch p.height verdict txs.reverse) = p.after (batch p.height verdict txs) := by
  intro limits steps verdict txs p
  have initially : limits.Bounded := by decide
  have bounded : ∀ s ∈ steps, s.Bounded := by decide
  have small : ∀ tx ∈ txs, (tx.length : Int) ≤ Int64.maxValue.toInt := by decide
  have reordered : txs.Perm txs.reverse := txs.reverse_perm.symm
  have admitted : p.AdmitsAll .empty (batch p.height verdict txs) := by decide +kernel
  exact ⟨initially, bounded, small, reordered, admitted,
    batch_admitted_in_any_order limits initially steps bounded verdict txs txs.reverse small
      reordered .empty .empty admitted⟩

end Mempool.Pool
