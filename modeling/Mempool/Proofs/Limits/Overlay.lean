import Mempool.Proofs.Decimal.Denotation
import Mempool.Proofs.Limits.Members

/-! Limits laid over the standard ones by an environment. Each limit has a variable of its own and
is what that variable denotes, if it denotes anything that the limit may be. -/
namespace Mempool

namespace Environment

variable {env : Environment} {name text : String} {read? : List Char → Option α} {default a : α}

theorem get_of_read (set : env name = some text) (read : read? text.toList = some a) :
    env.get name read? default = a := by
  simp [get, set, read]

theorem get_of_unread (unread : ∀ text, env name = some text → read? text.toList = none) :
    env.get name read? default = default := by
  cases set : env name with
  | none => simp [get, set]
  | some text => simp [get, set, unread text set]

theorem ofBytes_eq_some_iff {settings : List (String × List UInt8)} :
    ofBytes settings name = some text ↔
      settings.lookup name = some text.toUTF8.data.toList := by
  simp only [ofBytes, Option.bind_eq_some_iff, String.fromUTF8?]
  constructor
  · rintro ⟨bytes, found, read⟩
    split at read
    · obtain rfl := Option.some.inj read
      exact found
    · contradiction
  · intro found
    exact ⟨_, found, dif_pos text.isValidUTF8⟩

end Environment

namespace Limits

open Decimal (Setting)

namespace Field

def variableName : Field → String
  | maxTxBytes => "QNET_MEMPOOL_MAX_TX_BYTES"
  | size => "QNET_MEMPOOL_SIZE"
  | maxTxsBytes => "QNET_MEMPOOL_MAX_TXS_BYTES"
  | pendingSize => "QNET_MEMPOOL_PENDING_SIZE"
  | maxPendingTxsBytes => "QNET_MEMPOOL_MAX_PENDING_TXS_BYTES"

def isSigned : Field → Bool
  | maxTxBytes | size | pendingSize => false
  | maxTxsBytes | maxPendingTxsBytes => true

def Accepts (f : Field) (text : String) (i : Int) : Prop :=
  Setting f.isSigned text.toList i ∧ f.Holds i

end Field

/-! ## One field -/

/-- How an environment sets a field: a reader of the field's range looks at its variable, and the
field is as by default where that finds nothing. -/
structure Setter (f : Field) (read? : List Char → Option α) (toInt : α → Int) (default : α) :
    Prop where
  value_ofEnvironment (env : Environment) :
    (ofEnvironment env).value f = toInt (env.get f.variableName read? default)
  value_standard : standard.value f = toInt default
  reads_iff {cs : List Char} {i : Int} :
    (∃ a, read? cs = some a ∧ toInt a = i) ↔ Setting f.isSigned cs i ∧ f.Holds i

theorem exists_setter (f : Field) :
    ∃ (α : Type) (read? : List Char → Option α) (toInt : α → Int) (default : α),
      Setter f read? toInt default := by
  cases f with
  | maxTxBytes | size | pendingSize =>
    exact ⟨UInt64, Decimal.uint64?, fun w => w.toNat, _, fun _ => rfl, rfl,
      Decimal.exists_uint64?_iff⟩
  | maxTxsBytes | maxPendingTxsBytes =>
    exact ⟨Int64, Decimal.int64?, Int64.toInt, _, fun _ => rfl, rfl, Decimal.exists_int64?_iff⟩

section Field

variable {env : Environment} {f : Field}

theorem value_of_accepts {text : String} {i : Int} (set : env f.variableName = some text)
    (accepts : f.Accepts text i) : (ofEnvironment env).value f = i := by
  obtain ⟨_, read?, toInt, default, setter⟩ := exists_setter f
  obtain ⟨a, read, rfl⟩ := setter.reads_iff.mpr accepts
  rw [setter.value_ofEnvironment, Environment.get_of_read set read]

theorem value_of_refused (refused : ∀ text i, env f.variableName = some text → ¬f.Accepts text i) :
    (ofEnvironment env).value f = standard.value f := by
  obtain ⟨_, read?, toInt, default, setter⟩ := exists_setter f
  rw [setter.value_ofEnvironment, setter.value_standard, Environment.get_of_unread]
  intro text set
  rw [Option.eq_none_iff_forall_ne_some]
  intro a read
  exact refused text (toInt a) set (setter.reads_iff.mp ⟨a, read, rfl⟩)

/-- Other variables than the field's own do not matter. -/
theorem value_congr {other : Environment} (same : other f.variableName = env f.variableName) :
    (ofEnvironment other).value f = (ofEnvironment env).value f := by
  obtain ⟨_, read?, toInt, default, setter⟩ := exists_setter f
  simp only [setter.value_ofEnvironment, Environment.get, same]

end Field

/-! ## All fields -/

theorem accepts_value (l : Limits) (f : Field) :
    f.Accepts (Decimal.ofInt (l.value f)) (l.value f) := by
  have holds := l.holds_value f
  refine ⟨?_, holds⟩
  rw [Decimal.ofInt, String.toList_ofList]
  apply Decimal.setting_signed
  intro negative
  cases f with
  | maxTxBytes | size | pendingSize => exact absurd holds.1 (Int.not_le.mpr negative)
  | maxTxsBytes | maxPendingTxsBytes => rfl

/-- Each field is what its own variable sets it to, if that is an integer in its range after at most
a sign, and standard otherwise; the values of any limits can be set. A variable of bytes that are
not UTF-8 is unset. -/
theorem environment_overlays (env : Environment) :
    (∀ f text i, env f.variableName = some text → f.Accepts text i →
      (ofEnvironment env).value f = i) ∧
    (∀ f, (∀ text i, env f.variableName = some text → ¬f.Accepts text i) →
      (ofEnvironment env).value f = standard.value f) ∧
    (∀ f other, other f.variableName = env f.variableName →
      (ofEnvironment other).value f = (ofEnvironment env).value f) ∧
    (∀ l : Limits, (∀ f : Field, env f.variableName = some (Decimal.ofInt (l.value f))) →
      ofEnvironment env = l) ∧
    ∀ settings name text, Environment.ofBytes settings name = some text ↔
      settings.lookup name = some text.toUTF8.data.toList := by
  refine ⟨fun f text i => value_of_accepts, fun f => value_of_refused, fun f other => value_congr,
    ?_, fun settings name text => Environment.ofBytes_eq_some_iff⟩
  intro l set
  apply value_injective
  funext f
  exact value_of_accepts (set f) (l.accepts_value f)

/-- The ends of both ranges. An unsigned limit has no sign but a plus sign, even before zero. -/
theorem environment_overlays_ends :
    let env : Environment := fun name => List.lookup name
      [("QNET_MEMPOOL_SIZE", "+0018446744073709551615"),
       ("QNET_MEMPOOL_MAX_TXS_BYTES", "-9223372036854775808"),
       ("QNET_MEMPOOL_PENDING_SIZE", "-0")]
    (ofEnvironment env).value .size = 18446744073709551615 ∧
      (ofEnvironment env).value .maxTxsBytes = -9223372036854775808 ∧
      (ofEnvironment env).value .pendingSize = 5000 := by
  intro env
  obtain ⟨set, standard, _⟩ := environment_overlays env
  have digits (ds : List Char) (some : ds ≠ []) (all : ds.all Char.isDigit = true) :=
    Decimal.denotes_value some (List.all_eq_true.mp all)
  refine ⟨?_, ?_, ?_⟩
  · exact set .size _ _ rfl ⟨.plus (digits _ (by decide) rfl), by decide⟩
  · exact set .maxTxsBytes _ _ rfl ⟨.minus rfl (digits _ (by decide) rfl), by decide⟩
  · refine standard .pendingSize fun text i found accepts => ?_
    obtain rfl : "-0" = text := Option.some.inj found
    exact absurd (Decimal.setting_minus_iff.mp accepts.1).1 (by decide)

end Limits

end Mempool
