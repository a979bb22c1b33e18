import Mempool.Metrics.Observed

/-! Counters over events. A series is present once it has been counted at least once. In text form
each family with a series present has two header lines and then one line a series; families stand by
name and series by their label values. -/
namespace Mempool

structure Counters where
  rejections : Reason → Nat
  conversions : Bool → Nat

namespace Counters

def empty : Counters := ⟨fun _ => 0, fun _ => 0⟩

instance : Inhabited Counters := ⟨empty⟩

def record (c : Counters) : Event → Counters
  | .rejected reason =>
    { c with rejections := fun r => if r = reason then c.rejections r + 1 else c.rejections r }
  | .keyConverted success =>
    { c with conversions := fun s => if s = success then c.conversions s + 1 else c.conversions s }
  | .oddField _ => c

def recordAll (c : Counters) (events : List Event) : Counters := events.foldl record c

@[simp] theorem recordAll_nil (c : Counters) : c.recordAll [] = c := rfl

@[simp] theorem recordAll_cons (c : Counters) (e : Event) (events : List Event) :
    c.recordAll (e :: events) = (c.record e).recordAll events := rfl

@[simp] theorem recordAll_append (c : Counters) (xs ys : List Event) :
    c.recordAll (xs ++ ys) = (c.recordAll xs).recordAll ys := by
  simp [recordAll]

theorem rejections_recordAll (c : Counters) (events : List Event) (reason : Reason) :
    (c.recordAll events).rejections reason =
      c.rejections reason + events.count (.rejected reason) := by
  induction events generalizing c with
  | nil => rfl
  | cons e events ih =>
    rw [recordAll_cons, ih, List.count_cons]
    cases e with
    | rejected r =>
      by_cases same : reason = r
      · subst same; simp [record]; omega
      · simp [record, same, Ne.symm same]
    | keyConverted success => simp [record]
    | oddField length => simp [record]

theorem conversions_recordAll (c : Counters) (events : List Event) (success : Bool) :
    (c.recordAll events).conversions success =
      c.conversions success + events.count (.keyConverted success) := by
  induction events generalizing c with
  | nil => rfl
  | cons e events ih =>
    rw [recordAll_cons, ih, List.count_cons]
    cases e with
    | rejected r => simp [record]
    | keyConverted s =>
      by_cases same : success = s
      · subst same; simp [record]; omega
      · simp [record, same, Ne.symm same]
    | oddField length => simp [record]

/-- The label of a conversion's outcome. -/
def resultLabel (success : Bool) : String := if success then "success" else "failure"

/-- The reasons counted so far, by the labels of kind and reason. -/
def touchedReasons (c : Counters) : List Reason := Reason.all.filter fun r => 0 < c.rejections r

/-- The outcomes counted so far, by label. -/
def touchedResults (c : Counters) : List Bool := [false, true].filter fun s => 0 < c.conversions s

end Counters

/-! ## The text form -/

structure Sample where
  labels : List (String × String)
  count : Nat
deriving DecidableEq, Repr

structure Family where
  name : String
  help : String
  samples : List Sample
deriving DecidableEq, Repr

namespace Sample

def labelText (label : String × String) : String := label.1 ++ "=\"" ++ label.2 ++ "\""

def line (family : String) (s : Sample) : String :=
  family ++ Text.braced (",".intercalate (s.labels.map labelText)) ++ " " ++
  Decimal.ofNat s.count ++ "\n"

/-- The label values in one word, as they name the series in a listing. -/
def series (s : Sample) : String := ",".intercalate (s.labels.map fun l => l.1 ++ "=" ++ l.2)

end Sample

def Family.text (f : Family) : String :=
  match f.samples with
  | [] => ""
  | samples =>
    "# HELP " ++ f.name ++ " " ++ f.help ++ "\n# TYPE " ++ f.name ++ " counter\n" ++
    String.join (samples.map (Sample.line f.name))

namespace Counters

def rejectionFamily (c : Counters) : Family where
  name := "qnet_mempool_rejections_total"
  help := "Total number of rejected transactions"
  samples := c.touchedReasons.map fun r =>
    ⟨[("kind", r.kind.label), ("reason", r.label)], c.rejections r⟩

def conversionFamily (c : Counters) : Family where
  name := "qnet_mempool_tx_key_decode_total"
  help := "Total number of tx key wire conversions"
  samples := c.touchedResults.map fun s => ⟨[("result", resultLabel s)], c.conversions s⟩

def families (c : Counters) : List Family := [c.rejectionFamily, c.conversionFamily]

def exposition (c : Counters) : String := String.join (c.families.map Family.text)

/-- Every series present with its count. -/
def listing (c : Counters) : List (String × Nat) :=
  c.families.flatMap fun f => f.samples.map fun s => (s.series, s.count)

end Counters

end Mempool
