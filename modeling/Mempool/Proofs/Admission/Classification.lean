import Mathlib.Data.List.Basic
import Mathlib.Data.List.Induction
import Mempool.Admission.Fault

/-! How errors come about, and when one is recognised as a failed pre-check. An error is a root in
the layers that callers put around it; a root that is itself a failed pre-check is one more layer
around its reason, so that every error is a plain root in a single list of layers. The search runs
along the causes; a layer may add a link to them, hide the link below it, or cut off all that is
inside. A pre-check layer is found exactly if no sealed layer lies around it and no transparent one
directly on it. -/
namespace Mempool

/-- An error with no other error inside. -/
inductive Root where
  | note (message : String)
  | refusal (refusal : Refusal)
  | wire (error : WireError)
deriving DecidableEq, Repr

def Root.toFault : Root → Fault
  | note text => .note text
  | refusal r => .refusal r
  | wire e => .wire e

inductive Origin where
  | plain (root : Root) (layers : List Layer)
  | preCheck (reason : Origin) (layers : List Layer)
deriving DecidableEq, Repr

namespace Origin

/-- The error as it is put together, inside out. -/
def fault : Origin → Fault
  | plain root layers => root.toFault.layered layers
  | preCheck reason layers => (Fault.preCheck reason.fault).layered layers

def root : Origin → Root
  | plain root _ => root
  | preCheck reason _ => reason.root

/-- All layers around the innermost root, innermost first. -/
def layers : Origin → List Layer
  | plain _ layers => layers
  | preCheck reason layers => reason.layers ++ .preCheck :: layers

theorem fault_eq_layered (o : Origin) : o.fault = o.root.toFault.layered o.layers := by
  induction o with
  | plain root layers => rfl
  | preCheck reason layers ih =>
    rw [fault, ih, Origin.layers, Origin.root, Fault.layered_append, Fault.layered_cons]
    rfl

end Origin

/-! ## The search -/

def Layer.isSealed : Layer → Bool
  | sealed _ => true
  | _ => false

def Layer.silent : Layer → Layer
  | context _ => context ""
  | sealed _ => sealed ""
  | transparent => transparent
  | preCheck => preCheck

namespace Fault

/-- The error that this one gives as its cause. A transparent layer gives the cause of the error
inside, and so hides that error itself. -/
def cause? : Fault → Option Fault
  | note _ | refusal _ => none
  | wire e => e.causes.head?.map note
  | context _ cause => some cause
  | transparent inner => inner.cause?
  | preCheck reason => some reason

def isPreCheck : Fault → Bool
  | preCheck _ => true
  | _ => false

def causedByPreCheck (f : Fault) : Bool := f.cause?.any hasPreCheck

/-- The chain is what the search visits: the error, then its cause, and so on from there. -/
theorem chain_eq (f : Fault) :
    f.chain = ⟨f.message, f.isPreCheck⟩ :: (f.cause?.map chain).getD [] := by
  induction f with
  | wire e => cases e <;> rfl
  | transparent inner ih => rw [chain, ih]; rfl
  | _ => rfl

theorem hasPreCheck_eq (f : Fault) : f.hasPreCheck = (f.isPreCheck || f.causedByPreCheck) := by
  rw [hasPreCheck, chain_eq, causedByPreCheck]
  cases f.cause? <;> rfl

theorem hasPreCheck_around (layer : Layer) (f : Fault) :
    (layer.around f).hasPreCheck = match layer with
      | .context _ => f.hasPreCheck
      | .sealed _ => false
      | .transparent => f.causedByPreCheck
      | .preCheck => true := by
  rw [hasPreCheck_eq]
  cases layer <;> rfl

theorem causedByPreCheck_around (layer : Layer) (f : Fault) :
    (layer.around f).causedByPreCheck = match layer with
      | .context _ | .preCheck => f.hasPreCheck
      | .sealed _ => false
      | .transparent => f.causedByPreCheck := by
  cases layer <;> rfl

end Fault

/-! ## Layers through which a pre-check shows -/

/-- Under an optional further layer, some pre-check layer has no sealed layer anywhere after it and
no transparent one right after it. -/
def ShowsPreCheck (layers : List Layer) (outer : Option Layer) : Prop :=
  ∃ before after, layers = before ++ .preCheck :: after ∧
    (∀ layer ∈ after, layer.isSealed = false) ∧ after.head?.or outer ≠ some .transparent

namespace ShowsPreCheck

theorem not_nil (outer : Option Layer) : ¬ShowsPreCheck [] outer := by
  rintro ⟨before, after, split, _⟩
  simp at split

/-- The last layer is the one that shows, or it lets one below it show. -/
theorem append_singleton_iff (layers : List Layer) (last : Layer) (outer : Option Layer) :
    ShowsPreCheck (layers ++ [last]) outer ↔
      (last = .preCheck ∧ outer ≠ some .transparent) ∨
      (last.isSealed = false ∧ ShowsPreCheck layers (some last)) := by
  constructor
  · rintro ⟨before, after, split, unsealed, shown⟩
    rcases List.eq_nil_or_concat' after with rfl | ⟨inner, final, rfl⟩
    · obtain ⟨_, rfl⟩ := List.append_singleton_inj.mp split
      exact .inl ⟨rfl, shown⟩
    · rw [← List.cons_append, ← List.append_assoc] at split
      obtain ⟨same, rfl⟩ := List.append_singleton_inj.mp split
      refine .inr ⟨unsealed last (by simp), before, inner, same, ?_, ?_⟩
      · exact fun layer member => unsealed layer (List.mem_append_left [last] member)
      · cases inner <;> exact shown
  · rintro (⟨rfl, shown⟩ | ⟨notSealed, before, inner, rfl, unsealed, shown⟩)
    · exact ⟨layers, [], rfl, by simp, shown⟩
    · refine ⟨before, inner ++ [last], by simp, ?_, ?_⟩
      · intro layer member
        rcases List.mem_append.mp member with below | top
        · exact unsealed layer below
        · rw [List.mem_singleton.mp top, notSealed]
      · cases inner <;> exact shown

theorem under_iff {layers : List Layer} {outer : Layer} (visible : outer ≠ .transparent) :
    ShowsPreCheck layers (some outer) ↔ ShowsPreCheck layers none := by
  have same (after : List Layer) : after.head?.or (some outer) ≠ some .transparent ↔
      after.head?.or none ≠ some .transparent := by
    cases after <;> simp [visible]
  simp only [ShowsPreCheck, same]

end ShowsPreCheck

theorem Root.hasPreCheck_toFault (root : Root) : root.toFault.hasPreCheck = false := by
  cases root with
  | wire e => cases e <;> rfl
  | _ => rfl

theorem Root.causedByPreCheck_toFault (root : Root) : root.toFault.causedByPreCheck = false := by
  cases root with
  | wire e => cases e <;> rfl
  | _ => rfl

theorem Root.layered_recognised_iff (root : Root) (layers : List Layer) :
    ((root.toFault.layered layers).hasPreCheck = true ↔ ShowsPreCheck layers none) ∧
    ((root.toFault.layered layers).causedByPreCheck = true ↔
      ShowsPreCheck layers (some .transparent)) := by
  -- A transparent layer asks for the causes alone, so both answers are followed at once.
  induction layers using List.reverseRecOn with
  | nil =>
    simp [root.hasPreCheck_toFault, root.causedByPreCheck_toFault, ShowsPreCheck.not_nil]
  | append_singleton layers last ih =>
    obtain ⟨found, caused⟩ := ih
    simp only [Fault.layered_append_singleton, Fault.hasPreCheck_around,
      Fault.causedByPreCheck_around, ShowsPreCheck.append_singleton_iff]
    cases last with
    | context text => simp [found, Layer.isSealed, ShowsPreCheck.under_iff]
    | sealed text => simp [Layer.isSealed]
    | transparent => simp [caused, Layer.isSealed]
    | preCheck => simp [found, Layer.isSealed, ShowsPreCheck.under_iff]

/-! ## Answers without texts -/

/-- Two errors that the search cannot tell apart, inside any further layers. -/
def Fault.Alike (f g : Fault) : Prop :=
  f.hasPreCheck = g.hasPreCheck ∧ f.causedByPreCheck = g.causedByPreCheck

theorem Fault.Alike.layered {f g : Fault} (alike : f.Alike g) (layers : List Layer) :
    (f.layered layers).Alike (g.layered (layers.map Layer.silent)) := by
  induction layers generalizing f g with
  | nil => exact alike
  | cons layer layers ih =>
    obtain ⟨found, caused⟩ := alike
    apply ih
    simp only [Alike, hasPreCheck_around, causedByPreCheck_around]
    cases layer <;> simp [Layer.silent, found, caused]

/-- An error is recognised exactly if one of its pre-check layers is not sealed in by any later
layer and not covered by a transparent one. The same layers without their texts, around an error
that says nothing, get the same answer. -/
theorem Origin.recognised_iff_preCheck_shows (o : Origin) :
    (Fault.isPreCheckError (some o.fault) = true ↔
      ∃ before after, o.layers = before ++ .preCheck :: after ∧
        (∀ layer ∈ after, layer.isSealed = false) ∧ after.head? ≠ some .transparent) ∧
    Fault.isPreCheckError (some o.fault) =
      Fault.isPreCheckError (some ((Fault.note "").layered (o.layers.map Layer.silent))) := by
  simp only [Fault.isPreCheckError]
  rw [o.fault_eq_layered]
  constructor
  · rw [(o.root.layered_recognised_iff o.layers).1]
    simp only [ShowsPreCheck, Option.or_none]
  · have alike : o.root.toFault.Alike (.note "") :=
      ⟨o.root.hasPreCheck_toFault, o.root.causedByPreCheck_toFault⟩
    exact (alike.layered o.layers).1

/-- A transparent layer covers the pre-check that it lies on, but not the one in its reason. -/
example :
    (Origin.plain (.note "fee") [.preCheck, .transparent]).fault.hasPreCheck = false ∧
    (Origin.preCheck (.plain (.note "fee") [.preCheck]) [.transparent]).fault.hasPreCheck =
      true := by
  decide

end Mempool
