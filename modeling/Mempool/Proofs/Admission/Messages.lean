import Mathlib.Data.List.DropRight
import Mempool.Proofs.Admission.Classification

/-! What an error in layers shows: one message, and a chain of links. A layer may bring a text of
its own or pass on the one below it, and it may add a link, replace one or do away with all. -/
namespace Mempool

namespace Layer

def text? : Layer → Option String
  | context text | .sealed text => some text
  | transparent | preCheck => none

/-- A layer with the error below it as its cause. -/
def addsLink : Layer → Bool
  | context _ | preCheck => true
  | .sealed _ | transparent => false

/-- The layers around the last one that forgets what is below it. -/
def outside (layers : List Layer) : List Layer := layers.rtakeWhile fun layer => !layer.isSealed

theorem outside_append_singleton (layers : List Layer) (last : Layer) :
    outside (layers ++ [last]) = if last.isSealed then [] else outside layers ++ [last] := by
  cases last <;> simp [outside, isSealed]

end Layer

/-- The codec has failed, so the root has the error of the codec as its cause. -/
def Root.isCodecFailure : Root → Bool
  | wire (.undecodable _) | wire (.unencodable _) => true
  | _ => false

namespace Fault

theorem message_around (layer : Layer) (f : Fault) :
    (layer.around f).message = layer.text?.getD f.message := by
  cases layer <;> rfl

theorem length_chain_around (layer : Layer) (f : Fault) :
    (layer.around f).chain.length = if layer.isSealed then 1
      else f.chain.length + if layer.addsLink then 1 else 0 := by
  have some_link := List.length_pos_iff.mpr f.chain_ne_nil
  cases layer <;> simp [Layer.around, Layer.isSealed, Layer.addsLink, chain]
  omega

theorem message_layered (root : Fault) (layers : List Layer) :
    (root.layered layers).message =
      ((layers.filterMap Layer.text?).getLast?).getD root.message := by
  induction layers using List.reverseRecOn with
  | nil => rfl
  | append_singleton layers last ih =>
    rw [layered_append_singleton, message_around, ih]
    cases last <;> simp [Layer.text?]

theorem length_chain_layered (root : Fault) (layers : List Layer) :
    (root.layered layers).chain.length = (Layer.outside layers).countP Layer.addsLink +
      if ∀ layer ∈ layers, layer.isSealed = false then root.chain.length else 1 := by
  induction layers using List.reverseRecOn with
  | nil => simp [Layer.outside]
  | append_singleton layers last ih =>
    rw [layered_append_singleton, length_chain_around, ih, Layer.outside_append_singleton]
    simp only [List.forall_mem_append, List.forall_mem_singleton]
    by_cases forgets : last.isSealed = true
    · simp [forgets]
    · simp [forgets, List.countP_append, List.countP_singleton, Nat.add_right_comm]

/-! ## Messages along a chain -/

/-- In these links each pre-check is followed by a link with the same message. -/
def Echoed (links : List Link) : Prop :=
  ∀ before link after, links = before ++ link :: after → link.isPreCheck = true →
    ∃ next later, after = next :: later ∧ next.message = link.message

theorem Echoed.tail {links : List Link} (echoed : Echoed links) : Echoed links.tail := by
  intro before link after split
  cases links with
  | nil => simp at split
  | cons first links => exact echoed (first :: before) link after (congrArg (first :: ·) split)

theorem Echoed.cons {first : Link} {links : List Link} (echoed : Echoed links)
    (here : first.isPreCheck = true → ∃ next later, links = next :: later ∧
      next.message = first.message) : Echoed (first :: links) := by
  intro before link after split
  cases before with
  | nil =>
    obtain ⟨rfl, rfl⟩ := List.cons.inj split
    exact here
  | cons other before => exact echoed before link after (List.cons.inj split).2

theorem echoed_chain (f : Fault) : Echoed f.chain := by
  have none_needed {text : String} {links : List Link} (echoed : Echoed links) :
      Echoed (⟨text, false⟩ :: links) := echoed.cons (by simp)
  have nil : Echoed [] := by intro before link after split; simp at split
  -- Only a pre-check makes a link that needs an echo, and its reason gives that.
  induction f with
  | note text => exact none_needed nil
  | refusal r => exact none_needed nil
  | wire e =>
    cases e with
    | absent => exact none_needed nil
    | undecodable cause => exact none_needed (none_needed nil)
    | unencodable cause => exact none_needed (none_needed nil)
  | context text cause ih => exact none_needed ih
  | transparent inner ih => exact none_needed ih.tail
  | preCheck reason ih =>
    exact ih.cons fun _ => ⟨_, _, reason.chain_eq, rfl⟩

end Fault

theorem Root.length_chain (root : Root) :
    root.toFault.chain.length = if root.isCodecFailure then 2 else 1 := by
  cases root with
  | wire e => cases e <;> rfl
  | _ => rfl

/-- The message is that of the last layer with a text, or else of the root. The links are those of
the layers outside, one at the bottom of them, and one more if that is a root from the codec. Where
a link is a pre-check, the next one says the same. -/
theorem Origin.shows (o : Origin) :
    o.fault.message =
      ((o.layers.filterMap Layer.text?).getLast?).getD o.root.toFault.message ∧
    o.fault.chain.length = (Layer.outside o.layers).countP Layer.addsLink +
      (if (∀ layer ∈ o.layers, layer.isSealed = false) ∧ o.root.isCodecFailure then 2 else 1) ∧
    ∀ before link after, o.fault.chain = before ++ link :: after → link.isPreCheck = true →
      ∃ next later, after = next :: later ∧ next.message = link.message := by
  refine ⟨?_, ?_, o.fault.echoed_chain⟩
  · rw [o.fault_eq_layered, Fault.message_layered]
  · rw [o.fault_eq_layered, Fault.length_chain_layered, Root.length_chain]
    split_ifs <;> simp_all

/-- It is not only where bytes cannot be decoded that a root has two links. -/
theorem Origin.two_links_of_unencodable :
    let o : Origin := .plain (.wire (.unencodable (.other "the size limit has been reached"))) []
    (∀ layer ∈ o.layers, layer.isSealed = false) ∧ (∀ e, o.root ≠ .wire (.undecodable e)) ∧
      o.fault.chain.length ≠ (Layer.outside o.layers).countP Layer.addsLink + 1 := by
  refine ⟨List.forall_mem_nil _, ?_, by decide⟩
  rintro e ⟨⟩

/-- The transparent layer hides a pre-check and takes over its message. -/
example :
    let layers : List Layer := [.sealed "fee", .context "tx", .preCheck, .transparent]
    (Origin.plain (.wire .truncated) layers).fault.chain =
      [⟨"tx", false⟩, ⟨"tx", false⟩, ⟨"fee", false⟩] := by
  decide

end Mempool
