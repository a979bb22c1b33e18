import Mempool.Admission.Refusal
import Mempool.Wire.Message

/-! Errors as they travel through callers: a root wrapped by any number of layers. Each error
shows a message, and its chain lists the error and then its causes, outermost first. A failed
admission ends in such an error, by a refusal or by a failed pre-check with the error that it gave. -/
namespace Mempool

inductive Fault where
  | note (message : String)
  | refusal (refusal : Refusal)
  | wire (error : WireError)
  | context (message : String) (cause : Fault)
  | transparent (inner : Fault)
  | preCheck (reason : Fault)
deriving DecidableEq, Repr

/-- One error of a chain, as far as an observer can tell it from others. -/
structure Link where
  message : String
  isPreCheck : Bool
deriving DecidableEq, Repr

namespace Fault

/-- A pre-check failure and a transparent layer show the message of what is inside. -/
def message : Fault → String
  | note text => text
  | refusal r => r.message
  | wire e => e.message
  | context text _ => text
  | transparent inner => inner.message
  | preCheck reason => reason.message

/-- The error and its causes. A transparent layer takes the place of the error inside, which is
then no longer a link itself. -/
def chain : Fault → List Link
  | note text => [⟨text, false⟩]
  | refusal r => [⟨r.message, false⟩]
  | wire e => ⟨e.message, false⟩ :: e.causes.map fun text => ⟨text, false⟩
  | context text cause => ⟨text, false⟩ :: cause.chain
  | transparent inner => ⟨inner.message, false⟩ :: inner.chain.tail
  | preCheck reason => ⟨reason.message, true⟩ :: reason.chain

def messages (f : Fault) : List String := f.chain.map Link.message

def causes (f : Fault) : List String := f.messages.tail

/-- Whether the error or one of its causes is a failed pre-check. -/
def hasPreCheck (f : Fault) : Bool := f.chain.any Link.isPreCheck

/-- The same of an error that may be missing. -/
def isPreCheckError : Option Fault → Bool
  | none => false
  | some f => f.hasPreCheck

@[simp] theorem chain_ne_nil (f : Fault) : f.chain ≠ [] := by
  cases f <;> simp [chain]

theorem messages_eq_cons (f : Fault) : f.messages = f.message :: f.causes := by
  cases f <;> simp [messages, causes, message, chain]

end Fault

/-- What a caller puts around an error that it passes on. -/
inductive Layer where
  | context (message : String)
  | sealed (message : String)
  | transparent
  | preCheck
deriving DecidableEq, Repr

/-- A sealed layer forgets the error below it. -/
def Layer.around : Layer → Fault → Fault
  | context text, f => .context text f
  | sealed text, _ => .note text
  | transparent, f => .transparent f
  | preCheck, f => .preCheck f

/-- Layers are given innermost first. -/
def Fault.layered (root : Fault) (layers : List Layer) : Fault :=
  layers.foldl (fun f layer => layer.around f) root

@[simp] theorem Fault.layered_nil (root : Fault) : root.layered [] = root := rfl

@[simp] theorem Fault.layered_cons (root : Fault) (layer : Layer) (layers : List Layer) :
    root.layered (layer :: layers) = (layer.around root).layered layers := rfl

theorem Fault.layered_append (root : Fault) (inner outer : List Layer) :
    root.layered (inner ++ outer) = (root.layered inner).layered outer := by
  simp [layered]

@[simp] theorem Fault.layered_append_singleton (root : Fault) (layers : List Layer)
    (layer : Layer) :
    root.layered (layers ++ [layer]) = layer.around (root.layered layers) := by
  simp [layered]

/-! ## Failed admissions -/

inductive Rejection where
  | refused (refusal : Refusal)
  | preCheck (reason : Fault)
deriving DecidableEq, Repr

def Refusal.reason : Refusal → Reason
  | alreadyKnown => .alreadyKnown
  | wrongHeight _ _ => .wrongHeight
  | bundleFull _ _ => .bundleFull
  | malformedForBundle _ _ _ _ => .malformedForBundle
  | tooLarge _ _ => .tooLarge
  | full _ => .full
  | pendingFull _ => .pendingFull

namespace Rejection

def reason : Rejection → Reason
  | refused r => r.reason
  | preCheck _ => .preCheck

def kind (r : Rejection) : RejectionKind := r.reason.kind

/-- The rejection as an error that can be wrapped and passed on. -/
def toFault : Rejection → Fault
  | refused r => .refusal r
  | preCheck reason => .preCheck reason

def message (r : Rejection) : String := r.toFault.message

def causes (r : Rejection) : List String := r.toFault.causes

/-- A failed pre-check has no dump of its own. -/
def debugText? : Rejection → Option String
  | refused r => some r.debugText
  | preCheck _ => none

def isAlreadyKnown (r : Rejection) : Bool := r.reason = .alreadyKnown

def isPreCheck (r : Rejection) : Bool := r.reason = .preCheck

end Rejection

end Mempool
