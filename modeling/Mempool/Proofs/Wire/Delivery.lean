import Mempool.Metrics.Counters
import Mempool.Proofs.Wire.Codec
import Mempool.Wire.Reception

/-! Key messages from one end to the other. A channel that only cuts, extends or drops messages
never changes a key: the receiver has all keys in their order, or learns that one is missing. -/
namespace Mempool

/-- What becomes of one key message, of forty bytes, on the way. -/
inductive Fate where
  | intact
  | extended (extra : List UInt8)
  | cut (length : Fin 40)
  | dropped
deriving DecidableEq, Repr

namespace Fate

def delivery : Fate → Delivery
  | intact => .carried .none
  | extended extra => .carried ⟨none, [], extra⟩
  | cut length => .carried ⟨some length, [], []⟩
  | dropped => .lost

def loses : Fate → Bool
  | cut _ | dropped => true
  | intact | extended _ => false

end Fate

namespace Arrival

theorem toMessage?_ofBytes (bytes : List UInt8) :
    (ofBytes bytes).toMessage? = (KeyMessage.decode bytes).toOption := by
  unfold ofBytes
  cases KeyMessage.decode bytes <;> rfl

end Arrival

namespace Gossip

/-- Transactions whose keys are sent, each with the fate of its message. -/
abbrev Parcels := List (List UInt8 × Fate)

def arrivals (sent : Parcels) : List Arrival :=
  sent.map fun (tx, fate) => send tx fate.delivery

theorem toMessage?_send (tx : List UInt8) (fate : Fate) :
    (send tx fate.delivery).toMessage? =
      if fate.loses then none else some (Key.ofTx tx).toMessage := by
  have fits := (Key.ofTx tx).fits_toMessage
  cases fate with
  | dropped => rfl
  | intact =>
    have whole := KeyMessage.decode_encode_append _ [] fits
    rw [List.append_nil] at whole
    simp only [Fate.delivery, send, Damage.apply_none, Arrival.toMessage?_ofBytes, whole]
    rfl
  | extended extra =>
    have whole := KeyMessage.decode_encode_append _ extra fits
    change (Arrival.ofBytes ((Key.ofTx tx).toMessage.encode ++ extra)).toMessage? = _
    rw [Arrival.toMessage?_ofBytes, whole]
    rfl
  | cut length =>
    have total := (Key.ofTx tx).length_encode_toMessage
    have shorter : (Key.ofTx tx).toMessage.encode.take length ≠ (Key.ofTx tx).toMessage.encode := by
      intro same
      have lengths := congrArg List.length same
      rw [List.length_take, total] at lengths
      omega
    have refused := KeyMessage.decode_proper_prefix fits (List.take_prefix length _) shorter
    change (Arrival.ofBytes ((Key.ofTx tx).toMessage.encode.take length ++ [])).toMessage? = _
    rw [List.append_nil, Arrival.toMessage?_ofBytes, refused]
    rfl

/-- The whole reception, by the place of the first lost message. -/
theorem keys_arrivals (sent : Parcels) :
    keys (arrivals sent) = match sent.findIdx? (·.2.loses) with
      | none => ⟨.ok (sent.map (Key.ofTx ·.1)), List.replicate sent.length (.keyConverted true)⟩
      | some i => ⟨.error .absent, List.replicate i (.keyConverted true) ++ [.keyConverted false]⟩ := by
  induction sent with
  | nil => rfl
  | cons parcel sent ih =>
    obtain ⟨tx, fate⟩ := parcel
    simp only [keys, arrivals, List.map_cons, toMessage?_send, List.findIdx?_cons] at ih ⊢
    by_cases lost : fate.loses = true
    · simp only [if_pos lost, Key.receiveAll_none_cons]
      rfl
    · have field : (Key.ofTx tx).toMessage.field.length = Key.size := (Key.ofTx tx).length_bytes
      simp only [if_neg lost, Key.receiveAll_some_cons, ih, Key.fieldEvents, if_pos field]
      cases sent.findIdx? (·.2.loses) with
      | none => simp [Key.toMessage, Except.map, List.replicate_succ]
      | some i => simp [Except.map, List.replicate_succ]

theorem keys_arrivals_of_delivered {sent : Parcels}
    (delivered : ∀ parcel ∈ sent, parcel.2.loses = false) :
    (keys (arrivals sent)).value = .ok (Key.ofTxs (sent.map Prod.fst)) := by
  rw [keys_arrivals, List.findIdx?_eq_none_iff.mpr delivered, Key.ofTxs, List.map_map]
  rfl

theorem keys_arrivals_of_lost {sent : Parcels} {i : Nat}
    (lost : sent.findIdx? (·.2.loses) = some i) :
    keys (arrivals sent) =
      ⟨.error .absent, List.replicate i (.keyConverted true) ++ [.keyConverted false]⟩ := by
  rw [keys_arrivals, lost]

theorem delivered_of_ok {sent : Parcels} {ks : List Key}
    (ok : (keys (arrivals sent)).value = .ok ks) : ∀ parcel ∈ sent, parcel.2.loses = false := by
  apply List.findIdx?_eq_none_iff.mp
  cases lost : sent.findIdx? (·.2.loses) with
  | none => rfl
  | some i =>
    rw [keys_arrivals_of_lost lost] at ok
    contradiction

theorem exists_first_loss {sent : Parcels} {parcel : List UInt8 × Fate} (member : parcel ∈ sent)
    (loses : parcel.2.loses = true) : ∃ i, sent.findIdx? (·.2.loses) = some i := by
  cases lost : sent.findIdx? (·.2.loses) with
  | none =>
    have kept := List.findIdx?_eq_none_iff.mp lost parcel member
    exact absurd loses (ne_true_of_eq_false kept)
  | some i => exact ⟨i, rfl⟩

theorem counters_of_lost {sent : Parcels} {i : Nat}
    (lost : sent.findIdx? (·.2.loses) = some i) (c : Counters) :
    (c.recordAll (keys (arrivals sent)).events).conversions true = c.conversions true + i ∧
    (c.recordAll (keys (arrivals sent)).events).conversions false = c.conversions false + 1 ∧
    (c.recordAll (keys (arrivals sent)).events).rejections = c.rejections := by
  rw [keys_arrivals_of_lost lost]
  refine ⟨?_, ?_, ?_⟩
  · rw [Counters.conversions_recordAll]
    simp
  · rw [Counters.conversions_recordAll]
    simp [List.count_replicate]
  · funext reason
    rw [Counters.rejections_recordAll]
    simp [List.count_replicate]

/-- All keys arrive, in order, exactly if no message is cut or dropped. Otherwise there is no key
at all, and the counters show how many messages came before the first lost one. -/
theorem delivered_or_first_loss (sent : Parcels) (c : Counters) :
    let received := keys (arrivals sent)
    let after := c.recordAll received.events
    ((∃ ks, received.value = .ok ks) ↔ ∀ parcel ∈ sent, parcel.2.loses = false) ∧
    (∀ ks, received.value = .ok ks → ks = Key.ofTxs (sent.map Prod.fst)) ∧
    ((∃ parcel ∈ sent, parcel.2.loses = true) → ∃ i, sent.findIdx? (·.2.loses) = some i ∧
      received.value = .error .absent ∧
      after.conversions true = c.conversions true + i ∧
      after.conversions false = c.conversions false + 1 ∧
      after.rejections = c.rejections) := by
  intro received after
  refine ⟨⟨?_, ?_⟩, ?_, ?_⟩
  · rintro ⟨ks, ok⟩
    exact delivered_of_ok ok
  · exact fun delivered => ⟨_, keys_arrivals_of_delivered delivered⟩
  · intro ks ok
    exact Except.ok.inj (ok.symm.trans (keys_arrivals_of_delivered (delivered_of_ok ok)))
  · rintro ⟨parcel, member, loses⟩
    obtain ⟨i, lost⟩ := exists_first_loss member loses
    have failed := congrArg Observed.value (keys_arrivals_of_lost lost)
    exact ⟨i, lost, failed, counters_of_lost lost c⟩

/-- A message with trailing bytes is converted; the next one, a byte short, ends the list. -/
theorem first_loss_after_extended :
    let sent : Parcels := [([1], .extended [0xff]), ([2], .cut 39), ([3], .dropped), ([4], .intact)]
    let received := keys (arrivals sent)
    (∃ parcel ∈ sent, parcel.2.loses = true) ∧ sent.findIdx? (·.2.loses) = some 1 ∧
    received.value = .error .absent ∧
    (Counters.empty.recordAll received.events).conversions true = 1 ∧
    (Counters.empty.recordAll received.events).conversions false = 1 := by
  intro sent received
  have lossy : ∃ parcel ∈ sent, parcel.2.loses = true := ⟨([3], .dropped), by decide, rfl⟩
  have first : sent.findIdx? (·.2.loses) = some 1 := by decide
  obtain ⟨_, _, lost⟩ := delivered_or_first_loss sent .empty
  obtain ⟨i, place, absent, successes, failures, _⟩ := lost lossy
  obtain rfl := Option.some.inj (first.symm.trans place)
  exact ⟨lossy, first, absent, successes, failures⟩

end Gossip

end Mempool
