import Mempool.Limits.Json
import Mempool.Proofs.Json.Objects
import Mempool.Wire.Json

/-! Limits, keys and key messages are read back from their JSON texts, with or without white space
between the tokens. -/
namespace Mempool

namespace Json

/-- How the values of a type are written and read. What is written for a value is read back as that
value, and so are the same tokens with white space before, between and after them; no two values are
written alike. -/
structure RoundTrip (toJson : α → String) (jsonTokens : α → List Token)
    (ofJson : String → Except ReadError α) : Prop where
  tokens (a : α) : toJson a = written (jsonTokens a)
  read_back (a : α) : ofJson (toJson a) = .ok a
  read_spaced (a : α) (text : String) : SpacedOut (jsonTokens a) text → ofJson text = .ok a
  injective : Function.Injective toJson

theorem RoundTrip.of_reads {reader : Reader α} {jsonTokens : α → List Token}
    (reads : ∀ a, Reads reader (jsonTokens a) a) :
    RoundTrip (fun a => written (jsonTokens a)) jsonTokens (readText reader) := by
  have back (a : α) : readText reader (written (jsonTokens a)) = .ok a :=
    (reads a).whole (spacedOut_written (jsonTokens a))
  refine ⟨fun _ => rfl, back, fun a _ => (reads a).whole, ?_⟩
  intro a b same
  have both := (congrArg (readText reader) same).trans (back b)
  exact Except.ok.inj ((back a).symm.trans both)

end Json

def Key.ofItems (bytes : List UInt8) : Except Json.ReadError Key :=
  match ofBytes? bytes with
  | some key => .ok key
  | none => .error (.data (.wrongLength bytes.length arrayTitle))

theorem Key.readJson_of_start {s left : List Char} (start : Json.skipSpace s = '[' :: left) :
    readJson s = (do
      let (bytes, rest) ← Json.items Json.readByte size true left
      let key ← ofItems bytes
      return (key, ← Json.mark ']' rest)) := by
  simp only [readJson, start]
  cases Json.items Json.readByte size true left with
  | error e => rfl
  | ok answer =>
    obtain ⟨bytes, rest⟩ := answer
    simp only [Json.ok_bind, ofItems]
    cases ofBytes? bytes <;> rfl

/-- A list of 32 numbers is read item by item; the closing bracket is all that is left then. -/
theorem Key.reads_jsonTokens (k : Key) : Json.Reads readJson k.jsonTokens k := by
  intro text rest spaced _
  rw [jsonTokens, Json.bytesTokens_eq] at spaced
  obtain ⟨inner, here, spaced⟩ := spaced.head (by rfl)
  obtain ⟨later, found, closed⟩ := Json.items_bytes (Nat.le_of_eq k.length_bytes) spaced
  have whole : ofBytes? k.bytes = some k := dif_pos k.length_bytes
  rw [readJson_of_start here]
  simp only [List.nil_append, size, found, Json.ok_bind, ofItems, whole, closed]
  rfl

theorem KeyMessage.reads_jsonTokens (m : KeyMessage) :
    Json.Reads schema.read m.jsonTokens m := by
  have fills : schema.Fills schema.blank
      [Json.memberTokens ("tx_key", Json.bytesTokens m.field)] (some m.field) :=
    .known rfl rfl (by decide) (Json.reads_readBytes m.field) (.nil _)
  exact fills.reads rfl

theorem Limits.reads_jsonTokens (l : Limits) : Json.Reads schema.read l.jsonTokens l := by
  have fills : schema.Fills schema.blank
      [Json.memberTokens ("max_tx_bytes", Json.numberTokens l.maxTxBytes.toNat),
       Json.memberTokens ("size", Json.numberTokens l.admitted.count.toNat),
       Json.memberTokens ("max_txs_bytes", Json.numberTokens l.admitted.bytes.toInt),
       Json.memberTokens ("pending_size", Json.numberTokens l.pending.count.toNat),
       Json.memberTokens ("max_pending_txs_bytes", Json.numberTokens l.pending.bytes.toInt)]
      ⟨some l.maxTxBytes, some l.admitted.count, some l.admitted.bytes, some l.pending.count,
        some l.pending.bytes⟩ :=
    .known rfl rfl (by decide) (Json.reads_readUInt64 l.maxTxBytes) <|
    .known rfl rfl (by decide) (Json.reads_readUInt64 l.admitted.count) <|
    .known rfl rfl (by decide) (Json.reads_readInt64 l.admitted.bytes) <|
    .known rfl rfl (by decide) (Json.reads_readUInt64 l.pending.count) <|
    .known rfl rfl (by decide) (Json.reads_readInt64 l.pending.bytes) <|
    .nil _
  exact fills.reads rfl

namespace Json

/-- Limits of any size, every key, and messages with a field of any length. -/
theorem round_trips :
    RoundTrip Limits.toJson Limits.jsonTokens Limits.ofJson ∧
      RoundTrip Key.toJson Key.jsonTokens Key.ofJson ∧
      RoundTrip KeyMessage.toJson KeyMessage.jsonTokens KeyMessage.ofJson :=
  ⟨.of_reads Limits.reads_jsonTokens, .of_reads Key.reads_jsonTokens,
    .of_reads KeyMessage.reads_jsonTokens⟩

theorem spaced_message_read_back :
    KeyMessage.ofJson ("\n" ++ r#"{ "tx_key" : [0 , 255]}"# ++ "\t\r") = .ok ⟨[0, 255]⟩ := by
  obtain ⟨_, _, messages⟩ := round_trips
  refine messages.read_spaced _ _ ⟨['\t', '\r'], ?_, by decide⟩
  have space : Blank [' '] := by decide
  rw [String.toList_append, String.toList_append]
  exact .cons (by decide : Blank ['\n']) _ <| .cons space _ <| .cons space _ <| .cons space _ <|
    .flush _ <| .cons space _ <| .cons space _ <| .flush _ <| .flush _ <| .nil _

end Json

end Mempool
