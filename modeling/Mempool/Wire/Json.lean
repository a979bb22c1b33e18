import Mempool.Json.Schema
import Mempool.Key
import Mempool.Wire.Message

/-! The JSON forms of a key, a list of its 32 bytes as numbers, and of a key message, an object with
its field as a list of numbers. -/
namespace Mempool.Key

def arrayTitle : String := "an array of length 32"

/-- Items after the thirty-second are not read. -/
def readJson : Json.Reader Key := fun s =>
  match Json.skipSpace s with
  | '[' :: rest => do
    let (bytes, rest) ← Json.items Json.readByte size true rest
    match ofBytes? bytes with
    | some key => return (key, ← Json.mark ']' rest)
    | none => throw (.data (.wrongLength bytes.length arrayTitle))
  | s => Json.refuse arrayTitle s

def ofJson (text : String) : Except Json.ReadError Key := Json.readText readJson text

def jsonTokens (k : Key) : List Json.Token := Json.bytesTokens k.bytes

def toJson (k : Key) : String := Json.written k.jsonTokens

end Mempool.Key

namespace Mempool.KeyMessage

/-- The draft of a message is its field, once that has been read. -/
def schema : Json.Schema (Option (List UInt8)) KeyMessage where
  title := "struct TxKeyProto"
  blank := none
  finish field := (Json.required "tx_key" field).map KeyMessage.mk
  members := [.of "tx_key" id (fun _ field => some field) Json.readBytes]

def ofJson (text : String) : Except Json.ReadError KeyMessage := Json.readText schema.read text

def jsonTokens (m : KeyMessage) : List Json.Token :=
  Json.objectTokens [("tx_key", Json.bytesTokens m.field)]

def toJson (m : KeyMessage) : String := Json.written m.jsonTokens

end Mempool.KeyMessage
