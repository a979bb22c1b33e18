import Mempool.Json.Numeral
import Mempool.Json.StringLiteral

/-! Reading integers of a given range, and telling what a value is that is none. -/
namespace Mempool.Json

/-- Reads a scalar whole, or no more than the opening bracket of a container. -/
def inspect (s : List Char) : Except ReadError (Found × List Char) :=
  match skipSpace s with
  | [] => .error .truncated
  | c :: rest =>
    if c = 'n' then (word ['u', 'l', 'l'] rest).map (.null, ·)
    else if c = 't' then (word ['r', 'u', 'e'] rest).map (.boolean true, ·)
    else if c = 'f' then (word ['a', 'l', 's', 'e'] rest).map (.boolean false, ·)
    else if c = '-' || c.isDigit then do
      let (numeral, rest) ← Numeral.read (c :: rest)
      return (← numeral.found, rest)
    else if c = '"' then (StringLiteral.read rest).map fun (text, rest) => (.string text, rest)
    else if c = '[' then .ok (.sequence, rest)
    else if c = '{' then .ok (.map, rest)
    else .error .malformed

/-- The problem with the value here when something else was expected. -/
def refuse (expected : String) (s : List Char) : Except ReadError α := do
  let (found, _) ← inspect s
  throw (.data (.wrongType found expected))

/-- Reads an integer of the range that `expected` names. -/
def readInteger (expected : String) (low high : Int) (s : List Char) :
    Except ReadError (Int × List Char) := do
  match ← inspect s with
  | (.integer value, rest) =>
    if low ≤ value ∧ value ≤ high then return (value, rest)
    else throw (.data (.outOfRange value expected))
  | (found, _) => throw (.data (.wrongType found expected))

def readUInt64 : Reader UInt64 := fun s => do
  let (value, rest) ← readInteger "usize" 0 0xffffffffffffffff s
  return (UInt64.ofNat value.toNat, rest)

def readInt64 : Reader Int64 := fun s => do
  let (value, rest) ← readInteger "i64" (-0x8000000000000000) 0x7fffffffffffffff s
  return (Int64.ofInt value, rest)

def readByte : Reader UInt8 := fun s => do
  let (value, rest) ← readInteger "u8" 0 255 s
  return (UInt8.ofNat value.toNat, rest)

/-- Reads a list of bytes, of any length. -/
def readBytes : Reader (List UInt8) := fun s =>
  match skipSpace s with
  | '[' :: rest => do
    let (bytes, rest) ← items readByte rest.length true rest
    return (bytes, ← mark ']' rest)
  | s => refuse "a sequence" s

/-- Reads a whole text, which may have white space but nothing else after its value. -/
def readText (reader : Reader α) (text : String) : Except ReadError α := do
  let (value, rest) ← reader text.toList
  if (skipSpace rest).isEmpty then return value else throw .malformed

end Mempool.Json
