import Mempool.Json.Ignored
import Mempool.Json.Scalar

/-! Records with named members, written as an object or as a list of the members in declaration
order. Objects may hold other members, which are passed over. -/
namespace Mempool.Json

/-- A member of a record: how a draft of the record takes it up. -/
structure Member (draft : Type) where
  name : String
  isSet : draft → Bool
  read : draft → Reader draft

/-- A record, read into a draft which is finished once all members are there. -/
structure Schema (draft record : Type) where
  title : String
  members : List (Member draft)
  blank : draft
  finish : draft → Except DataError record

def Member.of (name : String) (get : draft → Option α) (set : draft → α → draft)
    (value : Reader α) : Member draft where
  name := name
  isSet d := (get d).isSome
  read d s := (value s).map fun (a, rest) => (set d a, rest)

/-- A member that must be there in the end. -/
def required (name : String) (value : Option α) : Except DataError α :=
  match value with
  | some a => .ok a
  | none => .error (.missingField name)

namespace Schema

variable {draft record : Type}

def member? (schema : Schema draft record) (name : String) : Option (Member draft) :=
  schema.members.find? fun m => m.name = name

/-- What is expected of a list: as many items as there are members. -/
def listTitle (schema : Schema draft record) : String :=
  schema.title ++ " with " ++ Decimal.ofNat schema.members.length ++
  (if schema.members.length = 1 then " element" else " elements")

/-- The rest of a member, once its name is known. A member seen before is refused at its name. -/
def readMember (schema : Schema draft record) (name : String) (d : draft) : Reader draft := fun s =>
  match schema.member? name with
  | some m =>
    if m.isSet d then .error (.data (.duplicateField m.name))
    else do m.read d (← mark ':' s)
  | none => do return (d, ← Ignored.skip (← mark ':' s))

/-- Reads up to `limit` members and stops at the closing brace, which is left in the text. -/
def readMembers (schema : Schema draft record) : (limit : Nat) → (first : Bool) → draft →
    Reader draft
  | 0, _, _, _ => .error .truncated
  | limit + 1, first, d, s => do
    match ← nextMember first s with
    | (false, s) => return (d, s)
    | (true, s) =>
      let (name, s) ← StringLiteral.read s
      let (d, s) ← schema.readMember name d s
      readMembers schema limit false d s

/-- Reads the items of a list as these members, `count` others having been read before. -/
def readListed (schema : Schema draft record) : List (Member draft) → (count : Nat) → draft →
    Reader draft
  | [], _, d, s => .ok (d, s)
  | m :: members, count, d, s => do
    match ← nextItem (count == 0) s with
    | (false, _) => throw (.data (.wrongLength count schema.listTitle))
    | (true, s) =>
      let (d, s) ← m.read d s
      readListed schema members (count + 1) d s

def complete (schema : Schema draft record) (d : draft) : Except ReadError record :=
  (schema.finish d).mapError .data

def read (schema : Schema draft record) : Reader record := fun s =>
  match skipSpace s with
  | '[' :: rest => do
    let (d, rest) ← schema.readListed schema.members 0 schema.blank rest
    let value ← schema.complete d
    return (value, ← mark ']' rest)
  | '{' :: rest => do
    let (d, rest) ← schema.readMembers rest.length true schema.blank rest
    let value ← schema.complete d
    return (value, ← mark '}' rest)
  | s => refuse schema.title s

end Schema

end Mempool.Json
