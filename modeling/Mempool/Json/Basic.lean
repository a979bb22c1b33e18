import Mempool.Decimal.Floating
import Mempool.Text.Debug

/-! JSON texts. They are written as tokens, one after another without white space. Readers take
values off the front of a text, in which white space may stand between tokens; what can be wrong is
that the text breaks the grammar, ends early, or holds a value that is not the one asked for. -/
namespace Mempool.Json

/-! ## Written texts -/

abbrev Token := List Char

def numberTokens (n : Int) : List Token := [Decimal.signed n]

/-- A string without characters that need an escape. -/
def nameToken (name : String) : Token := '"' :: name.toList ++ ['"']

def separated (parts : List (List Token)) : List Token := (parts.intersperse [[',']]).flatten

def listTokens (parts : List (List Token)) : List Token := [['[']] ++ separated parts ++ [[']']]

def memberTokens (member : String × List Token) : List Token :=
  nameToken member.1 :: [':'] :: member.2

def objectTokens (members : List (String × List Token)) : List Token :=
  [['{']] ++ separated (members.map memberTokens) ++ [['}']]

def bytesTokens (bytes : List UInt8) : List Token :=
  listTokens (bytes.map fun b => numberTokens b.toNat)

def written (tokens : List Token) : String := String.ofList tokens.flatten

/-! ## Problems -/

/-- What stood in the text where something else was expected. Containers are known by their
opening bracket alone; floating-point numbers are given by their bits. -/
inductive Found where
  | null
  | boolean (value : Bool)
  | integer (value : Int)
  | floating (bits : UInt64)
  | string (value : String)
  | sequence
  | map
deriving DecidableEq, Repr

inductive DataError where
  | wrongType (found : Found) (expected : String)
  | outOfRange (value : Int) (expected : String)
  | wrongLength (length : Nat) (expected : String)
  | duplicateField (name : String)
  | missingField (name : String)
deriving DecidableEq, Repr

inductive ReadError where
  | data (cause : DataError)
  | malformed
  | truncated
deriving DecidableEq, Repr

def quoteName (name : String) : String := "`" ++ name ++ "`"

namespace Found

def text : Found → String
  | null => "null"
  | boolean true => "boolean `true`"
  | boolean false => "boolean `false`"
  | integer value => "integer " ++ quoteName (Decimal.ofInt value)
  | floating bits => "floating point " ++ quoteName (Decimal.ofFloatBits bits)
  | string value => "string " ++ Text.quoted value
  | sequence => "sequence"
  | map => "map"

end Found

def DataError.message : DataError → String
  | wrongType found expected => "invalid type: " ++ found.text ++ ", expected " ++ expected
  | outOfRange value expected =>
    "invalid value: " ++ (Found.integer value).text ++ ", expected " ++ expected
  | wrongLength length expected =>
    "invalid length " ++ Decimal.ofNat length ++ ", expected " ++ expected
  | duplicateField name => "duplicate field " ++ quoteName name
  | missingField name => "missing field " ++ quoteName name

/-- A reader takes a value off the front of the text and leaves the rest. -/
abbrev Reader (α : Type) := List Char → Except ReadError (α × List Char)

/-! ## White space, words and marks -/

def isSpace (c : Char) : Bool := c = ' ' || c = '\n' || c = '\t' || c = '\r'

def skipSpace (s : List Char) : List Char := s.dropWhile isSpace

/-- Takes exactly this word off the text. -/
def word : (expected : List Char) → List Char → Except ReadError (List Char)
  | [], s => .ok s
  | _ :: _, [] => .error .truncated
  | e :: expected, c :: s => if c = e then word expected s else .error .malformed

/-- Takes a mark off the text, after any white space. -/
def mark (expected : Char) (s : List Char) : Except ReadError (List Char) :=
  word [expected] (skipSpace s)

/-- Moves on in a list. The answer is whether another item starts here, or else the closing
bracket, which is left in the text. -/
def nextItem (first : Bool) (s : List Char) : Except ReadError (Bool × List Char) :=
  match skipSpace s with
  | [] => .error .truncated
  | ']' :: rest => .ok (false, ']' :: rest)
  | c :: rest =>
    if first then .ok (true, c :: rest)
    else if c = ',' then
      match skipSpace rest with
      | [] => .error .truncated
      | ']' :: _ => .error .malformed
      | rest => .ok (true, rest)
    else .error .malformed

/-- Moves on in an object. The answer is whether another name starts here, its opening quote
taken off, or else the closing brace, which is left in the text. -/
def nextMember (first : Bool) (s : List Char) : Except ReadError (Bool × List Char) :=
  match skipSpace s with
  | [] => .error .truncated
  | '}' :: rest => .ok (false, '}' :: rest)
  | c :: rest =>
    if first then (word ['"'] (c :: rest)).map (true, ·)
    else if c = ',' then (mark '"' rest).map (true, ·)
    else .error .malformed

/-- Reads items up to the closing bracket, which is left in the text, but no more than `limit`. -/
def items (item : Reader α) : (limit : Nat) → (first : Bool) → Reader (List α)
  | 0, _, s => .ok ([], s)
  | limit + 1, first, s => do
    match ← nextItem first s with
    | (false, s) => return ([], s)
    | (true, s) =>
      let (value, s) ← item s
      let (values, s) ← items item limit false s
      return (value :: values, s)

@[simp] theorem skipSpace_nil : skipSpace [] = [] := rfl

@[simp] theorem skipSpace_skipSpace (s : List Char) : skipSpace (skipSpace s) = skipSpace s := by
  induction s with
  | nil => rfl
  | cons c s ih =>
    by_cases space : isSpace c = true
    · simpa [skipSpace, space] using ih
    · simp [skipSpace, space]

@[simp] theorem word_append (expected s : List Char) : word expected (expected ++ s) = .ok s := by
  induction expected with
  | nil => rfl
  | cons e expected ih => simp [word, ih]

end Mempool.Json
