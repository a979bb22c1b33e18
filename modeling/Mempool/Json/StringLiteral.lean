import Mempool.Bytes.Hex
import Mempool.Json.Basic

/-! String literals, read a character at a time from after the opening quote. A reader that keeps
the text requires escapes of surrogates to form pairs; one that only passes over it does not. -/
namespace Mempool.Json.StringLiteral

/-- Where in a literal the next character stands. The four digits of an escape are judged once
they fill four bytes; `value` is lost at the first character that is no digit. -/
inductive Mode where
  | plain
  | escape
  | digits (high : Option Nat) (seen : Nat) (value : Option Nat)
  | pairBackslash (high : Nat)
  | pairLetter (high : Nat)
deriving DecidableEq, Repr

def escaped? : Char → Option Char
  | '"' => some '"'
  | '\\' => some '\\'
  | '/' => some '/'
  | 'b' => some '\x08'
  | 'f' => some '\x0c'
  | 'n' => some '\n'
  | 'r' => some '\r'
  | 't' => some '\t'
  | _ => none

def isHighSurrogate (n : Nat) : Bool := 0xD800 ≤ n && n ≤ 0xDBFF
def isLowSurrogate (n : Nat) : Bool := 0xDC00 ≤ n && n ≤ 0xDFFF

/-- The character of a surrogate pair. -/
def ofPair (high low : Nat) : Char :=
  Char.ofNat (0x10000 + 0x400 * (high - 0xD800) + (low - 0xDC00))

/-- Goes on after four digits: a character, or the first half of one. -/
def afterDigits (pairs : Bool) (high : Option Nat) (value : Nat) : Option (Mode × Option Char) :=
  if pairs then
    match high with
    | some high => if isLowSurrogate value then some (.plain, ofPair high value) else none
    | none =>
      if isLowSurrogate value then none
      else if isHighSurrogate value then some (.pairBackslash value, none)
      else some (.plain, Char.ofNat value)
  else some (.plain, none)

/-- One character inside a literal: where that leads and what it adds to the text, or nothing if
it may not stand there. The closing quote is left to the caller. -/
def step (pairs : Bool) : Mode → Char → Option (Mode × Option Char)
  | .plain, c =>
    if c = '\\' then some (.escape, none)
    else if c.toNat < 0x20 then none
    else some (.plain, c)
  | .escape, c =>
    if c = 'u' then some (.digits none 0 (some 0), none)
    else (escaped? c).map fun e => (.plain, some e)
  | .digits high seen value, c =>
    let value := value.bind fun v => (Hex.digitValue? c).map fun d => 16 * v + d
    let seen := seen + c.utf8Size
    if seen < 4 then some (.digits high seen value, none)
    else value.bind (afterDigits pairs high)
  | .pairBackslash high, c => if c = '\\' then some (.pairLetter high, none) else none
  | .pairLetter high, c => if c = 'u' then some (.digits (some high) 0 (some 0), none) else none

def closes (mode : Mode) (c : Char) : Bool := mode = .plain && c = '"'

/-- Reads on from a mode, with the text so far reversed. -/
def readFrom : Mode → (text : List Char) → Reader (List Char)
  | _, _, [] => .error .truncated
  | mode, text, c :: s =>
    if closes mode c then .ok (text.reverse, s)
    else match step true mode c with
      | none => .error .malformed
      | some (mode, added) => readFrom mode (added.toList ++ text) s

def read (s : List Char) : Except ReadError (String × List Char) :=
  (readFrom .plain [] s).map fun (text, rest) => (String.ofList text, rest)

end Mempool.Json.StringLiteral
