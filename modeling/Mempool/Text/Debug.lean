import Mempool.Text.Unprintable

/-! Values as dumps and messages show them: records with their fields between braces, or the name
alone when there are no fields; and text between double quotes, where quotes, backslashes and the
usual controls have a short escape and other characters that would not show have a numeric one. -/
namespace Mempool.Text

def commaSeparated (items : List String) : String := ", ".intercalate items

def braced (inside : String) : String := .singleton '{' ++ inside ++ .singleton '}'

@[simp] theorem toList_braced (inside : String) :
    (braced inside).toList = '{' :: (inside.toList ++ ['}']) := by
  simp [braced]

theorem braced_inj {s t : String} : braced s = braced t ↔ s = t := by
  simp [← String.toList_inj]

def record (name : String) (fields : List (String × String)) : String :=
  match fields with
  | [] => name
  | _ => name ++ " " ++ braced (" " ++ commaSeparated (fields.map fun f => f.1 ++ ": " ++ f.2) ++ " ")

def bracketed (items : List String) : String := "[" ++ commaSeparated items ++ "]"

/-! ## Quoted text -/

/-- The halfwidth voicing marks extend a grapheme, but are letters with a width of their own. -/
def isVoicingMark (c : Char) : Bool := c = '\uff9e' || c = '\uff9f'

/-- Whether a character would not show, or not by itself. -/
def isHidden (c : Char) : Bool :=
  isUnprintable c || isDefaultIgnorable c || (isGraphemeExtend c && !isVoicingMark c)

def numericEscape (c : Char) : List Char :=
  ['\\', 'u', '{'] ++ Nat.toDigits 16 c.toNat ++ ['}']

def quoteChar (c : Char) : List Char :=
  if c = '"' then ['\\', '"']
  else if c = '\\' then ['\\', '\\']
  else if c = '\n' then ['\\', 'n']
  else if c = '\r' then ['\\', 'r']
  else if c = '\t' then ['\\', 't']
  else if c = '\x00' then ['\\', '0']
  else if isHidden c then numericEscape c
  else [c]

def quoted (s : String) : String :=
  String.ofList ('"' :: s.toList.flatMap quoteChar ++ ['"'])

end Mempool.Text
