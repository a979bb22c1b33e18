import Mempool.Json.StringLiteral

/-! Values that are passed over. Only their grammar is checked, to any depth, a character at a
time and with a stack of the containers that are open. A number cut short is malformed, even by
the end of the text; other cuts are noticed as such. -/
namespace Mempool.Json.Ignored

inductive Container where
  | list
  | object
deriving DecidableEq, Repr

/-- Where in a number the next character stands. -/
inductive NumberMode where
  | sign
  | zero
  | whole
  | point
  | fraction
  | exponent
  | exponentSign
  | exponentDigits
deriving DecidableEq, Repr

inductive Mode where
  | value
  | firstItem
  | firstName
  | name
  | nameText (mode : StringLiteral.Mode)
  | colon
  | afterValue
  | word (left : List Char)
  | text (mode : StringLiteral.Mode)
  | number (mode : NumberMode)
deriving DecidableEq, Repr

structure State where
  mode : Mode
  opened : List Container
deriving DecidableEq, Repr

/-- What a character does: it leads on, it ends the value as its last character, it stands just
after the end of the value, or it may not stand here. -/
inductive Step where
  | more (state : State)
  | last
  | past
  | bad
deriving DecidableEq, Repr

namespace NumberMode

def isExponentMark (c : Char) : Bool := c = 'e' || c = 'E'

/-- The mode after one more character of the number, or nothing if it is no part of it. -/
def next? (mode : NumberMode) (c : Char) : Option NumberMode :=
  match mode with
  | sign => if c = '0' then some zero else if c.isDigit then some whole else none
  | zero => if c = '.' then some point else if isExponentMark c then some exponent else none
  | whole =>
    if c.isDigit then some whole else if c = '.' then some point
    else if isExponentMark c then some exponent else none
  | point => if c.isDigit then some fraction else none
  | fraction =>
    if c.isDigit then some fraction else if isExponentMark c then some exponent else none
  | exponent =>
    if c = '+' || c = '-' then some exponentSign
    else if c.isDigit then some exponentDigits else none
  | exponentSign => if c.isDigit then some exponentDigits else none
  | exponentDigits => if c.isDigit then some exponentDigits else none

/-- Whether the number may end before this character. -/
def endsBefore (mode : NumberMode) (c : Char) : Bool :=
  match mode with
  | zero => !c.isDigit
  | whole | fraction | exponentDigits => true
  | sign | point | exponent | exponentSign => false

/-- Whether the number may end with the text. -/
def endsHere : NumberMode → Bool
  | zero | whole | fraction | exponentDigits => true
  | sign | point | exponent | exponentSign => false

end NumberMode

/-- Ends a value with the character just taken. -/
def closed : List Container → Step
  | [] => .last
  | opened => .more ⟨.afterValue, opened⟩

/-- The first character of a value. -/
def startValue (opened : List Container) (c : Char) : Step :=
  if isSpace c then .more ⟨.value, opened⟩
  else if c = 'n' then .more ⟨.word ['u', 'l', 'l'], opened⟩
  else if c = 't' then .more ⟨.word ['r', 'u', 'e'], opened⟩
  else if c = 'f' then .more ⟨.word ['a', 'l', 's', 'e'], opened⟩
  else if c = '"' then .more ⟨.text .plain, opened⟩
  else if c = '-' then .more ⟨.number .sign, opened⟩
  else if c = '0' then .more ⟨.number .zero, opened⟩
  else if c.isDigit then .more ⟨.number .whole, opened⟩
  else if c = '[' then .more ⟨.firstItem, .list :: opened⟩
  else if c = '{' then .more ⟨.firstName, .object :: opened⟩
  else .bad

/-- Between the items of a container. -/
def afterValue (opened : List Container) (c : Char) : Step :=
  match opened with
  | [] => .past
  | .list :: outer =>
    if isSpace c then .more ⟨.afterValue, opened⟩
    else if c = ',' then .more ⟨.value, opened⟩
    else if c = ']' then closed outer
    else .bad
  | .object :: outer =>
    if isSpace c then .more ⟨.afterValue, opened⟩
    else if c = ',' then .more ⟨.name, opened⟩
    else if c = '}' then closed outer
    else .bad

/-- A character inside a string, whose end is followed by `after`. -/
def inText (mode : StringLiteral.Mode) (c : Char) (stay : StringLiteral.Mode → Step)
    (after : Step) : Step :=
  if StringLiteral.closes mode c then after
  else match StringLiteral.step false mode c with
    | none => .bad
    | some (mode, _) => stay mode

def step (s : State) (c : Char) : Step :=
  match s.mode with
  | .value => startValue s.opened c
  | .firstItem =>
    if isSpace c then .more s
    else if c = ']' then closed s.opened.tail
    else startValue s.opened c
  | .firstName =>
    if isSpace c then .more s
    else if c = '"' then .more ⟨.nameText .plain, s.opened⟩
    else if c = '}' then closed s.opened.tail
    else .bad
  | .name =>
    if isSpace c then .more s
    else if c = '"' then .more ⟨.nameText .plain, s.opened⟩
    else .bad
  | .nameText mode =>
    inText mode c (fun m => .more ⟨.nameText m, s.opened⟩) (.more ⟨.colon, s.opened⟩)
  | .colon =>
    if isSpace c then .more s
    else if c = ':' then .more ⟨.value, s.opened⟩
    else .bad
  | .afterValue => afterValue s.opened c
  | .word left =>
    match left with
    | [] => afterValue s.opened c
    | [l] => if c = l then closed s.opened else .bad
    | l :: left => if c = l then .more ⟨.word left, s.opened⟩ else .bad
  | .text mode => inText mode c (fun m => .more ⟨.text m, s.opened⟩) (closed s.opened)
  | .number mode =>
    match mode.next? c with
    | some mode => .more ⟨.number mode, s.opened⟩
    | none => if mode.endsBefore c then afterValue s.opened c else .bad

/-- The end of the text: only a number that stands alone may end here. -/
def atEnd (s : State) : Except ReadError (List Char) :=
  match s.mode with
  | .number mode =>
    if !mode.endsHere then .error .malformed
    else if s.opened.isEmpty then .ok []
    else .error .truncated
  | _ => .error .truncated

def skipFrom : State → List Char → Except ReadError (List Char)
  | s, [] => atEnd s
  | s, c :: rest =>
    match step s c with
    | .more s => skipFrom s rest
    | .last => .ok rest
    | .past => .ok (c :: rest)
    | .bad => .error .malformed

/-- Passes over one value. -/
def skip (s : List Char) : Except ReadError (List Char) := skipFrom ⟨.value, []⟩ s

end Mempool.Json.Ignored
