import RequestSchema.Source.Lexeme.Scan
import RequestSchema.Source.Tree

/-!
A cursor over the lexemes of a source. Parsers read lexemes from its front, collect the declarations
that they pass, and fail at the first lexeme that fits nowhere.
-/
namespace RequestSchema.Source

open RequestSchema.Text

/-- The line of the first lexeme that fits nowhere. -/
structure SyntaxFault where
  line : Nat
  deriving DecidableEq, Repr

/-- The lexemes that are left, the line of the last one read, and the declarations that have been
passed. -/
structure Cursor where
  rest : List Lexeme
  lastLine : Nat := 1
  declarations : List Declaration := []

abbrev Parse := StateT Cursor (Except SyntaxFault)

namespace Parse

/-- The lexeme that counts as next when none is left. -/
def endOfSource : Lexeme := ⟨.done, [], [], 1⟩

def rest : Parse (List Lexeme) := do
  return (← get).rest

def peek : Parse Lexeme := do
  return (← rest).headD endOfSource

def peekSecond : Parse Lexeme := do
  return ((← rest).drop 1).headD endOfSource

/-- Fail at the next lexeme; at the end of the source, on the line of the last one. -/
def fail {α : Type} : Parse α := do
  let next ← peek
  let cursor ← get
  throw ⟨if next.kind = .done then cursor.lastLine else next.line⟩

def advance : Parse Lexeme := do
  match (← get).rest with
  | [] => fail
  | l :: ls =>
      if l.kind = .done then fail
      else
        modify fun c => { c with rest := ls, lastLine := l.line + lineFeeds l.text }
        return l

def atSign (sign : String) : Parse Bool := do
  return (← peek).isSymbol sign

def sign? (sign : String) : Parse Bool := do
  if ← atSign sign then
    let _ ← advance
    return true
  else return false

def sign (s : String) : Parse Unit := do
  if !(← sign? s) then fail

end Parse

def Lexeme.string (l : Lexeme) : String := String.ofList l.text

/-- The word that a lexeme is, in lower case; empty when it is no word. -/
def Lexeme.word (l : Lexeme) : String := if l.kind = .name then lower l.string else ""

namespace Parse

def atWord (words : List String) : Parse Bool := do
  return words.contains (← peek).word

def word? (w : String) : Parse Bool := do
  if ← atWord [w] then
    let _ ← advance
    return true
  else return false

def word (w : String) : Parse Unit := do
  if !(← word? w) then fail

def ofKind (kind : LexemeKind) : Parse Lexeme := do
  if (← peek).kind = kind then advance else fail

/-- The results of a parser that is repeated until it gives none, at most `steps` times. -/
def repeated {α : Type} (p : Parse (Option α)) : Nat → Parse (List α)
  | 0 => return []
  | steps + 1 => do
      match ← p with
      | none => return []
      | some a => return a :: (← repeated p steps)

/-- The results of a parser that is repeated until it gives none. Each result needs a lexeme, so
their number is limited by that of the lexemes that are left. -/
def many {α : Type} (p : Parse (Option α)) : Parse (List α) := do
  repeated p ((← rest).length + 1)

/-- Read items separated by commas up to a closing sign, which is read too. A comma may stand before
the closing sign. -/
def listUntil {α : Type} (close : String) (item : Parse α) : Parse (List α) := do
  let items ← many do
    if ← sign? close then return none
    else
      let a ← item
      if !(← atSign close) then sign ","
      return some a
  return items

def commaSeparated {α : Type} (item : Parse α) : Parse (List α) := do
  let first ← item
  let others ← many do
    if ← sign? "," then return some (← item) else return none
  return first :: others

def textSince (start : List Lexeme) : Parse String := do
  return String.ofList (Lexeme.render (start.take (start.length - (← rest).length)))

/-- Collect a declaration: it comes before the declarations inside it and after all earlier ones. -/
def declare {α : Type} (p : Parse α) (declaration : α → Declaration) : Parse α := do
  let earlier := (← get).declarations
  modify fun c => { c with declarations := [] }
  let a ← p
  modify fun c => { c with declarations := earlier ++ declaration a :: c.declarations }
  return a

end Parse

/-- The parsers that the rules of the grammar refer to, each for a construct that may hold itself.
-/
structure Grammar where
  /-- an expression -/
  expression : Parse Expr
  /-- an expression whose operators bind at least as tightly as a level -/
  operand : Nat → Parse Expr
  /-- a statement; text of the page is none -/
  statement : Parse (List Stmt)
  /-- the members of a class between their braces -/
  members : Parse (List Member)

end RequestSchema.Source
