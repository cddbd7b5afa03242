import RequestSchema.Source.Grammar.Class

/-!
The grammar of statements. Compound statements have a form with braces and one with a colon and a
closing word.
-/
namespace RequestSchema.Source.Parse

/-- Statements up to one of some words, which is not read. -/
def statementsUntil (g : Grammar) (words : List String) : Parse (List Stmt) := do
  let statements ← many do
    if ← atWord words then return none else return some (← g.statement)
  return statements.flatten

def closeWord (w : String) : Parse Unit := do
  word w
  endStatement

def test (g : Grammar) : Parse Expr := do
  sign "("
  let e ← g.expression
  sign ")"
  return e

def armWords : List String := ["elseif", "else", "endif"]

/-- The other arms of a choice by tests in the form with a colon, and the end of the choice. -/
def colonArms (g : Grammar) : Parse (List Arm) := do
  let arms ← many do
    if ← word? "elseif" then
      let e ← test g
      sign ":"
      return some (Arm.arm (some (.test e)) (← statementsUntil g armWords))
    else if ← word? "else" then
      sign ":"
      return some (Arm.arm none (← statementsUntil g ["endif"]))
    else return none
  closeWord "endif"
  return arms

def statementArms (g : Grammar) : Parse (List Arm) := do
  let tested ← many do
    if ← word? "elseif" then
      let e ← test g
      return some (Arm.arm (some (.test e)) (← g.statement))
    else return none
  if ← word? "else" then return tested ++ [.arm none (← g.statement)]
  return tested

def choice (g : Grammar) : Parse Stmt := do
  word "if"
  let e ← test g
  if ← sign? ":" then
    let body ← statementsUntil g armWords
    return .choice (.arm (some (.test e)) body :: (← colonArms g))
  let body ← g.statement
  return .choice (.arm (some (.test e)) body :: (← statementArms g))

def caseArm (g : Grammar) (subject : Expr) (stop : Parse Bool) : Parse Arm := do
  let guard ←
    if ← word? "default" then pure none
    else
      word "case"
      pure (some (Guard.equals subject (← g.expression)))
  if !(← sign? ":") then endStatement
  let body ← many do
    if (← atWord ["case", "default"]) || (← stop) then return none
    else return some (← g.statement)
  return .arm guard body.flatten

def comparison (g : Grammar) : Parse Stmt := do
  word "switch"
  let subject ← test g
  let colon ← sign? ":"
  if !colon then sign "\x7b"
  let stop : Parse Bool := if colon then atWord ["endswitch"] else atSign "\x7d"
  let _ ← many do
    if (← peek).kind = .page || (← atSign ";") then
      let _ ← advance
      return some ()
    else return none
  let arms ← many do
    if ← stop then return none else return some (← caseArm g subject stop)
  if colon then closeWord "endswitch" else sign "\x7d"
  return .choice arms

def loopBody (g : Grammar) (w : String) : Parse (List Stmt) := do
  if ← sign? ":" then
    let body ← statementsUntil g [w]
    closeWord w
    return body
  else g.statement

def expressionsUntil (g : Grammar) (close : String) : Parse Unit := do
  if !(← atSign close) then
    let _ ← commaSeparated g.expression
  sign close

/-- A loop with a counter. In the form with a colon only the first statement is followed. -/
def countedLoop (g : Grammar) : Parse Stmt := do
  word "for"
  sign "("
  expressionsUntil g ";"
  expressionsUntil g ";"
  expressionsUntil g ")"
  if ← atSign ":" then
    let body ← loopBody g "endfor"
    return .loop (body.take 1) (body.drop 1)
  return .loop (← g.statement) []

/-- The variable, or the variables, that an element of a loop is assigned to. -/
def loopTarget (g : Grammar) : Parse Unit := do
  let _ ← sign? "&"
  if ← sign? "[" then
    let _ ← entries g "]"
  else
    let _ ← g.expression

def elementLoop (g : Grammar) : Parse Stmt := do
  word "foreach"
  sign "("
  let _ ← g.expression
  word "as"
  loopTarget g
  if ← sign? "=>" then loopTarget g
  sign ")"
  return .loop (← loopBody g "endforeach") []

def testedLoop (g : Grammar) : Parse Stmt := do
  word "while"
  let _ ← test g
  return .loop (← loopBody g "endwhile") []

def repeatedLoop (g : Grammar) : Parse Stmt := do
  word "do"
  let body ← g.statement
  word "while"
  let _ ← test g
  endStatement
  return .loop body []

def handler? (g : Grammar) : Parse (Option (List Stmt)) := do
  if ← word? "catch" then
    sign "("
    type
    if (← peek).kind = .var then
      let _ ← advance
    sign ")"
    return some (← block g)
  else if ← word? "finally" then return some (← block g)
  else return none

def attempt (g : Grammar) : Parse Stmt := do
  word "try"
  let body ← block g
  let handlers ← many (handler? g)
  if handlers.isEmpty then fail
  return .attempt body handlers.flatten

def result (g : Grammar) : Parse Stmt := do
  let line := (← peek).line
  word "return"
  if (← peek).kind = .page || (← atSign ";") then
    endStatement
    return .result line none
  let e ← g.expression
  endStatement
  return .result line (some e)

/-- A namespace, for the rest of the source or for the statements in its braces. -/
def space (g : Grammar) : Parse Unit := do
  word "namespace"
  let name ← if (← peek).kind = .name then (·.string) <$> advance else pure ""
  let _ ← declare (return name) .space
  if ← atSign "\x7b" then
    let _ ← block g
  else if name.isEmpty then fail
  else endStatement

def importsClasses : Parse Bool := do
  return !((← word? "function") || (← word? "const"))

def importAlias? : Parse (Option String) := do
  if ← word? "as" then return some (← ofKind .name).string else return none

def importItem (isClass : Bool) (space : String) : Parse Import := do
  let isClass := (← importsClasses) && isClass
  let name ← ofKind .name
  return ⟨isClass, space ++ name.string, ← importAlias?⟩

def unrooted (name : String) : String := (Text.afterStart? "\\" name).getD name

/-- The names that an import introduces: names separated by commas, or a group in braces below a
namespace. -/
def importItems : Parse (List Import) := do
  let isClass ← importsClasses
  let first := unrooted (← ofKind .name).string
  if ← sign? "\\" then
    sign "\x7b"
    let items ← listUntil "\x7d" (importItem isClass (first ++ "\\"))
    if items.isEmpty then fail
    return items
  let item : Import := ⟨isClass, first, ← importAlias?⟩
  let others ← many do
    if ← sign? "," then
      let next ← importItem isClass ""
      return some { next with name := unrooted next.name }
    else return none
  return item :: others

/-- An import with the text up to its end. Text of the page that ends it does not belong to it. -/
def imports : Parse Unit := do
  let start ← rest
  let _ ← declare (do
    word "use"
    let items ← importItems
    let text ← textSince start
    let closed ← atSign ";"
    endStatement
    let whole ← textSince start
    return (if closed then whole else text, items)) fun (text, items) => .imports text items

def classModifiers : List String := ["abstract", "final", "readonly"]

/-- The declaration of a class, an enumeration or a function behind its attributes; false when none
begins here. -/
def declaration? (g : Grammar) (start : List Lexeme) : Parse Bool := do
  if ← atEnumeration then
    let _ ← declare (enumeration g start) fun (name, header, body) =>
      .enumeration name header body
    return true
  let modified := (← atWord classModifiers) && (← peekSecond).kind = .name
  if modified then modifiers
  if modified || (← atWord ["class"]) then
    let _ ← declare (namedClass g start) fun (name, body) => .namedClass name body
    return true
  if ← atWord ["interface", "trait"] then
    otherClass g
    return true
  if ← atWord ["function"] then
    let second ← peekSecond
    let third := ((← rest).drop 2).headD endOfSource
    if second.kind = .name || (second.isSymbol "&" && third.kind = .name) then
      let _ ← function g
      return true
  if ← atWord ["const"] then
    constants g
    return true
  return false

/-- Settings of the source, perhaps for the statements behind them. -/
def settings (g : Grammar) : Parse Unit := do
  word "declare"
  sign "("
  let _ ← commaSeparated (constantItem g)
  sign ")"
  if ← sign? ":" then
    let _ ← statementsUntil g ["enddeclare"]
    closeWord "enddeclare"
  else
    let _ ← g.statement

def listWords : List String := ["echo", "global", "goto"]

def jumpWords : List String := ["break", "continue"]

def listStatement (g : Grammar) : Parse Stmt := do
  let word ← advance
  if !jumpWords.contains word.word || !((← peek).kind = .page || (← atSign ";")) then
    let _ ← commaSeparated g.expression
  endStatement
  return .other

def staticVariables (g : Grammar) : Parse Stmt := do
  word "static"
  let _ ← commaSeparated (propertyItem g)
  endStatement
  return .other

def expressionStatement (g : Grammar) : Parse Stmt := do
  let e ← expression g
  endStatement
  return .expression e

def plainStatement (g : Grammar) : Parse Stmt := do
  let start ← rest
  let next ← peek
  let second ← peekSecond
  if next.isSymbol "\x7b" then return .block (← block g)
  if ← sign? ";" then return .other
  if next.isSymbol "#[" then
    attributes g
    if ← declaration? g start then return .other
    let _ ← word? "static"
    closure g
    endStatement
    return .other
  if ← declaration? g start then return .other
  match next.word with
  | "if" => choice g
  | "switch" => comparison g
  | "for" => countedLoop g
  | "foreach" => elementLoop g
  | "while" => testedLoop g
  | "do" => repeatedLoop g
  | "try" => attempt g
  | "return" => result g
  | "namespace" => do
      space g
      return .other
  | "use" => do
      imports
      return .other
  | "declare" => do
      settings g
      return .other
  | "static" => if second.kind = .var then staticVariables g else expressionStatement g
  | w =>
      if listWords.contains w || jumpWords.contains w then listStatement g
      else if next.kind = .name && second.isSymbol ":" && !reservedWords.contains w then do
        let _ ← advance
        sign ":"
        return .other
      else expressionStatement g

/-- A statement. The text of the page is no statement. -/
def statement (g : Grammar) : Parse (List Stmt) := do
  if (← peek).kind = .page then
    let _ ← advance
    return []
  return [← plainStatement g]

end RequestSchema.Source.Parse
