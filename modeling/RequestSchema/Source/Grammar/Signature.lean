import RequestSchema.Source.Cursor

/-!
The grammar of signatures: attributes, modifiers, types and parameters of functions and members, and
the arguments of calls. Only the arguments of calls leave a trace in the tree.
-/
namespace RequestSchema.Source.Parse

/-- An argument of a call: its value, or nothing for the sign that stands for all arguments. The
name of a named argument is dropped. -/
def argument (g : Grammar) : Parse (Option Expr) := do
  if (← peek).kind = .name && (← peekSecond).isSymbol ":" then
    let _ ← advance
    sign ":"
  let start ← rest
  if ← sign? "..." then
    if ← atSign ")" then return none
    let _ ← g.expression
    return some (.other (← textSince start))
  let _ ← sign? "&"
  return some (← g.expression)

def arguments (g : Grammar) : Parse (List Expr) := do
  sign "("
  return (← listUntil ")" (argument g)).filterMap id

def attributes (g : Grammar) : Parse Unit := do
  let _ ← many do
    if ← sign? "#[" then
      let _ ← listUntil "]" do
        let _ ← ofKind .name
        if ← atSign "(" then
          let _ ← arguments g
      return some ()
    else return none

def modifierWords : List String :=
  ["public", "protected", "private", "static", "abstract", "final", "readonly", "var"]

/-- Modifiers in front of a declaration; one may be restricted to writing. -/
def modifiers : Parse Unit := do
  let _ ← many do
    if ← atWord modifierWords then
      let _ ← advance
      if ← sign? "(" then
        word "set"
        sign ")"
      return some ()
    else return none

/-- Whether the next lexeme ends a type: a parameter by reference may follow it. -/
def atReference : Parse Bool := do
  if ← atSign "&" then
    let second ← peekSecond
    return second.kind = .var || second.isSymbol "..." || second.isSymbol "&"
  else return false

def typeMember : Parse Unit := do
  let _ ← sign? "?"
  if ← sign? "(" then
    let _ ← many do
      if ← sign? ")" then return none
      else if ← sign? "&" then return some ()
      else if ← sign? "|" then return some ()
      else
        let _ ← ofKind .name
        return some ()
  else
    let _ ← ofKind .name

def type : Parse Unit := do
  typeMember
  let _ ← many do
    if ← sign? "|" then
      typeMember
      return some ()
    else if (← atSign "&") && !(← atReference) then
      sign "&"
      typeMember
      return some ()
    else return none

def resultType : Parse Unit := do
  if ← sign? ":" then type

def block (g : Grammar) : Parse (List Stmt) := do
  sign "\x7b"
  let statements ← many do
    if ← sign? "\x7d" then return none else return some (← g.statement)
  return statements.flatten

/-- Skip the lexemes up to the brace that closes one already read; `inside` counts the open ones
behind it. -/
def skipBraces (inside : Nat) : Nat → Parse Unit
  | 0 => fail
  | steps + 1 => do
      let l ← advance
      if l.isSymbol "\x7b" then skipBraces (inside + 1) steps
      else if !l.isSymbol "\x7d" then skipBraces inside steps
      else if inside = 0 then return
      else skipBraces (inside - 1) steps

def braced? : Parse Bool := do
  if ← sign? "\x7b" then
    skipBraces 0 ((← rest).length + 1)
    return true
  else return false

def parameter (g : Grammar) : Parse Unit := do
  attributes g
  modifiers
  if (← peek).kind = .name || (← atSign "?") || (← atSign "(") then type
  let _ ← sign? "&"
  let _ ← sign? "..."
  let _ ← ofKind .var
  if ← sign? "=" then
    let _ ← g.expression
  let _ ← braced?

def parameters (g : Grammar) : Parse Unit := do
  sign "("
  let _ ← listUntil ")" (parameter g)

def closureUses : Parse Unit := do
  if ← word? "use" then
    sign "("
    let _ ← listUntil ")" do
      let _ ← sign? "&"
      let _ ← ofKind .var

/-- A closure behind its attributes and modifiers, with statements or with a single expression. -/
def closure (g : Grammar) : Parse Unit := do
  let arrow ← word? "fn"
  if !arrow then word "function"
  let _ ← sign? "&"
  parameters g
  closureUses
  resultType
  if arrow then
    sign "=>"
    let _ ← g.expression
  else
    let _ ← block g

end RequestSchema.Source.Parse
