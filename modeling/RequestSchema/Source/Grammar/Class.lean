import RequestSchema.Source.Grammar.Expression

/-!
The grammar of classes: their members and the declarations that hold them.
-/
namespace RequestSchema.Source.Parse

/-- The sign that ends a statement; the text of the page ends one too. -/
def endStatement : Parse Unit := do
  if (← peek).kind = .page then
    let _ ← advance
  else sign ";"

/-- The traits that a class uses, with the rules on conflicts between them. -/
def traitUse : Parse Unit := do
  word "use"
  let _ ← commaSeparated (ofKind .name)
  if !(← braced?) then endStatement

def constantItem (g : Grammar) : Parse Unit := do
  let _ ← ofKind .name
  sign "="
  let _ ← g.expression

def constants (g : Grammar) : Parse Unit := do
  word "const"
  if !(← peekSecond).isSymbol "=" then type
  let _ ← commaSeparated (constantItem g)
  endStatement

def hook (g : Grammar) : Parse Unit := do
  attributes g
  modifiers
  let _ ← sign? "&"
  let _ ← ofKind .name
  if ← atSign "(" then parameters g
  if ← sign? "=>" then
    let _ ← g.expression
    sign ";"
  else if ← atSign "\x7b" then
    let _ ← block g
  else sign ";"

/-- A property and its first value, perhaps with hooks. The result says whether hooks end the
declaration. -/
def propertyItem (g : Grammar) : Parse (String × Bool) := do
  let name ← ofKind .var
  if ← sign? "=" then
    let _ ← g.expression
  if ← sign? "\x7b" then
    let _ ← many do
      if ← sign? "\x7d" then return none
      else
        hook g
        return some ()
    return (name.string, true)
  return (name.string, false)

/-- A method behind its modifiers: its name and its statements. -/
def function (g : Grammar) : Parse (String × Option (List Stmt)) := do
  word "function"
  let _ ← sign? "&"
  let name ← ofKind .name
  parameters g
  resultType
  if ← atSign "\x7b" then return (name.string, some (← block g))
  endStatement
  return (name.string, none)

def enumCase (g : Grammar) : Parse Case := do
  word "case"
  let name ← ofKind .name
  let value ← if ← sign? "=" then some <$> g.expression else pure none
  endStatement
  return ⟨name.string, value⟩

def member (g : Grammar) : Parse Member := do
  let start ← rest
  let line := (← peek).line
  attributes g
  if ← atWord ["use"] then
    traitUse
    return .other
  if ← atWord ["case"] then return .case (← enumCase g)
  let modified ← atWord modifierWords
  modifiers
  if ← atWord ["const"] then
    constants g
    return .other
  if ← atWord ["function"] then
    let (name, body) ← function g
    return .method ⟨name, line, ← textSince start, body⟩
  if !modified then fail
  if (← peek).kind != .var then type
  let (first, ended) ← propertyItem g
  if ended then return .property ⟨[first], line, ← textSince start⟩
  let others ← many do
    if ← sign? "," then return some (← propertyItem g).1 else return none
  endStatement
  return .property ⟨first :: others, line, ← textSince start⟩

def members (g : Grammar) : Parse (List Member) := do
  sign "\x7b"
  many do
    if ← sign? "\x7d" then return none else return some (← member g)

/-- Whether an enumeration begins here: its word is followed by a name. -/
def atEnumeration : Parse Bool := do
  return (← peek).word = "enum" && (← peekSecond).kind = .name

/-- The declaration of an enumeration that begins at some lexemes: its name, the text in front of
its members, and its body. -/
def enumeration (g : Grammar) (start : List Lexeme) : Parse (String × String × ClassBody) := do
  let line := (start.headD endOfSource).line
  word "enum"
  let name ← ofKind .name
  if ← sign? ":" then type
  ancestors
  let next ← peek
  let header ← textSince start
  let body ← g.members
  return (name.string, header ++ String.ofList next.lead, ⟨line, body⟩)

def namedClass (g : Grammar) (start : List Lexeme) : Parse (String × ClassBody) := do
  let line := (start.headD endOfSource).line
  word "class"
  let name ← ofKind .name
  ancestors
  return (name.string, ⟨line, ← g.members⟩)

def otherClass (g : Grammar) : Parse Unit := do
  let _ ← advance
  let _ ← ofKind .name
  ancestors
  let _ ← g.members

end RequestSchema.Source.Parse
