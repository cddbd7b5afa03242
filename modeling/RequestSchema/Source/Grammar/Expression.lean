import RequestSchema.Source.Grammar.Signature

/-!
The grammar of expressions. Binary operators are read by their levels: an operand of a level holds
only operators that bind at least as tightly.
-/
namespace RequestSchema.Source.Parse

open RequestSchema.Text

def signLevels : List (String × Nat) :=
  [("??", 6), ("||", 7), ("&&", 8), ("|", 9), ("^", 10), ("&", 11), ("==", 12), ("!=", 12),
    ("<>", 12), ("===", 12), ("!==", 12), ("<=>", 12), ("<", 13), (">", 13), ("<=", 13), (">=", 13),
    (".", 14), ("<<", 15), (">>", 15), ("+", 16), ("-", 16), ("*", 17), ("/", 17), ("%", 17),
    ("**", 18)]

def wordLevels : List (String × Nat) := [("or", 1), ("xor", 2), ("and", 3), ("instanceof", 20)]

/-- The level of the operand behind an assignment, and that of a choice by a question mark. -/
def assignmentLevel : Nat := 5

def unaryLevel : Nat := 20

def augmentingSigns : List String :=
  ["+=", "-=", "*=", "/=", ".=", "%=", "**=", "&=", "|=", "^=", "<<=", ">>=", "??="]

def reservedWords : List String :=
  ["if", "else", "elseif", "endif", "while", "endwhile", "for", "endfor", "foreach", "endforeach",
    "switch", "endswitch", "case", "default", "do", "break", "continue", "return", "echo", "try",
    "catch", "finally", "use", "namespace", "class", "interface", "trait", "extends", "implements",
    "const", "public", "protected", "private", "final", "abstract", "var", "global", "goto", "as",
    "insteadof", "instanceof", "and", "or", "xor", "declare", "enddeclare", "fn", "match", "list",
    "array"]

def castTypes : List String :=
  ["array", "binary", "bool", "boolean", "double", "float", "int", "integer", "object", "real",
    "string", "unset"]

def levelOf? (l : Lexeme) : Option Nat :=
  match l.kind with
  | .symbol => signLevels.lookup l.string
  | .name => wordLevels.lookup l.word
  | _ => none

/-- The level of the operand on the right of an operator of a level: powers and defaults group to
the right. -/
def rightLevel (level : Nat) : Nat := if level = 6 || level = 18 then level else level + 1

/-- An expression continued by binary operators of at least a level, in at most `steps` steps. -/
def operators (g : Grammar) (start : List Lexeme) (level : Nat) : Nat → Expr → Parse Expr
  | 0, e => return e
  | steps + 1, e => do
      let next ← peek
      match (levelOf? next).filter (level ≤ ·) with
      | some found =>
          let operator ← advance
          let right ← g.operand (rightLevel found)
          operators g start level steps
            (.binary (← textSince start) operator.string e right)
      | none =>
          if assignmentLevel < level || !next.isSymbol "?" then return e
          sign "?"
          if !(← atSign ":") then
            let _ ← g.expression
          sign ":"
          let _ ← g.operand (assignmentLevel + 1)
          operators g start level steps (.ternary (← textSince start))

/-- A name behind an arrow or two colons: a word, a variable, or an expression in braces. -/
def memberName (g : Grammar) : Parse String := do
  let start ← rest
  let next ← peek
  if next.kind = .name || next.kind = .var then
    let _ ← advance
  else
    let _ ← many do
      if ← sign? "$" then return some () else return none
    if (← peek).kind = .var then
      let _ ← advance
    else
      sign "\x7b"
      let _ ← g.expression
      sign "\x7d"
  textSince start

/-- An expression continued by one access, call or step behind it. -/
def access? (g : Grammar) (start : List Lexeme) (e : Expr) : Parse (Option Expr) := do
  let next ← peek
  if next.isSymbol "->" || next.isSymbol "?->" then
    let arrow ← advance
    let name ← memberName g
    if ← atSign "(" then
      let arguments ← arguments g
      return some (.method (← textSince start) e name arguments)
    let text ← textSince start
    return some (if arrow.isSymbol "->" then .member text else .other text)
  else if next.isSymbol "::" then
    sign "::"
    let isWord := (← peek).kind = .name
    let name ← memberName g
    if ← atSign "(" then
      let arguments ← arguments g
      return some (.static (← textSince start) e.text name arguments)
    let text ← textSince start
    return some (if isWord then .classConstant text else .other text)
  else if next.isSymbol "[" then
    sign "["
    if ← sign? "]" then return some (.index (← textSince start) e none)
    let key ← g.expression
    sign "]"
    return some (.index (← textSince start) e (some key))
  else if next.isSymbol "(" then
    let arguments ← arguments g
    return some (.call (← textSince start) e.text arguments)
  else if next.isSymbol "++" || next.isSymbol "--" then
    let _ ← advance
    return some (.other (← textSince start))
  else return none

/-- An expression continued by accesses and calls, in at most `steps` steps. -/
def accesses (g : Grammar) (start : List Lexeme) : Nat → Expr → Parse Expr
  | 0, e => return e
  | steps + 1, e => do
      match ← access? g start e with
      | some e => accesses g start steps e
      | none => return e

/-- Whether an expression can stand on the left of an assignment. -/
def isTarget : Expr → Bool
  | .var _ | .array _ _ | .call _ _ _ | .method _ _ _ _ | .static _ _ _ _ | .member _
  | .index _ _ _ | .other _ => true
  | _ => false

def assignment (g : Grammar) (start : List Lexeme) (e : Expr) : Parse Expr := do
  let e ← accesses g start ((← rest).length + 1) e
  let next ← peek
  if !isTarget e || next.kind != .symbol then return e
  if next.isSymbol "=" then
    sign "="
    let reference ← sign? "&"
    let value ← g.operand assignmentLevel
    let text ← textSince start
    return if reference then .other text else .assign text e value
  else if augmentingSigns.contains next.string then
    let operator ← advance
    let value ← g.operand assignmentLevel
    return .augment (← textSince start) operator.string e value
  else return e

/-- A value that may be taken by reference; a reference has no parts. -/
def referable (g : Grammar) : Parse Expr := do
  let start ← rest
  if ← sign? "&" then
    let _ ← g.expression
    return .other (← textSince start)
  else g.expression

def entry (g : Grammar) : Parse Entry := do
  if ← sign? "..." then return .spread (← g.expression)
  let value ← referable g
  if ← sign? "=>" then return .pair value (← referable g)
  return .item value

/-- The entries of an array up to a closing sign, and the lines of commas without an entry in
front. -/
def entries (g : Grammar) (close : String) : Parse (List Entry × List Nat) := do
  let slots : List (Except Nat Entry) ← many do
    let next ← peek
    if ← sign? close then return none
    else if ← sign? "," then return some (.error next.line)
    else
      let e ← entry g
      if !(← atSign close) then sign ","
      return some (.ok e)
  return (slots.filterMap fun | .ok e => some e | .error _ => none,
    slots.filterMap fun | .ok _ => none | .error line => some line)

/-- An array up to a closing sign. Entries may only be left out of the left side of an assignment.
-/
def array (g : Grammar) (start : List Lexeme) (close : String) : Parse Expr := do
  let (items, holes) ← entries g close
  match holes with
  | line :: _ => if close = ")" || !(← atSign "=") then throw ⟨line⟩
  | [] => pure ()
  return .array (← textSince start) items

def selectArm (g : Grammar) : Parse Expr := do
  if ← word? "default" then sign "=>"
  else
    let tests ← listUntil "=>" g.expression
    if tests.isEmpty then fail
  g.expression

def select (g : Grammar) (start : List Lexeme) : Parse Expr := do
  word "match"
  sign "("
  let _ ← g.expression
  sign ")"
  sign "\x7b"
  let results ← listUntil "\x7d" (selectArm g)
  return .select (← textSince start) results

/-- A class that is computed: a variable with properties and elements, or an expression in
parentheses. -/
def computedClass (g : Grammar) : Parse Unit := do
  if ← sign? "(" then
    let _ ← g.expression
    sign ")"
  else
    if ← sign? "$" then
      let _ ← sign? "\x7b"
    let _ ← ofKind .var
    let _ ← sign? "\x7d"
    let _ ← many do
      if (← sign? "->") || (← sign? "?->") || (← sign? "::") then
        let _ ← memberName g
        return some ()
      else if ← sign? "[" then
        let _ ← g.expression
        sign "]"
        return some ()
      else return none

def ancestors : Parse Unit := do
  for w in ["extends", "implements"] do
    if ← word? w then
      let _ ← commaSeparated (ofKind .name)

def anonymousClass (g : Grammar) : Parse ClassBody := do
  let line := (← peek).line
  attributes g
  modifiers
  word "class"
  if ← atSign "(" then
    let _ ← arguments g
  ancestors
  return ⟨line, ← g.members⟩

def construct (g : Grammar) (start : List Lexeme) : Parse Expr := do
  word "new"
  if (← atSign "#[") || (← atWord ["class", "readonly"]) then
    let _ ← declare (anonymousClass g) .anonymousClass
    return .construct (← textSince start) none []
  let next ← peek
  let name ←
    if next.kind = .name then
      let _ ← advance
      pure (if next.word = "static" then none else some next.string)
    else
      computedClass g
      pure none
  let arguments ← if ← atSign "(" then arguments g else pure []
  return .construct (← textSince start) name arguments

/-- Whether an expression can end here. -/
def atEnd : Parse Bool := do
  let next ← peek
  return next.kind = .page || next.kind = .done ||
    [";", ",", ")", "]", "\x7d"].any fun s => next.isSymbol s

def generated (g : Grammar) : Parse Unit := do
  word "yield"
  if ← atEnd then return
  let _ ← word? "from"
  let _ ← g.expression
  if ← sign? "=>" then
    let _ ← g.expression

/-- Whether a closure begins here, perhaps a static one. -/
def atClosure : Parse Bool := do
  let next ← peek
  let second ← peekSecond
  return next.word = "function" ||
    (next.word = "fn" && (second.isSymbol "(" || second.isSymbol "&")) ||
    (next.word = "static" && (second.word = "function" || second.word = "fn"))

/-- Words in front of an operand that they work upon, without a result of interest. -/
def operandWords : List String :=
  ["print", "include", "include_once", "require", "require_once", "throw"]

/-- An expression that begins with a word which is no constant; none when the next word is none of
these. -/
def wordExpression? (g : Grammar) (start : List Lexeme) : Parse (Option Expr) := do
  let word := (← peek).word
  let called := (← peekSecond).isSymbol "("
  if word = "new" then
    return some (← assignment g start (← construct g start))
  else if word = "match" && called then
    return some (← select g start)
  else if word = "array" && called then
    let _ ← advance
    sign "("
    return some (← assignment g start (← array g start ")"))
  else if word = "list" && called then
    let _ ← advance
    sign "("
    let _ ← entries g ")"
    return some (← assignment g start (.other (← textSince start)))
  else if word = "clone" then
    let _ ← advance
    let _ ← g.operand unaryLevel
    return some (.other (← textSince start))
  else if operandWords.contains word then
    let _ ← advance
    let _ ← g.operand assignmentLevel
    return some (.other (← textSince start))
  else if word = "yield" then
    generated g
    return some (.other (← textSince start))
  else if ← atClosure then
    let _ ← word? "static"
    closure g
    return some (.other (← textSince start))
  else return none

/-- An expression that begins with a parenthesis: a cast or an expression in parentheses. -/
def parenthesised (g : Grammar) (start : List Lexeme) : Parse Expr := do
  sign "("
  if (← atWord castTypes) && (← peekSecond).isSymbol ")" then
    let _ ← advance
    sign ")"
    let _ ← g.operand unaryLevel
    return .other (← textSince start)
  let inner ← g.expression
  sign ")"
  assignment g start (.parens (← textSince start) inner)

def signExpression (g : Grammar) (start : List Lexeme) : Parse Expr := do
  let next ← peek
  match next.string with
  | "-" | "+" | "~" | "!" => do
      let _ ← advance
      let operand ← g.operand unaryLevel
      return .unary (← textSince start) operand
  | "@" | "++" | "--" => do
      let _ ← advance
      let _ ← g.operand unaryLevel
      return .other (← textSince start)
  | "#[" => do
      attributes g
      let _ ← word? "static"
      closure g
      return .other (← textSince start)
  | "(" => parenthesised g start
  | "[" => do
      let _ ← advance
      assignment g start (← array g start "]")
  | "$" => do
      let _ ← memberName g
      assignment g start (.other (← textSince start))
  | _ => fail

def unary (g : Grammar) : Parse Expr := do
  let start ← rest
  let next ← peek
  let leaf (make : String → Expr) : Parse Expr := do
    let _ ← advance
    assignment g start (make next.string)
  match next.kind with
  | .var => leaf .var
  | .string => leaf .string
  | .template => leaf (if next.text.head? = some '\x60' then .other else .template)
  | .heredoc => leaf .heredoc
  | .integer => leaf .integer
  | .float => leaf .float
  | .symbol => signExpression g start
  | .name =>
      match ← wordExpression? g start with
      | some e => return e
      | none =>
          if reservedWords.contains next.word then fail
          else leaf (if next.word = "null" then .null else .constant)
  | _ => fail

def operand (g : Grammar) (level : Nat) : Parse Expr := do
  let start ← rest
  let first ← unary g
  operators g start level ((← rest).length + 1) first

def expression (g : Grammar) : Parse Expr := operand g 0

end RequestSchema.Source.Parse
