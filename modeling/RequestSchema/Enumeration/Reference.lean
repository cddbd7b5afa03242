import RequestSchema.Analysis
import RequestSchema.Rule.Token

/-!
References to enumerations: the class that a token names, the qualified name that it has in its
source, and the enumeration behind it.
-/
namespace RequestSchema

open RequestSchema.Text

def Source.context : String := "ASTReader"

def Source.noLabel : String := "<string>"

/-- The tree of a source; a syntax fault is reported. -/
def Analysis.parse (text : String) (label : Option String) :
    Analysis (Option Source.SourceTree) := do
  match (← registry).parse text with
  | .ok tree => return some tree
  | .error problem =>
      error Source.context ("Failed to parse PHP source: " ++ problem.message)
        [("error_type", .text "parse_error"), ("file_path", .text (label.getD Source.noLabel))]
      return none

/-- The tree of a file; a file that does not exist is reported, and so is a syntax fault. -/
def Analysis.parseFile (path : Path) : Analysis (Option Source.SourceTree) := do
  match (← registry).files.find path with
  | .file text => parse text (some path.text)
  | .tooLong => .fault (.pathTooLong path.text)
  | _ =>
      warn Source.context ("File not found: " ++ path.text)
        [("error_type", .text "file_not_found"), ("file_path", .text path.text)]
      return none

/-- Register the enumerations of a source; the result is their names. -/
def Analysis.registerTree (tree : Source.SourceTree) : Analysis (List String) := do
  modify fun r => r.registerTree tree
  return tree.enumerations.map Enumeration.name

/-- The enumeration of a class. A class that is not known is looked for the first time that it is
asked for. -/
def Analysis.enumeration? (name : String) : Analysis (Option Enumeration) := do
  let name := trimChar '\\' name
  let r ← registry
  match r.known.get? name with
  | some e => return some e
  | none =>
      if r.searched.contains name then return none
      modify fun r => { r with searched := name :: r.searched }
      match ← (r.declaringFile? name : Except Fault (Option (Path × String))) with
      | none => return none
      | some (path, text) =>
          match ← parse text (some path.text) with
          | none => return (← registry).known.get? name
          | some tree =>
              let _ ← registerTree tree
              return (← registry).known.get? name

namespace EnumReference

def isPathPart (c : Char) : Bool := isWord c || c = '\\'

/-- The class name in front of `::class` at the head of a text; a backslash in front is dropped
unless the name is nothing else. -/
def classOperand? (cs : List Char) : Option String :=
  let path := cs.takeWhile isPathPart
  let name := match path with
    | '\\' :: c :: rest => c :: rest
    | path => path
  if name.isEmpty || (dropStart? "::class".toList (cs.drop path.length)).isNone then none
  else some (String.ofList name)

def callOperand? (cs : List Char) : Option String :=
  (dropStart? "Rule::enum(".toList cs).bind fun rest => classOperand? (rest.dropWhile isBlank)

def newOperand? (cs : List Char) : Option String := do
  let rest ← dropStart? "new".toList cs
  if !rest.head?.any isBlank then none
  else
    let rest := rest.dropWhile isBlank
    let rest := (dropStart? ['\\'] rest).getD rest
    let rest := (dropStart? "Illuminate\\Validation\\Rules\\".toList rest).getD rest
    classOperand? ((← dropStart? "Enum(".toList rest).dropWhile isBlank)

def isQuote (c : Char) : Bool := c = '\'' || c = '"'

/-- The class that is appended to a quoted text ending in the name of the enumeration rule, at the
head of a text. -/
def appendedOperand? : List Char → Option String
  | [] => none
  | quote :: cs =>
      if isQuote quote then
        let inner := cs.takeWhile (!isQuote ·)
        let rest := (cs.drop (inner.length + 1)).dropWhile isBlank
        if (dropStart? "enum:".toList.reverse inner.reverse).isNone ||
          cs.length ≤ inner.length then none
        else match rest with
          | '.' :: rest => classOperand? (rest.dropWhile isBlank)
          | _ => none
      else none

/-- The class in a source text that was not evaluated. -/
def ofSource? (s : String) : Option String :=
  (firstMatch callOperand? s.toList).or <|
    (firstMatch newOperand? s.toList).or (firstMatch appendedOperand? s.toList)

/-- The class that a token names: the first parameter of the enumeration rule, or the class in a
source text. -/
def ofToken? : Token → Option String
  | .enumClass name => some name
  | .upload _ => none
  | .source s => ofSource? s
  | .rule s =>
      let token := Token.rule s
      if token.name = "enum" then
        let first := trim ((split ',' token.parameters).headD "")
        if first.isEmpty then none else some first
      else ofSource? s

/-- A class name without white space, quotes and `::class` around it. -/
def bareName (name : String) : String :=
  let name := String.ofList (trimBy isQuote (trim name).toList)
  (beforeEnd? "::class" name).getD name

/-- The qualified name of a class. A name behind a backslash is qualified; otherwise its first
segment may be an alias, and a name that is no known enumeration belongs to the namespace if it has
one segment or is known there. -/
def resolve (name : String) (space : Option String) (aliases : OrderedMap String String) :
    Analysis String := do
  let name := bareName name
  if name.toList.head? = some '\\' then return trimChar '\\' name
  let (first, rest) := (cut? '\\' name).getD (name, "")
  match aliases.get? first with
  | some full => return if rest.isEmpty then full else full ++ "\\" ++ rest
  | none =>
      if (← Analysis.enumeration? name).isSome then return name
      match space.filter (!·.isEmpty) with
      | none => return name
      | some space =>
          let candidate := trimChar '\\' space ++ "\\" ++ name
          if !name.toList.contains '\\' then return candidate
          if (← Analysis.enumeration? candidate).isSome then return candidate
          return name

def lookUp (space : Option String) (aliases : OrderedMap String String) (token : Token) :
    Analysis (Option Enumeration) :=
  match ofToken? token with
  | none => return none
  | some name => do Analysis.enumeration? (← resolve name space aliases)

def find (space : Option String) (aliases : OrderedMap String String) (v : Value) :
    Analysis (Option Enumeration) :=
  match Token.ofValue? v with
  | some token => lookUp space aliases token
  | none => return none

def first? (space : Option String) (aliases : OrderedMap String String) :
    List Token → Analysis (Option Enumeration)
  | [] => return none
  | token :: rest => do
      match ← lookUp space aliases token with
      | some e => return some e
      | none => first? space aliases rest

end EnumReference

end RequestSchema
