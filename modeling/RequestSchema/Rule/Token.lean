import RequestSchema.Text.Case
import RequestSchema.Text.Split
import RequestSchema.Value

/-!
Rule tokens. The rules of a field come as a text with bars between the rules, as a list, or as a
single structured rule; `Value.tokens` brings each form to one flat list, if the numbers in it can
be written. A token that is a rule text has a name before the first colon and parameters behind it.
-/
namespace RequestSchema

open RequestSchema.Text

/-- A single rule of a field. -/
inductive Token where
  /-- a rule text such as `max:255` -/
  | rule (text : String)
  /-- source text that could not be evaluated, kept whole -/
  | source (text : String)
  | enumClass (name : String)
  | upload (limits : UploadRule)
  deriving DecidableEq, Repr

namespace Token

/-- The rule texts that are left of some texts when the white space around them and the empty ones
are dropped. -/
def ofTexts (texts : List String) : List Token :=
  ((texts.map trim).filter (!·.isEmpty)).map rule

/-- The token that a mapping stands for: one of the type `enum` with a class names an
enumeration. -/
def ofEntries (entries : OrderedMap Key Value) : Except Fault (List Token) :=
  match entries.get? (.text "type"), entries.get? (.text "class") with
  | some kind, some name =>
      if kind.text? = some "enum" && name.truthy then do return [enumClass (← name.display)]
      else .ok []
  | _, _ => .ok []

end Token

mutual

/-- The tokens of a rule value. A text is cut at its bars; numbers stand for their texts; null,
truth values, other mappings and objects stand for nothing. -/
def Value.tokens : Value → Except Fault (List Token)
  | .null => .ok []
  | .bool _ => .ok []
  | .number n => do return [.rule (← n.text)]
  | .text s => .ok (Token.ofTexts (split '|' s))
  | .source s => .ok [.source s]
  | .enumClass name => .ok [.enumClass name]
  | .upload limits => .ok [.upload limits]
  | .list items => Value.itemTokens items
  | .mapping entries => Token.ofEntries (.ofList entries)
  | .condition _ _ _ => .ok []
  | .branch _ _ _ => .ok []
  | .object _ _ => .ok []

/-- The tokens of the items of a list. A text in a list is one rule, whatever bars it holds. -/
def Value.itemTokens : List Value → Except Fault (List Token)
  | [] => .ok []
  | .text s :: rest => do return Token.ofTexts [s] ++ (← Value.itemTokens rest)
  | v :: rest => do return (← v.tokens) ++ (← Value.itemTokens rest)

end

namespace Token

def toValue : Token → Value
  | rule s => .text s
  | source s => .source s
  | enumClass name => .enumClass name
  | upload limits => .upload limits

/-- The token that a value is, without cutting a text into rules. -/
def ofValue? : Value → Option Token
  | .text s => some (rule s)
  | .source s => some (source s)
  | .enumClass name => some (enumClass name)
  | .upload limits => some (upload limits)
  | .mapping entries =>
      let entries := OrderedMap.ofList entries
      match entries.get? (.text "type"), entries.get? (.text "class") with
      | some kind, some name =>
          if kind.text? = some "enum" then name.text?.map enumClass else none
      | _, _ => none
  | _ => none

def uploadName (limits : UploadRule) : String := if limits.image then "image" else "file"

/-- The name of a token in lower case: of a rule text, what stands before its first colon. Source
text has no name. -/
def name : Token → String
  | rule s => lower (trim (((cut? ':' s).map Prod.fst).getD s))
  | source _ => ""
  | enumClass _ => "enum"
  | upload limits => uploadName limits

/-- What stands behind the first colon of a rule text. -/
def parameters : Token → String
  | rule s => ((cut? ':' s).map fun parts => trim parts.2).getD ""
  | _ => ""

def parameterList (token : Token) : List String :=
  if token.parameters.isEmpty then [] else (split ',' token.parameters).map trim

/-- The numbers that the parameters denote; none when there is no parameter or one of them is not a
number. -/
def numbers? (token : Token) : Option (List Number) :=
  if token.parameterList.isEmpty then none else token.parameterList.mapM Number.parse?

/-- The rule text of a token that is one, evaluated or not. -/
def text? : Token → Option String
  | rule s => some s
  | source s => some s
  | _ => none

def text (token : Token) : String := token.text?.getD ""

def find? (names : List String) (tokens : List Token) : Option Token :=
  tokens.find? fun token => names.contains token.name

def has (names : List String) (tokens : List Token) : Bool :=
  tokens.any fun token => names.contains token.name

def uploadNames : List String := ["file", "image", "mimes", "mimetypes"]

def booleanNames : List String :=
  ["boolean", "bool", "accepted", "accepted_if", "declined", "declined_if"]

def integerNames : List String := ["integer", "int"]

def numberNames : List String := ["numeric", "decimal"]

end Token

end RequestSchema
