import RequestSchema.Condition
import RequestSchema.Extraction.Concatenation

/-!
Classifying the tests of a method: those that ask for the verb of the request, those that ask a
predicate of the user, and all others.
-/
namespace RequestSchema.Extraction

open RequestSchema.Text RequestSchema.Source

/-- Whether an expression calls a method with one of some names, given in lower case. -/
def callsMethod (names : List String) : Expr → Bool
  | .method _ _ name _ => names.contains (lower name)
  | _ => false

def asksVerb (e : Expr) : Bool := callsMethod ["method", "getmethod"] e

def isUser (e : Expr) : Bool :=
  match e.unwrap with
  | .method _ _ name _ => name = "user"
  | _ => false

/-- Whether a method name is one of some words, perhaps with a capital letter behind it. -/
def isPredicate (words : List String) (name : String) : Bool :=
  words.any fun word => name = word ||
    ((dropStart? word.toList name.toList).bind List.head?).any isUppercase

def verbOf? (e : Expr) : Option String := e.stringValue?.filter (!·.isEmpty)

def comparedVerb? (left right : Expr) : Option String :=
  if asksVerb left.unwrap then verbOf? right
  else if asksVerb right.unwrap then verbOf? left
  else none

/-- The condition that a test stands for, where `words` begin the names of predicates of a user. -/
def classify (words : List String) (test : Expr) : Condition :=
  let e := test.unwrap
  let expression := e.compactText
  match e with
  | .method _ receiver name arguments =>
      if lower name = "ismethod" then
        match arguments.head?.bind verbOf? with
        | some verb => .httpMethod verb expression
        | none => .custom expression
      else if isUser receiver && isPredicate words name then .userMethod name expression
      else .custom expression
  | .binary _ operator left right =>
      if operator = "==" || operator = "===" then
        match comparedVerb? left right with
        | some verb => .httpMethod verb expression
        | none => .custom expression
      else .custom expression
  | _ => .custom expression

/-- The condition that the comparison of a subject with a value stands for. -/
def classifyCase (subject value : Expr) : Condition :=
  let subject := subject.unwrap
  let expression := compact (subject.text ++ " == " ++ value.text)
  match if asksVerb subject then verbOf? value else none with
  | some verb => .httpMethod verb expression
  | none => .custom expression

def classifyGuard (words : List String) : Guard → Condition
  | .test e => classify words e
  | .equals subject value => classifyCase subject value

end RequestSchema.Extraction
