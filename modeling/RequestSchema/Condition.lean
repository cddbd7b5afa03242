import RequestSchema.Text.Case
import RequestSchema.Value

/-!
Conditions: the tests that guard the paths through a method, sorted by what they ask about.
-/
namespace RequestSchema

/-- What a condition asks about. Plain data may name further kinds. -/
inductive ConditionKind where
  | httpMethod
  | userMethod
  | custom
  | other (name : String)
  deriving DecidableEq, Repr

namespace ConditionKind

def name : ConditionKind → String
  | httpMethod => "http_method"
  | userMethod => "user_method"
  | custom => "custom"
  | other name => name

def ofName : String → ConditionKind
  | "http_method" => httpMethod
  | "user_method" => userMethod
  | "custom" => custom
  | name => other name

end ConditionKind

/-- A condition: its kind, its source text, and the method that it names. The method is null when
there is none. -/
structure Condition where
  kind : ConditionKind
  expression : String := ""
  method : Value := .null

namespace Condition

def httpMethod (verb expression : String) : Condition :=
  ⟨.httpMethod, expression, .text (Text.upper verb)⟩

def userMethod (method expression : String) : Condition := ⟨.userMethod, expression, .text method⟩

def custom (expression : String) : Condition := ⟨.custom, expression, .null⟩

/-- The condition that plain data describes; its type must be a text. The verb of a request is put
in upper case. -/
def ofFields? (data : Value) : Except Fault (Option Condition) :=
  match (data.field? "type").bind Value.text? with
  | none => .ok none
  | some name => do
      let kind := ConditionKind.ofName name
      let method := (data.field? "method").getD .null
      let method := match kind, method.text? with
        | .httpMethod, some verb => .text (Text.upper verb)
        | _, _ => method
      let expression ← match (data.field? "expression").filter Value.truthy with
        | some e => e.display
        | none => .ok ""
      return some ⟨kind, expression, method⟩

def ofValue? : Value → Except Fault (Option Condition)
  | .condition kind expression method => .ok (some ⟨.ofName kind, expression, method⟩)
  | data => ofFields? data

def toValue (c : Condition) : Value :=
  .record ([("type", .text c.kind.name), ("expression", .text c.expression)] ++
    match c.method with
    | .null => []
    | method => [("method", method)])

end Condition

end RequestSchema
