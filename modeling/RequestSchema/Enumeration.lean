import RequestSchema.Field.Type

/-!
Enumerations: the classes that list the permitted values of a field.
-/
namespace RequestSchema

open RequestSchema.Text

/-- An enumeration: its qualified class name, its values and the name of their type. -/
structure Enumeration where
  name : String
  values : List Value
  backing : String := "string"

namespace Enumeration

def shortName (e : Enumeration) : String := afterLast '\\' e.name

/-- The type of a field whose values are listed. -/
def fieldType (e : Enumeration) : FieldType := if e.backing = "int" then .integer else .string

def toValue (e : Enumeration) : Value :=
  .record [("class", .text e.name), ("values", .list e.values), ("type", .text e.backing)]

end Enumeration

end RequestSchema
