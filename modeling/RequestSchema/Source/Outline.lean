import RequestSchema.Enumeration
import RequestSchema.Source.Grammar
import RequestSchema.Source.Imports
import RequestSchema.Source.Literal

/-!
The outline of a source: its namespace, its imports, its classes and their members, and its
enumerations.
-/
namespace RequestSchema.Source

open RequestSchema.Text

namespace SourceTree

def isEmpty (tree : SourceTree) : Bool := tree.statements.isEmpty

def namespace? (tree : SourceTree) : Option String :=
  (tree.declarations.findSome? fun | .space name => some (trimChar '\\' name) | _ => none).filter
    (!·.isEmpty)

/-- The aliases that the imports of a source introduce; the last one of a name counts. -/
def aliases (tree : SourceTree) : OrderedMap String String :=
  .ofList <| tree.declarations.flatMap fun | .imports text _ => Imports.ofText text | _ => []

/-- The class with a name, of which only the last segment counts. -/
def class? (tree : SourceTree) (name : String) : Option ClassBody :=
  let short := afterLast '\\' (trimChar '\\' name)
  tree.declarations.findSome? fun
    | .namedClass name body => if name = short then some body else none
    | _ => none

def anonymousClass? (tree : SourceTree) : Option ClassBody :=
  tree.declarations.findSome? fun | .anonymousClass body => some body | _ => none

end SourceTree

namespace ClassBody

/-- The method with a name, in any case. -/
def method? (c : ClassBody) (name : String) : Option Method :=
  c.methods.find? fun m => lower m.name = lower name

/-- The declaration of a property. Its name may be given with or without a dollar sign. -/
def property? (c : ClassBody) (name : String) : Option Property :=
  let wanted := "$" ++ String.ofList (name.toList.dropWhile (· == '$'))
  c.properties.find? fun p => p.names.contains wanted

end ClassBody

/-- The name of the type behind the colon in the text in front of the members of an enumeration. -/
def backingAt? (cs : List Char) : Option String := do
  let rest ← dropFolded "enum".toList cs
  let name := rest.dropWhile isBlank
  if !rest.head?.any isBlank || !name.head?.any isWord then none
  else match (name.dropWhile isWord).dropWhile isBlank with
    | ':' :: rest =>
        let rest := rest.dropWhile isBlank
        ["string", "int"].findSome? fun type => do
          let after ← dropFolded type.toList rest
          if after.head?.any isWord then none
          else some (lower (String.ofList (rest.take type.length)))
    | _ => none

/-- The enumeration that a declaration describes, in a namespace. An enumeration with a type has the
values of its cases, any other one their names. -/
def enumerationOf (space : Option String) (name header : String) (body : ClassBody) :
    Enumeration :=
  let full := match space with
    | some space => space ++ "\\" ++ name
    | none => name
  match firstMatch backingAt? header.toList with
  | some type =>
      { name := full
        values := body.cases.filterMap fun c => c.value.bind Expr.value?
        backing := type }
  | none => { name := full, values := body.cases.map fun c => .text c.name }

/-- The enumerations of a source, in the first namespace. -/
def SourceTree.enumerations (tree : SourceTree) : List Enumeration :=
  tree.declarations.filterMap fun
    | .enumeration name header body => some (enumerationOf tree.namespace? name header body)
    | _ => none

end RequestSchema.Source
