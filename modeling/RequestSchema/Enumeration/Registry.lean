import RequestSchema.Fault
import RequestSchema.Files
import RequestSchema.Source.Outline

/-!
The registry of enumerations: those that are known by name, and where the others may be declared. A
class that is not known is looked for once, in the files of the directory that belongs to its
namespace.
-/
namespace RequestSchema

open RequestSchema.Text

abbrev Source.Parser := String → Except Source.SyntaxFault Source.SourceTree

/-- The known enumerations, the class names that have been looked for, the directories that belong
to namespaces, the files, and how a source is parsed. -/
structure Registry where
  known : OrderedMap String Enumeration := .empty
  searched : List String := []
  roots : OrderedMap String String := .empty
  files : Files := {}
  parse : Source.Parser := Source.SourceTree.ofText

namespace Registry

/-- The registry with one more enumeration. Backslashes around its name are dropped. -/
def register (r : Registry) (e : Enumeration) : Registry :=
  let name := trimChar '\\' e.name
  { r with known := r.known.insert name { e with name } }

def registerTree (r : Registry) (tree : Source.SourceTree) : Registry :=
  tree.enumerations.foldl register r

/-- The path of the file that declares a class in the directory of a namespace, if the class belongs
to it. -/
def declaringPath? (name space directory : String) : Option Path :=
  (afterStart? (trimChar '\\' space ++ "\\") name).map fun rest =>
    (Path.ofText directory).under
      (Path.ofText (rest.map (fun c => if c = '\\' then '/' else c) ++ ".php"))

def fileIn? (r : Registry) (name space directory : String) :
    Except Fault (Option (Path × String)) :=
  match declaringPath? name space directory with
  | none => .ok none
  | some path => match r.files.find path with
    | .file text => .ok (some (path, text))
    | .tooLong => .error (.pathTooLong path.text)
    | _ => .ok none

/-- The first file in some directories that declares a class. The directories behind it are not
looked into. -/
def firstFile? (r : Registry) (name : String) :
    List (String × String) → Except Fault (Option (Path × String))
  | [] => .ok none
  | (space, directory) :: rest => do
      match ← r.fileIn? name space directory with
      | some file => return some file
      | none => r.firstFile? name rest

def declaringFile? (r : Registry) (name : String) : Except Fault (Option (Path × String)) :=
  r.firstFile? name r.roots.entries

end Registry

end RequestSchema
