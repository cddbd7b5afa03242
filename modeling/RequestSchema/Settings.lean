import RequestSchema.Field.Example
import RequestSchema.OrderedMap
import RequestSchema.Text.Case
import RequestSchema.Text.Split

/-!
Settings of an analysis, and how they are read from the variables of an environment.
-/
namespace RequestSchema

open RequestSchema.Text

/-- The settings of an analysis. -/
structure Settings where
  /-- whether the first error stops the analysis -/
  strict : Bool := false
  logLevel : String := "WARNING"
  /-- the directories in which the classes of a namespace are declared -/
  roots : OrderedMap String String := .empty
  /-- the beginnings of the names of predicates about a user -/
  predicateWords : List String := ["is", "has", "can"]
  /-- the name of the method that returns the rules -/
  rulesMethod : String := "rules"
  /-- how many calls of helper methods are followed into each other -/
  helperDepth : Int := 3
  /-- how many characters of an example the memory holds; no variable tells it -/
  room : Int := Example.longestText
  deriving Repr

namespace Settings

def variableName (name : String) : String := "LARAVEL_RULES_" ++ name

def affirmations : List String := ["1", "true", "yes", "on"]

/-- The directories that a text such as `App\=app;Domain\=src/Domain` assigns to namespaces. Entries
without an equality sign, without a namespace or without a directory are skipped. -/
def readRoots (s : String) : OrderedMap String String :=
  .ofList <| (split ';' s).filterMap fun pair => do
    let (space, directory) ← cut? '=' pair
    if (trim space).isEmpty || (trim directory).isEmpty then none
    else some (trim space, trim directory)

def ofEnvironment (env : OrderedMap String String) : Settings :=
  { strict := match env.get? (variableName "FAIL_ON_ERROR") with
      | some s => affirmations.contains (lower (trim s))
      | none => false
    logLevel := match env.get? (variableName "LOG_LEVEL") with
      | some s => if s.isEmpty then "WARNING" else upper (trim s)
      | none => "WARNING"
    roots := match env.get? (variableName "PSR4") with
      | some s => readRoots s
      | none => .empty }

end Settings

end RequestSchema
