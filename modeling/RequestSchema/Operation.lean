import RequestSchema.Session

/-!
Operations: what can be asked of a session. Each is one analysis on the registry of the session. The
parameters of a named class may be kept by a memory outside of the session.
-/
namespace RequestSchema

/-- What a memory does when the parameters of a class are asked for: it is given the name of the
class and the analysis that computes them, and may fetch the parameters or have them computed. A
computation that stops cannot be gone on after. -/
abbrev Memory := String → Analysis (List Parameter) → Analysis (List Parameter)

def Memory.ask (memory : Option Memory) (name : String) (compute : Analysis (List Parameter)) :
    Analysis (List Parameter) :=
  match memory with
  | none => compute
  | some memory => memory name compute

/-- What can be asked of a session. -/
inductive Operation where
  /-- the tree of a source -/
  | parse (text : String) (label : Option String)
  /-- the tree of a file -/
  | parseFile (path : Path)
  /-- make an enumeration known -/
  | register (e : Enumeration)
  /-- make the enumerations of a source known -/
  | registerSource (text : String) (label : Option String)
  /-- make the enumerations of a file known -/
  | registerFile (path : Path)
  /-- the enumeration of a class -/
  | enumeration (name : String)
  /-- the qualified name of a class -/
  | className (name : String) (space : Option String) (aliases : OrderedMap String String)
  /-- the first enumeration that some tokens stand for -/
  | reference (tokens : List Token) (space : Option String) (aliases : OrderedMap String String)
  /-- the rules of a method of a class -/
  | methodRules (label : String) (c : Source.ClassBody) (m : Source.Method)
  /-- the branches of a method of a class -/
  | methodBranches (label : String) (c : Source.ClassBody) (m : Source.Method)
  /-- the rules of a named class -/
  | rules (u : SourceUnit) (name : String)
  /-- the branches of a named class -/
  | branches (u : SourceUnit) (name : String)
  /-- the parameters of a named class -/
  | parameters (memory : Option Memory) (u : SourceUnit) (name : String) (conditional : Bool)
  /-- what can be found out about an anonymous class -/
  | resolve (h : Anonymous.Handle) (conditional : Bool)
  /-- the names in scope where an anonymous class was written -/
  | sourceNames (h : Anonymous.Handle)
  /-- the parameters of an anonymous class -/
  | anonymousParameters (h : Anonymous.Handle) (conditional : Bool)
  /-- the parameters of rules -/
  | build (data : Value) (origin : Origin)
  /-- the parameters of branches -/
  | buildConditional (data : Value) (origin : Origin)
  /-- add a diagnostic -/
  | report (d : Diagnostic)

namespace Operation

abbrev Result : Operation → Type
  | parse .. | parseFile .. => Option Source.SourceTree
  | register .. | enumeration .. | reference .. => Option Enumeration
  | registerSource .. | registerFile .. => List String
  | className .. => String
  | methodRules .. | rules .. => RuleSet
  | methodBranches .. | branches .. => ConditionalRules
  | parameters .. | anonymousParameters .. | build .. | buildConditional .. => List Parameter
  | resolve .. => Anonymous.Resolution
  | sourceNames .. => Option String × OrderedMap String String
  | report .. => Unit

/-- Register the enumerations of a source that has been read; the result is their names. -/
def registerParsed (parsed : Analysis (Option Source.SourceTree)) : Analysis (List String) := do
  match ← parsed with
  | some tree => Analysis.registerTree tree
  | none => return []

def analysis (settings : Settings) (factory : Anonymous.RequestFactory) :
    (op : Operation) → Analysis op.Result
  | parse text label => .parse text label
  | parseFile path => .parseFile path
  | register e => do
      Analysis.modify fun r => r.register e
      .enumeration? e.name
  | registerSource text label => registerParsed (.parse text label)
  | registerFile path => registerParsed (.parseFile path)
  | enumeration name => .enumeration? name
  | className name space aliases => EnumReference.resolve name space aliases
  | reference tokens space aliases => EnumReference.first? space aliases tokens
  | methodRules label c m =>
      (Extraction.methodRules label c settings.helperDepth m : Logged RuleSet)
  | methodBranches label c m =>
      (Extraction.methodBranches label c settings.helperDepth settings.predicateWords m :
        Logged ConditionalRules)
  | rules u name => u.rules settings name
  | branches u name => u.branches settings name
  | parameters memory u name conditional =>
      Memory.ask memory name (u.parameters settings name conditional)
  | resolve h conditional => Anonymous.resolve settings factory h conditional
  | sourceNames h => Anonymous.sourceNames h
  | anonymousParameters h conditional => Anonymous.parameters settings factory h conditional
  | build data origin => Parameter.ofRuleData data origin
  | buildConditional data origin => Parameter.ofConditionalData data origin
  | report d => .emit d

end Operation

def Session.operate (s : Session) (op : Operation) : Except Stop op.Result × Session :=
  s.perform (op.analysis s.settings s.factory)

end RequestSchema
