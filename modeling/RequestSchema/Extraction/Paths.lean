import RequestSchema.Branch
import RequestSchema.Extraction.Classify
import RequestSchema.Extraction.Method

/-!
Paths through a method: every return that can be reached makes a branch, with the conditions of the
arms that lead to it and the rules in the scope of its path. Running a statement over the live paths
gives the paths that go on behind it; what happens on the way is listed as events.
-/
namespace RequestSchema.Extraction

open RequestSchema.Source

/-- A path through a method up to some statement: its conditions, outermost first, and its
scope. -/
structure PathState where
  conditions : List Condition := []
  scope : Scope := .empty

/-- What happens while paths are followed. -/
inductive PathEvent where
  /-- a return makes a branch -/
  | branch (b : Branch)
  /-- a choice is met -/
  | choice
  /-- there are more paths than are followed -/
  | truncated
  | note (d : Diagnostic)

def PathEvent.isChoice : PathEvent → Bool
  | choice => true
  | _ => false

abbrev Paths := Emit PathEvent

/-- What following the paths of a method depends on. -/
structure PathContext where
  label : String
  helpers : Helpers
  predicateWords : List String
  /-- how many paths are followed at most behind a choice -/
  limit : Option Nat

def noted {α : Type} (m : Logged α) : Paths α := m.mapEvents .note

/-- The paths that are followed behind a choice. -/
def limited (ctx : PathContext) (states : List PathState) : Paths (List PathState) :=
  match ctx.limit with
  | none => return states
  | some limit => do
      if limit < states.length then
        Emit.event .truncated
        return states.take limit
      else return states

def PathState.enter (ctx : PathContext) (state : PathState) : Option Guard → PathState
  | none => state
  | some guard =>
      { state with conditions := state.conditions ++ [classifyGuard ctx.predicateWords guard] }

def returnBranch (ctx : PathContext) (line : Nat) (value : Option Expr) (state : PathState) :
    Paths Unit := do
  let rules ← noted (returnedRules ctx.label ctx.helpers line value state.scope)
  let branch ← (Branch.make state.conditions rules : Except Fault Branch)
  Emit.event (.branch branch)

mutual

def runStatement (ctx : PathContext) : Stmt → List PathState → Paths (List PathState)
  | .expression e, states => states.mapM fun state => do
      return { state with scope := ← noted (assign ctx.helpers e state.scope) }
  | .result line value, states => do
      states.forM (returnBranch ctx line value)
      return []
  | .choice arms, states => do
      Emit.event .choice
      let ends ← states.mapM fun state => do
        let ends ← runArms ctx arms state
        return if arms.any fun a => a.guard.isNone then ends else ends ++ [state]
      limited ctx ends.flatten
  | .block body, states => runBlock ctx body states
  | .loop body _, states => runBlock ctx body states
  | .attempt body _, states => runBlock ctx body states
  | .other, states => return states

/-- Run statements over the live paths, until none is left. -/
def runBlock (ctx : PathContext) : List Stmt → List PathState → Paths (List PathState)
  | [], states => return states
  | s :: rest, states =>
      if states.isEmpty then return []
      else do
        let states ← runStatement ctx s states
        runBlock ctx rest states

def runArms (ctx : PathContext) : List Arm → PathState → Paths (List PathState)
  | [], _ => return []
  | .arm guard body :: rest, state => do
      let ends ← runBlock ctx body [state.enter ctx guard]
      return ends ++ (← runArms ctx rest state)

end

def pathsContext : String := "ConditionalPathAnalyzer"

def branchesOf (events : List PathEvent) : List Branch :=
  events.filterMap fun | .branch b => some b | _ => none

def truncationWarning (ctx : PathContext) : Diagnostic :=
  ⟨.warning, pathsContext,
    "More than " ++ toString (ctx.limit.getD 0) ++ " paths, extra paths dropped",
    .ofList [("error_type", .text "path_limit_exceeded"), ("file_path", .text ctx.label)]⟩

/-- The diagnostics of events; that paths have been dropped is reported once. -/
def diagnosticsOf (ctx : PathContext) : Bool → List PathEvent → List Diagnostic
  | _, [] => []
  | reported, .note d :: rest => d :: diagnosticsOf ctx reported rest
  | reported, .truncated :: rest =>
      if reported then diagnosticsOf ctx true rest
      else truncationWarning ctx :: diagnosticsOf ctx true rest
  | reported, _ :: rest => diagnosticsOf ctx reported rest

/-- The branches of a method. A method without a return and without a choice has one, which is empty
and always taken. -/
def bodyBranches (ctx : PathContext) (body : List Stmt) : Logged ConditionalRules :=
  let run := runBlock ctx body [{}]
  let branches := branchesOf run.events
  let chosen := run.events.any PathEvent.isChoice
  ⟨diagnosticsOf ctx false run.events, do
    let _ ← run.outcome
    ConditionalRules.ofBranches (if branches.isEmpty && !chosen then [⟨[], .empty⟩] else branches)⟩

def pathLimit : Nat := 256

def methodContext (label : String) (c : ClassBody) (depth : Int) (words : List String)
    (m : Method) : PathContext :=
  ⟨label, helpersFor label c depth m, words, some pathLimit⟩

def methodBranches (label : String) (c : ClassBody) (depth : Int) (words : List String)
    (m : Method) : Logged ConditionalRules :=
  bodyBranches (methodContext label c depth words m) (m.body.getD [])

end RequestSchema.Extraction
