import Mathlib.Algebra.Order.BigOperators.Group.List
import Mathlib.Algebra.Order.Group.Nat
import Mathlib.Data.List.TakeWhile
import RequestSchema.Proofs.Extraction.Choices
import RequestSchema.Proofs.Extraction.PathReading
import RequestSchema.Proofs.Extraction.ScopelessFaults
import RequestSchema.Proofs.Extraction.WritableRules

/-!
# The first path of a method

Rules are read from a method in two ways: by one pass over its statements that enters every
block, and along every path. When the choices of a method are single tests and its returns stand
outside of all blocks, the pass is the first of the paths, on which every test holds.

* `runBlock_leads`: the first live path has the scope of the pass, whatever the other paths
  are and however many of them are dropped;
* `methodRules_eq_firstBranch`: the rules of a method are those of its first branch.
-/
namespace RequestSchema.Extraction

open Source

/-- A statement without a return whose only choices are single tests. -/
inductive Guarded : Stmt → Prop where
  | expression (e : Expr) : Guarded (.expression e)
  | other : Guarded .other
  | block {body : List Stmt} (inside : ∀ s ∈ body, Guarded s) : Guarded (.block body)
  | test (e : Expr) {body : List Stmt} (inside : ∀ s ∈ body, Guarded s) :
      Guarded (.choice [.arm (some (.test e)) body])

def isReturn : Stmt → Bool
  | .result _ _ => true
  | _ => false

mutual

def testsOf : Stmt → List Expr
  | .choice arms => armTests arms
  | .block body => allTests body
  | .loop body rest => allTests body ++ allTests rest
  | .attempt body handlers => allTests body ++ allTests handlers
  | _ => []

def allTests : List Stmt → List Expr
  | [] => []
  | s :: rest => testsOf s ++ allTests rest

def armTests : List Arm → List Expr
  | [] => []
  | .arm (some (.test e)) body :: rest => e :: allTests body ++ armTests rest
  | .arm _ body :: rest => allTests body ++ armTests rest

end

/-! ## The pass over the steps -/

/-- The scope after the assignments among some steps. -/
def scopeAfter (helpers : Helpers) : List Step → Scope → Except Fault Scope
  | [], scope => .ok scope
  | ⟨.expression e, _⟩ :: rest, scope =>
      (assign helpers e scope).outcome >>= scopeAfter helpers rest
  | _ :: rest, scope => scopeAfter helpers rest scope

theorem scopeAfter_append (helpers : Helpers) (first second : List Step) (scope : Scope) :
    scopeAfter helpers (first ++ second) scope =
      scopeAfter helpers first scope >>= scopeAfter helpers second := by
  induction first generalizing scope with
  | nil => rfl
  | cons step rest ih =>
    obtain ⟨statement, nested⟩ := step
    cases statement with
    | expression e =>
      have behind := funext ih
      simp only [List.cons_append, scopeAfter, bind_assoc, behind]
    | result _ _ | choice _ | block _ | loop _ _ | attempt _ _ | other => exact ih scope

/-- The pass stops at a step in every scope or in none. -/
theorem scopeAfter_fault (helpers : Helpers) (steps : List Step) (scope scope' : Scope) :
    Except.fault? (scopeAfter helpers steps scope) =
      Except.fault? (scopeAfter helpers steps scope') := by
  induction steps generalizing scope scope' with
  | nil => rfl
  | cons step rest ih =>
    obtain ⟨statement, nested⟩ := step
    cases statement with
    | expression e =>
      have same := @assign_fault helpers scope scope' e
      simp only [scopeAfter]
      unfold Emit.fault? at same
      cases ends : (assign helpers e scope).outcome with
      | ok after =>
        cases ends' : (assign helpers e scope').outcome with
        | ok after' => exact ih after after'
        | error fault => simp [ends, ends', Except.fault?] at same
      | error fault =>
        cases ends' : (assign helpers e scope').outcome with
        | ok after' => simp [ends, ends', Except.fault?] at same
        | error fault' =>
          simp only [ends, ends', Except.fault?, Option.some.injEq] at same
          rw [same]
    | result _ _ | choice _ | block _ | loop _ _ | attempt _ _ | other => exact ih scope scope'

/-- Where the pass does not stop in one scope, it does not in another. -/
theorem scopeAfter_ok {helpers : Helpers} {steps : List Step} {scope after : Scope}
    (passes : scopeAfter helpers steps scope = .ok after) (scope' : Scope) :
    ∃ after', scopeAfter helpers steps scope' = .ok after' := by
  have same := scopeAfter_fault helpers steps scope scope'
  rw [passes] at same
  cases ends : scopeAfter helpers steps scope' with
  | ok after' => exact ⟨after', rfl⟩
  | error fault => simp [ends, Except.fault?] at same

/-- Steps that do not return only change the scope. -/
theorem followSteps_append (label : String) (helpers : Helpers) {steps : List Step}
    (passing : ∀ step ∈ steps, isReturn step.statement = false) (rest : List Step) (scope : Scope)
    (rules : RuleSet) :
    (followSteps label helpers (steps ++ rest) scope rules).outcome =
      scopeAfter helpers steps scope >>= fun scope =>
        (followSteps label helpers rest scope rules).outcome := by
  induction steps generalizing scope with
  | nil => rfl
  | cons step steps ih =>
    obtain ⟨statement, nested⟩ := step
    have later := ih fun step member => passing step (List.mem_cons_of_mem _ member)
    cases statement with
    | expression e =>
      have behind := funext later
      simp only [List.cons_append, followSteps, scopeAfter, Emit.outcome_bind, bind_assoc, behind]
    | result line value =>
      have returns := passing _ List.mem_cons_self
      simp [isReturn] at returns
    | choice _ | block _ | loop _ _ | attempt _ _ | other => exact later scope

/-- Steps that return nothing are put together to such. -/
theorem allSteps_unreturned {nested : Bool} {body : List Stmt}
    (each : ∀ s ∈ body, ∀ step ∈ stepsOf nested s, isReturn step.statement = false) :
    ∀ step ∈ allSteps nested body, isReturn step.statement = false := by
  induction body with
  | nil => simp [allSteps]
  | cons s body ih =>
    intro step member
    simp only [allSteps, List.mem_append] at member
    rcases member with here | later
    · exact each s List.mem_cons_self step here
    · exact ih (fun s member => each s (List.mem_cons_of_mem _ member)) step later

theorem Guarded.unreturned {s : Stmt} (guarded : Guarded s) (nested : Bool) :
    ∀ step ∈ stepsOf nested s, isReturn step.statement = false := by
  induction guarded generalizing nested with
  | expression e => simp [stepsOf, isReturn]
  | other => simp [stepsOf, isReturn]
  | block inside ih =>
    rw [stepsOf]
    exact allSteps_unreturned fun s member => ih s member true
  | test e inside ih =>
    simp only [stepsOf, armSteps, List.append_nil]
    exact allSteps_unreturned fun s member => ih s member true

/-! ## The first of the live paths -/

/-- A computation over live paths leads the first of them along the steps: it stops where they
stop, and else the first live path has passed the tests and has the scope after the steps. The
others meet no more than the tests, and without a test there is none. -/
structure Leads (ctx : PathContext) (tests : List Expr) (steps : List Step)
    (run : List PathState → Paths (List PathState)) : Prop where
  stops : ∀ (state : PathState) (more : List PathState) (fault : Fault),
    scopeAfter ctx.helpers steps state.scope = .error fault →
      (run (state :: more)).outcome = .error fault
  passes : ∀ (state : PathState) (more : List PathState) (n : Nat) (scope : Scope),
    (∀ path ∈ state :: more, path.conditions.length ≤ n) →
    scopeAfter ctx.helpers steps state.scope = .ok scope → ∃ others,
      (run (state :: more)).outcome =
        .ok (⟨state.conditions ++ tests.map (classify ctx.predicateWords), scope⟩ :: others) ∧
      (∀ path ∈ others, path.conditions.length ≤ n + tests.length) ∧
      (tests = [] → more = [] → others = [])

/-- A computation over a list ends well when it does for each of its elements. -/
theorem mapM_ok {α β : Type} {f : α → Except Fault β} {R : α → β → Prop} {xs : List α}
    (each : ∀ x ∈ xs, ∃ y, f x = .ok y ∧ R x y) :
    ∃ ys, xs.mapM f = .ok ys ∧ ys.length = xs.length ∧ ∀ y ∈ ys, ∃ x ∈ xs, R x y := by
  induction xs with
  | nil => exact ⟨[], rfl, rfl, by simp⟩
  | cons x rest ih =>
    obtain ⟨y, first, related⟩ := each x List.mem_cons_self
    obtain ⟨ys, later, length, others⟩ := ih fun x member => each x (List.mem_cons_of_mem _ member)
    refine ⟨y :: ys, ?_, by simp [length], fun y' member => ?_⟩
    · rw [List.mapM_cons, first, later]
      rfl
    · rcases List.mem_cons.mp member with rfl | there
      · exact ⟨x, List.mem_cons_self, related⟩
      · obtain ⟨x', from_, related'⟩ := others y' there
        exact ⟨x', List.mem_cons_of_mem _ from_, related'⟩

theorem mapM_error {α β : Type} {f : α → Except Fault β} {x : α} {fault : Fault}
    (first : f x = .error fault) (xs : List α) : (x :: xs).mapM f = .error fault := by
  rw [List.mapM_cons, first]
  rfl

namespace Leads

variable {ctx : PathContext} {tests tests' : List Expr} {steps steps' : List Step}
  {run run' : List PathState → Paths (List PathState)}

/-- Only what happens to live paths counts. -/
theorem congr (same : ∀ state more, run (state :: more) = run' (state :: more))
    (led : Leads ctx tests steps run) : Leads ctx tests steps run' := by
  constructor
  · intro state more fault
    rw [← same]
    exact led.stops state more fault
  · intro state more n scope
    rw [← same]
    exact led.passes state more n scope

theorem pass (ctx : PathContext) : Leads ctx [] [] fun states => pure states := by
  constructor
  · intro state more fault stopped
    cases stopped
  · intro state more n scope bound passed
    cases passed
    refine ⟨more, by simp [pure], fun path member => ?_, fun _ none => none⟩
    exact bound path (List.mem_cons_of_mem _ member)

theorem seq (first : Leads ctx tests steps run) (second : Leads ctx tests' steps' run') :
    Leads ctx (tests ++ tests') (steps ++ steps') fun states => run states >>= run' := by
  constructor
  · intro state more fault stopped
    rw [Emit.outcome_bind]
    rw [scopeAfter_append] at stopped
    cases passed : scopeAfter ctx.helpers steps state.scope with
    | error fault' =>
      rw [passed] at stopped
      cases stopped
      rw [first.stops state more fault passed]
      rfl
    | ok scope =>
      rw [passed] at stopped
      have bound : ∀ path ∈ state :: more, path.conditions.length ≤
          ((state :: more).map fun path => path.conditions.length).sum := fun path member =>
        List.le_sum_of_mem (List.mem_map_of_mem member)
      obtain ⟨others, ends, -, -⟩ := first.passes state more _ scope bound passed
      rw [ends]
      exact second.stops _ others fault stopped
  · intro state more n scope' bound passed'
    rw [Emit.outcome_bind]
    rw [scopeAfter_append] at passed'
    cases passed : scopeAfter ctx.helpers steps state.scope with
    | error fault =>
      rw [passed] at passed'
      cases passed'
    | ok scope =>
      rw [passed] at passed'
      obtain ⟨others, ends, short, alone⟩ := first.passes state more n scope bound passed
      have here : state.conditions.length ≤ n := bound state List.mem_cons_self
      have bound' : ∀ path ∈ (⟨state.conditions ++ tests.map (classify ctx.predicateWords),
          scope⟩ : PathState) :: others, path.conditions.length ≤ n + tests.length := by
        intro path member
        rcases List.mem_cons.mp member with rfl | other
        · simp only [List.length_append, List.length_map]
          omega
        · exact short path other
      obtain ⟨others', ends', short', alone'⟩ := second.passes _ others _ scope' bound' passed'
      refine ⟨others', ?_, fun path member => ?_, fun untested none => ?_⟩
      · rw [ends]
        simpa [bind, Except.bind] using ends'
      · have bounded := short' path member
        simp only [List.length_append]
        omega
      · obtain ⟨before, behind⟩ := List.append_eq_nil_iff.mp untested
        exact alone' behind (alone before none)

end Leads

/-! ## Statements without a return -/

theorem leads_expression (ctx : PathContext) (e : Expr) (nested : Bool) :
    Leads ctx [] [⟨.expression e, nested⟩] (runStatement ctx (.expression e)) := by
  let evaluate : PathState → Paths PathState := fun path => do
    return { path with scope := ← noted (assign ctx.helpers e path.scope) }
  have evaluated (path : PathState) : (evaluate path).outcome =
      (assign ctx.helpers e path.scope).outcome >>= fun scope => .ok { path with scope } := by
    simp only [evaluate, Emit.outcome_bind]
    rfl
  have only (scope : Scope) : scopeAfter ctx.helpers [⟨.expression e, nested⟩] scope =
      (assign ctx.helpers e scope).outcome := by
    simp only [scopeAfter]
    exact bind_pure _
  constructor
  · intro state more fault stopped
    rw [only] at stopped
    change ((state :: more).mapM evaluate).outcome = _
    rw [outcome_mapM]
    refine mapM_error ?_ more
    rw [evaluated, stopped]
    rfl
  · intro state more n scope bound passed
    rw [only] at passed
    have others : ∀ path ∈ more, ∃ path', (evaluate path).outcome = .ok path' ∧
        path'.conditions = path.conditions := by
      intro path member
      have passes : (assign ctx.helpers e path.scope).fault? = none := by
        rw [assign_fault path.scope state.scope]
        exact Emit.fault?_eq_none.mpr ⟨scope, passed⟩
      obtain ⟨scope', ends⟩ := Emit.fault?_eq_none.mp passes
      refine ⟨{ path with scope := scope' }, ?_, rfl⟩
      rw [evaluated, ends]
      rfl
    obtain ⟨more', later, length, same⟩ := mapM_ok others
    refine ⟨more', ?_, fun path member => ?_, fun _ none => ?_⟩
    · change ((state :: more).mapM evaluate).outcome = _
      rw [outcome_mapM, List.mapM_cons, later, evaluated, passed]
      simp [bind, Except.bind, pure, Except.pure]
    · obtain ⟨path', there, kept⟩ := same path member
      rw [kept]
      exact bound path' (List.mem_cons_of_mem _ there)
    · rw [none] at length
      exact List.eq_nil_of_length_eq_zero length

/-- Statements lead the first path when each of them does. -/
theorem leads_block (ctx : PathContext) (nested : Bool) {body : List Stmt}
    (each : ∀ s ∈ body, Leads ctx (testsOf s) (stepsOf nested s) (runStatement ctx s)) :
    Leads ctx (allTests body) (allSteps nested body) (runBlock ctx body) := by
  induction body with
  | nil => exact (Leads.pass ctx).congr fun state more => rfl
  | cons s rest ih =>
    have later := ih fun s member => each s (List.mem_cons_of_mem _ member)
    have joined := (each s List.mem_cons_self).seq later
    rw [allTests, allSteps]
    refine joined.congr fun state more => ?_
    rfl

/-- The first path is kept when paths are dropped. -/
theorem limited_first {ctx : PathContext} (positive : ∀ n, ctx.limit = some n → 0 < n)
    (state : PathState) (others : List PathState) :
    ∃ kept, (limited ctx (state :: others)).outcome = .ok (state :: kept) ∧ kept ⊆ others := by
  unfold limited
  cases limit : ctx.limit with
  | none => exact ⟨others, rfl, List.Subset.refl _⟩
  | some n =>
    simp only
    split
    · obtain ⟨m, rfl⟩ := Nat.exists_eq_succ_of_ne_zero (Nat.ne_of_gt (positive n limit))
      exact ⟨others.take m, rfl, List.take_subset m others⟩
    · exact ⟨others, rfl, List.Subset.refl _⟩

/-- The paths behind a test: those that have passed it and the one that has not. -/
def testEnds (ctx : PathContext) (e : Expr) (body : List Stmt) (state : PathState) :
    Except Fault (List PathState) := do
  let ends ← (runBlock ctx body [state.enter ctx (some (.test e))]).outcome
  return ends ++ [state]

theorem runStatement_test (ctx : PathContext) (e : Expr) (body : List Stmt)
    (states : List PathState) :
    (runStatement ctx (.choice [.arm (some (.test e)) body]) states).outcome =
      states.mapM (testEnds ctx e body) >>= fun ends => (limited ctx ends.flatten).outcome := by
  have each (state : PathState) :
      pathEnds ctx [.arm (some (.test e)) body] state = testEnds ctx e body state := by
    rw [pathEnds, testEnds, List.mapM_cons]
    change (((runBlock ctx body [state.enter ctx (some (.test e))]).outcome >>= _) >>= _) = _
    cases (runBlock ctx body [state.enter ctx (some (.test e))]).outcome with
    | error fault => rfl
    | ok ends => exact congrArg (fun passed => Except.ok (passed ++ [state])) (List.append_nil ends)
  rw [outcome_choice, funext each]

theorem leads_test {ctx : PathContext} (positive : ∀ n, ctx.limit = some n → 0 < n) (e : Expr)
    {body : List Stmt} {tests : List Expr} {steps : List Step}
    (inside : Leads ctx tests steps (runBlock ctx body)) :
    Leads ctx (e :: tests) steps (runStatement ctx (.choice [.arm (some (.test e)) body])) := by
  constructor
  · intro state more fault stopped
    rw [runStatement_test]
    have stops : testEnds ctx e body state = .error fault := by
      rw [testEnds, inside.stops (state.enter ctx (some (.test e))) [] fault stopped]
      rfl
    rw [mapM_error stops]
    rfl
  · intro state more n scope bound passed
    -- every path enters the test, where it meets one more condition, and also goes on behind it
    have enters (path : PathState) (member : path ∈ state :: more) {scope : Scope}
        (passed : scopeAfter ctx.helpers steps path.scope = .ok scope) :
        ∃ others, testEnds ctx e body path = .ok
            (⟨path.conditions ++ (e :: tests).map (classify ctx.predicateWords), scope⟩ :: others) ∧
          ∀ path ∈ others, path.conditions.length ≤ n + (e :: tests).length := by
      have here := bound path member
      have bound' : ∀ inner ∈ [path.enter ctx (some (.test e))],
          inner.conditions.length ≤ n + 1 := by
        intro inner only
        rw [List.mem_singleton.mp only]
        simpa [PathState.enter] using here
      obtain ⟨others, ends, short, -⟩ := inside.passes _ [] (n + 1) scope bound' passed
      refine ⟨others ++ [path], ?_, fun inner member => ?_⟩
      · rw [testEnds, ends]
        simp [PathState.enter, classifyGuard, bind, Except.bind, pure, Except.pure]
      · rcases List.mem_append.mp member with other | skipped
        · have bounded := short inner other
          simp only [List.length_cons]
          omega
        · rw [List.mem_singleton.mp skipped]
          omega
    obtain ⟨others, ends, short⟩ := enters state List.mem_cons_self passed
    have each : ∀ path ∈ more, ∃ ends, testEnds ctx e body path = .ok ends ∧
        ∀ inner ∈ ends, inner.conditions.length ≤ n + (e :: tests).length := by
      intro path member
      obtain ⟨scope', passed'⟩ := scopeAfter_ok passed path.scope
      obtain ⟨others, ends, short⟩ := enters path (List.mem_cons_of_mem _ member) passed'
      refine ⟨_, ends, fun inner member' => ?_⟩
      rcases List.mem_cons.mp member' with rfl | other
      · have here := bound path (List.mem_cons_of_mem _ member)
        simp only [List.length_append, List.length_map]
        omega
      · exact short inner other
    obtain ⟨ends', later, -, bounded⟩ := mapM_ok each
    obtain ⟨kept, limited, among⟩ := limited_first positive
      ⟨state.conditions ++ (e :: tests).map (classify ctx.predicateWords), scope⟩
      (others ++ ends'.flatten)
    refine ⟨kept, ?_, fun path member => ?_, fun none => ?_⟩
    · rw [runStatement_test, List.mapM_cons, ends, later]
      exact limited
    · rcases List.mem_append.mp (among member) with other | later
      · exact short path other
      · obtain ⟨inner, there, member'⟩ := List.mem_flatten.mp later
        obtain ⟨path', -, short'⟩ := bounded inner there
        exact short' path member'
    · cases none

theorem Guarded.leads {ctx : PathContext} (positive : ∀ n, ctx.limit = some n → 0 < n) {s : Stmt}
    (guarded : Guarded s) (nested : Bool) :
    Leads ctx (testsOf s) (stepsOf nested s) (runStatement ctx s) := by
  induction guarded generalizing nested with
  | expression e => exact leads_expression ctx e nested
  | other =>
    rw [testsOf, stepsOf]
    · exact ⟨(Leads.pass ctx).stops, (Leads.pass ctx).passes⟩
    all_goals simp
  | block inside ih =>
    exact (leads_block ctx true fun s member => ih s member true).congr fun state more => rfl
  | test e inside ih =>
    have body := leads_block ctx true fun s member => ih s member true
    simpa [testsOf, armTests, stepsOf, armSteps] using leads_test positive e body

/-! ## Statements without a return make no branch -/

theorem branch_not_mem_limited (ctx : PathContext) (states : List PathState) (b : Branch) :
    .branch b ∉ (limited ctx states).events := by
  unfold limited
  split
  · simp [pure]
  · split
    · simp [Emit.event, bind, Emit.bind, Emit.after, pure]
    · simp [pure]

theorem branch_not_mem_block {ctx : PathContext} {b : Branch} {body : List Stmt}
    (each : ∀ s ∈ body, ∀ states, .branch b ∉ (runStatement ctx s states).events)
    (states : List PathState) : .branch b ∉ (runBlock ctx body states).events := by
  induction body generalizing states with
  | nil => simp [runBlock, pure]
  | cons s rest ih =>
    intro member
    unfold runBlock at member
    split at member
    · cases member
    · rcases Emit.mem_events_bind.mp member with here | ⟨live, -, later⟩
      · exact each s List.mem_cons_self states here
      · exact ih (fun s member => each s (List.mem_cons_of_mem _ member)) live later

theorem Guarded.branch_not_mem {s : Stmt} (guarded : Guarded s) (ctx : PathContext) (b : Branch)
    (states : List PathState) : .branch b ∉ (runStatement ctx s states).events := by
  induction guarded generalizing states with
  | expression e => exact not_mem_expression (by simp) ctx e states
  | other => simp [runStatement, pure]
  | block inside ih => exact branch_not_mem_block ih states
  | @test e body inside ih =>
    intro member
    rcases Emit.mem_events_bind.mp member with choice | ⟨_, -, member⟩
    · cases List.mem_singleton.mp choice
    rcases Emit.mem_events_bind.mp member with member | ⟨_, -, dropped⟩
    · obtain ⟨state, -, here⟩ := mem_events_mapM _ _ _ member
      rcases Emit.mem_events_bind.mp here with entered | ⟨_, -, none⟩
      · rcases Emit.mem_events_bind.mp entered with inner | ⟨_, -, none⟩
        · exact branch_not_mem_block ih _ inner
        · cases none
      · cases none
    · exact branch_not_mem_limited ctx _ b dropped

theorem branchesOf_eq_nil {events : List PathEvent} (quiet : ∀ b, .branch b ∉ events) :
    branchesOf events = [] := by
  refine List.filterMap_eq_nil_iff.mpr fun event member => ?_
  cases event with
  | branch b => exact absurd member (quiet b)
  | choice | truncated | note _ => rfl

/-! ## The return -/

theorem returnBranch_ok {ctx : PathContext} {line : Nat} {value : Option Expr} {state : PathState}
    {rules : RuleSet} (short : state.conditions.length < 1024)
    (ends : (returnedRules ctx.label ctx.helpers line value state.scope).outcome = .ok rules) :
    (returnBranch ctx line value state).outcome = .ok () ∧
      branchesOf (returnBranch ctx line value state).events = [⟨state.conditions, rules⟩] := by
  unfold returnBranch
  rw [Emit.bind_ok _ (m := noted _) ends, make_short state.conditions rules short]
  refine ⟨rfl, ?_⟩
  change branchesOf (_ ++ [.branch ⟨state.conditions, rules⟩]) = _
  rw [branchesOf_append, noted, Emit.mapEvents, branchesOf_notes]
  rfl

theorem runStatement_result_stops {ctx : PathContext} {line : Nat} {value : Option Expr}
    {state : PathState} {fault : Fault} (more : List PathState)
    (stopped : (returnedRules ctx.label ctx.helpers line value state.scope).outcome =
      .error fault) :
    (runStatement ctx (.result line value) (state :: more)).outcome = .error fault := by
  have first : (returnBranch ctx line value state).outcome = .error fault := by
    unfold returnBranch
    rw [Emit.bind_error _ (m := noted _) stopped]
  simp only [runStatement, List.forM_eq_forM, List.forM_cons, bind_assoc, Emit.outcome_bind, first]
  rfl

/-- A return that can be read ends all live paths, the first of them with its branch. -/
theorem runStatement_result {ctx : PathContext} {line : Nat} {value : Option Expr}
    {state : PathState} {more : List PathState} {rules : RuleSet}
    (short : ∀ path ∈ state :: more, path.conditions.length < 1024)
    (ends : (returnedRules ctx.label ctx.helpers line value state.scope).outcome = .ok rules) :
    (runStatement ctx (.result line value) (state :: more)).outcome = .ok [] ∧ ∃ others,
      branchesOf (runStatement ctx (.result line value) (state :: more)).events =
        ⟨state.conditions, rules⟩ :: others ∧ (more = [] → others = []) := by
  have each (paths : List PathState) (among : paths ⊆ state :: more) :
      (paths.forM (returnBranch ctx line value)).outcome = .ok () := by
    induction paths with
    | nil => rfl
    | cons path rest ih =>
      have readable :
          (returnedRules ctx.label ctx.helpers line value path.scope).fault? = none := by
        rw [returnedRules_fault path.scope state.scope]
        exact Emit.fault?_eq_none.mpr ⟨rules, ends⟩
      obtain ⟨rules', ends'⟩ := Emit.fault?_eq_none.mp readable
      have first := (returnBranch_ok (short path (among List.mem_cons_self)) ends').1
      rw [List.forM_eq_forM, List.forM_cons, Emit.bind_ok _ first]
      exact ih (List.subset_of_cons_subset among)
  obtain ⟨first, branch⟩ := returnBranch_ok (short state List.mem_cons_self) ends
  have later := each more (List.subset_cons_self ..)
  have run : runStatement ctx (.result line value) (state :: more) =
      (pure [] : Paths _).after ((returnBranch ctx line value state).events ++
        (more.forM (returnBranch ctx line value)).events) := by
    rw [runStatement, List.forM_eq_forM, List.forM_cons, bind_assoc, Emit.bind_ok _ first,
      ← List.forM_eq_forM, Emit.bind_ok _ later]
    simp [Emit.after]
  rw [run]
  refine ⟨rfl, branchesOf (more.forM (returnBranch ctx line value)).events, ?_, ?_⟩
  · simp only [Emit.after, pure, List.append_nil, branchesOf_append, branch]
    rfl
  · intro none
    rw [none]
    rfl

/-! ## The whole method -/

theorem runBlock_nil (ctx : PathContext) (body : List Stmt) : runBlock ctx body [] = pure [] := by
  cases body with
  | nil => rfl
  | cons s rest => rfl

theorem runBlock_append (ctx : PathContext) (first second : List Stmt) (states : List PathState) :
    runBlock ctx (first ++ second) states = runBlock ctx first states >>= runBlock ctx second := by
  induction first generalizing states with
  | nil => exact (pure_bind states _).symm
  | cons s rest ih =>
    cases states with
    | nil =>
      rw [runBlock_nil, runBlock_nil, pure_bind, runBlock_nil]
    | cons state more =>
      change runStatement ctx s (state :: more) >>= runBlock ctx (rest ++ second) =
        (runStatement ctx s (state :: more) >>= runBlock ctx rest) >>= runBlock ctx second
      rw [bind_assoc, funext ih]

theorem allSteps_append (nested : Bool) (first second : List Stmt) :
    allSteps nested (first ++ second) = allSteps nested first ++ allSteps nested second := by
  induction first with
  | nil => rfl
  | cons s rest ih => rw [List.cons_append, allSteps, allSteps, ih, List.append_assoc]

theorem allTests_append (first second : List Stmt) :
    allTests (first ++ second) = allTests first ++ allTests second := by
  induction first with
  | nil => rfl
  | cons s rest ih => rw [List.cons_append, allTests, allTests, ih, List.append_assoc]

/-- The statements in front of the first return, the return and those behind it. -/
theorem exists_first_return {body : List Stmt} (returns : ∃ s ∈ body, isReturn s = true) :
    ∃ line value rest,
      body = body.takeWhile (fun s => !isReturn s) ++ .result line value :: rest := by
  induction body with
  | nil => simp at returns
  | cons s body ih =>
    cases s with
    | result line value => exact ⟨line, value, body, rfl⟩
    | expression _ | choice _ | block _ | loop _ _ | attempt _ _ | other =>
      obtain ⟨line, value, rest, split⟩ := ih (by simpa [isReturn] using returns)
      refine ⟨line, value, rest, ?_⟩
      simpa [List.takeWhile_cons, isReturn] using split

section

variable {before : List Stmt} (guarded : ∀ s ∈ before, Guarded s) (line : Nat)
  (value : Option Expr) (rest : List Stmt)
include guarded

/-- The rules of a method are those of its first return, read in the scope in front of it. -/
theorem bodyRules_outcome (label : String) (helpers : Helpers) :
    (bodyRules label helpers (before ++ .result line value :: rest)).outcome =
      scopeAfter helpers (allSteps false before) .empty >>= fun scope =>
        (returnedRules label helpers line value scope).outcome := by
  have unreturned := allSteps_unreturned fun s member => (guarded s member).unreturned false
  have first : allSteps false (.result line value :: rest) =
      ⟨.result line value, false⟩ :: allSteps false rest := by
    simp [allSteps, stepsOf]
  rw [bodyRules, allSteps_append, first, followSteps_append label helpers unreturned]
  congr 1
  funext scope
  rw [followSteps]
  exact congrArg Emit.outcome (bind_pure _)

/-- The first branch of a method is that of its first return on the path that passes all tests. -/
theorem bodyBranches_outcome {ctx : PathContext} (called : ∀ name, MayRead (ctx.helpers name))
    (positive : ∀ n, ctx.limit = some n → 0 < n)
    (few : (allTests before).length < 1024) :
    match scopeAfter ctx.helpers (allSteps false before) .empty >>= fun scope =>
      (returnedRules ctx.label ctx.helpers line value scope).outcome with
    | .error fault => (bodyBranches ctx (before ++ .result line value :: rest)).outcome =
        .error fault
    | .ok rules => ∃ others found,
        (bodyBranches ctx (before ++ .result line value :: rest)).outcome = .ok found ∧
        ConditionalRules.ofBranches
          (⟨(allTests before).map (classify ctx.predicateWords), rules⟩ :: others) = .ok found ∧
        (allTests before = [] → others = []) := by
  have leads := leads_block ctx false fun s member => (guarded s member).leads positive false
  have quiet := branchesOf_eq_nil fun b => branch_not_mem_block
    (fun s member states => (guarded s member).branch_not_mem ctx b states) [({} : PathState)]
  have run := runBlock_append ctx before (.result line value :: rest) [{}]
  cases passed : scopeAfter ctx.helpers (allSteps false before) .empty with
  | error fault =>
    have stops := leads.stops {} [] fault passed
    rw [Emit.bind_error _ stops] at run
    simp only [bodyBranches, run]
    rfl
  | ok scope =>
    have bound : ∀ path ∈ [({} : PathState)], path.conditions.length ≤ 0 := by simp
    obtain ⟨more, ends, short, alone⟩ := leads.passes {} [] 0 scope bound passed
    simp only [List.nil_append] at ends
    rw [Emit.bind_ok _ ends] at run
    change runBlock ctx _ _ = Emit.after _ (runStatement ctx (.result line value) _ >>= _) at run
    change match (returnedRules ctx.label ctx.helpers line value scope).outcome with
      | .error fault => _
      | .ok rules => _
    cases returned : (returnedRules ctx.label ctx.helpers line value scope).outcome with
    | error fault =>
      rw [Emit.bind_error _ (runStatement_result_stops more returned)] at run
      simp only [bodyBranches, run]
      rfl
    | ok rules =>
      have short' : ∀ path ∈ (⟨(allTests before).map (classify ctx.predicateWords), scope⟩ :
          PathState) :: more, path.conditions.length < 1024 := by
        intro path member
        rcases List.mem_cons.mp member with rfl | other
        · simpa using few
        · have bounded := short path other
          omega
      obtain ⟨ended, others, branches, lone⟩ := runStatement_result short' returned
      rw [Emit.bind_ok _ ended, runBlock_nil] at run
      have found : branchesOf (runBlock ctx (before ++ .result line value :: rest) [{}]).events =
          ⟨(allTests before).map (classify ctx.predicateWords), rules⟩ :: others := by
        simp only [run, Emit.after, pure, branchesOf_append, quiet, branches]
        exact List.append_nil _
      have ended : (runBlock ctx (before ++ .result line value :: rest) [{}]).outcome = .ok [] := by
        rw [run]
        rfl
      obtain ⟨joined, joins⟩ :=
        exists_ofBranches called (before ++ .result line value :: rest)
      rw [found] at joins
      refine ⟨others, joined, ?_, joins, fun untested => lone (alone untested rfl)⟩
      simp only [bodyBranches, found, ended]
      exact joins

end

/-- The rules of a method whose choices are single tests and whose returns stand outside of all
blocks are those of its first branch, which has all tests in front of the first return as its
conditions. Where one of both stops with a fault, so does the other. Without a test in front of the
return there is no other branch. -/
theorem methodRules_eq_firstBranch (label : String) (c : ClassBody) (depth : Int)
    (words : List String) (m : Method) (body : List Stmt) (written : m.body = some body)
    (guarded : ∀ s ∈ body, Guarded s ∨ isReturn s = true) (returns : ∃ s ∈ body, isReturn s = true)
    (few : (allTests body).length < 1024) :
    match (methodRules label c depth m).outcome with
    | .error fault => (methodBranches label c depth words m).outcome = .error fault
    | .ok rules => ∃ others found,
        (methodBranches label c depth words m).outcome = .ok found ∧
        ConditionalRules.ofBranches
          (⟨(allTests (body.takeWhile fun s => !isReturn s)).map (classify words), rules⟩ ::
            others) = .ok found ∧
        (allTests (body.takeWhile fun s => !isReturn s) = [] → others = []) := by
  obtain ⟨line, value, rest, split⟩ := exists_first_return returns
  have passing : ∀ s ∈ body.takeWhile fun s => !isReturn s, Guarded s := by
    intro s member
    have unreturned := List.mem_takeWhile_imp member
    have there := (List.takeWhile_sublist _).subset member
    exact (guarded s there).resolve_right (by simpa using unreturned)
  have fewer : (allTests (body.takeWhile fun s => !isReturn s)).length < 1024 := by
    rw [split, allTests_append, List.length_append] at few
    omega
  have positive : ∀ n, (methodContext label c depth words m).limit = some n → 0 < n := by
    intro n limit
    cases limit
    exact Nat.zero_lt_succ _
  have flat := bodyRules_outcome passing line value rest label (helpersFor label c depth m)
  have branches := bodyBranches_outcome passing line value rest
    (methodContext_mayRead label c depth words m) positive fewer
  rw [← split] at flat branches
  simp only [methodRules, methodBranches, written, Option.getD_some, flat]
  exact branches

def nestedTests : List Stmt :=
  [.choice [.arm (some (.test (.var "$updates")))
      [.choice [.arm (some (.test (.var "$strict")))
        [.expression (.assign "$r = ['name' => 'required']" (.var "$r")
          (.array "['name' => 'required']" [.pair (.string "'name'") (.string "'required'")]))]]]],
    .result 6 (some (.var "$r")), .result 7 none]

theorem nestedTests_firstBranch :
    ∃ others found,
      (methodBranches "" ⟨1, []⟩ 3 [] ⟨"rules", 1, "", some nestedTests⟩).outcome = .ok found ∧
      ConditionalRules.ofBranches (⟨[.custom "$updates", .custom "$strict"],
        .ofList [(.text "name", .text "required")]⟩ :: others) = .ok found := by
  have inner : Guarded (.choice [.arm (some (.test (.var "$strict")))
      [.expression (.assign "$r = ['name' => 'required']" (.var "$r")
        (.array "['name' => 'required']" [.pair (.string "'name'") (.string "'required'")]))]]) :=
    .test _ (by simpa using .expression _)
  have guarded : ∀ s ∈ nestedTests, Guarded s ∨ isReturn s = true := by
    simpa [nestedTests, isReturn] using Guarded.test (.var "$updates") (by simpa using inner)
  have rules : (methodRules "" ⟨1, []⟩ 3 ⟨"rules", 1, "", some nestedTests⟩).outcome =
      .ok (.ofList [(.text "name", .text "required")]) := by
    rfl
  have first := methodRules_eq_firstBranch "" ⟨1, []⟩ 3 [] ⟨"rules", 1, "", some nestedTests⟩
    nestedTests rfl guarded (by simp [nestedTests, isReturn]) (by decide)
  rw [rules] at first
  obtain ⟨others, found, branches, joined, -⟩ := first
  exact ⟨others, found, branches, joined⟩

end RequestSchema.Extraction
