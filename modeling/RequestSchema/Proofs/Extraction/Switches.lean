import RequestSchema.Proofs.Extraction.PathCoverage

/-!
# Switches

A switch enters the first case whose value is that of its subject and runs on from there: behind the
body of a case it goes on with the next body, unless a break or a return ends the case. The tree of
a method does not tell where its cases break, and every case is read as if it did.

`Code` is a method with its breaks, `Code.stmt` its tree, and `Executes` how it runs.

* `branches_of_executions`: what an execution returns is the rules of a branch, with the case that
  has been entered among its conditions, as long as no case is left into the statements of the next;
* `groupedVerbs_unread`: the branch of a case that shares the body of the next one is lost.
-/
namespace RequestSchema.Extraction

open Source

mutual

/-- A statement of a method, with the places where its cases break. -/
inductive Code where
  | expression (e : Expr)
  | result (line : Nat) (value : Option Expr)
  | other
  | block (body : List Code)
  | loop (body others : List Code)
  | attempt (body handlers : List Code)
  /-- the arms of `if`, `elseif` and `else` -/
  | tests (arms : List TestArm)
  | switch (subject : Expr) (cases : List SwitchCase)

/-- An arm that is entered when its test holds; the last one may have none. -/
inductive TestArm where
  | arm (test : Option Expr) (body : List Code)

/-- A case of a switch, without a value the default one. A break may stand at the end of its
body. -/
inductive SwitchCase where
  | case (value : Option Expr) (body : List Code) (breaks : Bool)

end

def TestArm.test : TestArm → Option Expr
  | arm test _ => test

def SwitchCase.value : SwitchCase → Option Expr
  | case value _ _ => value

mutual

/-- The tree of a statement. A break is one of the statements that do nothing. -/
def Code.stmt : Code → Stmt
  | .expression e => .expression e
  | .result line value => .result line value
  | .other => .other
  | .block body => .block (Code.stmts body)
  | .loop body others => .loop (Code.stmts body) (Code.stmts others)
  | .attempt body handlers => .attempt (Code.stmts body) (Code.stmts handlers)
  | .tests arms => .choice (Code.testArms arms)
  | .switch subject cases => .choice (Code.caseArms subject cases)

def Code.stmts : List Code → List Stmt
  | [] => []
  | c :: rest => c.stmt :: Code.stmts rest

def Code.testArms : List TestArm → List Arm
  | [] => []
  | .arm test body :: rest => .arm (test.map .test) (Code.stmts body) :: Code.testArms rest

def Code.caseArms (subject : Expr) : List SwitchCase → List Arm
  | [] => []
  | .case value body breaks :: rest =>
      .arm (value.map (.equals subject)) (Code.stmts body ++ if breaks then [.other] else []) ::
        Code.caseArms subject rest

end

/-- What runs from the first of some cases on, up to a break. -/
def fallThrough : List SwitchCase → List Code
  | [] => []
  | .case _ body breaks :: rest => body ++ if breaks then [] else fallThrough rest

/-- `Executes ctx code state fell finish`: the statements `code` run from `state` and end with
`finish`, a return or what goes on behind them. They enter any arm, and any case; the bodies of
loops run once, and nothing fails. `fell` tells whether a case has been left into statements of the
next ones. -/
inductive Executes (ctx : PathContext) : List Code → PathState → Bool → Finish → Prop where
  | done (state : PathState) : Executes ctx [] state false (.passed state)
  | expression {e rest state scope fell finish}
      (assigned : (assign ctx.helpers e state.scope).outcome = .ok scope)
      (after : Executes ctx rest { state with scope } fell finish) :
      Executes ctx (.expression e :: rest) state fell finish
  | result {line value state rules} (rest : List Code)
      (returned :
        (returnedRules ctx.label ctx.helpers line value state.scope).outcome = .ok rules) :
      Executes ctx (.result line value :: rest) state false (.returned ⟨state.conditions, rules⟩)
  | other {rest state fell finish} (after : Executes ctx rest state fell finish) :
      Executes ctx (.other :: rest) state fell finish
  | block {body rest state fell finish}
      (inside : Executes ctx (body ++ rest) state fell finish) :
      Executes ctx (.block body :: rest) state fell finish
  | loop {body others rest state fell finish}
      (inside : Executes ctx (body ++ rest) state fell finish) :
      Executes ctx (.loop body others :: rest) state fell finish
  | attempt {body handlers rest state fell finish}
      (inside : Executes ctx (body ++ rest) state fell finish) :
      Executes ctx (.attempt body handlers :: rest) state fell finish
  | test {arms test body rest state fell finish} (arm : .arm test body ∈ arms)
      (inside : Executes ctx (body ++ rest) (state.enter ctx (test.map .test)) fell finish) :
      Executes ctx (.tests arms :: rest) state fell finish
  | skipTests {arms rest state fell finish} (noElse : ∀ arm ∈ arms, arm.test ≠ none)
      (after : Executes ctx rest state fell finish) :
      Executes ctx (.tests arms :: rest) state fell finish
  | returnInCase {subject before value body breaks later state fell branch} (rest : List Code)
      (inside : Executes ctx body (state.enter ctx (value.map (.equals subject))) fell
        (.returned branch)) :
      Executes ctx (.switch subject (before ++ .case value body breaks :: later) :: rest) state
        fell (.returned branch)
  | endCase {subject before value body breaks later rest state state' fell fell' finish}
      (inside : Executes ctx body (state.enter ctx (value.map (.equals subject))) fell
        (.passed state'))
      (after : Executes ctx ((if breaks then [] else fallThrough later) ++ rest) state' fell'
        finish) :
      Executes ctx (.switch subject (before ++ .case value body breaks :: later) :: rest) state
        (fell || fell' || !(if breaks then [] else fallThrough later).isEmpty) finish
  | skipCases {subject cases rest state fell finish}
      (noDefault : ∀ case ∈ cases, case.value ≠ none)
      (after : Executes ctx rest state fell finish) :
      Executes ctx (.switch subject cases :: rest) state fell finish

namespace Code

theorem stmts_append (first second : List Code) :
    stmts (first ++ second) = stmts first ++ stmts second := by
  induction first with
  | nil => rfl
  | cons c rest ih => rw [List.cons_append, stmts, stmts, ih, List.cons_append]

theorem caseArms_append (subject : Expr) (first second : List SwitchCase) :
    caseArms subject (first ++ second) = caseArms subject first ++ caseArms subject second := by
  induction first with
  | nil => rfl
  | cons case rest ih =>
    obtain ⟨value, body, breaks⟩ := case
    rw [List.cons_append, caseArms, caseArms, ih, List.cons_append]

theorem mem_testArms {arms : List TestArm} {test : Option Expr} {body : List Code}
    (member : .arm test body ∈ arms) : .arm (test.map .test) (stmts body) ∈ testArms arms := by
  induction arms with
  | nil => cases member
  | cons arm rest ih =>
    obtain ⟨test', body'⟩ := arm
    rw [testArms]
    rcases List.mem_cons.mp member with same | later
    · cases same
      exact List.mem_cons_self
    · exact List.mem_cons_of_mem _ (ih later)

theorem testArms_guarded {arms : List TestArm} (noElse : ∀ arm ∈ arms, arm.test ≠ none) :
    ∀ arm ∈ testArms arms, arm.guard ≠ none := by
  induction arms with
  | nil => simp [testArms]
  | cons arm rest ih =>
    obtain ⟨test, body⟩ := arm
    rw [testArms]
    intro arm member
    rcases List.mem_cons.mp member with rfl | later
    · have tested := noElse _ List.mem_cons_self
      simpa [Arm.guard, TestArm.test] using tested
    · exact ih (fun arm member => noElse arm (List.mem_cons_of_mem _ member)) arm later

theorem caseArms_guarded (subject : Expr) {cases : List SwitchCase}
    (noDefault : ∀ case ∈ cases, case.value ≠ none) :
    ∀ arm ∈ caseArms subject cases, arm.guard ≠ none := by
  induction cases with
  | nil => simp [caseArms]
  | cons case rest ih =>
    obtain ⟨value, body, breaks⟩ := case
    rw [caseArms]
    intro arm member
    rcases List.mem_cons.mp member with rfl | later
    · have valued := noDefault _ List.mem_cons_self
      simpa [Arm.guard, SwitchCase.value] using valued
    · exact ih (fun case member => noDefault case (List.mem_cons_of_mem _ member)) arm later

end Code

/-! ## Runs of statements that stand together -/

/-- A run that returns does not depend on the statements behind it. -/
theorem Run.append_returned {ctx : PathContext} {body : List Stmt} {conditions : List Condition}
    {scope : Scope} {decisions : List Decision} {branch : Branch}
    (run : Run ctx body conditions scope decisions (.returned branch)) (rest : List Stmt) :
    Run ctx (body ++ rest) conditions scope decisions (.returned branch) := by
  rw [run_iff_mem_blockTrails] at run ⊢
  rw [blockTrails_append]
  refine List.mem_flatMap.mpr ⟨_, run, ?_⟩
  exact (mem_extend _ _ _).mpr (.inl ⟨rfl, rfl⟩)

/-- A run that passes is continued by one from there. -/
theorem Run.append_passed {ctx : PathContext} {body rest : List Stmt}
    {conditions : List Condition} {scope : Scope} {decisions decisions' : List Decision}
    {state : PathState} {finish : Finish}
    (first : Run ctx body conditions scope decisions (.passed state))
    (second : Run ctx rest state.conditions state.scope decisions' finish) :
    Run ctx (body ++ rest) conditions scope (decisions ++ decisions') finish := by
  rw [run_iff_mem_blockTrails] at first second ⊢
  rw [blockTrails_append]
  refine List.mem_flatMap.mpr ⟨_, first, ?_⟩
  exact (mem_extend _ _ _).mpr (.inr ⟨state, rfl, _, second, rfl⟩)

/-- A choice enters any of its arms. -/
theorem Run.arm {ctx : PathContext} {arms : List Arm} {guard : Option Guard}
    {body rest : List Stmt} {state : PathState} {decisions : List Decision} {finish : Finish}
    (member : .arm guard body ∈ arms)
    (inside : Run ctx (body ++ rest) (state.enter ctx guard).conditions
      (state.enter ctx guard).scope decisions finish) :
    ∃ decisions, Run ctx (.choice arms :: rest) state.conditions state.scope decisions finish := by
  obtain ⟨i, arm⟩ := List.mem_iff_getElem?.mp member
  cases guard with
  | none => exact ⟨_, .enterElse arm inside⟩
  | some guard => exact ⟨_, .enter arm inside⟩

/-- What executes without leaving a case into statements of the next ones is a run of the tree. -/
theorem Executes.run {ctx : PathContext} {code : List Code} {state : PathState} {fell : Bool}
    {finish : Finish} (executes : Executes ctx code state fell finish) (kept : fell = false) :
    ∃ decisions, Run ctx (Code.stmts code) state.conditions state.scope decisions finish := by
  induction executes with
  | done state => exact ⟨[], .done _ _⟩
  | expression assigned after ih =>
    obtain ⟨decisions, run⟩ := ih kept
    exact ⟨decisions, .expression assigned run⟩
  | result rest returned => exact ⟨[], .result _ _ returned⟩
  | other after ih =>
    obtain ⟨decisions, run⟩ := ih kept
    exact ⟨decisions, .other run⟩
  | block inside ih =>
    obtain ⟨decisions, run⟩ := ih kept
    rw [Code.stmts_append] at run
    exact ⟨decisions, .block run⟩
  | loop inside ih =>
    obtain ⟨decisions, run⟩ := ih kept
    rw [Code.stmts_append] at run
    exact ⟨decisions, .loop run⟩
  | attempt inside ih =>
    obtain ⟨decisions, run⟩ := ih kept
    rw [Code.stmts_append] at run
    exact ⟨decisions, .attempt run⟩
  | test arm inside ih =>
    obtain ⟨decisions, run⟩ := ih kept
    rw [Code.stmts_append] at run
    exact Run.arm (Code.mem_testArms arm) run
  | skipTests noElse after ih =>
    obtain ⟨decisions, run⟩ := ih kept
    exact ⟨_, .skip (Code.testArms_guarded noElse) run⟩
  | @returnInCase subject before value body breaks later state fell branch rest inside ih =>
    obtain ⟨decisions, run⟩ := ih kept
    rw [Code.stmts, Code.stmt, Code.caseArms_append, Code.caseArms]
    have inside := run.append_returned ((if breaks then [.other] else []) ++ Code.stmts rest)
    rw [← List.append_assoc] at inside
    exact Run.arm (List.mem_append_right _ List.mem_cons_self) inside
  | @endCase subject before value body breaks later rest state state' fell fell' finish inside after
      ih ih' =>
    simp only [Bool.or_eq_false_iff, Bool.not_eq_false', List.isEmpty_iff] at kept
    obtain ⟨⟨kept, kept'⟩, nothing⟩ := kept
    obtain ⟨decisions, run⟩ := ih kept
    obtain ⟨decisions', run'⟩ := ih' kept'
    rw [nothing, List.nil_append] at run'
    rw [Code.stmts, Code.stmt, Code.caseArms_append, Code.caseArms]
    have behind : Run ctx ((if breaks then [.other] else []) ++ Code.stmts rest)
        state'.conditions state'.scope decisions' finish := by
      split
      · exact .other run'
      · exact run'
    have inside := run.append_passed behind
    rw [← List.append_assoc] at inside
    exact Run.arm (List.mem_append_right _ List.mem_cons_self) inside
  | skipCases noDefault after ih =>
    obtain ⟨decisions, run⟩ := ih kept
    exact ⟨_, .skip (Code.caseArms_guarded _ noDefault) run⟩

/-- Unless it reports dropped paths, a method has a branch for every execution that returns without
leaving a case into statements of the next ones: with the rules that are returned, and with the
conditions that are met, the case that is entered among them. -/
theorem branches_of_executions (label : String) (c : ClassBody) (depth : Int)
    (words : List String) (m : Method) (code : List Code)
    (written : m.body = some (Code.stmts code))
    (untruncated : ∀ d ∈ (methodBranches label c depth words m).events,
      ¬ d.hasKind "path_limit_exceeded") :
    match (methodBranches label c depth words m).outcome with
    | .ok found => ∀ branch,
        Executes (methodContext label c depth words m) code {} false (.returned branch) →
          branch ∈ found.branches
    | .error fault =>
        StoppedBy (methodContext label c depth words m) (Code.stmts code) fault := by
  have covered := covers_of_untruncated (methodContext label c depth words m)
    (methodContext_mayRead label c depth words m) (m.body.getD []) fun truncated =>
      untruncated _ (truncationWarning_mem _ _ truncated) (hasKind_truncationWarning _)
  unfold methodBranches
  rw [written, Option.getD_some] at covered ⊢
  cases ends : (bodyBranches (methodContext label c depth words m) (Code.stmts code)).outcome with
  | error fault =>
    rw [ends] at covered
    exact covered
  | ok found =>
    rw [ends] at covered
    intro branch executes
    obtain ⟨decisions, run⟩ := executes.run rfl
    obtain ⟨ways, all, listed⟩ := covered.branches
    have eventful : ¬ Uneventful (methodContext label c depth words m) (Code.stmts code) := by
      intro quiet
      have unreturned := (quiet decisions _ run).2
      cases unreturned
    rw [(listed eventful).mem_iff]
    exact List.mem_map.mpr ⟨_, (all.runs decisions branch).mpr run, rfl⟩

def fieldArray (rules : String) : Expr :=
  .array "" [.pair (.string "'a'") (.string rules)]

def verbCall : Expr := .method "$this->method()" (.var "$this") "method" []

/-- A switch with a case that breaks and one that returns, and a return behind it. -/
def separateVerbs : List Code :=
  [.switch verbCall [
      .case (some (.string "'GET'")) [] true,
      .case (some (.string "'PUT'")) [.result 4 (some (fieldArray "'sometimes'"))] false],
    .result 6 (some (fieldArray "'required'"))]

theorem separateVerbs_told :
    ∃ found, (methodBranches "" ⟨1, []⟩ 3 []
        ⟨"rules", 1, "", some (Code.stmts separateVerbs)⟩).outcome = .ok found ∧
      ⟨[.httpMethod "GET" "$this->method() == 'GET'"], .ofList [(.text "a", .text "required")]⟩ ∈
        found.branches := by
  have quiet : (methodBranches "" ⟨1, []⟩ 3 []
      ⟨"rules", 1, "", some (Code.stmts separateVerbs)⟩).events = [] := rfl
  have told := branches_of_executions "" ⟨1, []⟩ 3 []
    ⟨"rules", 1, "", some (Code.stmts separateVerbs)⟩ separateVerbs rfl (by simp [quiet])
  have behind : Executes (methodContext "" ⟨1, []⟩ 3 []
      ⟨"rules", 1, "", some (Code.stmts separateVerbs)⟩)
      [.result 6 (some (fieldArray "'required'"))]
      ⟨[.httpMethod "GET" "$this->method() == 'GET'"], .empty⟩ false
      (.returned ⟨[.httpMethod "GET" "$this->method() == 'GET'"],
        .ofList [(.text "a", .text "required")]⟩) := .result _ rfl
  refine ⟨_, rfl, told _ ?_⟩
  exact @Executes.endCase _ verbCall [] (some (.string "'GET'")) [] true _ _ _ _ false false _
    (.done _) behind

/-- Two verbs that share a body. -/
def groupedVerbs : List Code :=
  [.switch verbCall [
    .case (some (.string "'POST'")) [] false,
    .case (some (.string "'PUT'")) [.result 5 (some (fieldArray "'required'"))] false,
    .case none [.result 7 (some (fieldArray "'sometimes'"))] false]]

/-- The first of the verbs gets the rules of the shared body, and has no branch. -/
theorem groupedVerbs_unread :
    ∃ found branch,
      methodBranches "" ⟨1, []⟩ 3 [] ⟨"rules", 1, "", some (Code.stmts groupedVerbs)⟩ =
        ⟨[], .ok found⟩ ∧
      Executes (methodContext "" ⟨1, []⟩ 3 [] ⟨"rules", 1, "", some (Code.stmts groupedVerbs)⟩)
        groupedVerbs {} true (.returned branch) ∧
      branch = ⟨[.httpMethod "POST" "$this->method() == 'POST'"],
        .ofList [(.text "a", .text "required")]⟩ ∧
      found.branches.map Branch.conditions =
        [[.httpMethod "PUT" "$this->method() == 'PUT'"], []] ∧
      branch ∉ found.branches := by
  have shared : Executes (methodContext "" ⟨1, []⟩ 3 []
      ⟨"rules", 1, "", some (Code.stmts groupedVerbs)⟩)
      [.result 5 (some (fieldArray "'required'")), .result 7 (some (fieldArray "'sometimes'"))]
      ⟨[.httpMethod "POST" "$this->method() == 'POST'"], .empty⟩ false
      (.returned ⟨[.httpMethod "POST" "$this->method() == 'POST'"],
        .ofList [(.text "a", .text "required")]⟩) := .result _ rfl
  refine ⟨⟨[
    ⟨[.httpMethod "PUT" "$this->method() == 'PUT'"], .ofList [(.text "a", .text "required")]⟩,
    ⟨[], .ofList [(.text "a", .text "sometimes")]⟩],
    .ofList [(.text "a", .list [.text "required", .text "sometimes"])]⟩, _, rfl, ?_, rfl, rfl, ?_⟩
  · exact @Executes.endCase _ verbCall [] (some (.string "'POST'")) [] false _ _ _ _ false false _
      (.done _) shared
  · simp [Condition.httpMethod]

end RequestSchema.Extraction
