import RequestSchema.Proofs.Extraction.Trails

/-!
# Runs of a method

A run follows a single path. At every choice it enters one arm, or skips them all when
none of them is an else; it has conditions and a scope of its own and stops at the
first return or fault. The rest of the method behind a block is a continuation, so a
run is told statement by statement and not by the analysis of lists of live paths.

* `run_iff_mem_blockTrails`: the runs of a method are its trails.
-/
namespace RequestSchema.Extraction

open RequestSchema.Source

/-- `Run ctx body conditions scope decisions finish`: the run through `body` that takes
`decisions` finishes with `finish`, when it has `conditions` and `scope` before. -/
inductive Run (ctx : PathContext) :
    List Stmt → List Condition → Scope → List Decision → Finish → Prop where
  | done (conditions : List Condition) (scope : Scope) :
      Run ctx [] conditions scope [] (.passed ⟨conditions, scope⟩)
  | expression {e rest conditions scope scope' decisions finish}
      (assigned : (assign ctx.helpers e scope).outcome = .ok scope')
      (after : Run ctx rest conditions scope' decisions finish) :
      Run ctx (.expression e :: rest) conditions scope decisions finish
  | expressionFault {e scope fault} (rest : List Stmt) (conditions : List Condition)
      (stopped : (assign ctx.helpers e scope).outcome = .error fault) :
      Run ctx (.expression e :: rest) conditions scope [] (.failed fault)
  | result {line value scope rules} (rest : List Stmt) (conditions : List Condition)
      (returned : (returnedRules ctx.label ctx.helpers line value scope).outcome = .ok rules) :
      Run ctx (.result line value :: rest) conditions scope [] (.returned ⟨conditions, rules⟩)
  | resultFault {line value scope fault} (rest : List Stmt) (conditions : List Condition)
      (stopped : (returnedRules ctx.label ctx.helpers line value scope).outcome = .error fault) :
      Run ctx (.result line value :: rest) conditions scope [] (.failed fault)
  | block {body rest conditions scope decisions finish}
      (inside : Run ctx (body ++ rest) conditions scope decisions finish) :
      Run ctx (.block body :: rest) conditions scope decisions finish
  | loop {body others rest conditions scope decisions finish}
      (inside : Run ctx (body ++ rest) conditions scope decisions finish) :
      Run ctx (.loop body others :: rest) conditions scope decisions finish
  | attempt {body others rest conditions scope decisions finish}
      (inside : Run ctx (body ++ rest) conditions scope decisions finish) :
      Run ctx (.attempt body others :: rest) conditions scope decisions finish
  | other {rest conditions scope decisions finish}
      (after : Run ctx rest conditions scope decisions finish) :
      Run ctx (.other :: rest) conditions scope decisions finish
  | enter {arms i guard body rest conditions scope decisions finish}
      (arm : arms[i]? = some (.arm (some guard) body))
      (inside : Run ctx (body ++ rest) (conditions ++ [classifyGuard ctx.predicateWords guard])
        scope decisions finish) :
      Run ctx (.choice arms :: rest) conditions scope (some i :: decisions) finish
  | enterElse {arms i body rest conditions scope decisions finish}
      (arm : arms[i]? = some (.arm none body))
      (inside : Run ctx (body ++ rest) conditions scope decisions finish) :
      Run ctx (.choice arms :: rest) conditions scope (some i :: decisions) finish
  | skip {arms rest conditions scope decisions finish}
      (noElse : ∀ arm ∈ arms, arm.guard ≠ none)
      (after : Run ctx rest conditions scope decisions finish) :
      Run ctx (.choice arms :: rest) conditions scope (none :: decisions) finish

/-- Trails that are told by runs. -/
def ToldByRuns (ctx : PathContext) (body : List Stmt) : Prop :=
  ∀ state, ∀ t ∈ blockTrails ctx body state,
    Run ctx body state.conditions state.scope t.decisions t.finish

mutual

theorem statement_toldByRuns (ctx : PathContext) :
    ∀ (s : Stmt) (rest : List Stmt), ToldByRuns ctx rest → ToldByRuns ctx (s :: rest)
  | .expression e, rest, told => by
    intro state t member
    rw [blockTrails, statementTrails] at member
    cases ends : (assign ctx.helpers e state.scope).outcome with
    | ok scope =>
      simp only [ends, List.flatMap_singleton] at member
      obtain ⟨inner, there, rfl⟩ := List.mem_map.mp member
      exact .expression ends (told _ inner there)
    | error fault =>
      simp only [ends, List.flatMap_singleton] at member
      rw [List.mem_singleton.mp member]
      exact .expressionFault rest _ ends
  | .result line value, rest, told => by
    intro state t member
    rw [blockTrails, statementTrails] at member
    cases ends : (returnedRules ctx.label ctx.helpers line value state.scope).outcome with
    | ok rules =>
      simp only [ends, List.flatMap_singleton] at member
      rw [List.mem_singleton.mp member]
      exact .result rest _ ends
    | error fault =>
      simp only [ends, List.flatMap_singleton] at member
      rw [List.mem_singleton.mp member]
      exact .resultFault rest _ ends
  | .choice arms, rest, told => by
    intro state t member
    rcases (mem_choiceTrails ctx arms rest state t).mp member with
      ⟨i, guard, body, arm, inner, there, rfl⟩ | ⟨noElse, inner, there, rfl⟩
    · have inside :=
        arms_toldByRuns ctx arms rest told _ (List.mem_of_getElem? arm) _ inner there
      cases guard with
      | none => exact .enterElse arm inside
      | some guard => exact .enter arm inside
    · exact .skip noElse (told state inner there)
  | .block body, rest, told => by
    intro state t member
    rw [blockTrails, statementTrails, ← blockTrails_append] at member
    exact .block (block_toldByRuns ctx body rest told state t member)
  | .loop body _, rest, told => by
    intro state t member
    rw [blockTrails, statementTrails, ← blockTrails_append] at member
    exact .loop (block_toldByRuns ctx body rest told state t member)
  | .attempt body _, rest, told => by
    intro state t member
    rw [blockTrails, statementTrails, ← blockTrails_append] at member
    exact .attempt (block_toldByRuns ctx body rest told state t member)
  | .other, rest, told => by
    intro state t member
    rw [blockTrails, statementTrails, List.flatMap_singleton] at member
    obtain ⟨inner, there, rfl⟩ := List.mem_map.mp member
    exact .other (told state inner there)

theorem block_toldByRuns (ctx : PathContext) :
    ∀ (body rest : List Stmt), ToldByRuns ctx rest → ToldByRuns ctx (body ++ rest)
  | [], _, told => told
  | s :: body, rest, told =>
    statement_toldByRuns ctx s (body ++ rest) (block_toldByRuns ctx body rest told)

theorem arms_toldByRuns (ctx : PathContext) :
    ∀ (arms : List Arm) (rest : List Stmt), ToldByRuns ctx rest →
      ∀ arm ∈ arms, ToldByRuns ctx (arm.body ++ rest)
  | [], _, _ => fun _ member => nomatch member
  | .arm guard body :: arms, rest, told => by
    intro arm member
    rcases List.mem_cons.mp member with rfl | later
    · exact block_toldByRuns ctx body rest told
    · exact arms_toldByRuns ctx arms rest told arm later

end

/-- A run through statements is one of their trails. -/
theorem Run.mem_blockTrails {ctx : PathContext} {body : List Stmt} {conditions : List Condition}
    {scope : Scope} {decisions : List Decision} {finish : Finish}
    (run : Run ctx body conditions scope decisions finish) :
    ⟨decisions, finish⟩ ∈ blockTrails ctx body ⟨conditions, scope⟩ := by
  induction run with
  | done conditions scope => exact List.mem_singleton_self _
  | expression assigned after ih =>
    rw [blockTrails, statementTrails, assigned]
    exact List.mem_flatMap.mpr ⟨_, List.mem_singleton_self _, List.mem_map.mpr ⟨_, ih, rfl⟩⟩
  | expressionFault rest conditions stopped =>
    rw [blockTrails, statementTrails, stopped]
    exact List.mem_singleton_self _
  | result rest conditions returned =>
    rw [blockTrails, statementTrails, returned]
    exact List.mem_singleton_self _
  | resultFault rest conditions stopped =>
    rw [blockTrails, statementTrails, stopped]
    exact List.mem_singleton_self _
  | block inside ih =>
    rw [blockTrails, statementTrails, ← blockTrails_append]
    exact ih
  | loop inside ih =>
    rw [blockTrails, statementTrails, ← blockTrails_append]
    exact ih
  | attempt inside ih =>
    rw [blockTrails, statementTrails, ← blockTrails_append]
    exact ih
  | other after ih =>
    exact List.mem_flatMap.mpr ⟨_, List.mem_singleton_self _, List.mem_map.mpr ⟨_, ih, rfl⟩⟩
  | enter arm inside ih =>
    exact (mem_choiceTrails ..).mpr (.inl ⟨_, some _, _, arm, _, ih, rfl⟩)
  | enterElse arm inside ih =>
    exact (mem_choiceTrails ..).mpr (.inl ⟨_, none, _, arm, _, ih, rfl⟩)
  | skip noElse after ih =>
    exact (mem_choiceTrails ..).mpr (.inr ⟨noElse, _, ih, rfl⟩)

/-- The runs of a method are its trails. -/
theorem run_iff_mem_blockTrails (ctx : PathContext) (body : List Stmt)
    (conditions : List Condition) (scope : Scope) (decisions : List Decision) (finish : Finish) :
    Run ctx body conditions scope decisions finish ↔
      ⟨decisions, finish⟩ ∈ blockTrails ctx body ⟨conditions, scope⟩ := by
  refine ⟨Run.mem_blockTrails, fun member => ?_⟩
  have behindNothing : ToldByRuns ctx [] := by
    intro state t single
    rw [List.mem_singleton.mp single]
    exact .done _ _
  have told := block_toldByRuns ctx body [] behindNothing
  rw [List.append_nil] at told
  exact told _ _ member

end RequestSchema.Extraction
