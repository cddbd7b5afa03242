import RequestSchema.Extraction.Paths
import RequestSchema.Proofs.Analysis.Errors
import RequestSchema.Proofs.Source.Unlined

/-!
# Lines and labels are only reported

The rules and the branches of a method depend neither on the label of its source nor on the lines on
which it stands: these are told in warnings, and nowhere else. So the same method of the same class,
on other lines of another source, has the same rules and the same branches, and reports the same
errors.

* `methodRules_unlined`, `methodBranches_unlined`: the same method without its lines;
* `methodRules_same`, `methodBranches_same`: the same method on other lines.
-/
namespace RequestSchema.Extraction

open RequestSchema.Source Emit

/-! ## Rules -/

section

variable {helpers helpers' : Helpers}

mutual

theorem ruleSet?_sameErrors (called : ∀ name, SameErrors (helpers name) (helpers' name))
    (scope : Scope) :
    ∀ e, SameErrors (ruleSet? helpers scope e) (ruleSet? helpers' scope e)
  | .parens _ inner => ruleSet?_sameErrors called scope inner
  | .array _ entries => (entryRules_sameErrors called scope entries .empty).map some
  | .call _ callee arguments => by
    rw [ruleSet?, ruleSet?]
    split
    · exact (mergedRules_sameErrors called scope arguments .empty).map some
    · exact .refl _
  | .method _ receiver name _ => by
    rw [ruleSet?, ruleSet?]
    split
    · exact called name
    · exact .refl _
  | .select _ results => (firstRules_sameErrors called scope results).map some
  | .binary _ operator left right => by
    rw [ruleSet?, ruleSet?]
    split
    · refine (ruleSet?_sameErrors called scope left).bind fun a => ?_
      exact (ruleSet?_sameErrors called scope right).bind fun b => .refl _
    · exact .refl _
  | .var _ | .ternary _ => by
    rw [ruleSet?, ruleSet?]
    exact .refl _
  | .string _ | .template _ | .heredoc _ | .integer _ | .float _ | .constant _ | .null _
  | .unary .. | .static .. | .construct .. | .classConstant _ | .member _ | .index .. | .assign ..
  | .augment .. | .other _ => .refl _

theorem entryRules_sameErrors (called : ∀ name, SameErrors (helpers name) (helpers' name))
    (scope : Scope) :
    ∀ (entries : List Entry) (rules : RuleSet),
      SameErrors (entryRules helpers scope entries rules) (entryRules helpers' scope entries rules)
  | [], _ => .refl _
  | .item _ :: rest, rules => entryRules_sameErrors called scope rest rules
  | .spread value :: rest, _ =>
    (ruleSet?_sameErrors called scope value).bind fun _ => entryRules_sameErrors called scope rest _
  | .pair key value :: rest, rules => by
    rw [entryRules, entryRules]
    refine .bind (.refl _) fun name? => ?_
    split
    · exact entryRules_sameErrors called scope rest rules
    · refine .bind (.refl _) fun v? => ?_
      cases v? with
      | none => exact entryRules_sameErrors called scope rest rules
      | some v => exact entryRules_sameErrors called scope rest _

theorem mergedRules_sameErrors (called : ∀ name, SameErrors (helpers name) (helpers' name))
    (scope : Scope) :
    ∀ (arguments : List Expr) (rules : RuleSet),
      SameErrors (mergedRules helpers scope arguments rules)
        (mergedRules helpers' scope arguments rules)
  | [], _ => .refl _
  | e :: rest, _ =>
    (ruleSet?_sameErrors called scope e).bind fun _ => mergedRules_sameErrors called scope rest _

theorem firstRules_sameErrors (called : ∀ name, SameErrors (helpers name) (helpers' name))
    (scope : Scope) :
    ∀ results : List Expr,
      SameErrors (firstRules helpers scope results) (firstRules helpers' scope results)
  | [] => by
    rw [firstRules, firstRules]
    exact .refl _
  | e :: _ => (ruleSet?_sameErrors called scope e).bind fun _ => .refl _

end

variable (called : ∀ name, SameErrors (helpers name) (helpers' name))

include called

theorem assign_sameErrors (e : Expr) (scope : Scope) :
    SameErrors (assign helpers e scope) (assign helpers' e scope) := by
  unfold assign
  split
  · exact (ruleSet?_sameErrors called scope _).bind fun _ => .refl _
  · exact .refl _
  · split
    · exact (ruleSet?_sameErrors called scope _).bind fun _ => .refl _
    · exact .refl _
  · exact .refl _

theorem returnedRules_sameErrors (label label' : String) (line line' : Nat) (value : Option Expr)
    (scope : Scope) :
    SameErrors (returnedRules label helpers line value scope)
      (returnedRules label' helpers' line' value scope) := by
  unfold returnedRules
  cases value with
  | none => exact .refl _
  | some e =>
    refine (ruleSet?_sameErrors called scope _).bind fun rules? => ?_
    -- what is reported tells the label and the line
    simp only
    split
    · exact (sameErrors_warn ..).bind fun _ => .refl _
    · exact (sameErrors_warn ..).bind fun _ => .refl _
    · exact .refl _

/-- A step without its line. -/
def Step.unlined (step : Step) : Step := { step with statement := step.statement.unlined }

theorem followSteps_sameErrors (label label' : String) (steps : List Step) (scope : Scope)
    (rules : RuleSet) :
    SameErrors (followSteps label helpers steps scope rules)
      (followSteps label' helpers' (steps.map Step.unlined) scope rules) := by
  induction steps generalizing scope rules with
  | nil => exact .refl _
  | cons step rest ih =>
    obtain ⟨statement, nested⟩ := step
    cases statement with
    | expression e => exact (assign_sameErrors called e scope).bind fun scope' => ih scope' rules
    | result line value =>
      rw [List.map_cons, Step.unlined, Stmt.unlined, followSteps, followSteps]
      have returned := returnedRules_sameErrors called label label' line 0 value scope
      refine returned.bind fun returned => ?_
      split
      · exact ih scope returned
      · exact .refl _
    | choice arms | block body | loop body others | attempt body handlers | other =>
      exact ih scope rules

omit called

mutual

theorem stepsOf_unlined (nested : Bool) :
    ∀ s : Stmt, stepsOf nested s.unlined = (stepsOf nested s).map Step.unlined
  | .expression _ | .result _ _ | .other => rfl
  | .choice arms => armSteps_unlined arms
  | .block body => allSteps_unlined true body
  | .loop body rest => by
    simp only [Stmt.unlined, stepsOf, allSteps_unlined true body, allSteps_unlined true rest,
      List.map_append]
  | .attempt body handlers => by
    simp only [Stmt.unlined, stepsOf, allSteps_unlined true body, allSteps_unlined true handlers,
      List.map_append]

theorem allSteps_unlined (nested : Bool) :
    ∀ body : List Stmt,
      allSteps nested (Stmt.unlinedAll body) = (allSteps nested body).map Step.unlined
  | [] => rfl
  | s :: rest => by
    simp only [Stmt.unlinedAll, allSteps, stepsOf_unlined nested s, allSteps_unlined nested rest,
      List.map_append]

theorem armSteps_unlined :
    ∀ arms : List Arm, armSteps (Stmt.unlinedArms arms) = (armSteps arms).map Step.unlined
  | [] => rfl
  | .arm _ body :: rest => by
    simp only [Stmt.unlinedArms, armSteps, allSteps_unlined true body, armSteps_unlined rest,
      List.map_append]

end

include called in
theorem bodyRules_unlined (label label' : String) (body : List Stmt) :
    SameErrors (bodyRules label helpers body)
      (bodyRules label' helpers' (body.map Stmt.unlined)) := by
  rw [bodyRules, bodyRules, ← Stmt.unlinedAll_eq_map, allSteps_unlined]
  exact followSteps_sameErrors called label label' _ .empty .empty

end

theorem helpersOf_unlined (label label' : String) (c : ClassBody) (depth : Nat)
    (entered : List String) (name : String) :
    SameErrors (helpersOf label c depth entered name)
      (helpersOf label' c.unlined depth entered name) := by
  induction depth generalizing entered name with
  | zero => exact .refl _
  | succ depth ih =>
    rw [helpersOf, helpersOf]
    split
    · exact .refl _
    · rw [ClassBody.method?_unlined]
      cases c.method? name with
      | none => exact .refl _
      | some m =>
        refine .map ?_ some
        rw [Method.unlined]
        cases m.body with
        | none => exact .refl _
        | some body => exact bodyRules_unlined (fun name => ih _ name) label label' body

/-- The rules of a method are those of the same method without its lines, in any source. -/
theorem methodRules_unlined (label label' : String) (c : ClassBody) (depth : Int) (m : Method) :
    SameErrors (methodRules label c depth m) (methodRules label' c.unlined depth m.unlined) := by
  rw [methodRules, methodRules, Method.unlined]
  cases m.body with
  | none => exact .refl _
  | some body => exact bodyRules_unlined (helpersOf_unlined label label' c _ _) label label' body

/-- The same method on other lines of other sources has the same rules. -/
theorem methodRules_same {c c' : ClassBody} {m m' : Method} (body : c.unlined = c'.unlined)
    (method : m.unlined = m'.unlined) (label label' : String) (depth : Int) :
    SameErrors (methodRules label c depth m) (methodRules label' c' depth m') := by
  have first := methodRules_unlined label label c depth m
  rw [body, method] at first
  exact first.trans (methodRules_unlined label' label c' depth m').symm

theorem methodTexts_unlined (m : Method) : methodTexts m.unlined = methodTexts m := by
  have steps : allSteps false (m.unlined.body.getD []) =
      (allSteps false (m.body.getD [])).map Step.unlined := by
    cases m with
    | mk name line text body =>
      cases body with
      | none => rfl
      | some body =>
        rw [Method.unlined, ← allSteps_unlined, Stmt.unlinedAll_eq_map]
        rfl
  rw [methodTexts, methodTexts, steps, List.findSome?_map]
  congr 2
  funext step
  obtain ⟨statement, nested⟩ := step
  cases statement <;> rfl

/-! ## Paths -/

/-- Whether an event is no warning. -/
def PathEvent.counts : PathEvent → Bool
  | note d => d.isError
  | branch _ | choice | truncated => true

/-- The computations end alike, and list the same events but for warnings. -/
abbrev SameEvents {α : Type} (m m' : Paths α) : Prop := AgreeOn PathEvent.counts m m'

theorem sameEvents_noted {α : Type} {m m' : Logged α} (same : SameErrors m m') :
    SameEvents (noted m) (noted m') := by
  refine ⟨?_, same.outcome⟩
  simp only [noted, mapEvents, List.filter_map]
  exact congrArg (List.map PathEvent.note) same.events

section

variable {ctx ctx' : PathContext}

/-- The contexts differ at most in what their helper methods warn of, and in their labels. -/
structure PathContext.Alike (ctx ctx' : PathContext) : Prop where
  called : ∀ name, SameErrors (ctx.helpers name) (ctx'.helpers name)
  predicateWords : ctx.predicateWords = ctx'.predicateWords
  limit : ctx.limit = ctx'.limit

theorem PathState.enter_alike (alike : ctx.Alike ctx') (state : PathState) (guard : Option Guard) :
    state.enter ctx guard = state.enter ctx' guard := by
  cases guard with
  | none => rfl
  | some guard => rw [enter, enter, alike.predicateWords]

theorem limited_alike (alike : ctx.Alike ctx') (states : List PathState) :
    limited ctx states = limited ctx' states := by
  rw [limited, limited, alike.limit]

theorem returnBranch_sameEvents (alike : ctx.Alike ctx') (line line' : Nat) (value : Option Expr)
    (state : PathState) :
    SameEvents (returnBranch ctx line value state) (returnBranch ctx' line' value state) := by
  have returned := returnedRules_sameErrors alike.called ctx.label ctx'.label line line' value
    state.scope
  exact (sameEvents_noted returned).bind fun rules => .refl _

theorem any_unlinedArms (arms : List Arm) :
    (Stmt.unlinedArms arms).any (fun a => a.guard.isNone) = arms.any fun a => a.guard.isNone := by
  rw [Stmt.unlinedArms_eq_map, List.any_map]
  congr 1
  funext a
  cases a
  rfl

mutual

theorem runStatement_unlined (alike : ctx.Alike ctx') :
    ∀ (s : Stmt) (states : List PathState),
      SameEvents (runStatement ctx s states) (runStatement ctx' s.unlined states)
  | .expression e, states => by
    refine AgreeOn.mapM (fun state => ?_) states
    exact (sameEvents_noted (assign_sameErrors alike.called e state.scope)).bind fun _ => .refl _
  | .result line value, states =>
    (AgreeOn.forM (returnBranch_sameEvents alike line 0 value) states).bind fun _ => .refl _
  | .choice arms, states => by
    rw [Stmt.unlined, runStatement, runStatement]
    refine .bind (.refl _) fun _ => ?_
    refine (AgreeOn.mapM (fun state => ?_) states).bind fun ends => ?_
    · rw [any_unlinedArms]
      exact (runArms_unlined alike arms state).bind fun _ => .refl _
    · rw [limited_alike alike]
      exact .refl _
  | .block body, states => runBlock_unlined alike body states
  | .loop body _, states => runBlock_unlined alike body states
  | .attempt body _, states => runBlock_unlined alike body states
  | .other, states => .refl _

theorem runBlock_unlined (alike : ctx.Alike ctx') :
    ∀ (body : List Stmt) (states : List PathState),
      SameEvents (runBlock ctx body states) (runBlock ctx' (Stmt.unlinedAll body) states)
  | [], _ => .refl _
  | _ :: _, [] => .refl _
  | s :: rest, state :: more =>
    (runStatement_unlined alike s (state :: more)).bind fun live =>
      runBlock_unlined alike rest live

theorem runArms_unlined (alike : ctx.Alike ctx') :
    ∀ (arms : List Arm) (state : PathState),
      SameEvents (runArms ctx arms state) (runArms ctx' (Stmt.unlinedArms arms) state)
  | [], _ => .refl _
  | .arm guard body :: rest, state => by
    rw [Stmt.unlinedArms, runArms, runArms, ← PathState.enter_alike alike]
    exact (runBlock_unlined alike body _).bind fun ends =>
      (runArms_unlined alike rest state).bind fun _ => .refl _

end

end

/-- The errors among the diagnostics of events are those that they note. -/
theorem errors_diagnosticsOf (ctx : PathContext) (reported : Bool) (events : List PathEvent) :
    (diagnosticsOf ctx reported events).filter Diagnostic.isError =
      (events.filter PathEvent.counts).filterMap fun | .note d => some d | _ => none := by
  induction events generalizing reported with
  | nil => rfl
  | cons event rest ih =>
    cases event with
    | note d =>
      rw [diagnosticsOf, List.filter_cons, List.filter_cons, PathEvent.counts, ih]
      cases d.isError <;> rfl
    | branch b => exact ih reported
    | choice => exact ih reported
    | truncated =>
      cases reported with
      | true => exact ih true
      | false => exact ih true

theorem branchesOf_counting (events : List PathEvent) :
    branchesOf (events.filter PathEvent.counts) = branchesOf events := by
  rw [branchesOf, branchesOf, List.filterMap_filter]
  congr 1
  funext event
  cases event with
  | note d => simp
  | branch b | choice | truncated => rfl

theorem any_isChoice_counting (events : List PathEvent) :
    (events.filter PathEvent.counts).any PathEvent.isChoice = events.any PathEvent.isChoice := by
  rw [List.any_filter]
  congr 1
  funext event
  cases event with
  | note d => simp [PathEvent.isChoice]
  | branch b | choice | truncated => rfl

theorem bodyBranches_unlined {ctx ctx' : PathContext} (alike : ctx.Alike ctx') (body : List Stmt) :
    SameErrors (bodyBranches ctx body) (bodyBranches ctx' (Stmt.unlinedAll body)) := by
  have same := runBlock_unlined alike body [{}]
  constructor
  · simp only [bodyBranches, errors_diagnosticsOf, same.events]
  · simp only [bodyBranches, same.outcome]
    rw [← branchesOf_counting (runBlock ctx body [{}]).events,
      ← any_isChoice_counting (runBlock ctx body [{}]).events, same.events, branchesOf_counting,
      any_isChoice_counting]

/-- The branches of a method are those of the same method without its lines, in any source. -/
theorem methodBranches_unlined (label label' : String) (c : ClassBody) (depth : Int)
    (words : List String) (m : Method) :
    SameErrors (methodBranches label c depth words m)
      (methodBranches label' c.unlined depth words m.unlined) := by
  have alike : (methodContext label c depth words m).Alike
      (methodContext label' c.unlined depth words m.unlined) :=
    ⟨helpersOf_unlined label label' c _ _, rfl, rfl⟩
  have body : m.unlined.body.getD [] = Stmt.unlinedAll (m.body.getD []) := by
    rw [Stmt.unlinedAll_eq_map, Method.unlined]
    cases m.body <;> rfl
  rw [methodBranches, methodBranches, body]
  exact bodyBranches_unlined alike _

/-- The same method on other lines of other sources has the same branches. -/
theorem methodBranches_same {c c' : ClassBody} {m m' : Method} (body : c.unlined = c'.unlined)
    (method : m.unlined = m'.unlined) (label label' : String) (depth : Int) (words : List String) :
    SameErrors (methodBranches label c depth words m)
      (methodBranches label' c' depth words m') := by
  have first := methodBranches_unlined label label c depth words m
  rw [body, method] at first
  exact first.trans (methodBranches_unlined label' label c' depth words m').symm

end RequestSchema.Extraction
