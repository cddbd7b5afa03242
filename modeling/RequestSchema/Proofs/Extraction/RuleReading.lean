import RequestSchema.Extraction.Method

/-!
# Reading rules part by part

Reading rules is put together from few things: field names, rule values, the rule sets of helper
methods, and reports on a return that cannot be read. What is true of these parts and of each
sequence of such computations (`PassedOn`) is true of reading the expressions of statements
(`assign_passes`, `returnedRules_passes`), of helper methods to any depth (`helpersOf_passes`) and
of whole methods (`methodRules_passes`).

* `reports_passedOn`: so what is reported on the way is of two kinds only.
-/
namespace RequestSchema.Extraction

open RequestSchema.Text RequestSchema.Source

def unreadKinds : List String := ["unsupported_ternary_rules", "unsupported_rules_expression"]

/-- A property of computations that reading rules passes on from its parts. -/
structure PassedOn (P : ∀ α : Type, Logged α → Prop) : Prop where
  done : ∀ {α : Type} (x : α), P α (pure x)
  sequence : ∀ {α β : Type} {m : Logged α} {f : α → Logged β},
    P α m → (∀ x, P β (f x)) → P β (m >>= f)
  name : ∀ e, P _ (liftM (fieldName? e) : Logged (Option String))
  value : ∀ e, P _ (liftM (ruleValue? e) : Logged (Option Value))
  report : ∀ (message kind label : String) (line : Nat) (text : String), kind ∈ unreadKinds →
    P _ (Logged.warn rulesContext message [("error_type", .text kind), ("file_path", .text label),
      ("line", .int line), ("expression", .text text)])

section

variable {P : ∀ α : Type, Logged α → Prop} (passed : PassedOn P)

include passed

theorem PassedOn.map {α β : Type} {m : Logged α} (holds : P α m) (f : α → β) : P β (f <$> m) := by
  rw [map_eq_pure_bind]
  exact passed.sequence holds fun x => passed.done (f x)

variable {helpers : Helpers}

mutual

theorem ruleSet?_passes (called : ∀ name, P _ (helpers name)) (scope : Scope) :
    ∀ e, P _ (ruleSet? helpers scope e)
  | .parens _ inner => ruleSet?_passes called scope inner
  | .array _ entries => passed.map (entryRules_passes called scope entries .empty) some
  | .call _ callee arguments => by
    rw [ruleSet?]
    split
    · exact passed.map (mergedRules_passes called scope arguments .empty) some
    · exact passed.done none
  | .method _ receiver name _ => by
    rw [ruleSet?]
    split
    · exact called name
    · exact passed.done none
  | .select _ results => passed.map (firstRules_passes called scope results) some
  | .binary _ operator left right => by
    rw [ruleSet?]
    split
    · refine passed.sequence (ruleSet?_passes called scope left) fun a => ?_
      refine passed.sequence (ruleSet?_passes called scope right) fun b => ?_
      exact passed.done (unionOf a b)
    · exact passed.done none
  | .var text => passed.done (scope.get? (variableName text))
  | .ternary _ => by
    rw [ruleSet?]
    exact passed.done _
  | .string _ | .template _ | .heredoc _ | .integer _ | .float _ | .constant _ | .null _
  | .unary .. | .static .. | .construct .. | .classConstant _ | .member _ | .index .. | .assign ..
  | .augment .. | .other _ => passed.done none

theorem entryRules_passes (called : ∀ name, P _ (helpers name)) (scope : Scope) :
    ∀ (entries : List Entry) (rules : RuleSet), P _ (entryRules helpers scope entries rules)
  | [], rules => passed.done rules
  | .item _ :: rest, rules => entryRules_passes called scope rest rules
  | .spread value :: rest, _ =>
    passed.sequence (ruleSet?_passes called scope value) fun _ =>
      entryRules_passes called scope rest _
  | .pair key value :: rest, rules => by
    rw [entryRules]
    refine passed.sequence (passed.name key) fun name? => ?_
    split
    · exact entryRules_passes called scope rest rules
    · refine passed.sequence (passed.value value) fun v? => ?_
      cases v? with
      | none => exact entryRules_passes called scope rest rules
      | some v => exact entryRules_passes called scope rest _

theorem mergedRules_passes (called : ∀ name, P _ (helpers name)) (scope : Scope) :
    ∀ (arguments : List Expr) (rules : RuleSet), P _ (mergedRules helpers scope arguments rules)
  | [], rules => passed.done rules
  | e :: rest, _ =>
    passed.sequence (ruleSet?_passes called scope e) fun _ =>
      mergedRules_passes called scope rest _

theorem firstRules_passes (called : ∀ name, P _ (helpers name)) (scope : Scope) :
    ∀ results : List Expr, P _ (firstRules helpers scope results)
  | [] => by
    rw [firstRules]
    exact passed.done _
  | e :: _ =>
    passed.sequence (ruleSet?_passes called scope e) fun rules? =>
      passed.done (rules?.getD .empty)

end

variable (called : ∀ name, P _ (helpers name)) (scope : Scope)

include called

theorem assign_passes (e : Expr) : P _ (assign helpers e scope) := by
  unfold assign
  split
  · refine passed.sequence (ruleSet?_passes passed called scope _) fun rules? => ?_
    cases rules? with
    | none => exact passed.done _
    | some rules => exact passed.done _
  · refine passed.sequence (passed.name _) fun name? => ?_
    split
    · exact passed.done _
    · refine passed.sequence (passed.value _) fun v? => ?_
      cases v? with
      | none => exact passed.done _
      | some v => exact passed.done _
  · split
    · refine passed.sequence (ruleSet?_passes passed called scope _) fun rules? => ?_
      cases rules? with
      | none => exact passed.done _
      | some rules => exact passed.done _
    · exact passed.done _
  · exact passed.done _

theorem returnedRules_passes (label : String) (line : Nat) (value : Option Expr) :
    P _ (returnedRules label helpers line value scope) := by
  unfold returnedRules
  split
  · exact passed.done _
  · refine passed.sequence (ruleSet?_passes passed called scope _) fun rules? => ?_
    have rules := passed.done (rules?.getD .empty)
    split
    · exact passed.sequence (passed.report _ _ _ _ _ (by decide)) fun _ => rules
    · exact passed.sequence (passed.report _ _ _ _ _ (by decide)) fun _ => rules
    · exact passed.sequence (passed.done ()) fun _ => rules

theorem followSteps_passes (label : String) (steps : List Step) (rules : RuleSet) :
    P _ (followSteps label helpers steps scope rules) := by
  induction steps generalizing scope rules with
  | nil => exact passed.done rules
  | cons step rest ih =>
    obtain ⟨statement, nested⟩ := step
    cases statement with
    | expression e =>
      exact passed.sequence (assign_passes passed called scope e) fun scope' => ih scope' rules
    | result line value =>
      rw [followSteps]
      refine passed.sequence (returnedRules_passes passed called scope label line value)
        fun returned => ?_
      split
      · exact ih scope returned
      · exact passed.done returned
    | choice arms | block body | loop body others | attempt body handlers | other =>
      exact ih scope rules

omit called

/-- Helper methods are read like this to any depth. -/
theorem helpersOf_passes (label : String) (c : ClassBody) (depth : Nat) (entered : List String)
    (name : String) : P _ (helpersOf label c depth entered name) := by
  induction depth generalizing entered name with
  | zero => exact passed.done none
  | succ depth ih =>
    rw [helpersOf]
    split
    · exact passed.done none
    · split
      · exact passed.done none
      · refine passed.map ?_ some
        split
        · exact passed.done _
        · exact followSteps_passes passed (fun name => ih _ name) _ label _ _

theorem methodRules_passes (label : String) (c : ClassBody) (depth : Int) (m : Method) :
    P _ (methodRules label c depth m) := by
  unfold methodRules
  split
  · exact passed.done _
  · exact followSteps_passes passed (helpersOf_passes passed label c _ _) _ label _ _

end

/-! ## Reports -/

/-- All that is reported is of one of some kinds. -/
def Reports (kinds : List String) (α : Type) (m : Logged α) : Prop :=
  ∀ d ∈ m.events, ∃ kind ∈ kinds, d.hasKind kind

/-- Reading rules reports nothing but returns that cannot be read. -/
theorem reports_passedOn : PassedOn (Reports unreadKinds) where
  done _ _ member := nomatch member
  sequence first second d member := by
    rcases Emit.mem_events_bind.mp member with here | ⟨x, -, later⟩
    · exact first d here
    · exact second x d later
  name _ _ member := nomatch member
  value _ _ member := nomatch member
  report message kind label line text unread d member := by
    obtain rfl := List.mem_singleton.mp member
    refine ⟨kind, unread, ?_⟩
    simp [Diagnostic.hasKind, Diagnostic.kind, OrderedMap.ofList, OrderedMap.insertAll,
      OrderedMap.get?_insert, Value.text?]

end RequestSchema.Extraction
