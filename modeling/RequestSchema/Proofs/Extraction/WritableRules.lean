import RequestSchema.Extraction.Paths
import RequestSchema.Proofs.Branch.Merge

/-!
# Rules that are read can be written

The values that a source gives its fields are texts, source texts, enumerations, limits of uploads
and lists of them. Numbers are among them only as parts of texts, so the tokens of all rules that
are read can be written, and the branches of a method have a joint rule set:

* `outcome_bodyBranches`: what following the paths of a method ends with, with the joint rule set of
  the branches that it has found.

A computation `Satisfies` a property of its events and one of its result; sequences of such
computations are taken part by part.
-/
namespace RequestSchema

/-- All events of a computation have a property, and its result has one if there is one. -/
structure Emit.Satisfies {ε α : Type} (each : ε → Prop) (ends : α → Prop) (m : Emit ε α) :
    Prop where
  events : ∀ e ∈ m.events, each e
  result : ∀ x, m.outcome = .ok x → ends x

namespace Emit

variable {ε α β : Type} {each : ε → Prop} {p : α → Prop} {q : β → Prop}

theorem satisfies_pure {x : α} (holds : p x) : Satisfies each p (pure x : Emit ε α) where
  events e member := absurd member List.not_mem_nil
  result y ends := by
    cases ends
    exact holds

theorem Satisfies.bind {m : Emit ε α} {f : α → Emit ε β} (first : m.Satisfies each p)
    (second : ∀ x, p x → (f x).Satisfies each q) : (m >>= f).Satisfies each q where
  events e member := by
    rcases mem_events_bind.mp member with here | ⟨x, ends, later⟩
    · exact first.events e here
    · exact (second x (first.result x ends)).events e later
  result y ends := by
    cases outcome : m.outcome with
    | ok x =>
      rw [bind_ok f outcome] at ends
      exact (second x (first.result x outcome)).result y ends
    | error fault =>
      rw [bind_error f outcome] at ends
      cases ends

theorem Satisfies.map {m : Emit ε α} (holds : m.Satisfies each p) {f : α → β}
    (goes : ∀ x, p x → q (f x)) : (f <$> m).Satisfies each q := by
  rw [map_eq_pure_bind]
  exact holds.bind fun x own => satisfies_pure (goes x own)

theorem Satisfies.mapM {f : α → Emit ε β} {xs : List α}
    (steps : ∀ x ∈ xs, (f x).Satisfies each q) :
    (xs.mapM f).Satisfies each fun ys => ∀ y ∈ ys, q y := by
  induction xs with
  | nil => exact satisfies_pure fun y member => absurd member List.not_mem_nil
  | cons x rest ih =>
    rw [List.mapM_cons]
    refine (steps x List.mem_cons_self).bind fun y first => ?_
    refine (ih fun x' member => steps x' (List.mem_cons_of_mem x member)).bind fun ys others => ?_
    exact satisfies_pure (List.forall_mem_cons.mpr ⟨first, others⟩)

theorem Satisfies.forM {f : α → Emit ε Unit} {xs : List α}
    (steps : ∀ x ∈ xs, (f x).Satisfies each fun _ => True) :
    (xs.forM f).Satisfies each fun _ => True := by
  induction xs with
  | nil => exact satisfies_pure trivial
  | cons x rest ih =>
    refine (steps x List.mem_cons_self).bind fun _ _ => ?_
    exact ih fun x' member => steps x' (List.mem_cons_of_mem x member)

theorem satisfies_except {outcome : Except Fault α} (ends : ∀ x, outcome = .ok x → p x) :
    Satisfies each p (liftM outcome : Emit ε α) where
  events _ member := absurd member List.not_mem_nil
  result := ends

theorem satisfies_event {e : ε} (holds : each e) : Satisfies each (fun _ => True) (event e) where
  events e' member := by
    rw [List.mem_singleton.mp member]
    exact holds
  result _ _ := trivial

end Emit

/-! ## Rule sets -/

/-- The tokens of every field of a rule set can be written. -/
def RuleSet.Writable (rules : RuleSet) : Prop :=
  ∀ key value, rules.get? key = some value → value.writable = true

namespace RuleSet.Writable

open OrderedMap

variable {rules more : RuleSet}

theorem empty : Writable .empty := fun _ _ found => nomatch found

theorem insert (writable : rules.Writable) (key : Key) {value : Value}
    (new : value.writable = true) : Writable (OrderedMap.insert rules key value) := by
  intro key' value' found
  rw [get?_insert] at found
  split at found
  · cases found
    exact new
  · exact writable key' value' found

theorem update (writable : rules.Writable) (others : more.Writable) :
    Writable (OrderedMap.update rules more) := by
  intro key value found
  rw [OrderedMap.update, get?_insertAll, find?_reverse key more.distinct, Option.or_eq_some_iff]
    at found
  rcases found with other | ⟨-, own⟩
  · exact others key value other
  · exact writable key value own

theorem union (writable : rules.Writable) (others : more.Writable) :
    Writable (OrderedMap.union rules more) := by
  intro key value found
  rw [OrderedMap.union, get?_insertAllNew, Option.or_eq_some_iff] at found
  rcases found with own | ⟨-, other⟩
  · exact writable key value own
  · exact others key value other

end RuleSet.Writable

/-- A branch with such rules has tokens that can be written. -/
theorem Branch.writable_of_rules {b : Branch} (writable : b.rules.Writable) : b.Writable :=
  fun entry member => writable entry.1 entry.2 (OrderedMap.get?_of_mem member)

namespace Extraction

open Text Source Emit

/-! ## Rule values -/

/-- A computation that gives no value but such as can be written. -/
def GivesWritable (m : Except Fault (Option Value)) : Prop :=
  ∀ v, m = .ok (some v) → v.writable = true

theorem givesWritable_ok {v : Value} (writable : v.writable = true) :
    GivesWritable (.ok (some v)) := fun v' ends => by
  cases ends
  exact writable

theorem givesWritable_none : GivesWritable (.ok none) := fun _ ends => nomatch ends

/-- Whatever a value is made of. -/
theorem givesWritable_bind {α : Type} {m : Except Fault α} {f : α → Except Fault (Option Value)}
    (each : ∀ x, GivesWritable (f x)) : GivesWritable (m >>= f) := fun v ends => by
  obtain ⟨x, -, ends⟩ := exists_of_bind_ok ends
  exact each x v ends

theorem uploadRule_writable {method : String} {arguments : List Expr} {chain : List Link}
    {v : Value} (made : uploadRule method arguments chain = .ok v) : v.writable = true := by
  obtain ⟨limits, -, made⟩ := exists_of_bind_ok made
  cases made
  rfl

theorem builtRule?_writable (method : String) (arguments : List Expr) (chain : List Link) :
    GivesWritable (builtRule? method arguments chain) := by
  have upload (method : String) :
      GivesWritable (some <$> uploadRule method arguments chain) := by
    intro v ends
    rw [map_eq_pure_bind] at ends
    obtain ⟨v', made, ends⟩ := exists_of_bind_ok ends
    cases ends
    exact uploadRule_writable made
  have mapped {α : Type} (x? : Option α) (f : α → Value) (each : ∀ x, (f x).writable = true) :
      GivesWritable (.ok (x?.map f)) := by
    cases x? with
    | none => exact givesWritable_none
    | some x => exact givesWritable_ok (each x)
  unfold builtRule?
  simp only
  split
  case h_1 | h_2 => exact givesWritable_bind fun _ => mapped _ _ fun _ => rfl
  case h_3 | h_4 | h_9 => exact mapped _ _ fun _ => rfl
  case h_5 | h_6 | h_7 | h_10 => exact givesWritable_bind fun _ => givesWritable_ok rfl
  case h_8 | h_13 => exact givesWritable_ok rfl
  case h_11 | h_12 => exact upload _
  case h_14 => exact givesWritable_none

theorem getD_writable {v? : Option Value} (writable : ∀ v, v? = some v → v.writable = true)
    (e : Expr) : (v?.getD (sourceValue e)).writable = true := by
  cases v? with
  | none => rfl
  | some v => exact writable v rfl

theorem builderValue_writable {e : Expr} {v : Value} (made : builderValue e = .ok v) :
    v.writable = true := by
  unfold builderValue at made
  split at made
  · cases made
    rfl
  · split at made
    · obtain ⟨v?, built, made⟩ := exists_of_bind_ok made
      cases made
      refine getD_writable (fun v own => ?_) e
      rw [own] at built
      exact builtRule?_writable _ _ _ v built
    · exact uploadRule_writable made
    · cases made
      rfl
    · cases made
      rfl

theorem objectValue_writable {e : Expr} {name : Option String} {arguments : List Expr} {v : Value}
    (made : objectValue e name arguments = .ok v) : v.writable = true := by
  unfold objectValue at made
  split at made
  · cases made
    rfl
  · split at made
    · obtain ⟨v?, built, made⟩ := exists_of_bind_ok made
      cases made
      refine getD_writable (fun v own => ?_) e
      rw [own] at built
      exact builtRule?_writable _ _ _ v built
    · split at made
      · cases made
        rfl
      · cases made
        rfl

theorem singleRule?_writable (e : Expr) : GivesWritable (singleRule? e) := by
  have mapped {m : Except Fault Value} (each : ∀ v, m = .ok v → v.writable = true) :
      GivesWritable (some <$> m) := by
    intro v ends
    rw [map_eq_pure_bind] at ends
    obtain ⟨made, makes, ends⟩ := exists_of_bind_ok ends
    cases ends
    exact each v makes
  induction e using singleRule?.induct with
  | case1 text inner ih =>
    rw [singleRule?]
    exact ih
  | case4 => exact givesWritable_none
  | case5 text left right =>
    rw [singleRule?, if_pos rfl]
    exact givesWritable_bind fun _ => givesWritable_ok rfl
  | case6 text operator left right other =>
    rw [singleRule?, if_neg other]
    exact givesWritable_ok rfl
  | case7 | case8 =>
    rw [singleRule?]
    exact mapped fun v made => builderValue_writable made
  | case9 =>
    rw [singleRule?]
    exact mapped fun v made => objectValue_writable made
  | case2 | case3 => exact givesWritable_ok rfl
  | case10 =>
    rw [singleRule?]
    · exact givesWritable_ok rfl
    all_goals assumption

theorem entryRule?_writable (entry : Entry) : GivesWritable (entryRule? entry) := by
  cases entry with
  | item e | pair key e => exact singleRule?_writable e
  | spread e => exact givesWritable_none

theorem entryValues_writable {entries : List Entry} {values : List (Option Value)}
    (read : entries.mapM entryRule? = .ok values) :
    Value.allWritable (values.filterMap id) = true := by
  induction entries generalizing values with
  | nil =>
    cases read
    rfl
  | cons entry rest ih =>
    rw [List.mapM_cons] at read
    obtain ⟨value?, first, read⟩ := exists_of_bind_ok read
    obtain ⟨others, later, read⟩ := exists_of_bind_ok read
    obtain rfl := Except.ok.inj read
    have behind := ih later
    cases value? with
    | none => exact behind
    | some value =>
      have own := entryRule?_writable entry value first
      exact Bool.and_eq_true_iff.mpr ⟨own, behind⟩

/-- The rules of an array have tokens. -/
theorem exists_itemTokens {entries : List Entry} {values : List (Option Value)}
    (read : entries.mapM entryRule? = .ok values) :
    ∃ tokens, Value.itemTokens (values.filterMap id) = .ok tokens := by
  have written := entryValues_writable read
  rw [← Value.isOk_itemTokens] at written
  exact exists_ok_of_isOk written

/-- Rule values can be written. -/
theorem ruleValue?_writable (e : Expr) : GivesWritable (ruleValue? e) := by
  unfold ruleValue?
  split
  · intro v ends
    obtain ⟨rules, read, ends⟩ := exists_of_bind_ok ends
    cases ends
    exact entryValues_writable read
  · exact singleRule?_writable _

/-! ## Rule sets of expressions -/

/-- A computation that gives rule sets that can be written. -/
abbrev Reads (m : Logged RuleSet) : Prop := m.Satisfies (fun _ => True) RuleSet.Writable

/-- A computation whose rule set, if it gives one, can be written. -/
abbrev MayRead (m : Logged (Option RuleSet)) : Prop :=
  m.Satisfies (fun _ => True) fun rules? => ∀ rules ∈ rules?, rules.Writable

/-- The rule sets of all variables can be written. -/
def WritableScope (scope : Scope) : Prop :=
  ∀ name rules, scope.get? name = some rules → rules.Writable

theorem mayRead_none : MayRead (pure none) :=
  satisfies_pure fun _ own => nomatch own

theorem Reads.optional {m : Logged RuleSet} (reads : Reads m) : MayRead (some <$> m) :=
  reads.map fun rules writable rules' own => by
    cases own
    exact writable

theorem writable_getD {rules? : Option RuleSet} (writable : ∀ rules ∈ rules?, rules.Writable) :
    (rules?.getD .empty).Writable := by
  cases rules? with
  | none => exact .empty
  | some rules => exact writable rules rfl

theorem satisfies_ruleValue? (e : Expr) :
    Satisfies (fun _ => True) (fun v? => ∀ v ∈ v?, v.writable = true)
      (liftM (ruleValue? e) : Logged (Option Value)) := by
  refine satisfies_except fun v? read v own => ?_
  cases own
  exact ruleValue?_writable e v read

section

variable {helpers : Helpers} {scope : Scope}

mutual

theorem ruleSet?_mayRead (called : ∀ name, MayRead (helpers name))
    (writable : WritableScope scope) : ∀ e, MayRead (ruleSet? helpers scope e)
  | .parens _ inner => ruleSet?_mayRead called writable inner
  | .array _ entries => (entryRules_reads called writable entries .empty .empty).optional
  | .call _ callee arguments => by
    rw [ruleSet?]
    split
    · exact (mergedRules_reads called writable arguments .empty .empty).optional
    · exact mayRead_none
  | .method _ receiver name _ => by
    rw [ruleSet?]
    split
    · exact called name
    · exact mayRead_none
  | .select _ results => (firstRules_reads called writable results).optional
  | .binary _ operator left right => by
    rw [ruleSet?]
    split
    · refine (ruleSet?_mayRead called writable left).bind fun a first => ?_
      refine (ruleSet?_mayRead called writable right).bind fun b second => ?_
      refine satisfies_pure fun rules own => ?_
      unfold unionOf at own
      split at own
      · cases own
      · cases own
        exact (writable_getD first).union (writable_getD second)
    · exact mayRead_none
  | .var text => satisfies_pure fun rules own => writable _ rules own
  | .ternary _ => by
    rw [ruleSet?]
    refine satisfies_pure fun rules own => ?_
    cases own
    exact .empty
  | .string _ | .template _ | .heredoc _ | .integer _ | .float _ | .constant _ | .null _
  | .unary .. | .static .. | .construct .. | .classConstant _ | .member _ | .index .. | .assign ..
  | .augment .. | .other _ => mayRead_none

theorem entryRules_reads (called : ∀ name, MayRead (helpers name))
    (writable : WritableScope scope) :
    ∀ (entries : List Entry) (rules : RuleSet), rules.Writable →
      Reads (entryRules helpers scope entries rules)
  | [], _, before => satisfies_pure before
  | .item _ :: rest, rules, before => entryRules_reads called writable rest rules before
  | .spread value :: rest, _, before =>
    (ruleSet?_mayRead called writable value).bind fun _ spread =>
      entryRules_reads called writable rest _ (before.update (writable_getD spread))
  | .pair key value :: rest, rules, before => by
    rw [entryRules]
    refine (satisfies_except fun _ _ => trivial).bind fun name? (_ : True) => ?_
    split
    · exact entryRules_reads called writable rest rules before
    · refine (satisfies_ruleValue? value).bind fun v? own => ?_
      cases v? with
      | none => exact entryRules_reads called writable rest rules before
      | some v => exact entryRules_reads called writable rest _ (before.insert _ (own v rfl))

theorem mergedRules_reads (called : ∀ name, MayRead (helpers name))
    (writable : WritableScope scope) :
    ∀ (arguments : List Expr) (rules : RuleSet), rules.Writable →
      Reads (mergedRules helpers scope arguments rules)
  | [], _, before => satisfies_pure before
  | e :: rest, _, before =>
    (ruleSet?_mayRead called writable e).bind fun _ more =>
      mergedRules_reads called writable rest _ (before.update (writable_getD more))

theorem firstRules_reads (called : ∀ name, MayRead (helpers name))
    (writable : WritableScope scope) :
    ∀ results : List Expr, Reads (firstRules helpers scope results)
  | [] => by
    rw [firstRules]
    exact satisfies_pure .empty
  | e :: _ =>
    (ruleSet?_mayRead called writable e).bind fun _ rules => satisfies_pure (writable_getD rules)

end

end

/-! ## Statements -/

section

variable {helpers : Helpers} (called : ∀ name, MayRead (helpers name))

/-- A computation that gives a scope whose rule sets can be written. -/
abbrev Scopes (m : Logged Scope) : Prop := m.Satisfies (fun _ => True) WritableScope

theorem writableScope_empty : WritableScope .empty := fun _ _ found => nomatch found

theorem WritableScope.insert {scope : Scope} (writable : WritableScope scope) (name : String)
    {rules : RuleSet} (new : rules.Writable) :
    WritableScope (OrderedMap.insert scope name rules) := by
  intro name' rules' found
  rw [OrderedMap.get?_insert] at found
  split at found
  · cases found
    exact new
  · exact writable name' rules' found

theorem WritableScope.erase {scope : Scope} (writable : WritableScope scope) (name : String) :
    WritableScope (OrderedMap.erase scope name) := by
  intro name' rules found
  have member := OrderedMap.mem_of_get? found
  exact writable name' rules (OrderedMap.get?_of_mem (List.mem_of_mem_filter member))

theorem WritableScope.modifyAt {scope : Scope} (writable : WritableScope scope) (name : String)
    {change : RuleSet → RuleSet} (keeps : ∀ rules, rules.Writable → (change rules).Writable) :
    WritableScope (OrderedMap.modifyAt scope name .empty change) :=
  writable.insert name (keeps _ (writable_getD fun _ own => writable name _ own))

include called

theorem assign_scopes (e : Expr) {scope : Scope} (writable : WritableScope scope) :
    Scopes (assign helpers e scope) := by
  have read := ruleSet?_mayRead called writable
  unfold assign
  split
  · refine (read _).bind fun rules? own => ?_
    cases rules? with
    | none => exact satisfies_pure (writable.erase _)
    | some rules => exact satisfies_pure (writable.insert _ (own rules rfl))
  · refine (satisfies_except fun _ _ => trivial).bind fun name? (_ : True) => ?_
    split
    · exact satisfies_pure writable
    · refine (satisfies_ruleValue? _).bind fun v? own => ?_
      cases v? with
      | none => exact satisfies_pure writable
      | some v => exact satisfies_pure (writable.modifyAt _ fun rules old =>
          old.insert _ (own v rfl))
  · split
    · refine (read _).bind fun rules? own => ?_
      cases rules? with
      | none => exact satisfies_pure writable
      | some rules => exact satisfies_pure (writable.modifyAt _ fun _ old =>
          old.union (own rules rfl))
    · exact satisfies_pure writable
  · exact satisfies_pure writable

theorem returnedRules_reads (label : String) (line : Nat) (value : Option Expr) {scope : Scope}
    (writable : WritableScope scope) : Reads (returnedRules label helpers line value scope) := by
  unfold returnedRules
  split
  · exact satisfies_pure .empty
  · refine (ruleSet?_mayRead called writable _).bind fun rules? own => ?_
    have returns : Reads (pure (rules?.getD .empty)) := satisfies_pure (writable_getD own)
    split
    · exact (satisfies_event trivial).bind fun _ _ => returns
    · exact (satisfies_event trivial).bind fun _ _ => returns
    · exact returns

theorem followSteps_reads (label : String) (steps : List Step) {scope : Scope} {rules : RuleSet}
    (writable : WritableScope scope) (before : rules.Writable) :
    Reads (followSteps label helpers steps scope rules) := by
  induction steps generalizing scope rules with
  | nil => exact satisfies_pure before
  | cons step rest ih =>
    obtain ⟨statement, nested⟩ := step
    cases statement with
    | expression e => exact (assign_scopes called e writable).bind fun _ after => ih after before
    | result line value =>
      rw [followSteps]
      refine (returnedRules_reads called label line value writable).bind fun returned own => ?_
      split
      · exact ih writable own
      · exact satisfies_pure own
    | choice arms | block body | loop body others | attempt body handlers | other =>
      exact ih writable before

end

/-- Rule sets of helper methods can be written, however deep the calls go. -/
theorem helpersOf_mayRead (label : String) (c : ClassBody) (depth : Nat) (entered : List String)
    (name : String) : MayRead (helpersOf label c depth entered name) := by
  induction depth generalizing entered name with
  | zero => exact mayRead_none
  | succ depth ih =>
    rw [helpersOf]
    split
    · exact mayRead_none
    · split
      · exact mayRead_none
      · refine Reads.optional ?_
        split
        · exact satisfies_pure .empty
        · exact followSteps_reads (fun name => ih _ name) label _ writableScope_empty .empty

theorem methodContext_mayRead (label : String) (c : ClassBody) (depth : Int) (words : List String)
    (m : Method) : ∀ name, MayRead ((methodContext label c depth words m).helpers name) :=
  helpersOf_mayRead label c depth.toNat [lower m.name]

/-- The rules of a method can be written. -/
theorem methodRules_reads (label : String) (c : ClassBody) (depth : Int) (m : Method) :
    Reads (methodRules label c depth m) := by
  unfold methodRules
  split
  · exact satisfies_pure .empty
  · exact followSteps_reads (helpersOf_mayRead label c _ _) label _ writableScope_empty .empty

/-! ## Paths -/

/-- A branch that is made can be written. -/
def WritableEvent (e : PathEvent) : Prop := ∀ b, e = .branch b → b.Writable

/-- The rule sets of the variables of every path can be written. -/
def WritableStates (states : List PathState) : Prop :=
  ∀ state ∈ states, WritableScope state.scope

/-- Following paths makes branches that can be written, and paths with such scopes. -/
abbrev StaysWritable (m : Paths (List PathState)) : Prop := m.Satisfies WritableEvent WritableStates

theorem satisfies_noted {α : Type} {p : α → Prop} {m : Logged α}
    (holds : m.Satisfies (fun _ => True) p) : (noted m).Satisfies WritableEvent p where
  events e member := by
    obtain ⟨d, -, rfl⟩ := List.mem_map.mp member
    exact fun b same => nomatch same
  result := holds.result

theorem limited_staysWritable (ctx : PathContext) {states : List PathState}
    (writable : WritableStates states) : StaysWritable (limited ctx states) := by
  unfold limited
  split
  · exact satisfies_pure writable
  · split
    · refine (satisfies_event fun b same => nomatch same).bind fun _ _ => ?_
      exact satisfies_pure fun state member => writable state (List.mem_of_mem_take member)
    · exact satisfies_pure writable

section

variable {ctx : PathContext}

theorem returnBranch_writable (called : ∀ name, MayRead (ctx.helpers name)) (line : Nat)
    (value : Option Expr) {state : PathState} (writable : WritableScope state.scope) :
    (returnBranch ctx line value state).Satisfies WritableEvent fun _ => True := by
  refine (satisfies_noted (returnedRules_reads called ctx.label line value writable)).bind
    fun rules own => ?_
  refine (satisfies_except (p := fun b => b.Writable) fun b made => ?_).bind fun b written => ?_
  · obtain ⟨_, -, made⟩ := exists_of_bind_ok made
    cases made
    exact Branch.writable_of_rules own
  · refine satisfies_event fun b' same => ?_
    cases same
    exact written

mutual

theorem runStatement_staysWritable (called : ∀ name, MayRead (ctx.helpers name)) :
    ∀ (s : Stmt) {states : List PathState},
    WritableStates states → StaysWritable (runStatement ctx s states)
  | .expression e, states, writable =>
    .mapM fun state member =>
      (satisfies_noted (assign_scopes called e (writable state member))).bind fun _ after =>
        satisfies_pure after
  | .result line value, states, writable =>
    (Satisfies.forM fun state member =>
      returnBranch_writable called line value (writable state member)).bind fun _ _ =>
        satisfies_pure fun state member => absurd member List.not_mem_nil
  | .choice arms, states, writable => by
    rw [runStatement]
    refine (satisfies_event fun b same => nomatch same).bind fun _ _ => ?_
    have ends : (states.mapM fun state => do
        let ends ← runArms ctx arms state
        return if arms.any fun a => a.guard.isNone then ends else ends ++ [state]).Satisfies
          WritableEvent fun ends => ∀ states ∈ ends, WritableStates states := by
      refine .mapM fun state member => ?_
      refine (runArms_staysWritable called arms (writable state member)).bind fun ends after => ?_
      refine satisfies_pure ?_
      split
      · exact after
      · intro state' there
        rcases List.mem_append.mp there with own | itself
        · exact after state' own
        · rw [List.mem_singleton.mp itself]
          exact writable state member
    refine ends.bind fun ends after => limited_staysWritable ctx fun state member => ?_
    obtain ⟨states', there, own⟩ := List.mem_flatten.mp member
    exact after states' there state own
  | .block body, states, writable => runBlock_staysWritable called body writable
  | .loop body _, states, writable => runBlock_staysWritable called body writable
  | .attempt body _, states, writable => runBlock_staysWritable called body writable
  | .other, states, writable => satisfies_pure writable

theorem runBlock_staysWritable (called : ∀ name, MayRead (ctx.helpers name)) :
    ∀ (body : List Stmt) {states : List PathState},
    WritableStates states → StaysWritable (runBlock ctx body states)
  | [], states, writable => satisfies_pure writable
  | s :: rest, states, writable => by
    rw [runBlock]
    split
    · exact satisfies_pure fun state member => absurd member List.not_mem_nil
    · exact (runStatement_staysWritable called s writable).bind fun _ after =>
        runBlock_staysWritable called rest after

theorem runArms_staysWritable (called : ∀ name, MayRead (ctx.helpers name)) :
    ∀ (arms : List Arm) {state : PathState},
    WritableScope state.scope → StaysWritable (runArms ctx arms state)
  | [], state, writable => satisfies_pure fun state' member => absurd member List.not_mem_nil
  | .arm guard body :: rest, state, writable => by
    rw [runArms]
    have entered : WritableStates [state.enter ctx guard] := by
      intro state' member
      rw [List.mem_singleton.mp member]
      cases guard with
      | none => exact writable
      | some guard => exact writable
    refine (runBlock_staysWritable called body entered).bind fun ends first => ?_
    refine (runArms_staysWritable called rest writable).bind fun others second => ?_
    exact satisfies_pure fun state' member => (List.mem_append.mp member).elim (first state')
      (second state')

end

variable (called : ∀ name, MayRead (ctx.helpers name))

include called

/-- The branches that following the paths of a method finds can be written. -/
theorem writable_of_mem_branchesOf (body : List Stmt) :
    ∀ b ∈ branchesOf (runBlock ctx body [{}]).events, b.Writable := by
  have start : WritableStates [{}] := fun state member => by
    rw [List.mem_singleton.mp member]
    exact writableScope_empty
  intro b member
  obtain ⟨e, there, own⟩ := List.mem_filterMap.mp member
  have stays := (runBlock_staysWritable called body start).events e there
  cases e with
  | branch b' =>
    cases own
    exact stays b rfl
  | choice | truncated | note d => cases own

/-- Those branches have a joint rule set. -/
theorem exists_ofBranches (body : List Stmt) :
    ∃ found, ConditionalRules.ofBranches (branchesOf (runBlock ctx body [{}]).events) = .ok found :=
  ⟨_, Branch.ofBranches_of_writable (writable_of_mem_branchesOf called body)⟩

/-- The branches of statements have a joint rule set, unless following them is a fault. -/
theorem outcome_bodyBranches (body : List Stmt) :
    (bodyBranches ctx body).outcome = (do
      let _ ← (runBlock ctx body [{}]).outcome
      let branches := branchesOf (runBlock ctx body [{}]).events
      let chosen := (runBlock ctx body [{}]).events.any PathEvent.isChoice
      let branches := if branches.isEmpty && !chosen then [⟨[], .empty⟩] else branches
      return ⟨branches, Branch.joint branches⟩) := by
  unfold bodyBranches
  simp only
  congr 1
  funext _
  refine Branch.ofBranches_of_writable fun b member => ?_
  split at member
  · rw [List.mem_singleton.mp member]
    exact Branch.writable_of_rules .empty
  · exact writable_of_mem_branchesOf called body b member

end

end Extraction

end RequestSchema
