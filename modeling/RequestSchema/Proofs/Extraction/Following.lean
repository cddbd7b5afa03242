import RequestSchema.Proofs.Extraction.Trails

/-!
# Following all paths tells the finishes of the trails

* `runBlock_follows`: as long as no path is dropped, running statements over live
  paths makes exactly the branches of their trails, leaves live exactly where their
  trails pass, and stops with a fault exactly when one of their trails has it.

The branches are compared up to their order: those of a statement are made for all
live paths before the next statement runs, while a trail is listed with everything
that follows on it.
-/
namespace RequestSchema.Extraction

open RequestSchema.Source

def statementFinishes (ctx : PathContext) (s : Stmt) (state : PathState) : List Finish :=
  (statementTrails ctx s state).map Trail.finish

def armFinishes (ctx : PathContext) (i : Nat) (arms : List Arm) (state : PathState) :
    List Finish :=
  (armTrails ctx i arms state).map Trail.finish

def blockFinishes (ctx : PathContext) (body : List Stmt) (state : PathState) : List Finish :=
  (blockTrails ctx body state).map Trail.finish

theorem finish_extend (next : PathState → List Trail) (t : Trail) :
    (t.extend next).map Trail.finish =
      t.finish.extend fun state => (next state).map Trail.finish := by
  obtain ⟨decisions, finish⟩ := t
  cases finish <;> simp [Trail.extend, Finish.extend, Trail.behind, Function.comp_def]

theorem finishes_flatMap_extend (trails : List Trail) (next : PathState → List Trail) :
    (trails.flatMap (Trail.extend next)).map Trail.finish =
      (trails.map Trail.finish).flatMap
        (Finish.extend fun state => (next state).map Trail.finish) := by
  simp only [List.map_flatMap, List.flatMap_map, finish_extend]

theorem states_extend (next : PathState → List Finish) (finishes : List Finish) :
    (finishes.flatMap (Finish.extend next)).filterMap Finish.state? =
      ((finishes.filterMap Finish.state?).flatMap next).filterMap Finish.state? := by
  induction finishes with
  | nil => rfl
  | cons finish rest ih =>
    rw [List.flatMap_cons, List.filterMap_append, ih]
    cases finish with
    | returned branch => rfl
    | failed fault => rfl
    | passed state =>
      simp only [Finish.extend, Finish.state?, List.filterMap_cons, List.flatMap_cons,
        List.filterMap_append]

/-- The branches of trails that are continued from where they pass: those that have
returned before, and those of the continuations. -/
theorem branches_extend (next : PathState → List Finish) (finishes : List Finish) :
    ((finishes.flatMap (Finish.extend next)).filterMap Finish.branch?).Perm
      (finishes.filterMap Finish.branch? ++
        ((finishes.filterMap Finish.state?).flatMap next).filterMap Finish.branch?) := by
  induction finishes with
  | nil => exact .refl _
  | cons finish rest ih =>
    rw [List.flatMap_cons, List.filterMap_append]
    refine (ih.append_left _).trans ?_
    cases finish with
    | returned branch => exact .refl _
    | failed fault => exact .refl _
    | passed state =>
      simp only [Finish.extend, Finish.branch?, Finish.state?, List.filterMap_cons,
        List.flatMap_cons, List.filterMap_append]
      exact List.perm_append_comm_assoc _ _ _

/-- A continued finish is one that does not pass, or one of the continuations. -/
theorem mem_flatMap_extend (next : PathState → List Finish) (finishes : List Finish)
    (finish : Finish) :
    finish ∈ finishes.flatMap (Finish.extend next) ↔
      (finish ∈ finishes ∧ finish.state? = none) ∨
        finish ∈ (finishes.filterMap Finish.state?).flatMap next := by
  simp only [List.mem_flatMap, List.mem_filterMap]
  constructor
  · rintro ⟨before, member, continued⟩
    cases before with
    | returned branch =>
      rw [List.mem_singleton.mp continued]
      exact .inl ⟨member, rfl⟩
    | failed fault =>
      rw [List.mem_singleton.mp continued]
      exact .inl ⟨member, rfl⟩
    | passed state => exact .inr ⟨state, ⟨_, member, rfl⟩, continued⟩
  · rintro (⟨member, ended⟩ | ⟨state, ⟨before, member, passes⟩, continued⟩)
    · refine ⟨finish, member, ?_⟩
      cases finish with
      | returned branch => exact List.mem_singleton_self _
      | failed fault => exact List.mem_singleton_self _
      | passed state => cases ended
    · cases before with
      | returned branch => cases passes
      | failed fault => cases passes
      | passed state =>
        cases passes
        exact ⟨.passed state, member, continued⟩

/-! ## Following trails -/

/-- The events and the live paths of a computation tell exactly the finishes of some
trails, none of which has a fault. -/
structure Complete (events : List PathEvent) (live : List PathState) (finishes : List Finish) :
    Prop where
  live_eq : live = finishes.filterMap Finish.state?
  branches : (branchesOf events).Perm (finishes.filterMap Finish.branch?)
  sound : ∀ finish ∈ finishes, finish.fault? = none

/-- As long as it drops no path, a computation tells exactly the finishes of some
trails, or stops with the fault of one of them. `live` reads the live paths off its
value. -/
structure Follows {α : Type} (m : Paths α) (live : α → List PathState) (finishes : List Finish) :
    Prop where
  complete : .truncated ∉ m.events →
    ∀ a, m.outcome = .ok a → Complete m.events (live a) finishes
  stops : .truncated ∉ m.events →
    ∀ fault, m.outcome = .error fault → ∃ finish ∈ finishes, finish.fault? = some fault

theorem branchesOf_append (first second : List PathEvent) :
    branchesOf (first ++ second) = branchesOf first ++ branchesOf second :=
  List.filterMap_append

theorem Complete.append {e₁ e₂ : List PathEvent} {l₁ l₂ : List PathState} {f₁ f₂ : List Finish}
    (first : Complete e₁ l₁ f₁) (second : Complete e₂ l₂ f₂) :
    Complete (e₁ ++ e₂) (l₁ ++ l₂) (f₁ ++ f₂) := by
  refine ⟨?_, ?_, ?_⟩
  · rw [List.filterMap_append, ← first.live_eq, ← second.live_eq]
  · rw [branchesOf_append, List.filterMap_append]
    exact first.branches.append second.branches
  · intro finish member
    rcases List.mem_append.mp member with left | right
    · exact first.sound finish left
    · exact second.sound finish right

/-- The branches of trails that have returned come first in the events; in the list of
trails they stand between those of the continuations. -/
theorem Complete.extend {e₁ e₂ : List PathEvent} {l₁ l₂ : List PathState} {finishes : List Finish}
    {next : PathState → List Finish} (first : Complete e₁ l₁ finishes)
    (second : Complete e₂ l₂ (l₁.flatMap next)) :
    Complete (e₁ ++ e₂) l₂ (finishes.flatMap (Finish.extend next)) := by
  obtain ⟨rfl, branches, sound⟩ := first
  refine ⟨?_, ?_, ?_⟩
  · rw [states_extend, ← second.live_eq]
  · rw [branchesOf_append]
    exact (branches.append second.branches).trans (branches_extend next finishes).symm
  · intro finish member
    rcases (mem_flatMap_extend next finishes finish).mp member with ⟨before, -⟩ | after
    · exact sound finish before
    · exact second.sound finish after

/-- No path is dropped when some events stand before a computation exactly when it is
dropped by neither. -/
theorem untruncated_after {α : Type} {m : Paths α} {events : List PathEvent} :
    .truncated ∉ (m.after events).events ↔ .truncated ∉ events ∧ .truncated ∉ m.events := by
  rw [Emit.after, List.mem_append, not_or]

namespace Follows

variable {α β γ : Type} {live : α → List PathState}

theorem of_ok {m : Paths α} {a : α} {finishes : List Finish} (ends : m.outcome = .ok a)
    (complete : .truncated ∉ m.events → Complete m.events (live a) finishes) :
    Follows m live finishes := by
  refine ⟨fun untruncated b value => ?_, fun _ fault stopped => ?_⟩
  · cases ends.symm.trans value
    exact complete untruncated
  · cases ends.symm.trans stopped

theorem of_error {m : Paths α} {fault : Fault} {finishes : List Finish}
    (ends : m.outcome = .error fault)
    (stops : .truncated ∉ m.events → ∃ finish ∈ finishes, finish.fault? = some fault) :
    Follows m live finishes := by
  refine ⟨fun _ b value => ?_, fun untruncated fault' stopped => ?_⟩
  · cases ends.symm.trans value
  · cases ends.symm.trans stopped
    exact stops untruncated

/-- One computation after another that continues the live paths of the first. -/
theorem seq {m : Paths α} {k : α → Paths β} {live' : β → List PathState}
    {finishes : List Finish} {next : PathState → List Finish} (first : Follows m live finishes)
    (second : ∀ a, Follows (k a) live' ((live a).flatMap next)) :
    Follows (m >>= k) live' (finishes.flatMap (Finish.extend next)) := by
  cases ends : m.outcome with
  | error fault =>
    rw [Emit.bind_error k ends]
    refine of_error rfl fun untruncated => ?_
    obtain ⟨finish, member, faulty⟩ := first.stops untruncated fault ends
    refine ⟨finish, (mem_flatMap_extend next finishes finish).mpr (.inl ⟨member, ?_⟩), faulty⟩
    cases finish with
    | passed state => cases faulty
    | returned branch => rfl
    | failed fault => rfl
  | ok a =>
    rw [Emit.bind_ok k ends]
    cases ends' : (k a).outcome with
    | error fault =>
      refine of_error ends' fun untruncated => ?_
      obtain ⟨before, behind⟩ := untruncated_after.mp untruncated
      obtain ⟨finish, member, faulty⟩ := (second a).stops behind fault ends'
      rw [(first.complete before a ends).live_eq] at member
      exact ⟨finish, (mem_flatMap_extend next finishes finish).mpr (.inr member), faulty⟩
    | ok b =>
      refine of_ok ends' fun untruncated => ?_
      obtain ⟨before, behind⟩ := untruncated_after.mp untruncated
      exact (first.complete before a ends).extend ((second a).complete behind b ends')

/-- Two computations side by side, whose values are joined. -/
theorem both {m : Paths α} {m' : Paths β} {live' : β → List PathState}
    {live'' : γ → List PathState} {f₁ f₂ : List Finish} (join : α → β → γ)
    (joined : ∀ a b, live'' (join a b) = live a ++ live' b) (first : Follows m live f₁)
    (second : Follows m' live' f₂) :
    Follows (do let a ← m; let b ← m'; pure (join a b)) live'' (f₁ ++ f₂) := by
  cases ends : m.outcome with
  | error fault =>
    rw [Emit.bind_error _ ends]
    refine of_error rfl fun untruncated => ?_
    obtain ⟨finish, member, faulty⟩ := first.stops untruncated fault ends
    exact ⟨finish, List.mem_append_left _ member, faulty⟩
  | ok a =>
    rw [Emit.bind_ok _ ends]
    cases ends' : m'.outcome with
    | error fault =>
      rw [Emit.bind_error _ ends']
      refine of_error rfl fun untruncated => ?_
      obtain ⟨-, behind⟩ := untruncated_after.mp untruncated
      obtain ⟨finish, member, faulty⟩ := second.stops behind fault ends'
      exact ⟨finish, List.mem_append_right _ member, faulty⟩
    | ok b =>
      rw [Emit.bind_ok _ ends']
      refine of_ok rfl fun untruncated => ?_
      obtain ⟨before, behind⟩ := untruncated_after.mp untruncated
      rw [joined]
      simpa [Emit.after, pure] using
        (first.complete before a ends).append
          (second.complete (untruncated_after.mp behind).1 b ends')

/-- A computation whose value is changed, but not the live paths in it. -/
theorem map {m : Paths α} {live' : β → List PathState} {finishes : List Finish} (f : α → β)
    (same : ∀ a, live' (f a) = live a) (followed : Follows m live finishes) :
    Follows (do let a ← m; pure (f a)) live' finishes := by
  cases ends : m.outcome with
  | error fault =>
    rw [Emit.bind_error _ ends]
    exact of_error rfl fun untruncated => followed.stops untruncated fault ends
  | ok a =>
    rw [Emit.bind_ok _ ends]
    refine of_ok rfl fun untruncated => ?_
    obtain ⟨before, -⟩ := untruncated_after.mp untruncated
    rw [same]
    simpa [Emit.after, pure] using followed.complete before a ends

/-- A computation without branches that keeps the live paths. -/
theorem pass {m : Paths α} {a : α} {states : List PathState} (ends : m.outcome = .ok a)
    (quiet : branchesOf m.events = []) (kept : live a = states) :
    Follows m live (states.map Finish.passed) := by
  refine of_ok ends fun _ => ⟨?_, ?_, ?_⟩
  · rw [List.filterMap_map, kept]
    exact List.filterMap_some.symm
  · rw [List.filterMap_map, quiet]
    simp [Finish.branch?, Function.comp_def]
  · simp [Finish.fault?]

/-- A computation over each live path. -/
theorem mapM {f : PathState → Paths β} {live : β → List PathState}
    {finishes : PathState → List Finish} (each : ∀ state, Follows (f state) live (finishes state))
    (states : List PathState) :
    Follows (states.mapM f) (List.flatMap live) (states.flatMap finishes) := by
  induction states with
  | nil => exact of_ok rfl fun _ => ⟨rfl, .refl _, by simp⟩
  | cons state rest ih =>
    rw [List.mapM_cons, List.flatMap_cons]
    exact both List.cons (fun _ _ => List.flatMap_cons) (each state) ih

/-- A computation over each live path that ends them all. -/
theorem forM {f : PathState → Paths Unit} {finishes : PathState → List Finish}
    (each : ∀ state, Follows (f state) (fun _ => []) (finishes state)) (states : List PathState) :
    Follows (do states.forM f; pure []) id (states.flatMap finishes) := by
  induction states with
  | nil => exact of_ok rfl fun _ => ⟨rfl, .refl _, by simp⟩
  | cons state rest ih =>
    rw [List.flatMap_cons]
    have ended (_ : Unit) (more : List PathState) : id more = [] ++ id more := rfl
    have joined := both (fun _ more => more) ended (each state) ih
    simpa only [List.forM_eq_forM, List.forM_cons, bind_assoc, pure_bind] using joined

end Follows

theorem branchesOf_notes (diagnostics : List Diagnostic) :
    branchesOf (diagnostics.map .note) = [] := by
  rw [branchesOf, List.filterMap_map]
  exact List.filterMap_eq_nil_iff.mpr fun _ _ => rfl

theorem expression_follows (ctx : PathContext) (e : Expr) (state : PathState) :
    Follows (do return { state with scope := ← noted (assign ctx.helpers e state.scope) })
      (fun state => [state]) (statementFinishes ctx (.expression e) state) := by
  cases ends : (assign ctx.helpers e state.scope).outcome with
  | error fault =>
    rw [Emit.bind_error _ (m := noted _) ends]
    refine .of_error rfl fun _ => ⟨.failed fault, ?_, rfl⟩
    simp [statementFinishes, statementTrails, ends]
  | ok scope =>
    rw [Emit.bind_ok _ (m := noted _) ends]
    have finishes : statementFinishes ctx (.expression e) state =
        [{ state with scope }].map Finish.passed := by
      simp [statementFinishes, statementTrails, ends]
    rw [finishes]
    refine .pass rfl ?_ rfl
    simpa [Emit.after, noted, Emit.mapEvents, pure] using branchesOf_notes _

theorem make_short (conditions : List Condition) (rules : RuleSet)
    (short : conditions.length < 1024) :
    Branch.make conditions rules = .ok ⟨conditions, rules⟩ := by
  simp only [Branch.make, Branch.chance, if_pos short]
  rfl

theorem make_long (conditions : List Condition) (rules : RuleSet)
    (long : ¬ conditions.length < 1024) :
    Branch.make conditions rules = .error .integerTooLarge := by
  simp only [Branch.make, Branch.chance, if_neg long]
  rfl

theorem returnBranch_follows (ctx : PathContext) (line : Nat) (value : Option Expr)
    (state : PathState) :
    Follows (returnBranch ctx line value state) (fun _ => [])
      (statementFinishes ctx (.result line value) state) := by
  unfold returnBranch
  cases ends : (returnedRules ctx.label ctx.helpers line value state.scope).outcome with
  | error fault =>
    rw [Emit.bind_error _ (m := noted _) ends]
    refine .of_error rfl fun _ => ⟨.failed fault, ?_, rfl⟩
    simp [statementFinishes, statementTrails, ends]
  | ok rules =>
    rw [Emit.bind_ok _ (m := noted _) ends]
    have finishes : statementFinishes ctx (.result line value) state =
        [.returned ⟨state.conditions, rules⟩] := by
      simp [statementFinishes, statementTrails, ends]
    rw [finishes]
    by_cases short : state.conditions.length < 1024
    · rw [make_short state.conditions rules short]
      refine .of_ok rfl fun _ => ⟨rfl, ?_, by simp [Finish.fault?, short]⟩
      change (branchesOf (_ ++ [.branch ⟨state.conditions, rules⟩])).Perm _
      rw [branchesOf_append, noted, Emit.mapEvents, branchesOf_notes]
      exact .refl _
    · rw [make_long state.conditions rules short]
      exact .of_error rfl fun _ =>
        ⟨.returned ⟨state.conditions, rules⟩, List.mem_singleton_self _, by
          simp [Finish.fault?, short]⟩

/-- Dropping paths shows in the events, so that otherwise all of them are kept. -/
theorem limited_untruncated (ctx : PathContext) (states : List PathState)
    (untruncated : .truncated ∉ (limited ctx states).events) :
    limited ctx states = pure states := by
  unfold limited at untruncated ⊢
  cases limit : ctx.limit with
  | none => rfl
  | some n =>
    simp only [limit] at untruncated ⊢
    split
    · rename_i exceeds
      rw [if_pos exceeds] at untruncated
      exact absurd (List.mem_cons_self ..) untruncated
    · rfl

theorem Follows.limit (ctx : PathContext) {m : Paths (List (List PathState))}
    {finishes : List Finish} (followed : Follows m List.flatten finishes) :
    Follows (do let ends ← m; limited ctx ends.flatten) id finishes := by
  cases ends : m.outcome with
  | error fault =>
    rw [Emit.bind_error _ ends]
    exact .of_error rfl fun untruncated => followed.stops untruncated fault ends
  | ok a =>
    rw [Emit.bind_ok _ ends]
    by_cases dropped : .truncated ∈ (limited ctx a.flatten).events
    · have lost : .truncated ∈ ((limited ctx a.flatten).after m.events).events :=
        List.mem_append_right _ dropped
      exact ⟨fun untruncated => absurd lost untruncated, fun untruncated => absurd lost untruncated⟩
    · rw [limited_untruncated ctx _ dropped]
      refine .of_ok rfl fun untruncated => ?_
      obtain ⟨before, -⟩ := untruncated_after.mp untruncated
      simpa [Emit.after, pure] using followed.complete before a ends

theorem Follows.choice {α : Type} {m : Paths α} {live : α → List PathState}
    {finishes : List Finish} (followed : Follows m live finishes) :
    Follows (do Emit.event .choice; m) live finishes := by
  change Follows (m.after [.choice]) live finishes
  constructor
  · intro untruncated a value
    have before := (untruncated_after.mp untruncated).2
    obtain ⟨live_eq, branches, sound⟩ := followed.complete before a value
    exact ⟨live_eq, branches, sound⟩
  · intro untruncated fault stopped
    have before := (untruncated_after.mp untruncated).2
    exact followed.stops before fault stopped

/-- The finishes of the arms, and of the path that skips them all. -/
theorem choiceFinishes_eq (ctx : PathContext) (arms : List Arm) (state : PathState) :
    statementFinishes ctx (.choice arms) state =
      armFinishes ctx 0 arms state ++ if hasElse arms then [] else [.passed state] := by
  unfold statementFinishes statementTrails armFinishes
  split <;> simp

theorem armFinishes_cons (ctx : PathContext) (i : Nat) (guard : Option Guard) (body : List Stmt)
    (rest : List Arm) (state : PathState) :
    armFinishes ctx i (.arm guard body :: rest) state =
      blockFinishes ctx body (state.enter ctx guard) ++ armFinishes ctx (i + 1) rest state := by
  simp [armFinishes, armTrails, blockFinishes, Trail.behind, Function.comp_def]

theorem blockFinishes_cons (ctx : PathContext) (s : Stmt) (rest : List Stmt)
    (states : List PathState) :
    states.flatMap (blockFinishes ctx (s :: rest)) =
      (states.flatMap (statementFinishes ctx s)).flatMap
        (Finish.extend (blockFinishes ctx rest)) := by
  rw [List.flatMap_assoc]
  congr 1
  funext state
  exact finishes_flatMap_extend _ _

/-- A path that enters the arms of a choice, or skips them when none of them is taken
otherwise. -/
theorem choice_follows (ctx : PathContext) (arms : List Arm) (state : PathState)
    (entered : Follows (runArms ctx arms state) id (armFinishes ctx 0 arms state)) :
    Follows
      (do let ends ← runArms ctx arms state
          return if arms.any fun a => a.guard.isNone then ends else ends ++ [state])
      id (statementFinishes ctx (.choice arms) state) := by
  rw [choiceFinishes_eq]
  by_cases complete : hasElse arms = true
  · rw [if_pos complete, List.append_nil]
    exact entered.map _ fun ends => if_pos complete
  · rw [if_neg complete]
    have skipped : Follows (pure [state]) id ([state].map .passed) := .pass rfl rfl rfl
    refine Follows.both (fun ends skip => if hasElse arms then ends else ends ++ skip) ?_
      entered skipped
    intro ends skip
    exact if_neg complete

mutual

theorem runStatement_follows (ctx : PathContext) :
    ∀ (s : Stmt) (states : List PathState),
      Follows (runStatement ctx s states) id (states.flatMap (statementFinishes ctx s))
  | .expression e, states => by
    have each := Follows.mapM (expression_follows ctx e) states
    rw [show List.flatMap (fun state => [state]) = (id : List PathState → List PathState) from
      funext List.flatMap_singleton'] at each
    exact each
  | .result line value, states => .forM (returnBranch_follows ctx line value) states
  | .choice arms, states => by
    have each := Follows.mapM
      (fun state => choice_follows ctx arms state (runArms_follows ctx 0 arms state)) states
    rw [show List.flatMap id = (List.flatten : List (List PathState) → List PathState) from
      funext fun _ => List.flatMap_id] at each
    exact .choice (.limit ctx each)
  | .block body, states => runBlock_follows ctx body states
  | .loop body _, states => runBlock_follows ctx body states
  | .attempt body _, states => runBlock_follows ctx body states
  | .other, states => by
    rw [show statementFinishes ctx .other = fun state => [.passed state] from rfl,
      ← List.map_eq_flatMap]
    exact .pass rfl rfl rfl

/-- As long as no path is dropped, running statements over live paths tells exactly how
their trails finish. -/
theorem runBlock_follows (ctx : PathContext) :
    ∀ (body : List Stmt) (states : List PathState),
      Follows (runBlock ctx body states) id (states.flatMap (blockFinishes ctx body))
  | [], states => by
    rw [show blockFinishes ctx [] = fun state => [.passed state] from rfl, ← List.map_eq_flatMap]
    exact .pass rfl rfl rfl
  | s :: rest, states => by
    rw [blockFinishes_cons]
    unfold runBlock
    cases states with
    | nil => exact .of_ok rfl fun _ => ⟨rfl, .refl _, fun _ member => nomatch member⟩
    | cons state more =>
      exact .seq (runStatement_follows ctx s (state :: more)) fun live =>
        runBlock_follows ctx rest live

theorem runArms_follows (ctx : PathContext) :
    ∀ (i : Nat) (arms : List Arm) (state : PathState),
      Follows (runArms ctx arms state) id (armFinishes ctx i arms state)
  | _, [], _ => .of_ok rfl fun _ => ⟨rfl, .refl _, fun _ member => nomatch member⟩
  | i, .arm guard body :: rest, state => by
    have entered := runBlock_follows ctx body [state.enter ctx guard]
    rw [List.flatMap_singleton] at entered
    rw [armFinishes_cons]
    exact .both (· ++ ·) (fun _ _ => rfl) entered (runArms_follows ctx (i + 1) rest state)

end

end RequestSchema.Extraction
