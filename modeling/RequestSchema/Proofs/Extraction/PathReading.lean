import RequestSchema.Extraction.Paths
import RequestSchema.Proofs.Extraction.ScopelessFaults
import RequestSchema.Proofs.Extraction.Trails

/-!
# Following paths part by part

* `runStatement_choice`, `outcome_choice`: what a choice makes of the live paths, one path after
  another;
* `PassedOnBetween`: a relation between the computations of two analyzers that is passed on from
  their parts, and so holds between all that they follow.
-/
namespace RequestSchema.Extraction

open RequestSchema.Source

theorem outcome_mapM {ε α β : Type} (f : α → Emit ε β) (xs : List α) :
    (xs.mapM f).outcome = xs.mapM fun x => (f x).outcome := by
  induction xs with
  | nil => rfl
  | cons x rest ih =>
    simp only [List.mapM_cons, Emit.outcome_bind, ih]
    rfl

theorem outcome_map {ε α β : Type} (f : α → β) (m : Emit ε α) :
    (f <$> m).outcome = f <$> m.outcome := by
  rw [map_eq_pure_bind, Emit.outcome_bind, map_eq_pure_bind]
  rfl

/-! ## Paths behind a choice -/

/-- The paths behind an arm that a path enters. -/
def armEnds (ctx : PathContext) (state : PathState) (arm : Arm) : Except Fault (List PathState) :=
  (runBlock ctx arm.body [state.enter ctx arm.guard]).outcome

/-- The paths that a path becomes at a choice: those behind one arm after another, and the path
itself unless an arm is an else. -/
def pathEnds (ctx : PathContext) (arms : List Arm) (state : PathState) :
    Except Fault (List PathState) := do
  let ends ← arms.mapM (armEnds ctx state)
  return ends.flatten ++ if hasElse arms then [] else [state]

/-- All paths behind a choice, before any of them is dropped. -/
def choiceEnds (ctx : PathContext) (arms : List Arm) (states : List PathState) :
    Except Fault (List PathState) :=
  List.flatten <$> states.mapM (pathEnds ctx arms)

/-- What a path goes through at a choice. -/
def followArms (ctx : PathContext) (arms : List Arm) (state : PathState) :
    Paths (List PathState) := do
  let ends ← runArms ctx arms state
  return if hasElse arms then ends else ends ++ [state]

theorem runStatement_choice (ctx : PathContext) (arms : List Arm) (states : List PathState) :
    runStatement ctx (.choice arms) states =
      (states.mapM (followArms ctx arms) >>= fun ends => limited ctx ends.flatten).after
        [.choice] := by
  rw [runStatement]
  rfl

/-- The arms are entered one after another. -/
theorem runArms_eq_mapM (ctx : PathContext) (arms : List Arm) (state : PathState) :
    runArms ctx arms state =
      List.flatten <$> arms.mapM fun arm => runBlock ctx arm.body [state.enter ctx arm.guard] := by
  induction arms with
  | nil => rfl
  | cons arm rest ih =>
    obtain ⟨guard, body⟩ := arm
    simp only [runArms, ih, List.mapM_cons, map_eq_pure_bind, bind_assoc, pure_bind,
      List.flatten_cons, Arm.body, Arm.guard]

theorem outcome_followArms (ctx : PathContext) (arms : List Arm) (state : PathState) :
    (followArms ctx arms state).outcome = pathEnds ctx arms state := by
  rw [followArms, Emit.outcome_bind, runArms_eq_mapM, outcome_map, outcome_mapM, pathEnds]
  change (List.flatten <$> arms.mapM (armEnds ctx state)) >>= _ = _
  cases arms.mapM (armEnds ctx state) with
  | error fault => rfl
  | ok ends =>
    cases hasElse arms with
    | false => rfl
    | true => exact congrArg Except.ok (List.append_nil _).symm

/-- Each path goes through the arms by itself; then the limit is applied to all of them. -/
theorem outcome_choice (ctx : PathContext) (arms : List Arm) (states : List PathState) :
    (runStatement ctx (.choice arms) states).outcome =
      states.mapM (pathEnds ctx arms) >>= fun ends => (limited ctx ends.flatten).outcome := by
  rw [runStatement_choice]
  change (states.mapM (followArms ctx arms) >>= fun ends => limited ctx ends.flatten).outcome = _
  rw [Emit.outcome_bind, outcome_mapM, funext (outcome_followArms ctx arms)]

/-! ## Following paths part by part -/

/-- A relation between computations of two analyzers that following paths passes on from its
parts. -/
structure PassedOnBetween (ctx ctx' : PathContext)
    (R : ∀ α : Type, Paths α → Paths α → Prop) : Prop where
  done : ∀ {α : Type} (x : α), R α (pure x) (pure x)
  sequence : ∀ {α β : Type} {m m' : Paths α} {f f' : α → Paths β},
    R α m m' → (∀ x, R β (f x) (f' x)) → R β (m >>= f) (m' >>= f')
  assign : ∀ e scope,
    R _ (noted (assign ctx.helpers e scope)) (noted (assign ctx'.helpers e scope))
  result : ∀ line value state,
    R _ (returnBranch ctx line value state) (returnBranch ctx' line value state)
  choice : R _ (Emit.event .choice) (Emit.event .choice)
  limited : ∀ states, R _ (limited ctx states) (limited ctx' states)
  enter : ∀ (state : PathState) guard, state.enter ctx guard = state.enter ctx' guard

namespace PassedOnBetween

variable {ctx ctx' : PathContext} {R : ∀ α : Type, Paths α → Paths α → Prop}
  (passed : PassedOnBetween ctx ctx' R)

include passed

theorem mapM {α β : Type} {f f' : α → Paths β} (each : ∀ x, R β (f x) (f' x)) (xs : List α) :
    R _ (xs.mapM f) (xs.mapM f') := by
  induction xs with
  | nil => exact passed.done []
  | cons x rest ih =>
    rw [List.mapM_cons, List.mapM_cons]
    exact passed.sequence (each x) fun y => passed.sequence ih fun ys => passed.done (y :: ys)

theorem forM {α : Type} {f f' : α → Paths Unit} (each : ∀ x, R Unit (f x) (f' x)) (xs : List α) :
    R _ (xs.forM f) (xs.forM f') := by
  induction xs with
  | nil => exact passed.done ()
  | cons x rest ih => exact passed.sequence (each x) fun _ => ih

mutual

theorem runStatement : ∀ (s : Stmt) (states : List PathState),
    R _ (runStatement ctx s states) (runStatement ctx' s states)
  | .expression e, states =>
    passed.mapM (fun state => passed.sequence (passed.assign e state.scope) fun _ =>
      passed.done _) states
  | .result line value, states =>
    passed.sequence (passed.forM (passed.result line value) states) fun _ => passed.done []
  | .choice arms, states =>
    passed.sequence passed.choice fun _ =>
      passed.sequence
        (passed.mapM (fun state => passed.sequence (runArms arms state) fun _ => passed.done _)
          states)
        fun ends => passed.limited ends.flatten
  | .block body, states => runBlock body states
  | .loop body _, states => runBlock body states
  | .attempt body _, states => runBlock body states
  | .other, states => passed.done states

theorem runBlock : ∀ (body : List Stmt) (states : List PathState),
    R _ (runBlock ctx body states) (runBlock ctx' body states)
  | [], states => passed.done states
  | _ :: _, [] => passed.done []
  | s :: rest, state :: more =>
    passed.sequence (runStatement s (state :: more)) fun live => runBlock rest live

theorem runArms : ∀ (arms : List Arm) (state : PathState),
    R _ (runArms ctx arms state) (runArms ctx' arms state)
  | [], _ => passed.done []
  | .arm guard body :: rest, state => by
    have first := runBlock body [state.enter ctx guard]
    rw [Extraction.runArms, Extraction.runArms, ← passed.enter state guard]
    exact passed.sequence first fun ends =>
      passed.sequence (runArms rest state) fun _ => passed.done _

end

end PassedOnBetween

end RequestSchema.Extraction
