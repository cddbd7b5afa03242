import RequestSchema.Proofs.Analysis.Results
import RequestSchema.Proofs.Extraction.FirstPath
import RequestSchema.Proofs.Extraction.PathCoverage
import RequestSchema.Proofs.Extraction.RuleReading

/-!
# The limit on paths

* `methodBranches_limited`: between the statements of a method at most 256 paths are live, behind
  every choice the first ones are kept, one warning tells of dropped paths, and without that warning
  the branches and all diagnostics are those of the analyzer without a limit.

The limit is applied behind each choice, also behind those in arms, which are entered by one path at
a time. Paths are dropped when some choice that is reached has too many paths behind it (`Drops`).
-/
namespace RequestSchema.Extraction

open RequestSchema.Source

/-! ## What the limit keeps -/

theorem outcome_limited {ctx : PathContext} {n : Nat} (limit : ctx.limit = some n)
    (states : List PathState) : (limited ctx states).outcome = .ok (states.take n) := by
  unfold limited
  rw [limit]
  simp only
  split
  · rfl
  · rename_i few
    rw [List.take_of_length_le (Nat.le_of_not_lt few)]
    rfl

/-- Of the paths behind a choice, the first ones are kept. -/
theorem outcome_choice_of_limit {ctx : PathContext} {n : Nat} (limit : ctx.limit = some n)
    (arms : List Arm) (states : List PathState) :
    (runStatement ctx (.choice arms) states).outcome =
      List.take n <$> choiceEnds ctx arms states := by
  rw [outcome_choice, choiceEnds]
  cases states.mapM (pathEnds ctx arms) with
  | error fault => rfl
  | ok ends => exact outcome_limited limit ends.flatten

/-! ## No more paths than the limit -/

theorem length_of_mapM {α β : Type} {f : α → Except Fault β} {xs : List α} {ys : List β}
    (ends : xs.mapM f = .ok ys) : ys.length = xs.length := by
  induction xs generalizing ys with
  | nil =>
    cases ends
    rfl
  | cons x rest ih =>
    rw [List.mapM_cons] at ends
    obtain ⟨y, -, ends⟩ := exists_of_bind_ok ends
    obtain ⟨others, later, ends⟩ := exists_of_bind_ok ends
    cases ends
    rw [List.length_cons, List.length_cons, ih later]

section

variable {ctx : PathContext} {n : Nat}

mutual

theorem runStatement_within (limit : ctx.limit = some n) :
    ∀ (s : Stmt) (states live : List PathState), states.length ≤ n →
      (runStatement ctx s states).outcome = .ok live → live.length ≤ n
  | .expression e, states, live, few, ends => by
    rw [runStatement, outcome_mapM] at ends
    rwa [length_of_mapM ends]
  | .result line value, states, live, few, ends => by
    rw [runStatement, Emit.outcome_bind] at ends
    obtain ⟨_, -, ends⟩ := exists_of_bind_ok ends
    cases ends
    exact Nat.zero_le n
  | .choice arms, states, live, few, ends => by
    rw [outcome_choice_of_limit limit] at ends
    cases all : choiceEnds ctx arms states with
    | error fault =>
      rw [all] at ends
      cases ends
    | ok behind =>
      rw [all] at ends
      cases ends
      exact List.length_take_le n behind
  | .block body, states, live, few, ends => runBlock_within limit body states live few ends
  | .loop body _, states, live, few, ends => runBlock_within limit body states live few ends
  | .attempt body _, states, live, few, ends => runBlock_within limit body states live few ends
  | .other, states, live, few, ends => by
    cases ends
    exact few

/-- A block has no more paths behind it than the limit, if it has not before. -/
theorem runBlock_within (limit : ctx.limit = some n) :
    ∀ (body : List Stmt) (states live : List PathState), states.length ≤ n →
      (runBlock ctx body states).outcome = .ok live → live.length ≤ n
  | [], states, live, few, ends => by
    cases ends
    exact few
  | s :: rest, [], live, few, ends => by
    rw [runBlock_nil] at ends
    cases ends
    exact few
  | s :: rest, state :: more, live, few, ends => by
    change (runStatement ctx s (state :: more) >>= runBlock ctx rest).outcome = _ at ends
    rw [Emit.outcome_bind] at ends
    obtain ⟨passed, first, later⟩ := exists_of_bind_ok ends
    exact runBlock_within limit rest passed live
      (runStatement_within limit s (state :: more) passed few first) later

end

end

/-! ## Without a limit -/

/-- The analyzer that drops no path. -/
def PathContext.unlimited (ctx : PathContext) : PathContext := { ctx with limit := none }

/-- Unless paths are dropped, a computation is the other one. -/
def SameUnlessTruncated (α : Type) (m m' : Paths α) : Prop :=
  .truncated ∉ m.events → m = m'

theorem sameUnlessTruncated_passedOn (ctx : PathContext) :
    PassedOnBetween ctx ctx.unlimited SameUnlessTruncated where
  done _ _ := rfl
  sequence {α β m m' f f'} first second untruncated := by
    cases ends : m.outcome with
    | error fault =>
      rw [Emit.bind_error f ends] at untruncated
      obtain rfl := first untruncated
      rw [Emit.bind_error f ends, Emit.bind_error f' ends]
    | ok x =>
      rw [Emit.bind_ok f ends] at untruncated
      obtain ⟨before, after⟩ := untruncated_after.mp untruncated
      obtain rfl := first before
      rw [Emit.bind_ok f ends, Emit.bind_ok f' ends, second x after]
  assign _ _ _ := rfl
  result _ _ _ _ := rfl
  choice _ := rfl
  limited states untruncated := limited_untruncated ctx states untruncated
  enter _ _ := rfl

/-! ## What is reported -/

/-- All that is noted are reports on returns that cannot be read. -/
def NotesUnread (α : Type) (m _ : Paths α) : Prop :=
  ∀ d, .note d ∈ m.events → ∃ kind ∈ unreadKinds, d.hasKind kind

theorem not_hasKind_of_unread {d : Diagnostic} {kind : String} (unread : kind ∈ unreadKinds)
    (has : d.hasKind kind) : d.hasKind "path_limit_exceeded" = false := by
  have named := of_decide_eq_true has
  have other : kind ≠ "path_limit_exceeded" := by
    rintro rfl
    exact absurd unread (by decide)
  simp [Diagnostic.hasKind, named, other]

theorem note_mem_noted {α : Type} {m : Logged α} {d : Diagnostic}
    (member : .note d ∈ (noted m).events) : d ∈ m.events := by
  simpa [noted, Emit.mapEvents] using member

theorem notesUnread_passedOn {ctx : PathContext}
    (called : ∀ name, Reports unreadKinds _ (ctx.helpers name)) :
    PassedOnBetween ctx ctx NotesUnread where
  done _ _ member := nomatch member
  sequence first second d member := by
    rcases Emit.mem_events_bind.mp member with here | ⟨x, -, later⟩
    · exact first d here
    · exact second x d later
  assign e scope d member :=
    assign_passes reports_passedOn called scope e d (note_mem_noted member)
  result line value state d member := by
    rcases Emit.mem_events_bind.mp member with here | ⟨rules, -, later⟩
    · exact returnedRules_passes reports_passedOn called state.scope ctx.label line value d
        (note_mem_noted here)
    · rcases Emit.mem_events_bind.mp later with none | ⟨branch, -, made⟩
      · cases none
      · cases List.mem_singleton.mp made
  choice d member := by cases List.mem_singleton.mp member
  limited states d member := by
    unfold limited at member
    split at member
    · cases member
    · split at member
      · rcases Emit.mem_events_bind.mp member with here | ⟨_, -, none⟩
        · cases List.mem_singleton.mp here
        · cases none
      · cases member
  enter _ _ := rfl

def limitWarnings (diagnostics : List Diagnostic) : List Diagnostic :=
  diagnostics.filter (·.hasKind "path_limit_exceeded")

section

variable {ctx : PathContext} {events : List PathEvent}
  (notes : ∀ d, .note d ∈ events → d.hasKind "path_limit_exceeded" = false)

include notes

/-- There is no warning where none is due, or where it has been reported. -/
theorem limitWarnings_eq_nil {reported : Bool}
    (quiet : reported = true ∨ .truncated ∉ events) :
    limitWarnings (diagnosticsOf ctx reported events) = [] := by
  induction events with
  | nil => rfl
  | cons event rest ih =>
    have later := ih (fun d member => notes d (List.mem_cons_of_mem event member))
      (quiet.imp_right fun absent member => absent (List.mem_cons_of_mem event member))
    cases event with
    | note d =>
      rw [diagnosticsOf, limitWarnings, List.filter_cons_of_neg (by simp [notes d])]
      exact later
    | truncated =>
      obtain rfl := quiet.resolve_right fun absent => absent List.mem_cons_self
      exact later
    | branch b => exact later
    | choice => exact later

/-- However often paths are dropped, one warning says so. -/
theorem limitWarnings_eq_singleton (truncated : .truncated ∈ events) :
    limitWarnings (diagnosticsOf ctx false events) = [truncationWarning ctx] := by
  induction events with
  | nil => cases truncated
  | cons event rest ih =>
    have others : ∀ d, .note d ∈ rest → d.hasKind "path_limit_exceeded" = false :=
      fun d member => notes d (List.mem_cons_of_mem event member)
    cases event with
    | note d =>
      rw [diagnosticsOf, limitWarnings, List.filter_cons_of_neg (by simp [notes d])]
      exact ih others ((List.mem_cons.mp truncated).resolve_left nofun)
    | truncated =>
      have once : limitWarnings (diagnosticsOf ctx true rest) = [] :=
        limitWarnings_eq_nil others (.inl rfl)
      rw [diagnosticsOf, if_neg (by decide), limitWarnings,
        List.filter_cons_of_pos (hasKind_truncationWarning ctx)]
      exact congrArg (truncationWarning ctx :: ·) once
    | branch b => exact ih others ((List.mem_cons.mp truncated).resolve_left nofun)
    | choice => exact ih others ((List.mem_cons.mp truncated).resolve_left nofun)

end

/-- As long as no path is dropped, the diagnostics do not depend on the limit. -/
theorem diagnosticsOf_unlimited (ctx : PathContext) {events : List PathEvent}
    (untruncated : .truncated ∉ events) (reported : Bool) :
    diagnosticsOf ctx reported events = diagnosticsOf ctx.unlimited reported events := by
  induction events with
  | nil => rfl
  | cons event rest ih =>
    have later := ih fun member => untruncated (List.mem_cons_of_mem event member)
    cases event with
    | note d => rw [diagnosticsOf, diagnosticsOf, later]
    | truncated => exact absurd List.mem_cons_self untruncated
    | branch b => exact later
    | choice => exact later

/-! ## Choices that are reached -/

/-- `Reaches ctx body states arms live`: running `body` over the paths `states` gets to the choice
between `arms` with the paths `live`. -/
inductive Reaches (ctx : PathContext) :
    List Stmt → List PathState → List Arm → List PathState → Prop where
  | here {arms rest states} (some_live : states ≠ []) :
      Reaches ctx (.choice arms :: rest) states arms states
  | behind {s rest states passed arms live} (some_live : states ≠ [])
      (passes : (runStatement ctx s states).outcome = .ok passed)
      (later : Reaches ctx rest passed arms live) : Reaches ctx (s :: rest) states arms live
  | block {body rest states arms live} (inside : Reaches ctx body states arms live) :
      Reaches ctx (.block body :: rest) states arms live
  | loop {body others rest states arms live} (inside : Reaches ctx body states arms live) :
      Reaches ctx (.loop body others :: rest) states arms live
  | attempt {body others rest states arms live} (inside : Reaches ctx body states arms live) :
      Reaches ctx (.attempt body others :: rest) states arms live
  /-- in an arm: of the paths and the arms before, all have passed -/
  | arm {earlier state more before guard body after rest ends passed arms live}
      (paths : choiceEnds ctx (before ++ .arm guard body :: after) earlier = .ok ends)
      (arms_before : before.mapM (armEnds ctx state) = .ok passed)
      (inside : Reaches ctx body [state.enter ctx guard] arms live) :
      Reaches ctx (.choice (before ++ .arm guard body :: after) :: rest)
        (earlier ++ state :: more) arms live

/-- Some choice that is reached has more paths behind it than are followed. -/
def Drops (ctx : PathContext) (n : Nat) (body : List Stmt) (states : List PathState) : Prop :=
  ∃ arms live ends, Reaches ctx body states arms live ∧
    choiceEnds ctx arms live = .ok ends ∧ n < ends.length

example : Drops ⟨"", fun _ => pure none, [], some 1⟩ 1
    [.choice [.arm (some (.test (.other "$a"))) []]] [{}] :=
  ⟨_, _, _, .here (List.cons_ne_nil _ _), rfl, by decide⟩

theorem Drops.of_reaches {ctx : PathContext} {n : Nat} {body body' : List Stmt}
    {states states' : List PathState} (drops : Drops ctx n body states)
    (reaches : ∀ arms live, Reaches ctx body states arms live →
      Reaches ctx body' states' arms live) : Drops ctx n body' states' := by
  obtain ⟨arms, live, ends, reached, behind, many⟩ := drops
  exact ⟨arms, live, ends, reaches arms live reached, behind, many⟩

theorem truncated_mem_limited {ctx : PathContext} {n : Nat} (limit : ctx.limit = some n)
    (states : List PathState) :
    .truncated ∈ (limited ctx states).events ↔ n < states.length := by
  unfold limited
  rw [limit]
  simp only
  split
  · rename_i many
    exact iff_of_true List.mem_cons_self many
  · rename_i few
    exact iff_of_false List.not_mem_nil few

theorem mem_events_map {ε α β : Type} {f : α → β} {m : Emit ε α} {event : ε} :
    event ∈ (f <$> m).events ↔ event ∈ m.events := by
  rw [map_eq_pure_bind]
  simp [Emit.mem_events_bind, pure]

theorem truncated_mem_followArms (ctx : PathContext) (arms : List Arm) (state : PathState) :
    .truncated ∈ (followArms ctx arms state).events ↔
      ∃ before arm after passed, arms = before ++ arm :: after ∧
        before.mapM (armEnds ctx state) = .ok passed ∧
        .truncated ∈ (runBlock ctx arm.body [state.enter ctx arm.guard]).events := by
  rw [followArms, Emit.mem_events_bind, or_iff_left (by rintro ⟨_, -, none⟩; cases none),
    runArms_eq_mapM, mem_events_map, mem_events_mapM_iff]
  rfl

/-- At a choice, paths are dropped in one of the arms or behind it. -/
theorem truncated_mem_choice {ctx : PathContext} {n : Nat} (limit : ctx.limit = some n)
    (arms : List Arm) (states : List PathState) :
    .truncated ∈ (runStatement ctx (.choice arms) states).events ↔
      (∃ earlier state more ends, states = earlier ++ state :: more ∧
        choiceEnds ctx arms earlier = .ok ends ∧
        .truncated ∈ (followArms ctx arms state).events) ∨
      ∃ ends, choiceEnds ctx arms states = .ok ends ∧ n < ends.length := by
  have passed (states : List PathState) (ends : List PathState) :
      choiceEnds ctx arms states = .ok ends ↔
        ∃ each, states.mapM (fun state => (followArms ctx arms state).outcome) = .ok each ∧
          each.flatten = ends := by
    rw [funext (outcome_followArms ctx arms), choiceEnds]
    cases states.mapM (pathEnds ctx arms) with
    | error fault => simp
    | ok each => simp
  rw [runStatement_choice]
  change _ ∈ [PathEvent.choice] ++ _ ↔ _
  rw [List.mem_append, or_iff_right (by simp), Emit.mem_events_bind, mem_events_mapM_iff,
    outcome_mapM]
  simp only [truncated_mem_limited limit, passed]
  constructor
  · rintro (⟨earlier, state, more, each, split, ended, dropped⟩ | ⟨each, ended, many⟩)
    · exact .inl ⟨earlier, state, more, _, split, ⟨each, ended, rfl⟩, dropped⟩
    · exact .inr ⟨_, ⟨each, ended, rfl⟩, many⟩
  · rintro (⟨earlier, state, more, _, split, ⟨each, ended, -⟩, dropped⟩ |
      ⟨_, ⟨each, ended, rfl⟩, many⟩)
    · exact .inl ⟨earlier, state, more, each, split, ended, dropped⟩
    · exact .inr ⟨each, ended, many⟩

section

variable {ctx : PathContext} {n : Nat}

mutual

theorem drops_of_statement (limit : ctx.limit = some n) :
    ∀ (s : Stmt) (rest : List Stmt) (states : List PathState), states ≠ [] →
      .truncated ∈ (runStatement ctx s states).events → Drops ctx n (s :: rest) states
  | .expression e, _, states, _, truncated =>
    absurd truncated (not_mem_expression (by simp) ctx e states)
  | .result line value, _, states, _, truncated =>
    absurd truncated (not_mem_result (by simp) (by simp) ctx line value states)
  | .choice arms, rest, states, some_live, truncated => by
    rcases (truncated_mem_choice limit arms states).mp truncated with
      ⟨earlier, state, more, ends, rfl, paths, inside⟩ | ⟨ends, behind, many⟩
    · obtain ⟨before, ⟨guard, body⟩, after, passed, rfl, arms_before, inside⟩ :=
        (truncated_mem_followArms ctx arms state).mp inside
      have member : Arm.arm guard body ∈ before ++ .arm guard body :: after :=
        List.mem_append_right before List.mem_cons_self
      have drops := drops_of_arms limit _ _ member _ inside
      exact drops.of_reaches fun arms live => .arm paths arms_before
    · exact ⟨arms, states, ends, .here some_live, behind, many⟩
  | .block body, _, states, _, truncated =>
    (drops_of_block limit body states truncated).of_reaches fun _ _ => .block
  | .loop body _, _, states, _, truncated =>
    (drops_of_block limit body states truncated).of_reaches fun _ _ => .loop
  | .attempt body _, _, states, _, truncated =>
    (drops_of_block limit body states truncated).of_reaches fun _ _ => .attempt
  | .other, _, _, _, truncated => nomatch truncated

theorem drops_of_block (limit : ctx.limit = some n) :
    ∀ (body : List Stmt) (states : List PathState),
      .truncated ∈ (runBlock ctx body states).events → Drops ctx n body states
  | [], _, truncated => nomatch truncated
  | _ :: _, [], truncated => nomatch truncated
  | s :: rest, state :: more, truncated => by
    change .truncated ∈ (runStatement ctx s (state :: more) >>= runBlock ctx rest).events
      at truncated
    have some_live : state :: more ≠ [] := List.cons_ne_nil _ _
    rcases Emit.mem_events_bind.mp truncated with here | ⟨passed, passes, later⟩
    · exact drops_of_statement limit s rest _ some_live here
    · exact (drops_of_block limit rest passed later).of_reaches fun _ _ =>
        .behind some_live passes

theorem drops_of_arms (limit : ctx.limit = some n) :
    ∀ (arms : List Arm), ∀ arm ∈ arms, ∀ states : List PathState,
      .truncated ∈ (runBlock ctx arm.body states).events → Drops ctx n arm.body states
  | [], _, member, _, _ => nomatch member
  | .arm guard body :: arms, arm, member, states, truncated => by
    rcases List.mem_cons.mp member with rfl | later
    · exact drops_of_block limit body states truncated
    · exact drops_of_arms limit arms arm later states truncated

end

theorem live_of_truncated {body : List Stmt} {states : List PathState}
    (truncated : .truncated ∈ (runBlock ctx body states).events) : states ≠ [] := by
  rintro rfl
  rw [runBlock_nil] at truncated
  cases truncated

/-- Where a choice is reached that has too many paths behind it, this shows in the events. -/
theorem truncated_of_reaches (limit : ctx.limit = some n) {body : List Stmt}
    {states live : List PathState} {arms : List Arm} (reaches : Reaches ctx body states arms live)
    {ends : List PathState} (behind : choiceEnds ctx arms live = .ok ends)
    (many : n < ends.length) : .truncated ∈ (runBlock ctx body states).events := by
  have cons {s : Stmt} {rest : List Stmt} {states : List PathState}
      (here : .truncated ∈ (runStatement ctx s states).events) (some_live : states ≠ []) :
      .truncated ∈ (runBlock ctx (s :: rest) states).events := by
    obtain ⟨state, more, rfl⟩ := List.exists_cons_of_ne_nil some_live
    exact Emit.mem_events_bind.mpr (.inl here)
  induction reaches with
  | here some_live =>
    exact cons ((truncated_mem_choice limit _ _).mpr (.inr ⟨ends, behind, many⟩)) some_live
  | behind some_live passes later ih =>
    obtain ⟨state, more, rfl⟩ := List.exists_cons_of_ne_nil some_live
    exact Emit.mem_events_bind.mpr (.inr ⟨_, passes, ih behind⟩)
  | block inside ih => exact cons (ih behind) (live_of_truncated (ih behind))
  | loop inside ih => exact cons (ih behind) (live_of_truncated (ih behind))
  | attempt inside ih => exact cons (ih behind) (live_of_truncated (ih behind))
  | arm paths arms_before inside ih =>
    refine cons ((truncated_mem_choice limit _ _).mpr (.inl ⟨_, _, _, _, rfl, paths, ?_⟩)) (by simp)
    exact (truncated_mem_followArms ctx _ _).mpr
      ⟨_, _, _, _, rfl, arms_before, ih behind⟩

end

/-- Following paths drops some of them exactly when a choice is reached that has more paths behind
it than are followed. -/
theorem truncated_iff_drops {ctx : PathContext} {n : Nat} (limit : ctx.limit = some n)
    (body : List Stmt) (states : List PathState) :
    .truncated ∈ (runBlock ctx body states).events ↔ Drops ctx n body states := by
  refine ⟨drops_of_block limit body states, ?_⟩
  rintro ⟨arms, live, ends, reaches, behind, many⟩
  exact truncated_of_reaches limit reaches behind many

/-! ## The branches of a method -/

/-- A limit on paths that is kept, reported and otherwise not felt by an analysis of statements. -/
structure LimitKept (ctx : PathContext) (n : Nat) (body : List Stmt)
    (analysis : Logged ConditionalRules) : Prop where
  /-- between any two statements at most so many paths are live -/
  bounded : ∀ before behind live, body = before ++ behind →
    (runBlock ctx before [{}]).outcome = .ok live → live.length ≤ n
  /-- behind each choice, wherever it stands, the first ones are kept in order -/
  first_kept : ∀ arms states,
    (runStatement ctx (.choice arms) states).outcome = List.take n <$> choiceEnds ctx arms states
  /-- dropped paths are reported once -/
  reported : Drops ctx n body [{}] →
    limitWarnings analysis.events = [truncationWarning ctx]
  silent : ¬ Drops ctx n body [{}] → limitWarnings analysis.events = []
  /-- without a report, all is as it is without a limit -/
  transparent : limitWarnings analysis.events = [] →
    analysis = bodyBranches ctx.unlimited body

theorem bodyBranches_unlimited {ctx : PathContext} {body : List Stmt}
    (untruncated : .truncated ∉ (runBlock ctx body [{}]).events) :
    bodyBranches ctx body = bodyBranches ctx.unlimited body := by
  have same : runBlock ctx body [{}] = runBlock ctx.unlimited body [{}] :=
    (sameUnlessTruncated_passedOn ctx).runBlock body [{}] untruncated
  simp only [bodyBranches, ← same, diagnosticsOf_unlimited ctx untruncated]

/-- No more than 256 paths of a method are followed: the branches of a method come from the first
256 paths behind each choice, one warning says if there have been more anywhere, and if there have
not, the branches and all diagnostics are those of the analyzer without a limit. -/
theorem methodBranches_limited (label : String) (c : ClassBody) (depth : Int)
    (words : List String) (m : Method) :
    LimitKept (methodContext label c depth words m) 256 (m.body.getD [])
      (methodBranches label c depth words m) := by
  have limit : (methodContext label c depth words m).limit = some 256 := rfl
  have called (name : String) :
      Reports unreadKinds _ ((methodContext label c depth words m).helpers name) :=
    helpersOf_passes reports_passedOn label c _ _ name
  unfold methodBranches
  generalize methodContext label c depth words m = ctx at limit called
  generalize m.body.getD [] = body
  have noted := (notesUnread_passedOn called).runBlock body [{}]
  have notes : ∀ d, .note d ∈ (runBlock ctx body [{}]).events →
      d.hasKind "path_limit_exceeded" = false := by
    intro d member
    obtain ⟨kind, unread, has⟩ := noted d member
    exact not_hasKind_of_unread unread has
  have truncated := truncated_iff_drops limit body [{}]
  refine ⟨?_, outcome_choice_of_limit limit, fun drops => ?_, fun dropless => ?_,
    fun unreported => ?_⟩
  · rintro before behind live - ends
    exact runBlock_within limit before [{}] live (by decide) ends
  · exact limitWarnings_eq_singleton notes (truncated.mpr drops)
  · exact limitWarnings_eq_nil notes (.inr (mt truncated.mp dropless))
  · refine bodyBranches_unlimited fun dropped => ?_
    have warned : limitWarnings (bodyBranches ctx body).events = [truncationWarning ctx] :=
      limitWarnings_eq_singleton notes dropped
    rw [unreported] at warned
    cases warned

end RequestSchema.Extraction
