import RequestSchema.Proofs.Extraction.Choices
import RequestSchema.Proofs.Extraction.Runs
import RequestSchema.Proofs.Extraction.WritableRules
import RequestSchema.Proofs.Number.PowerOfTwo

/-!
# The branches of a method are its returning runs

* `methodBranches_cover_runs`: unless paths are dropped, a method has one branch for
  every sequence of decisions that reaches a return, and no other one.

The branches come in the order of the statements that return and not in the order of
the decisions, so they are compared up to their order. Nothing is said about a method
with dropped paths, which the warning tells.
-/
namespace RequestSchema.Extraction

open RequestSchema.Source

/-- The ways through a method that reach a return: each sequence of decisions once, with
the branch of its run. -/
structure Ways (ctx : PathContext) (body : List Stmt) (ways : List (List Decision × Branch)) :
    Prop where
  once : (ways.map Prod.fst).Nodup
  runs : ∀ decisions branch,
    (decisions, branch) ∈ ways ↔ Run ctx body [] .empty decisions (.returned branch)

/-- Neither a return nor a choice is met on a run. -/
def Uneventful (ctx : PathContext) (body : List Stmt) : Prop :=
  ∀ decisions finish, Run ctx body [] .empty decisions finish →
    decisions = [] ∧ finish.branch? = none

/-- A trail that returns, with its branch. -/
def Trail.way? (t : Trail) : Option (List Decision × Branch) :=
  t.finish.branch?.map fun branch => (t.decisions, branch)

theorem Trail.way?_eq_some (t : Trail) (decisions : List Decision) (branch : Branch) :
    t.way? = some (decisions, branch) ↔ t = ⟨decisions, .returned branch⟩ := by
  obtain ⟨own, finish⟩ := t
  cases finish <;> simp [Trail.way?, Finish.branch?]

theorem ways_blockTrails (ctx : PathContext) (body : List Stmt) :
    Ways ctx body ((blockTrails ctx body {}).filterMap Trail.way?) := by
  refine ⟨?_, fun decisions branch => ?_⟩
  · refine List.pairwise_map.mpr (List.pairwise_filterMap.mpr ?_)
    refine (pairwise_blockTrails ctx body {}).imp fun {t u} apart => ?_
    rintro ⟨decisions, branch⟩ first ⟨decisions', branch'⟩ second
    rw [(t.way?_eq_some decisions branch).mp first,
      (u.way?_eq_some decisions' branch').mp second] at apart
    exact apart.decisions_ne
  · rw [run_iff_mem_blockTrails, List.mem_filterMap]
    constructor
    · rintro ⟨t, member, way⟩
      rw [(t.way?_eq_some decisions branch).mp way] at member
      exact member
    · intro member
      exact ⟨_, member, rfl⟩

theorem branches_of_ways (trails : List Trail) :
    (trails.filterMap Trail.way?).map Prod.snd =
      (trails.map Trail.finish).filterMap Finish.branch? := by
  rw [List.map_filterMap, List.filterMap_map]
  congr 1
  funext t
  simp only [Trail.way?, Option.map_map, Function.comp_def, Option.map_id']

/-- Dropped paths are reported, whatever else has happened. -/
theorem truncationWarning_mem (ctx : PathContext) (events : List PathEvent)
    (truncated : .truncated ∈ events) :
    truncationWarning ctx ∈ diagnosticsOf ctx false events := by
  induction events with
  | nil => cases truncated
  | cons event rest ih =>
    cases event with
    | truncated => exact List.mem_cons_self
    | note d => exact List.mem_cons_of_mem d (ih ((List.mem_cons.mp truncated).resolve_left nofun))
    | branch b => exact ih ((List.mem_cons.mp truncated).resolve_left nofun)
    | choice => exact ih ((List.mem_cons.mp truncated).resolve_left nofun)

theorem hasKind_truncationWarning (ctx : PathContext) :
    (truncationWarning ctx).hasKind "path_limit_exceeded" := by
  simp [truncationWarning, Diagnostic.hasKind, Diagnostic.kind, OrderedMap.ofList,
    OrderedMap.insertAll, OrderedMap.get?_insert, Value.text?]

/-- The branches that are found for statements are those of their runs. -/
structure Covers (ctx : PathContext) (body : List Stmt) (found : ConditionalRules) : Prop where
  /-- no run has a fault, nor too many conditions at its return -/
  faultless : ∀ decisions finish, Run ctx body [] .empty decisions finish → finish.fault? = none
  /-- every way has one branch, up to the order of the branches -/
  branches : ∃ ways, Ways ctx body ways ∧
    (¬ Uneventful ctx body → found.branches.Perm (ways.map Prod.snd))
  uneventful : Uneventful ctx body → found.branches = [⟨[], .empty⟩]
  /-- the chance is halved by every condition -/
  probabilities : ∀ branch ∈ found.branches,
    branch.probability.IsRatio 1 (2 ^ branch.conditions.length)

theorem conditions_lt_of_faultless {finish : Finish} {branch : Branch}
    (returned : finish.branch? = some branch) (faultless : finish.fault? = none) :
    branch.conditions.length < 1024 := by
  cases finish with
  | returned own =>
    cases returned
    by_cases short : branch.conditions.length < 1024
    · exact short
    · simp [Finish.fault?, short] at faultless
  | passed state => cases returned
  | failed fault => cases returned

/-- A fault is that of one of the runs. -/
def StoppedBy (ctx : PathContext) (body : List Stmt) (fault : Fault) : Prop :=
  ∃ decisions finish, Run ctx body [] .empty decisions finish ∧ finish.fault? = some fault

theorem mem_blockFinishes (ctx : PathContext) (body : List Stmt) (finish : Finish) :
    finish ∈ blockFinishes ctx body {} ↔
      ∃ decisions, Run ctx body [] .empty decisions finish := by
  simp only [blockFinishes, List.mem_map, run_iff_mem_blockTrails]
  constructor
  · rintro ⟨t, member, rfl⟩
    exact ⟨t.decisions, member⟩
  · rintro ⟨decisions, member⟩
    exact ⟨_, member, rfl⟩

/-- A method is uneventful when following its paths makes no branch and meets no choice. -/
theorem uneventful_iff (ctx : PathContext) (body : List Stmt) :
    Uneventful ctx body ↔
      (blockFinishes ctx body {}).filterMap Finish.branch? = [] ∧
        ¬ ∃ t ∈ blockTrails ctx body {}, t.Decides := by
  rw [List.filterMap_eq_nil_iff]
  constructor
  · intro uneventful
    refine ⟨fun finish member => ?_, ?_⟩
    · obtain ⟨decisions, run⟩ := (mem_blockFinishes ctx body finish).mp member
      exact (uneventful decisions finish run).2
    · rintro ⟨t, member, decides⟩
      exact decides (uneventful _ _ ((run_iff_mem_blockTrails ..).mpr member)).1
  · rintro ⟨branchless, undecided⟩ decisions finish run
    refine ⟨?_, branchless finish ((mem_blockFinishes ctx body finish).mpr ⟨_, run⟩)⟩
    exact Decidable.byContradiction fun decides => undecided ⟨_, run.mem_blockTrails, decides⟩

theorem any_isChoice (events : List PathEvent) :
    events.any PathEvent.isChoice = true ↔ .choice ∈ events := by
  rw [List.any_eq_true]
  refine ⟨?_, fun member => ⟨_, member, rfl⟩⟩
  rintro ⟨event, member, choice⟩
  cases event with
  | choice => exact member
  | truncated => cases choice
  | note d => cases choice
  | branch b => cases choice

/-- As long as no path is dropped, the branches of statements are those of their runs. -/
theorem covers_of_untruncated (ctx : PathContext) (called : ∀ name, MayRead (ctx.helpers name))
    (body : List Stmt) (untruncated : .truncated ∉ (runBlock ctx body [{}]).events) :
    match (bodyBranches ctx body).outcome with
    | .ok found => Covers ctx body found
    | .error fault => StoppedBy ctx body fault := by
  rw [outcome_bodyBranches called]
  have follows := runBlock_follows ctx body [{}]
  rw [List.flatMap_singleton] at follows
  cases ends : (runBlock ctx body [{}]).outcome with
  | error fault =>
    obtain ⟨finish, member, faulty⟩ := follows.stops untruncated fault ends
    obtain ⟨decisions, run⟩ := (mem_blockFinishes ctx body finish).mp member
    exact ⟨decisions, finish, run, faulty⟩
  | ok live =>
    have complete := follows.complete untruncated live ends
    have meets := runBlock_meets ctx body [{}] live untruncated ends
    simp only [List.mem_singleton, exists_eq_left] at meets
    have branchless : branchesOf (runBlock ctx body [{}]).events = [] ↔
        (blockFinishes ctx body {}).filterMap Finish.branch? = [] := by
      rw [← List.perm_nil, complete.branches.congr_left, List.perm_nil]
    have uneventful : Uneventful ctx body ↔
        ((branchesOf (runBlock ctx body [{}]).events).isEmpty &&
          !(runBlock ctx body [{}]).events.any PathEvent.isChoice) = true := by
      rw [uneventful_iff, ← branchless, ← meets, Bool.and_eq_true, List.isEmpty_iff,
        Bool.not_eq_true', ← Bool.not_eq_true, any_isChoice]
    have faultless : ∀ decisions finish, Run ctx body [] .empty decisions finish →
        finish.fault? = none := fun decisions finish run =>
      complete.sound finish ((mem_blockFinishes ctx body finish).mpr ⟨decisions, run⟩)
    refine ⟨faultless, ⟨_, ways_blockTrails ctx body, fun eventful => ?_⟩, fun quiet => ?_, ?_⟩
    · rw [if_neg (mt uneventful.mpr eventful), branches_of_ways]
      exact complete.branches
    · rw [if_pos (uneventful.mp quiet)]
    · intro branch member
      refine Binary64.isRatio_round_half_power _ ?_
      change branch ∈ ite _ _ _ at member
      split at member
      · rw [List.mem_singleton.mp member]
        exact Nat.zero_lt_succ _
      · rw [complete.branches.mem_iff, List.mem_filterMap] at member
        obtain ⟨finish, there, returned⟩ := member
        exact conditions_lt_of_faultless returned (complete.sound finish there)

/-- Unless it reports dropped paths, a method has exactly one branch for every sequence of
decisions that reaches a return: its conditions are the tests of the arms that are
entered and its rules those of the return in the scope of that run. A method whose run
meets neither a return nor a choice has the empty branch, which is always taken. -/
theorem methodBranches_cover_runs (label : String) (c : ClassBody) (depth : Int)
    (words : List String) (m : Method)
    (untruncated : ∀ d ∈ (methodBranches label c depth words m).events,
      ¬ d.hasKind "path_limit_exceeded") :
    match (methodBranches label c depth words m).outcome with
    | .ok found => Covers (methodContext label c depth words m) (m.body.getD []) found
    | .error fault => StoppedBy (methodContext label c depth words m) (m.body.getD []) fault :=
  covers_of_untruncated _ (methodContext_mayRead label c depth words m) _ fun truncated =>
    untruncated _ (truncationWarning_mem _ _ truncated) (hasKind_truncationWarning _)

/-- A method that returns early when a test holds, and in the end otherwise. -/
def earlyReturn : Method :=
  { name := "rules", line := 1, text := ""
    body := some [
      .choice [.arm (some (.test (.other "$a"))) [.result 2 none]],
      .result 3 none] }

theorem earlyReturn_covered :
    ∃ found, (methodBranches "" ⟨1, []⟩ 3 [] earlyReturn).outcome = .ok found ∧
      found.branches.length = 2 ∧
      Covers (methodContext "" ⟨1, []⟩ 3 [] earlyReturn) (earlyReturn.body.getD []) found := by
  have quiet : (methodBranches "" ⟨1, []⟩ 3 [] earlyReturn).events = [] := rfl
  exact ⟨_, rfl, rfl, methodBranches_cover_runs "" ⟨1, []⟩ 3 [] earlyReturn (by simp [quiet])⟩

end RequestSchema.Extraction
