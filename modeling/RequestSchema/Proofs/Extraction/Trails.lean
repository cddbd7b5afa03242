import RequestSchema.Extraction.Paths

/-!
# Trails: single ways through the statements of a method

Following the paths of a method takes one statement at a time over all live paths
(`runBlock`). A trail is a single path on its own: the decisions that it takes at
the choices that it meets, and how it finishes. `blockTrails` lists the trails of
one path, in the order in which their ends are live.

* `blockTrails_append`: the trails of statements behind others continue those of the
  first ones;
* `pairwise_blockTrails`: no trail takes the decisions of another one, nor the first
  few of them, so a trail is told by its decisions.
-/
namespace RequestSchema.Extraction

open RequestSchema.Source

/-- How a trail finishes: with a return, behind the last statement, or with a fault. -/
inductive Finish where
  | returned (branch : Branch)
  | passed (state : PathState)
  | failed (fault : Fault)

namespace Finish

def branch? : Finish → Option Branch
  | returned branch => some branch
  | _ => none

def state? : Finish → Option PathState
  | passed state => some state
  | _ => none

theorem state?_eq_some (finish : Finish) (state : PathState) :
    finish.state? = some state ↔ finish = .passed state := by
  cases finish <;> simp [state?]

/-- The fault of following a trail to its finish. A return on a path with too many
conditions has one of its own. -/
def fault? : Finish → Option Fault
  | returned branch => if branch.conditions.length < 1024 then none else some .integerTooLarge
  | passed _ => none
  | failed fault => some fault

/-- A finish continued, if it passes, by all finishes from there. -/
def extend (next : PathState → List Finish) : Finish → List Finish
  | passed state => next state
  | finish => [finish]

end Finish

/-- What a choice decides: the place of the arm that is entered, or none when all
arms are skipped. -/
abbrev Decision := Option Nat

structure Trail where
  decisions : List Decision
  finish : Finish

namespace Trail

/-- A trail behind decisions that have been taken before. -/
def behind (decisions : List Decision) (t : Trail) : Trail :=
  { t with decisions := decisions ++ t.decisions }

/-- A trail continued, if it passes, by all trails from there. -/
def extend (next : PathState → List Trail) (t : Trail) : List Trail :=
  match t.finish with
  | .passed state => (next state).map (behind t.decisions)
  | _ => [t]

end Trail

/-- Whether one of the arms is taken when no test holds. -/
def hasElse (arms : List Arm) : Bool := arms.any fun arm => arm.guard.isNone

mutual

def statementTrails (ctx : PathContext) : Stmt → PathState → List Trail
  | .expression e, state => match (assign ctx.helpers e state.scope).outcome with
      | .ok scope => [⟨[], .passed { state with scope }⟩]
      | .error fault => [⟨[], .failed fault⟩]
  | .result line value, state =>
      match (returnedRules ctx.label ctx.helpers line value state.scope).outcome with
      | .ok rules => [⟨[], .returned ⟨state.conditions, rules⟩⟩]
      | .error fault => [⟨[], .failed fault⟩]
  | .choice arms, state =>
      armTrails ctx 0 arms state ++ if hasElse arms then [] else [⟨[none], .passed state⟩]
  | .block body, state => blockTrails ctx body state
  | .loop body _, state => blockTrails ctx body state
  | .attempt body _, state => blockTrails ctx body state
  | .other, state => [⟨[], .passed state⟩]

def blockTrails (ctx : PathContext) : List Stmt → PathState → List Trail
  | [], state => [⟨[], .passed state⟩]
  | s :: rest, state => (statementTrails ctx s state).flatMap (Trail.extend (blockTrails ctx rest))

/-- The trails of a path through the arms of a choice; the first of them has the
place `i`. -/
def armTrails (ctx : PathContext) : Nat → List Arm → PathState → List Trail
  | _, [], _ => []
  | i, .arm guard body :: rest, state =>
      (blockTrails ctx body (state.enter ctx guard)).map (Trail.behind [some i]) ++
        armTrails ctx (i + 1) rest state

end

/-! ## Continued trails -/

/-- A trail that passes is continued by the trails from there, any other stays. -/
theorem mem_extend (next : PathState → List Trail) (before t : Trail) :
    t ∈ before.extend next ↔
      (before.finish.state? = none ∧ t = before) ∨
        ∃ state, before.finish = .passed state ∧
          ∃ inner ∈ next state, inner.behind before.decisions = t := by
  obtain ⟨decisions, finish⟩ := before
  cases finish <;> simp [Trail.extend, Finish.state?]

theorem extend_behind (next : PathState → List Trail) (decisions : List Decision) (t : Trail) :
    (t.behind decisions).extend next = (t.extend next).map (Trail.behind decisions) := by
  obtain ⟨own, finish⟩ := t
  cases finish <;> simp [Trail.extend, Trail.behind, Function.comp_def]

/-- Continuing twice is continuing with the continued trails. -/
theorem extend_extend (next next' : PathState → List Trail) (t : Trail) :
    (t.extend next).flatMap (Trail.extend next') =
      t.extend fun state => (next state).flatMap (Trail.extend next') := by
  obtain ⟨decisions, finish⟩ := t
  cases finish with
  | passed state =>
    change ((next state).map (Trail.behind decisions)).flatMap (Trail.extend next') =
      ((next state).flatMap (Trail.extend next')).map (Trail.behind decisions)
    simp only [List.flatMap_map, List.map_flatMap, extend_behind]
  | returned branch => simp [Trail.extend]
  | failed fault => simp [Trail.extend]

theorem blockTrails_append (ctx : PathContext) (body rest : List Stmt) (state : PathState) :
    blockTrails ctx (body ++ rest) state =
      (blockTrails ctx body state).flatMap (Trail.extend (blockTrails ctx rest)) := by
  induction body generalizing state with
  | nil => exact ((List.flatMap_singleton _ _).trans (List.map_id _)).symm
  | cons s body ih =>
    rw [List.cons_append, blockTrails, blockTrails, List.flatMap_assoc, funext ih]
    simp only [extend_extend]

/-- A trail through the arms of a choice goes through the body of one of them. -/
theorem mem_armTrails (ctx : PathContext) (arms : List Arm) (state : PathState) (t : Trail) :
    ∀ i, t ∈ armTrails ctx i arms state ↔
      ∃ j guard body, arms[j]? = some (.arm guard body) ∧
        ∃ inner ∈ blockTrails ctx body (state.enter ctx guard),
          inner.behind [some (i + j)] = t := by
  induction arms with
  | nil => simp [armTrails]
  | cons arm arms ih =>
    obtain ⟨guard, body⟩ := arm
    intro i
    rw [armTrails, List.mem_append, ih (i + 1), List.mem_map]
    constructor
    · rintro (⟨inner, member, rfl⟩ | ⟨j, guard', body', arm, inner, member, rfl⟩)
      · exact ⟨0, guard, body, rfl, inner, member, rfl⟩
      · exact ⟨j + 1, guard', body', arm, inner, member, by rw [Nat.succ_add_eq_add_succ]⟩
    · rintro ⟨j, guard', body', arm, inner, member, rfl⟩
      cases j with
      | zero =>
        cases arm
        exact .inl ⟨inner, member, rfl⟩
      | succ j =>
        exact .inr ⟨j, guard', body', arm, inner, member, by rw [Nat.succ_add_eq_add_succ]⟩

theorem hasElse_eq_false (arms : List Arm) :
    hasElse arms = false ↔ ∀ arm ∈ arms, arm.guard ≠ none := by
  simp [hasElse, ← Option.isSome_iff_ne_none]

/-- A trail through a choice and the statements behind it enters an arm or skips all. -/
theorem mem_choiceTrails (ctx : PathContext) (arms : List Arm) (rest : List Stmt)
    (state : PathState) (t : Trail) :
    t ∈ blockTrails ctx (.choice arms :: rest) state ↔
      (∃ i guard body, arms[i]? = some (.arm guard body) ∧
        ∃ inner ∈ blockTrails ctx (body ++ rest) (state.enter ctx guard),
          inner.behind [some i] = t) ∨
      ((∀ arm ∈ arms, arm.guard ≠ none) ∧
        ∃ inner ∈ blockTrails ctx rest state, inner.behind [none] = t) := by
  rw [blockTrails, statementTrails, List.flatMap_append, List.mem_append]
  refine or_congr ?_ ?_
  · simp only [List.mem_flatMap, mem_armTrails, blockTrails_append, Nat.zero_add]
    constructor
    · rintro ⟨_, ⟨i, guard, body, arm, inner, member, rfl⟩, continued⟩
      rw [extend_behind] at continued
      obtain ⟨whole, more, rfl⟩ := List.mem_map.mp continued
      exact ⟨i, guard, body, arm, whole, ⟨inner, member, more⟩, rfl⟩
    · rintro ⟨i, guard, body, arm, whole, ⟨inner, member, more⟩, rfl⟩
      refine ⟨_, ⟨i, guard, body, arm, inner, member, rfl⟩, ?_⟩
      rw [extend_behind]
      exact List.mem_map_of_mem more
  · rw [← hasElse_eq_false]
    cases hasElse arms <;> simp [Trail.extend]

mutual

theorem statementTrails_ne_nil (ctx : PathContext) :
    ∀ (s : Stmt) (state : PathState), statementTrails ctx s state ≠ []
  | .expression e, state => by
    unfold statementTrails
    split <;> exact List.cons_ne_nil _ _
  | .result line value, state => by
    unfold statementTrails
    split <;> exact List.cons_ne_nil _ _
  | .choice [], state => List.cons_ne_nil _ _
  | .choice (.arm guard body :: rest), state => by
    simp [statementTrails, armTrails, blockTrails_ne_nil ctx body]
  | .block body, state => blockTrails_ne_nil ctx body state
  | .loop body _, state => blockTrails_ne_nil ctx body state
  | .attempt body _, state => blockTrails_ne_nil ctx body state
  | .other, _ => List.cons_ne_nil _ _

/-- Every path has a trail. -/
theorem blockTrails_ne_nil (ctx : PathContext) :
    ∀ (body : List Stmt) (state : PathState), blockTrails ctx body state ≠ []
  | [], _ => List.cons_ne_nil _ _
  | s :: rest, state => by
    obtain ⟨t, more, trails⟩ := List.exists_cons_of_ne_nil (statementTrails_ne_nil ctx s state)
    rw [blockTrails, trails, List.flatMap_cons]
    refine List.append_ne_nil_of_left_ne_nil ?_ _
    unfold Trail.extend
    split
    · simp [blockTrails_ne_nil ctx rest]
    · exact List.cons_ne_nil _ _

end

/-! ## Different trails take different decisions -/

namespace Trail

/-- No trail takes the first decisions of the other one and stops there. -/
def Apart (t u : Trail) : Prop :=
  ¬ t.decisions <+: u.decisions ∧ ¬ u.decisions <+: t.decisions

theorem Apart.decisions_ne {t u : Trail} (apart : t.Apart u) : t.decisions ≠ u.decisions :=
  fun equal => apart.1 (equal ▸ List.prefix_refl _)

theorem Apart.behind {t u : Trail} (decisions : List Decision) (apart : t.Apart u) :
    (t.behind decisions).Apart (u.behind decisions) :=
  ⟨fun shorter => apart.1 ((List.prefix_append_right_inj decisions).mp shorter),
    fun shorter => apart.2 ((List.prefix_append_right_inj decisions).mp shorter)⟩

/-- Trails that decide differently at once are apart. -/
theorem apart_of_first_ne (t u : Trail) {first second : Decision} (different : first ≠ second) :
    (t.behind [first]).Apart (u.behind [second]) :=
  ⟨fun shorter => different (List.cons_prefix_cons.mp shorter).1,
    fun shorter => different (List.cons_prefix_cons.mp shorter).1.symm⟩

theorem prefix_of_mem_extend {next : PathState → List Trail} {t whole : Trail}
    (member : whole ∈ t.extend next) : t.decisions <+: whole.decisions := by
  rcases (mem_extend next t whole).mp member with ⟨-, rfl⟩ | ⟨state, -, inner, -, rfl⟩
  · exact List.prefix_refl _
  · exact List.prefix_append _ _

theorem Apart.extend {next : PathState → List Trail} {t u t' u' : Trail} (apart : t.Apart u)
    (first : t' ∈ t.extend next) (second : u' ∈ u.extend next) : t'.Apart u' := by
  have before := prefix_of_mem_extend first
  have before' := prefix_of_mem_extend second
  constructor
  · intro shorter
    rcases List.prefix_or_prefix_of_prefix (before.trans shorter) before' with less | less
    · exact apart.1 less
    · exact apart.2 less
  · intro shorter
    rcases List.prefix_or_prefix_of_prefix before (before'.trans shorter) with less | less
    · exact apart.1 less
    · exact apart.2 less

end Trail

theorem pairwise_map_behind {trails : List Trail} (decisions : List Decision)
    (apart : trails.Pairwise Trail.Apart) :
    (trails.map (Trail.behind decisions)).Pairwise Trail.Apart :=
  List.pairwise_map.mpr (apart.imp fun pair => pair.behind decisions)

theorem pairwise_flatMap_extend {trails : List Trail} {next : PathState → List Trail}
    (apart : trails.Pairwise Trail.Apart) (behind : ∀ state, (next state).Pairwise Trail.Apart) :
    (trails.flatMap (Trail.extend next)).Pairwise Trail.Apart := by
  refine List.pairwise_flatMap.mpr ⟨fun t _ => ?_, ?_⟩
  · unfold Trail.extend
    split
    · exact pairwise_map_behind _ (behind _)
    · exact List.pairwise_singleton _ _
  · refine apart.imp fun pair => ?_
    intro t' first u' second
    exact pair.extend first second

/-- A trail through arms decides for one of their places. -/
theorem decision_of_mem_armTrails {ctx : PathContext} {i : Nat} {arms : List Arm}
    {state : PathState} {t : Trail} (member : t ∈ armTrails ctx i arms state) :
    ∃ j inner, i ≤ j ∧ Trail.behind [some j] inner = t := by
  obtain ⟨j, _, _, _, inner, _, rfl⟩ := (mem_armTrails ctx arms state t i).mp member
  exact ⟨i + j, inner, Nat.le_add_right i j, rfl⟩

mutual

theorem pairwise_statementTrails (ctx : PathContext) :
    ∀ (s : Stmt) (state : PathState), (statementTrails ctx s state).Pairwise Trail.Apart
  | .expression e, state => by
    unfold statementTrails
    split <;> exact List.pairwise_singleton _ _
  | .result line value, state => by
    unfold statementTrails
    split <;> exact List.pairwise_singleton _ _
  | .choice arms, state => by
    refine List.pairwise_append.mpr ⟨pairwise_armTrails ctx 0 arms state, ?_, ?_⟩
    · split
      · exact .nil
      · exact List.pairwise_singleton _ _
    · intro t entered u skipped
      obtain ⟨j, inner, -, rfl⟩ := decision_of_mem_armTrails entered
      split at skipped
      · cases skipped
      · rw [List.mem_singleton.mp skipped]
        exact Trail.apart_of_first_ne inner ⟨[], .passed state⟩ (Option.some_ne_none j)
  | .block body, state => pairwise_blockTrails ctx body state
  | .loop body _, state => pairwise_blockTrails ctx body state
  | .attempt body _, state => pairwise_blockTrails ctx body state
  | .other, state => List.pairwise_singleton _ _

/-- No trail takes the decisions of another one, nor the first few of them. -/
theorem pairwise_blockTrails (ctx : PathContext) :
    ∀ (body : List Stmt) (state : PathState), (blockTrails ctx body state).Pairwise Trail.Apart
  | [], _ => List.pairwise_singleton _ _
  | s :: rest, state =>
    pairwise_flatMap_extend (pairwise_statementTrails ctx s state) (pairwise_blockTrails ctx rest)

theorem pairwise_armTrails (ctx : PathContext) :
    ∀ (i : Nat) (arms : List Arm) (state : PathState),
      (armTrails ctx i arms state).Pairwise Trail.Apart
  | _, [], _ => .nil
  | i, .arm guard body :: rest, state => by
    refine List.pairwise_append.mpr ⟨?_, pairwise_armTrails ctx (i + 1) rest state, ?_⟩
    · exact pairwise_map_behind _ (pairwise_blockTrails ctx body _)
    · intro t entered u later
      obtain ⟨inner, -, rfl⟩ := List.mem_map.mp entered
      obtain ⟨j, inner', after, rfl⟩ := decision_of_mem_armTrails later
      refine Trail.apart_of_first_ne inner inner' fun equal => ?_
      cases equal
      exact Nat.lt_irrefl i after

end

end RequestSchema.Extraction
