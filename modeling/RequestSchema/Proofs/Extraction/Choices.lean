import RequestSchema.Proofs.Analysis.Results
import RequestSchema.Proofs.Extraction.Following

/-!
# Choices on the way

* `runBlock_meets`: following paths meets a choice exactly when a decision is taken on
  one of their trails.
-/
namespace RequestSchema.Extraction

open RequestSchema.Source

/-- Whether a decision is taken on a trail. -/
def Trail.Decides (t : Trail) : Prop := t.decisions ≠ []

theorem decides_behind (t : Trail) (decision : Decision) : (t.behind [decision]).Decides :=
  List.cons_ne_nil _ _

theorem armTrails_decide (ctx : PathContext) (arms : List Arm) (state : PathState) :
    ∀ i, ∀ t ∈ armTrails ctx i arms state, t.Decides := by
  induction arms with
  | nil => intro i t member; cases member
  | cons arm rest ih =>
    obtain ⟨guard, body⟩ := arm
    intro i t member
    rcases List.mem_append.mp member with entered | later
    · obtain ⟨inner, -, rfl⟩ := List.mem_map.mp entered
      exact decides_behind inner (some i)
    · exact ih (i + 1) t later

/-- Every trail through a choice takes a decision at it. -/
theorem choiceTrails_decide (ctx : PathContext) (arms : List Arm) (state : PathState) :
    ∀ t ∈ statementTrails ctx (.choice arms) state, t.Decides := by
  intro t member
  rcases List.mem_append.mp member with entered | skipped
  · exact armTrails_decide ctx arms state 0 t entered
  · split at skipped
    · cases skipped
    · rw [List.mem_singleton.mp skipped]
      exact List.cons_ne_nil _ _

/-- A decision is taken on a continued trail before it passes or behind. -/
theorem exists_decides_extend (next : PathState → List Trail) (trails : List Trail)
    (continues : ∀ state, next state ≠ []) :
    (∃ t ∈ trails.flatMap (Trail.extend next), t.Decides) ↔
      (∃ t ∈ trails, t.Decides) ∨
        ∃ state ∈ (trails.map Trail.finish).filterMap Finish.state?,
          ∃ t ∈ next state, t.Decides := by
  constructor
  · rintro ⟨t, member, decides⟩
    obtain ⟨before, first, continued⟩ := List.mem_flatMap.mp member
    rcases (mem_extend next before t).mp continued with
      ⟨-, rfl⟩ | ⟨state, passes, inner, there, rfl⟩
    · exact .inl ⟨t, first, decides⟩
    · by_cases early : before.Decides
      · exact .inl ⟨before, first, early⟩
      · refine .inr ⟨state, ?_, inner, there, fun later => decides ?_⟩
        · exact List.mem_filterMap.mpr ⟨_, List.mem_map_of_mem first, by rw [passes]; rfl⟩
        · exact List.append_eq_nil_iff.mpr ⟨Classical.not_not.mp early, later⟩
  · rintro (⟨before, first, decides⟩ | ⟨state, passes, inner, there, decides⟩)
    · cases ends : before.finish.state? with
      | none =>
        exact ⟨before, List.mem_flatMap.mpr ⟨before, first,
          (mem_extend next before before).mpr (.inl ⟨ends, rfl⟩)⟩, decides⟩
      | some state =>
        have passes := (Finish.state?_eq_some _ _).mp ends
        obtain ⟨inner, more, trails'⟩ := List.exists_cons_of_ne_nil (continues state)
        refine ⟨inner.behind before.decisions, List.mem_flatMap.mpr ⟨before, first, ?_⟩, ?_⟩
        · exact (mem_extend next before _).mpr
            (.inr ⟨state, passes, inner, trails' ▸ List.mem_cons_self, rfl⟩)
        · exact fun none => decides (List.append_eq_nil_iff.mp none).1
    · obtain ⟨finish, member, passed⟩ := List.mem_filterMap.mp passes
      obtain ⟨before, first, rfl⟩ := List.mem_map.mp member
      have passes := (Finish.state?_eq_some _ _).mp passed
      refine ⟨inner.behind before.decisions, List.mem_flatMap.mpr ⟨before, first, ?_⟩, ?_⟩
      · exact (mem_extend next before _).mpr (.inr ⟨state, passes, inner, there, rfl⟩)
      · exact fun none => decides (List.append_eq_nil_iff.mp none).2

/-- An event of a computation over a list happens at one of its elements, when those before it have
ended well. -/
theorem mem_events_mapM_iff {α β : Type} (f : α → Paths β) (event : PathEvent) (xs : List α) :
    event ∈ (xs.mapM f).events ↔ ∃ earlier x later ys, xs = earlier ++ x :: later ∧
      earlier.mapM (fun x => (f x).outcome) = .ok ys ∧ event ∈ (f x).events := by
  induction xs with
  | nil => simp [pure]
  | cons x rest ih =>
    rw [List.mapM_cons, Emit.mem_events_bind]
    have others (y : β) :
        event ∈ (rest.mapM f >>= fun ys => (pure (y :: ys) : Paths (List β))).events ↔
          event ∈ (rest.mapM f).events := by
      simp [Emit.mem_events_bind, pure]
    simp only [others, ih]
    constructor
    · rintro (here | ⟨y, ends, earlier, x', later, ys, rfl, passed, there⟩)
      · exact ⟨[], x, rest, [], rfl, rfl, here⟩
      · refine ⟨x :: earlier, x', later, y :: ys, rfl, ?_, there⟩
        rw [List.mapM_cons, ends, passed]
        rfl
    · rintro ⟨_ | ⟨first, earlier⟩, x', later, ys, split, passed, there⟩
      · cases split
        exact .inl there
      · cases split
        rw [List.mapM_cons] at passed
        obtain ⟨y, ends, passed⟩ := exists_of_bind_ok passed
        obtain ⟨others, passed, -⟩ := exists_of_bind_ok passed
        exact .inr ⟨y, ends, earlier, x', later, others, rfl, passed, there⟩

theorem mem_events_mapM {α β : Type} (f : α → Paths β) (event : PathEvent) (xs : List α)
    (member : event ∈ (xs.mapM f).events) : ∃ x ∈ xs, event ∈ (f x).events := by
  obtain ⟨earlier, x, later, -, rfl, -, here⟩ := (mem_events_mapM_iff f event xs).mp member
  exact ⟨x, List.mem_append_right earlier List.mem_cons_self, here⟩

theorem mem_events_forM {α : Type} (f : α → Paths Unit) (event : PathEvent) (xs : List α)
    (member : event ∈ (xs.forM f).events) : ∃ x ∈ xs, event ∈ (f x).events := by
  induction xs with
  | nil => cases member
  | cons x rest ih =>
    rcases Emit.mem_events_bind.mp member with here | ⟨_, -, later⟩
    · exact ⟨x, List.mem_cons_self, here⟩
    · obtain ⟨x', there, later⟩ := ih later
      exact ⟨x', List.mem_cons_of_mem x there, later⟩

section

variable {event : PathEvent} (unnoted : ∀ d, event ≠ .note d)

include unnoted

theorem not_mem_noted {α : Type} (m : Logged α) : event ∉ (noted m).events := by
  intro member
  obtain ⟨d, -, same⟩ := List.mem_map.mp member
  exact unnoted d same.symm

/-- An expression lists nothing but notes. -/
theorem not_mem_expression (ctx : PathContext) (e : Expr) (states : List PathState) :
    event ∉ (runStatement ctx (.expression e) states).events := by
  intro member
  obtain ⟨state, -, here⟩ := mem_events_mapM _ _ _ member
  rcases Emit.mem_events_bind.mp here with here | ⟨_, -, none⟩
  · exact not_mem_noted unnoted _ here
  · cases none

/-- A return lists notes and branches only. -/
theorem not_mem_result (unbranched : ∀ b, event ≠ .branch b) (ctx : PathContext) (line : Nat)
    (value : Option Expr) (states : List PathState) :
    event ∉ (runStatement ctx (.result line value) states).events := by
  intro member
  rcases Emit.mem_events_bind.mp member with member | ⟨_, -, none⟩
  · obtain ⟨state, -, here⟩ := mem_events_forM _ _ _ member
    rcases Emit.mem_events_bind.mp here with here | ⟨rules, -, later⟩
    · exact not_mem_noted unnoted _ here
    · rcases Emit.mem_events_bind.mp later with none | ⟨branch, -, made⟩
      · cases none
      · exact unbranched branch (List.mem_singleton.mp made)
  · cases none

end

mutual

theorem runStatement_meets (ctx : PathContext) :
    ∀ (s : Stmt) (states live : List PathState), states ≠ [] →
      .truncated ∉ (runStatement ctx s states).events →
      (runStatement ctx s states).outcome = .ok live →
      (.choice ∈ (runStatement ctx s states).events ↔
        ∃ state ∈ states, ∃ t ∈ statementTrails ctx s state, t.Decides)
  | .expression e, states, live, _, _, _ => by
    refine iff_of_false (not_mem_expression (by simp) ctx e states) ?_
    rintro ⟨state, -, t, member, decides⟩
    unfold statementTrails at member
    split at member <;> exact decides (by rw [List.mem_singleton.mp member])
  | .result line value, states, live, _, _, _ => by
    refine iff_of_false (not_mem_result (by simp) (by simp) ctx line value states) ?_
    rintro ⟨state, -, t, member, decides⟩
    unfold statementTrails at member
    split at member <;> exact decides (by rw [List.mem_singleton.mp member])
  | .choice arms, states, live, some_state, _, _ => by
    obtain ⟨state, more, rfl⟩ := List.exists_cons_of_ne_nil some_state
    obtain ⟨t, others, trails⟩ :=
      List.exists_cons_of_ne_nil (statementTrails_ne_nil ctx (.choice arms) state)
    have member : t ∈ statementTrails ctx (.choice arms) state := trails ▸ List.mem_cons_self
    refine iff_of_true ?_
      ⟨state, List.mem_cons_self, t, member, choiceTrails_decide ctx arms state t member⟩
    exact Emit.mem_events_bind.mpr (.inl List.mem_cons_self)
  | .block body, states, live, _, untruncated, ends =>
    runBlock_meets ctx body states live untruncated ends
  | .loop body _, states, live, _, untruncated, ends =>
    runBlock_meets ctx body states live untruncated ends
  | .attempt body _, states, live, _, untruncated, ends =>
    runBlock_meets ctx body states live untruncated ends
  | .other, states, live, _, _, _ => by
    refine iff_of_false List.not_mem_nil ?_
    rintro ⟨state, -, t, member, decides⟩
    exact decides (by rw [List.mem_singleton.mp member])

/-- A choice is met on the way exactly when a decision is taken on a trail. -/
theorem runBlock_meets (ctx : PathContext) :
    ∀ (body : List Stmt) (states live : List PathState),
      .truncated ∉ (runBlock ctx body states).events →
      (runBlock ctx body states).outcome = .ok live →
      (.choice ∈ (runBlock ctx body states).events ↔
        ∃ state ∈ states, ∃ t ∈ blockTrails ctx body state, t.Decides)
  | [], states, live, _, _ => by
    refine iff_of_false List.not_mem_nil ?_
    rintro ⟨state, -, t, member, decides⟩
    exact decides (by rw [List.mem_singleton.mp member])
  | s :: rest, [], live, _, _ => by simp [runBlock, pure]
  | s :: rest, state :: more, live, untruncated, ends => by
    change .truncated ∉ (runStatement ctx s (state :: more) >>= runBlock ctx rest).events
      at untruncated
    change (runStatement ctx s (state :: more) >>= runBlock ctx rest).outcome = .ok live at ends
    change .choice ∈ (runStatement ctx s (state :: more) >>= runBlock ctx rest).events ↔ _
    cases ended : (runStatement ctx s (state :: more)).outcome with
    | error fault =>
      rw [Emit.bind_error _ ended] at ends
      cases ends
    | ok live₁ =>
      rw [Emit.bind_ok _ ended] at untruncated ends ⊢
      obtain ⟨kept, keptBehind⟩ := untruncated_after.mp untruncated
      have here := runStatement_meets ctx s (state :: more) live₁ (List.cons_ne_nil _ _) kept ended
      have behind := runBlock_meets ctx rest live₁ live keptBehind ends
      have passed : live₁ = _ :=
        ((runStatement_follows ctx s (state :: more)).complete kept live₁ ended).live_eq
      have continued (state' : PathState) :=
        exists_decides_extend (blockTrails ctx rest) (statementTrails ctx s state')
          (blockTrails_ne_nil ctx rest)
      refine (List.mem_append.trans (or_congr here behind)).trans ?_
      rw [passed, List.filterMap_flatMap]
      simp only [List.mem_flatMap]
      constructor
      · rintro (⟨state', member, first⟩ | ⟨state'', ⟨state', member, passes⟩, later⟩)
        · exact ⟨state', member, (continued state').mpr (.inl first)⟩
        · exact ⟨state', member, (continued state').mpr (.inr ⟨state'', passes, later⟩)⟩
      · rintro ⟨state', member, decides⟩
        rcases (continued state').mp decides with first | ⟨state'', passes, later⟩
        · exact .inl ⟨state', member, first⟩
        · exact .inr ⟨state'', ⟨state', member, passes⟩, later⟩

end

end RequestSchema.Extraction
