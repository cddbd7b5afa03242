import RequestSchema.Proofs.Analysis.Leaves

/-!
# Errors stop an analysis, warnings do not

Two computations that end alike and list the same events, as far as these count (`Emit.AgreeOn`),
are put together from such computations part by part. Where only errors count (`SameErrors`),
analyses that report them are alike (`Analysis.alike_sameErrors`): a strict run stops at the first
error, and warnings stop no run.
-/
namespace RequestSchema

namespace Emit

variable {ε α β : Type}

/-- The computations end alike, and list the same events among those that count. -/
structure AgreeOn (counts : ε → Bool) (m m' : Emit ε α) : Prop where
  events : m.events.filter counts = m'.events.filter counts
  outcome : m.outcome = m'.outcome

namespace AgreeOn

variable {counts : ε → Bool}

theorem refl (m : Emit ε α) : AgreeOn counts m m := ⟨rfl, rfl⟩

theorem symm {m m' : Emit ε α} (agree : AgreeOn counts m m') : AgreeOn counts m' m :=
  ⟨agree.events.symm, agree.outcome.symm⟩

theorem trans {m m' m'' : Emit ε α} (first : AgreeOn counts m m') (second : AgreeOn counts m' m'') :
    AgreeOn counts m m'' :=
  ⟨first.events.trans second.events, first.outcome.trans second.outcome⟩

theorem bind {m m' : Emit ε α} {f f' : α → Emit ε β} (first : AgreeOn counts m m')
    (second : ∀ x, AgreeOn counts (f x) (f' x)) : AgreeOn counts (m >>= f) (m' >>= f') := by
  cases ends : m.outcome with
  | error fault =>
    rw [bind_error f ends, bind_error f' (first.outcome ▸ ends)]
    exact ⟨first.events, rfl⟩
  | ok x =>
    rw [bind_ok f ends, bind_ok f' (first.outcome ▸ ends)]
    refine ⟨?_, (second x).outcome⟩
    simp only [after, List.filter_append, first.events, (second x).events]

theorem map {m m' : Emit ε α} (agree : AgreeOn counts m m') (f : α → β) :
    AgreeOn counts (f <$> m) (f <$> m') := by
  rw [map_eq_pure_bind, map_eq_pure_bind]
  exact agree.bind fun x => .refl (pure (f x))

theorem mapM {f f' : α → Emit ε β} (each : ∀ x, AgreeOn counts (f x) (f' x)) (xs : List α) :
    AgreeOn counts (xs.mapM f) (xs.mapM f') := by
  induction xs with
  | nil => exact .refl _
  | cons x rest ih =>
    rw [List.mapM_cons, List.mapM_cons]
    exact (each x).bind fun y => ih.bind fun ys => .refl (pure (y :: ys))

theorem forM {f f' : α → Emit ε Unit} (each : ∀ x, AgreeOn counts (f x) (f' x)) (xs : List α) :
    AgreeOn counts (xs.forM f) (xs.forM f') := by
  induction xs with
  | nil => exact .refl _
  | cons x rest ih => exact (each x).bind fun _ => ih

end AgreeOn

end Emit

/-- The computations end alike and report the same errors. -/
abbrev SameErrors {α : Type} (m m' : Logged α) : Prop := Emit.AgreeOn Diagnostic.isError m m'

theorem sameErrors_warn (context context' message message' : String)
    (metadata metadata' : List (String × Value)) :
    SameErrors (Logged.warn context message metadata)
      (Logged.warn context' message' metadata') := ⟨rfl, rfl⟩

namespace Analysis

variable {α : Type}

/-- Reports of warnings do not change how an analysis ends. -/
theorem run_reports (events : List Diagnostic) (a : Analysis α) (strict : Bool) (r : Registry) :
    ∃ reported, (events.foldr report a).run strict r =
      { ((events.filter Diagnostic.isError).foldr report a).run strict r with reported } := by
  induction events with
  | nil => exact ⟨_, rfl⟩
  | cons d rest ih =>
    obtain ⟨reported, same⟩ := ih
    cases error : d.isError with
    | true =>
      rw [List.filter_cons_of_pos error, List.foldr_cons, List.foldr_cons, run, run, same]
      split
      · exact ⟨_, rfl⟩
      · exact ⟨_, rfl⟩
    | false =>
      rw [List.filter_cons_of_neg (by simp [error]), List.foldr_cons, run, error, Bool.and_false,
        same]
      exact ⟨_, rfl⟩

/-- Computations that end alike and report the same errors are alike. -/
theorem alike_sameErrors {J : Registry → Registry → Prop} {m m' : Logged α}
    (same : SameErrors m m') : Alike J J Eq (liftM m : Analysis α) (liftM m') := by
  obtain ⟨events, outcome⟩ := m
  obtain ⟨events', outcome'⟩ := m'
  obtain ⟨errors, ends⟩ := same
  dsimp only at errors ends
  subst ends
  intro strict r r' registries
  obtain ⟨reported, first⟩ := run_reports events (liftM outcome) strict r
  obtain ⟨reported', second⟩ := run_reports events' (liftM outcome) strict r'
  rw [← errors] at second
  have alike : EndAlike J Eq
      (((events.filter Diagnostic.isError).foldr report (liftM outcome)).run strict r)
      (((events.filter Diagnostic.isError).foldr report (liftM outcome)).run strict r') :=
    alike_logged ⟨events.filter Diagnostic.isError, outcome⟩ strict r r' registries
  have reporting := alike.reporting reported reported'
  rw [← first, ← second] at reporting
  exact reporting

end Analysis

end RequestSchema
