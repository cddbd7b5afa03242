import Mathlib.Data.List.Forall2
import RequestSchema.Analysis
import RequestSchema.Proofs.Outcome

/-!
# Results of analyses

What an analysis can return, whatever it is run on: `Yields` forgets the registry, the
diagnostics and whether the run is strict. A result of a sequence comes from results of
its parts (`yields_bind`, `yields_mapM`).
-/
namespace RequestSchema.Analysis

variable {α β : Type}

/-- The analysis returns a value on some registry, strictly or not. -/
def Yields (a : Analysis α) (x : α) : Prop := ∃ strict r, (a.run strict r).result = .ok x

theorem yields_of_run {a : Analysis α} {x : α} {strict : Bool} {r : Registry}
    (returned : (a.run strict r).result = .ok x) : a.Yields x :=
  ⟨strict, r, returned⟩

theorem yields_pure {x y : α} (yields : (pure x : Analysis α).Yields y) : y = x := by
  obtain ⟨strict, r, returned⟩ := yields
  cases returned
  rfl

/-- A sequence returns what its second part returns from what its first part does. -/
theorem run_bind {a : Analysis α} {f : α → Analysis β} {y : β} {strict : Bool} (r : Registry)
    (returned : ((a.bind f).run strict r).result = .ok y) :
    ∃ x r', (a.run strict r).result = .ok x ∧ ((f x).run strict r').result = .ok y := by
  induction a generalizing r with
  | done x => exact ⟨x, r, rfl, returned⟩
  | fault e => cases returned
  | report d rest ih =>
    rw [bind, run] at returned
    split at returned
    · cases returned
    · rename_i goesOn
      obtain ⟨x, r', first, second⟩ := ih r returned
      exact ⟨x, r', by rw [run, if_neg goesOn]; exact first, second⟩
  | observe next ih => exact ih r r returned
  | update r' rest ih => exact ih r' returned

theorem yields_bind {a : Analysis α} {f : α → Analysis β} {y : β} (yields : (a >>= f).Yields y) :
    ∃ x, a.Yields x ∧ (f x).Yields y := by
  obtain ⟨strict, r, returned⟩ := yields
  obtain ⟨x, r', first, second⟩ := run_bind r returned
  exact ⟨x, ⟨strict, r, first⟩, strict, r', second⟩

/-- The results over a list are results for its elements. -/
theorem yields_mapM {f : α → Analysis β} {xs : List α} {ys : List β}
    (yields : (xs.mapM f).Yields ys) : List.Forall₂ (fun x y => (f x).Yields y) xs ys := by
  induction xs generalizing ys with
  | nil =>
    rw [yields_pure yields]
    exact .nil
  | cons x rest ih =>
    rw [List.mapM_cons] at yields
    obtain ⟨y, first, yields⟩ := yields_bind yields
    obtain ⟨others, later, yields⟩ := yields_bind yields
    rw [yields_pure yields]
    exact .cons first (ih later)

theorem yields_except {outcome : Except Fault α} {x : α}
    (yields : (liftM outcome : Analysis α).Yields x) : outcome = .ok x := by
  cases outcome with
  | ok y => rw [yields_pure yields]
  | error fault =>
    obtain ⟨strict, r, returned⟩ := yields
    cases returned

theorem yields_reports {events : List Diagnostic} {a : Analysis α} {x : α}
    (yields : (events.foldr report a).Yields x) : a.Yields x := by
  induction events with
  | nil => exact yields
  | cons d rest ih =>
    refine ih ?_
    obtain ⟨strict, r, returned⟩ := yields
    rw [List.foldr_cons, run] at returned
    split at returned
    · cases returned
    · exact ⟨strict, r, returned⟩

/-- Reporting the diagnostics of a computation does not change what it ends with. -/
theorem yields_logged {m : Logged α} {x : α} (yields : (liftM m : Analysis α).Yields x) :
    m.outcome = .ok x := by
  change (ofLogged m).Yields x at yields
  have ended := yields_reports yields
  cases outcome : m.outcome with
  | ok y =>
    rw [outcome] at ended
    rw [yields_pure ended]
  | error fault =>
    rw [outcome] at ended
    obtain ⟨strict, r, returned⟩ := ended
    cases returned

end RequestSchema.Analysis
