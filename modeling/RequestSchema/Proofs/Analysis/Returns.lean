import RequestSchema.Proofs.Analysis.Alike

/-!
# Computations that return

`Ends` says that a computation ends with a value that has a property and not with a fault
(`Succeeds`, where the property does not matter), `Analysis.Returns` that a lenient run returns such
a result on every registry of some kind, and `Analysis.Gives` tells the result and the diagnostics
of an analysis that leaves the registry as it is. Each is proved along the sequence that a
computation is (`Ends.bind`, `Analysis.Returns.bind`, `Analysis.Gives.bind`).
-/
namespace RequestSchema

section

variable {α β σ : Type} {P : α → Prop} {Q : β → Prop}

/-- The computation ends with a value that has a property. -/
def Ends (P : α → Prop) (m : Except Fault α) : Prop := ∃ x, m = .ok x ∧ P x

theorem ends_ok {x : α} (holds : P x) : Ends P (.ok x) := ⟨x, rfl, holds⟩

/-- The computation ends with a value. -/
abbrev Succeeds (m : Except Fault α) : Prop := Ends (fun _ => True) m

theorem succeeds_of_isOk {m : Except Fault α} (ok : m.isOk) : Succeeds m := by
  cases m with
  | ok x => exact ends_ok trivial
  | error fault => cases ok

theorem Ends.bind {m : Except Fault α} {f : α → Except Fault β} (first : Ends P m)
    (second : ∀ x, P x → Ends Q (f x)) : Ends Q (m >>= f) := by
  obtain ⟨x, rfl, holds⟩ := first
  exact second x holds

theorem Ends.map {m : Except Fault α} {f : α → β} (ends : Ends P m) (holds : ∀ x, P x → Q (f x)) :
    Ends Q (f <$> m) := by
  obtain ⟨x, rfl, holds'⟩ := ends
  exact ends_ok (holds x holds')

theorem Ends.imp {P' : α → Prop} {m : Except Fault α} (ends : Ends P m)
    (weaker : ∀ x, P x → P' x) : Ends P' m := by
  obtain ⟨x, ended, holds⟩ := ends
  exact ⟨x, ended, weaker x holds⟩

theorem Ends.succeeds {m : Except Fault α} (ends : Ends P m) : Succeeds m :=
  ends.imp fun _ _ => trivial

/-- A pass ends when every step keeps what holds at the start. -/
theorem Ends.foldlM {I : σ → Prop} {step : σ → α → Except Fault σ} {s : σ} {xs : List α}
    (start : I s) (each : ∀ s, I s → ∀ x ∈ xs, Ends I (step s x)) : Ends I (xs.foldlM step s) := by
  induction xs generalizing s with
  | nil => exact ends_ok start
  | cons x rest ih =>
    rw [List.foldlM_cons]
    refine (each s start x List.mem_cons_self).bind fun s' kept => ?_
    exact ih kept fun s holds x' member => each s holds x' (List.mem_cons_of_mem x member)

theorem Ends.mapM {f : α → Except Fault β} {xs : List α} (each : ∀ x ∈ xs, Ends Q (f x)) :
    Ends (fun ys => ∀ y ∈ ys, Q y) (xs.mapM f) := by
  induction xs with
  | nil => exact ends_ok fun y member => absurd member List.not_mem_nil
  | cons x rest ih =>
    rw [List.mapM_cons]
    have others := ih fun x' member => each x' (List.mem_cons_of_mem x member)
    refine (each x List.mem_cons_self).bind fun y first => ?_
    exact others.bind fun ys later => ends_ok (List.forall_mem_cons.mpr ⟨first, later⟩)

theorem Ends.option {f : α → Except Fault β} {x? : Option α} (each : ∀ x ∈ x?, Ends Q (f x)) :
    Ends (fun y? => ∀ y ∈ y?, Q y) (x?.mapM f) := by
  cases x? with
  | none => exact ends_ok fun y member => nomatch member
  | some x =>
    refine (each x rfl).bind fun y holds => ends_ok fun y' member => ?_
    cases member
    exact holds

end

namespace Analysis

variable {α β : Type}

/-- Run leniently on a registry of some kind, the analysis returns something with a property, and
leaves a registry of the kind. -/
def Returns (I : Registry → Prop) (P : α → Prop) (a : Analysis α) : Prop :=
  ∀ r, I r → ∃ x, (a.run false r).result = .ok x ∧ P x ∧ I (a.run false r).registry

section

variable {I : Registry → Prop} {P : α → Prop} {Q : β → Prop}

theorem returns_pure {x : α} (holds : P x) : Returns I P (pure x : Analysis α) :=
  fun _ kind => ⟨x, rfl, holds, kind⟩

theorem Returns.bind {a : Analysis α} {f : α → Analysis β} (first : Returns I P a)
    (second : ∀ x, P x → Returns I Q (f x)) : Returns I Q (a >>= f) := by
  intro r kind
  obtain ⟨x, returned, holds, kind'⟩ := first r kind
  rw [(run_sequence_ok f returned).1, (run_sequence_ok f returned).2]
  exact second x holds (a.run false r).registry kind'

theorem Returns.imp {P' : α → Prop} {a : Analysis α} (returns : Returns I P a)
    (weaker : ∀ x, P x → a.Yields x → P' x) : Returns I P' a := by
  intro r kind
  obtain ⟨x, returned, holds, kind'⟩ := returns r kind
  exact ⟨x, returned, weaker x holds (yields_of_run returned), kind'⟩

/-- Analyses of the elements of a list return one after another. -/
theorem Returns.mapM {R : α → β → Prop} {f : α → Analysis β} {xs : List α}
    (each : ∀ x ∈ xs, Returns I (R x) (f x)) : Returns I (List.Forall₂ R xs) (xs.mapM f) := by
  induction xs with
  | nil => exact returns_pure .nil
  | cons x rest ih =>
    rw [List.mapM_cons]
    have others := ih fun x' member => each x' (List.mem_cons_of_mem x member)
    refine (each x List.mem_cons_self).bind fun y first => ?_
    exact others.bind fun ys later => returns_pure (.cons first later)

theorem returns_except {m : Except Fault α} (ends : Ends P m) :
    Returns I P (liftM m : Analysis α) := by
  obtain ⟨x, rfl, holds⟩ := ends
  exact returns_pure holds

theorem returns_emit (d : Diagnostic) : Returns I (fun _ => True) (emit d) :=
  fun _ kind => ⟨(), rfl, trivial, kind⟩

theorem returns_registry : Returns I I registry := fun r kind => ⟨r, rfl, kind, kind⟩

theorem returns_modify {f : Registry → Registry} (keeps : ∀ r, I r → I (f r)) :
    Returns I (fun _ => True) (modify f) :=
  fun r kind => ⟨(), rfl, trivial, keeps r kind⟩

end

/-- Run leniently on a registry, the analysis leaves it as it is and returns a result behind
some diagnostics. -/
def Gives (a : Analysis α) (r : Registry) (reported : List Diagnostic) (x : α) : Prop :=
  a.run false r = ⟨r, reported, .ok x⟩

section

variable {r : Registry}

theorem gives_pure (x : α) : Gives (pure x) r [] x := rfl

theorem gives_emit (d : Diagnostic) : Gives (emit d) r [d] () := rfl

theorem Gives.bind {a : Analysis α} {f : α → Analysis β} {before behind : List Diagnostic} {x : α}
    {y : β} (first : Gives a r before x) (second : Gives (f x) r behind y) :
    Gives (a >>= f) r (before ++ behind) y := by
  unfold Gives at first second ⊢
  rw [run_sequence, first]
  simp only [second]

theorem Gives.map {a : Analysis α} {reported : List Diagnostic} {x : α}
    (gives : Gives a r reported x) (f : α → β) :
    Gives (do return f (← a)) r reported (f x) := by
  have ended := gives.bind (f := fun x => pure (f x)) (gives_pure (r := r) (f x))
  rwa [List.append_nil] at ended

/-- A result that is given has the properties that the run shows. -/
theorem Gives.checked {a : Analysis α} {reported : List Diagnostic} {x : α}
    (gives : Gives a r reported x) {p : α → Prop} [DecidablePred p]
    (passes : (a.run false r).result.toOption.any p = true) : p x := by
  rw [gives] at passes
  exact of_decide_eq_true passes

/-- A computation without a registry reports its events and ends as it ends. -/
theorem run_logged (m : Logged α) :
    (liftM m : Analysis α).run false r = ⟨r, m.events, m.outcome.mapError .fault⟩ := by
  change (ofLogged m).run false r = _
  unfold ofLogged
  induction m.events with
  | nil =>
    cases m.outcome with
    | ok x => rfl
    | error fault => rfl
  | cons d rest ih =>
    rw [List.foldr_cons, run, ih]
    rfl

theorem gives_logged {m : Logged α} {x : α} (ends : m.outcome = .ok x) :
    Gives (liftM m : Analysis α) r m.events x := by
  unfold Gives
  rw [run_logged, ends]
  rfl

end

end Analysis

end RequestSchema
