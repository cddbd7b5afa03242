import RequestSchema.Fault

/-!
# Results and faults

What a computation that may end with a fault ends with, taken apart along the sequence or the list
that it works on.
-/
namespace RequestSchema

section

variable {ε α β σ : Type}

/-- A sequence ends well when both of its parts do. -/
theorem exists_of_bind_ok {x : Except ε α} {f : α → Except ε β} {y : β}
    (ends : x >>= f = .ok y) : ∃ a, x = .ok a ∧ f a = .ok y := by
  cases x with
  | error e => cases ends
  | ok a => exact ⟨a, rfl, ends⟩

theorem exists_ok_of_isOk {outcome : Except ε α} (ends : outcome.isOk = true) :
    ∃ x, outcome = .ok x := by
  cases outcome with
  | error e => cases ends
  | ok x => exact ⟨x, rfl⟩

/-- A result that passes a test is there. -/
theorem exists_ok_of_any {outcome : Except ε α} {p : α → Bool}
    (passes : outcome.toOption.any p = true) : ∃ x, outcome = .ok x ∧ p x = true := by
  cases outcome with
  | error e => cases passes
  | ok x => exact ⟨x, rfl, passes⟩

/-- Steps that all end well give their results. -/
theorem mapM_eq_ok {step : α → Except ε β} {g : α → β} {xs : List α}
    (each : ∀ x ∈ xs, step x = .ok (g x)) : xs.mapM step = .ok (xs.map g) := by
  induction xs with
  | nil => rfl
  | cons x rest ih =>
    rw [List.mapM_cons, each x List.mem_cons_self,
      ih fun y member => each y (List.mem_cons_of_mem x member)]
    rfl

/-- When all steps together end well, so does each of them. -/
theorem ok_of_mapM {step : α → Except ε β} {xs : List α} {ys : List β}
    (ends : xs.mapM step = .ok ys) : ∀ x ∈ xs, ∃ y, step x = .ok y := by
  induction xs generalizing ys with
  | nil => exact fun x member => absurd member List.not_mem_nil
  | cons x rest ih =>
    rw [List.mapM_cons] at ends
    obtain ⟨y, first, ends⟩ := exists_of_bind_ok ends
    obtain ⟨others, later, -⟩ := exists_of_bind_ok ends
    exact List.forall_mem_cons.mpr ⟨⟨y, first⟩, ih later⟩

/-- A selection ends well when every step does, and selects what the steps give. -/
theorem filterMapM_eq_ok {step : α → Except ε (Option β)} {g : α → Option β} {xs : List α}
    (each : ∀ x ∈ xs, step x = .ok (g x)) : xs.filterMapM step = .ok (xs.filterMap g) := by
  induction xs with
  | nil => rfl
  | cons x rest ih =>
    rw [List.filterMapM_cons, each x List.mem_cons_self,
      ih fun y member => each y (List.mem_cons_of_mem x member), List.filterMap_cons]
    cases g x with
    | none => rfl
    | some y => rfl

theorem ok_of_filterMapM {step : α → Except ε (Option β)} {xs : List α} {ys : List β}
    (ends : xs.filterMapM step = .ok ys) : ∀ x ∈ xs, ∃ y?, step x = .ok y? := by
  induction xs generalizing ys with
  | nil => exact fun x member => absurd member List.not_mem_nil
  | cons x rest ih =>
    rw [List.filterMapM_cons] at ends
    obtain ⟨y?, first, ends⟩ := exists_of_bind_ok ends
    refine List.forall_mem_cons.mpr ⟨⟨y?, first⟩, ?_⟩
    cases y? with
    | none => exact ih ends
    | some y =>
      obtain ⟨others, later, -⟩ := exists_of_bind_ok ends
      exact ih later

/-- Steps that give something or nothing, one after another, are a selection. -/
theorem filterMap_mapM (step : α → Except ε (Option β)) (xs : List α) :
    List.filterMap id <$> xs.mapM step = xs.filterMapM step := by
  induction xs with
  | nil => rfl
  | cons x rest ih =>
    rw [List.mapM_cons, List.filterMapM_cons, ← ih]
    cases step x with
    | error e => rfl
    | ok y? => cases y? <;> cases rest.mapM step <;> rfl

theorem filterMapM_map {γ : Type} (f : γ → α) (step : α → Except ε (Option β)) (xs : List γ) :
    (xs.map f).filterMapM step = xs.filterMapM fun x => step (f x) := by
  induction xs with
  | nil => rfl
  | cons x rest ih => rw [List.map_cons, List.filterMapM_cons, List.filterMapM_cons, ih]

/-- A selection from which nothing is missed but what gives nothing. -/
theorem filterMapM_filter {step : α → Except ε (Option β)} {keep : α → Bool}
    (nothing : ∀ x, keep x = false → step x = .ok none) (xs : List α) :
    (xs.filter keep).filterMapM step = xs.filterMapM step := by
  induction xs with
  | nil => rfl
  | cons x rest ih =>
    rw [List.filter_cons, List.filterMapM_cons]
    cases kept : keep x with
    | true => rw [if_pos rfl, List.filterMapM_cons, ih]
    | false =>
      rw [nothing x kept]
      exact ih

/-- What is selected comes from some element. -/
theorem exists_of_mem_filterMapM {step : α → Except ε (Option β)} {xs : List α} {ys : List β}
    (ends : xs.filterMapM step = .ok ys) : ∀ y ∈ ys, ∃ x ∈ xs, step x = .ok (some y) := by
  induction xs generalizing ys with
  | nil =>
    cases ends
    exact fun y member => absurd member List.not_mem_nil
  | cons x rest ih =>
    rw [List.filterMapM_cons] at ends
    obtain ⟨y?, first, ends⟩ := exists_of_bind_ok ends
    have later {ys : List β} (ends : rest.filterMapM step = .ok ys) :
        ∀ y ∈ ys, ∃ x' ∈ x :: rest, step x' = .ok (some y) := fun y member => by
      obtain ⟨x', there, own⟩ := ih ends y member
      exact ⟨x', List.mem_cons_of_mem x there, own⟩
    cases y? with
    | none => exact later ends
    | some y =>
      obtain ⟨others, others_eq, ends⟩ := exists_of_bind_ok ends
      cases ends
      exact List.forall_mem_cons.mpr ⟨⟨x, List.mem_cons_self, first⟩, later others_eq⟩

/-- A pass ends well when every step does, and goes where the steps lead. -/
theorem foldlM_eq_ok {step : σ → α → Except ε σ} {g : σ → α → σ} {xs : List α} {s : σ}
    (each : ∀ x ∈ xs, ∀ s, step s x = .ok (g s x)) : xs.foldlM step s = .ok (xs.foldl g s) := by
  induction xs generalizing s with
  | nil => rfl
  | cons x rest ih =>
    rw [List.foldlM_cons, each x List.mem_cons_self]
    exact ih fun y member => each y (List.mem_cons_of_mem x member)

theorem ok_of_foldlM {step : σ → α → Except ε σ} {xs : List α} {s t : σ}
    (ends : xs.foldlM step s = .ok t) : ∀ x ∈ xs, ∃ s s', step s x = .ok s' := by
  induction xs generalizing s with
  | nil => exact fun x member => absurd member List.not_mem_nil
  | cons x rest ih =>
    rw [List.foldlM_cons] at ends
    obtain ⟨s', first, ends⟩ := exists_of_bind_ok ends
    exact List.forall_mem_cons.mpr ⟨⟨s, s', first⟩, ih ends⟩

end

end RequestSchema
