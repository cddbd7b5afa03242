import RequestSchema.Proofs.Analysis.Results

/-!
# Analyses that run alike

Two analyses are alike when, run on registries that are related, both end with related
results or both stop for the same reason (`Alike`). Sequences of alike analyses are alike
(`Alike.bind`, `Alike.mapM`), so a comparison of two analyses is made step by step.

An analysis settles when it has a result on every registry without directories to search,
and that result is told by the known enumerations alone (`Settles`). Two such analyses are
compared by their results.
-/
namespace RequestSchema

/-- Both runs end with related results on related registries, or stop alike. What has been
reported does not matter. -/
inductive EndAlike {α β : Type} (J : Registry → Registry → Prop) (R : α → β → Prop) :
    Outcome α → Outcome β → Prop
  | ok {r r' reported reported' x y} (registries : J r r') (results : R x y) :
      EndAlike J R ⟨r, reported, .ok x⟩ ⟨r', reported', .ok y⟩
  | stop {r r' reported reported' e} :
      EndAlike J R ⟨r, reported, .error e⟩ ⟨r', reported', .error e⟩

namespace EndAlike

variable {α β : Type} {J : Registry → Registry → Prop} {R : α → β → Prop}

/-- More reports in front do not matter. -/
theorem after {o : Outcome α} {o' : Outcome β} (ends : EndAlike J R o o')
    (before before' : List Diagnostic) :
    EndAlike J R { o with reported := before ++ o.reported }
      { o' with reported := before' ++ o'.reported } := by
  cases ends with
  | ok registries results => exact .ok registries results
  | stop => exact .stop

theorem result_map {γ : Type} {f : α → γ} {g : β → γ} {o : Outcome α} {o' : Outcome β}
    (ends : EndAlike J R o o') (images : ∀ x y, R x y → f x = g y) :
    o.result.map f = o'.result.map g := by
  cases ends with
  | ok _ results => exact congrArg Except.ok (images _ _ results)
  | stop => rfl

theorem result_eq {o o' : Outcome α} (ends : EndAlike J Eq o o') : o.result = o'.result := by
  cases ends with
  | ok _ results => exact congrArg Except.ok results
  | stop => rfl

/-- Runs end alike whatever they have reported. -/
theorem reporting {o : Outcome α} {o' : Outcome β} (ends : EndAlike J R o o')
    (reported reported' : List Diagnostic) :
    EndAlike J R { o with reported } { o' with reported := reported' } := by
  cases ends with
  | ok registries results => exact .ok registries results
  | stop => exact .stop

/-- Where the first run has a result, the second one has a related result. -/
theorem of_ok {o : Outcome α} {o' : Outcome β} {x : α} (ends : EndAlike J R o o')
    (returned : o.result = .ok x) : ∃ y, o'.result = .ok y ∧ R x y := by
  cases ends with
  | ok _ results =>
    cases returned
    exact ⟨_, rfl, results⟩
  | stop => cases returned

end EndAlike

namespace Analysis

variable {α β γ δ : Type}

/-- A sequence runs its second part where its first part has left the registry, unless
that has stopped. -/
theorem run_sequence (a : Analysis α) (f : α → Analysis β) (strict : Bool) (r : Registry) :
    (a >>= f).run strict r = match a.run strict r with
      | ⟨r', before, .ok x⟩ =>
          { (f x).run strict r' with reported := before ++ ((f x).run strict r').reported }
      | ⟨r', before, .error e⟩ => ⟨r', before, .error e⟩ := by
  change (a.bind f).run strict r = _
  induction a generalizing r with
  | done x => rfl
  | fault e => rfl
  | report d rest ih =>
    rw [Analysis.bind, run, run]
    split
    · rfl
    · rw [ih]
      rcases rest.run strict r with ⟨r', before, x | e⟩ <;> rfl
  | observe next ih => exact ih r r
  | update r' rest ih => exact ih r'

/-- A sequence whose first part returns goes on where that has left the registry. -/
theorem run_sequence_ok {a : Analysis α} {strict : Bool} {r : Registry} {x : α}
    (f : α → Analysis β) (returned : (a.run strict r).result = .ok x) :
    ((a >>= f).run strict r).result = ((f x).run strict (a.run strict r).registry).result ∧
      ((a >>= f).run strict r).registry =
        ((f x).run strict (a.run strict r).registry).registry := by
  rw [run_sequence]
  rcases ran : a.run strict r with ⟨r', before, e | y⟩
  · rw [ran] at returned
    cases returned
  · rw [ran] at returned
    cases returned
    exact ⟨rfl, rfl⟩

/-- A sequence whose first part stops ends there. -/
theorem run_sequence_error {a : Analysis α} {strict : Bool} {r : Registry} {e : Stop}
    (f : α → Analysis β) (stopped : (a.run strict r).result = .error e) :
    ((a >>= f).run strict r).result = .error e ∧
      ((a >>= f).run strict r).registry = (a.run strict r).registry := by
  rw [run_sequence]
  rcases ran : a.run strict r with ⟨r', before, e' | y⟩
  · rw [ran] at stopped
    cases stopped
    exact ⟨rfl, rfl⟩
  · rw [ran] at stopped
    cases stopped

theorem run_registry {strict : Bool} {r : Registry} (f : Registry → Analysis α) :
    (registry >>= f).run strict r = (f r).run strict r := rfl

/-- What is done without a registry leaves it as it is. -/
theorem registry_except (outcome : Except Fault α) (strict : Bool) (r : Registry) :
    ((liftM outcome : Analysis α).run strict r).registry = r := by
  cases outcome <;> rfl

/-! ## Runs alike -/

/-- Run on related registries, strictly or not, the analyses end alike. -/
def Alike (J J' : Registry → Registry → Prop) (R : α → β → Prop) (a : Analysis α)
    (b : Analysis β) : Prop :=
  ∀ strict r r', J r r' → EndAlike J' R (a.run strict r) (b.run strict r')

section

variable {J J' J'' : Registry → Registry → Prop} {R : α → β → Prop} {S : γ → δ → Prop}

theorem alike_pure {x : α} {y : β} (results : R x y) :
    Alike J J R (pure x : Analysis α) (pure y) :=
  fun _ _ _ registries => .ok registries results

theorem alike_refl (a : Analysis α) : Alike Eq Eq Eq a a := by
  rintro strict r _ rfl
  rcases a.run strict r with ⟨r', reported, e | x⟩
  · exact .stop
  · exact .ok rfl rfl

theorem Alike.bind {a : Analysis α} {b : Analysis β} {f : α → Analysis γ} {g : β → Analysis δ}
    (first : Alike J J' R a b) (second : ∀ x y, R x y → Alike J' J'' S (f x) (g y)) :
    Alike J J'' S (a >>= f) (b >>= g) := by
  intro strict r r' registries
  have ends := first strict r r' registries
  rw [run_sequence, run_sequence]
  cases one : a.run strict r
  cases other : b.run strict r'
  rw [one, other] at ends
  cases ends with
  | ok registries results => exact (second _ _ results strict _ _ registries).after _ _
  | stop => exact .stop

theorem Alike.map {a : Analysis α} {b : Analysis β} {f : α → γ} {g : β → δ}
    (alike : Alike J J' R a b) (images : ∀ x y, R x y → S (f x) (g y)) :
    Alike J J' S (f <$> a) (g <$> b) := by
  rw [map_eq_pure_bind, map_eq_pure_bind]
  exact alike.bind fun x y related => alike_pure (images x y related)

/-- Analyses of related lists, element by element. -/
theorem Alike.mapM {f : α → Analysis γ} {g : β → Analysis δ} {xs : List α} {ys : List β}
    (related : List.Forall₂ R xs ys) (each : ∀ x y, R x y → Alike J J S (f x) (g y)) :
    Alike J J (List.Forall₂ S) (xs.mapM f) (ys.mapM g) := by
  induction related with
  | nil => exact alike_pure .nil
  | cons first _ ih =>
    rw [List.mapM_cons, List.mapM_cons]
    refine (each _ _ first).bind fun x y result => ?_
    exact ih.bind fun others others' results => alike_pure (.cons result results)

/-- The results are those that the analyses can have at all. -/
theorem Alike.yielding {a : Analysis α} {b : Analysis β} (alike : Alike J J' R a b) :
    Alike J J' (fun x y => R x y ∧ a.Yields x ∧ b.Yields y) a b := by
  intro strict r r' registries
  have ends := alike strict r r' registries
  cases one : a.run strict r
  cases other : b.run strict r'
  rw [one, other] at ends
  cases ends with
  | ok registries results =>
    exact .ok registries
      ⟨results, ⟨strict, r, congrArg Outcome.result one⟩, strict, r', congrArg Outcome.result other⟩
  | stop => exact .stop

theorem Alike.imp {a : Analysis α} {b : Analysis β} {R' : α → β → Prop} (alike : Alike J J' R a b)
    (weaker : ∀ x y, R x y → R' x y) : Alike J J' R' a b := by
  intro strict r r' registries
  have ends := alike strict r r' registries
  generalize a.run strict r = one at ends ⊢
  generalize b.run strict r' = other at ends ⊢
  cases ends with
  | ok registries results => exact .ok registries (weaker _ _ results)
  | stop => exact .stop

/-- An analysis that finds something out and changes nothing may be run first. -/
theorem Alike.behind {a : Analysis γ} {b : Analysis α} {f : α → Analysis δ} {x : α}
    (finds : ∀ strict r r', J r r' → b.run strict r' = ⟨r', [], .ok x⟩)
    (alike : Alike J J' S a (f x)) : Alike J J' S a (b >>= f) := by
  intro strict r r' registries
  rw [run_sequence, finds strict r r' registries]
  exact alike strict r r' registries

/-- A computation without a registry is alike to itself. -/
theorem alike_except (outcome : Except Fault α) :
    Alike J J Eq (liftM outcome : Analysis α) (liftM outcome) := by
  intro strict r r' registries
  cases outcome with
  | ok x => exact .ok registries rfl
  | error fault => exact .stop

end

/-! ## Settled analyses -/

/-- On a registry without directories to search, the analysis returns what the known
enumerations tell, and learns nothing but what has been searched for. -/
def Settles (a : Analysis α) (value : OrderedMap String Enumeration → α) : Prop :=
  ∀ strict r, r.roots = .empty → ∃ searched reported,
    a.run strict r = ⟨{ r with searched }, reported, .ok (value r.known)⟩

theorem Settles.of_eq {a : Analysis α} {value value' : OrderedMap String Enumeration → α}
    (settles : a.Settles value) (same : ∀ known, value known = value' known) :
    a.Settles value' :=
  funext same ▸ settles

theorem settles_pure (x : α) : Settles (pure x) fun _ => x :=
  fun _ r _ => ⟨r.searched, [], rfl⟩

theorem Settles.bind {a : Analysis α} {f : α → Analysis β}
    {value : OrderedMap String Enumeration → α} (first : Settles a value)
    (next : α → OrderedMap String Enumeration → β) (second : ∀ x, Settles (f x) (next x)) :
    Settles (a >>= f) fun known => next (value known) known := by
  intro strict r rootless
  obtain ⟨searched, before, ran⟩ := first strict r rootless
  obtain ⟨searched', behind, ran'⟩ := second (value r.known) strict { r with searched } rootless
  refine ⟨searched', before ++ behind, ?_⟩
  rw [run_sequence, ran]
  simp only [ran']

end Analysis

namespace Registry

/-- Neither registry has directories to search, both parse sources in some way, and some
enumerations are known to both or to neither of them. -/
structure AgreeOn (parse : Source.Parser) (names : String → Prop) (r r' : Registry) : Prop where
  rootless : r.roots = .empty
  rootless' : r'.roots = .empty
  parses : r.parse = parse
  parses' : r'.parse = parse
  known : ∀ name, names name → r.known.get? name = r'.known.get? name

end Registry

/-- Settled analyses with the same results are alike. -/
theorem Analysis.Settles.alike {α β : Type} {a : Analysis α} {b : Analysis β}
    {value : OrderedMap String Enumeration → α} {value' : OrderedMap String Enumeration → β}
    {parse : Source.Parser} {names : String → Prop} {R : α → β → Prop} (first : Settles a value)
    (second : Settles b value')
    (results : ∀ r r', Registry.AgreeOn parse names r r' → R (value r.known) (value' r'.known)) :
    Alike (Registry.AgreeOn parse names) (Registry.AgreeOn parse names) R a b := by
  intro strict r r' agree
  obtain ⟨searched, reported, ran⟩ := first strict r agree.rootless
  obtain ⟨searched', reported', ran'⟩ := second strict r' agree.rootless'
  rw [ran, ran']
  exact .ok ⟨agree.rootless, agree.rootless', agree.parses, agree.parses', agree.known⟩
    (results r r' agree)

end RequestSchema
