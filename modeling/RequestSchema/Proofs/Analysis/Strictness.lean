import RequestSchema.Analysis

/-!
# Strict and lenient runs

A strict run takes the steps of the lenient run until an error is reported. So the two are
the same where the lenient run reports no error (`run_strict_of_clean`), and otherwise the
strict run has reported what the lenient one reports up to its first error, and ends with
that error (`run_strict_of_error`).
-/
namespace RequestSchema.Analysis

variable {α : Type}

/-- None of the diagnostics is an error. -/
def Clean (reported : List Diagnostic) : Prop := ∀ d ∈ reported, d.isError = false

theorem Clean.head {d : Diagnostic} {rest : List Diagnostic} (clean : Clean (d :: rest)) :
    d.isError = false :=
  clean d List.mem_cons_self

theorem Clean.tail {d : Diagnostic} {rest : List Diagnostic} (clean : Clean (d :: rest)) :
    Clean rest :=
  fun e member => clean e (List.mem_cons_of_mem d member)

/-- Diagnostics are clean, or there is a first error among them. -/
theorem clean_or_first_error (reported : List Diagnostic) :
    Clean reported ∨ ∃ before d behind, reported = before ++ d :: behind ∧ Clean before ∧
      d.isError = true := by
  induction reported with
  | nil => exact .inl fun d member => absurd member List.not_mem_nil
  | cons d rest ih =>
    by_cases error : d.isError = true
    · exact .inr ⟨[], d, rest, rfl, fun e member => absurd member List.not_mem_nil, error⟩
    · have warning : d.isError = false := Bool.eq_false_iff.mpr error
      rcases ih with clean | ⟨before, e, behind, rfl, clean, error'⟩
      · exact .inl (List.forall_mem_cons.mpr ⟨warning, clean⟩)
      · exact .inr ⟨d :: before, e, behind, rfl, List.forall_mem_cons.mpr ⟨warning, clean⟩, error'⟩

/-- A strict run goes on behind a warning. -/
theorem run_report_of_warning {d : Diagnostic} (warning : d.isError = false) (strict : Bool)
    (rest : Analysis α) (r : Registry) :
    (report d rest).run strict r =
      { rest.run strict r with reported := d :: (rest.run strict r).reported } := by
  rw [run, warning, Bool.and_false, if_neg Bool.false_ne_true]

/-- A strict run stops at an error, where it stands. -/
theorem run_report_of_error {d : Diagnostic} (error : d.isError = true) (rest : Analysis α)
    (r : Registry) : (report d rest).run true r = ⟨r, [d], .error (.halted d)⟩ := by
  rw [run, error, Bool.and_self, if_pos rfl]

/-- Without errors it does not matter whether a run is strict. -/
theorem run_strict_of_clean {a : Analysis α} {r : Registry}
    (clean : Clean (a.run false r).reported) : a.run true r = a.run false r := by
  induction a generalizing r with
  | done x => rfl
  | fault e => rfl
  | report d rest ih =>
    have reports : ((report d rest).run false r).reported = d :: (rest.run false r).reported := rfl
    rw [reports] at clean
    rw [run_report_of_warning clean.head, run_report_of_warning clean.head, ih clean.tail]
  | observe next ih => exact ih r clean
  | update r' rest ih => exact ih clean

/-- The first error of the lenient run is where the strict one ends. -/
theorem run_strict_of_error {a : Analysis α} {r : Registry} {before behind : List Diagnostic}
    {d : Diagnostic} (reports : (a.run false r).reported = before ++ d :: behind)
    (clean : Clean before) (error : d.isError = true) :
    ∃ r', a.run true r = ⟨r', before ++ [d], .error (.halted d)⟩ := by
  induction a generalizing r before with
  | done x => exact absurd reports.symm (by simp [run])
  | fault e => exact absurd reports.symm (by simp [run])
  | report d' rest ih =>
    change d' :: (rest.run false r).reported = before ++ d :: behind at reports
    cases before with
    | nil =>
      obtain ⟨rfl, -⟩ := List.cons.inj reports
      exact ⟨r, run_report_of_error error rest r⟩
    | cons e before =>
      obtain ⟨rfl, later⟩ := List.cons.inj reports
      obtain ⟨r', stops⟩ := ih later clean.tail
      refine ⟨r', ?_⟩
      rw [run_report_of_warning clean.head, stops]
      rfl
  | observe next ih => exact ih r reports clean
  | update r' rest ih => exact ih reports clean

end RequestSchema.Analysis
