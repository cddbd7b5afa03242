import RequestSchema.Operation
import RequestSchema.Proofs.Analysis.Strictness

/-!
# Strict sessions

An operation on a strict session is the operation on a lenient one up to the first error
(`operate_upToFirstError`): without an error both give the same result and add the same
diagnostics; otherwise the strict one fails with the first error, behind the diagnostics that
the lenient one adds up to it. Both leave the earlier entries of the log as they are.

No analysis looks at whether it is run strictly (`Operation.analysis_withStrict`), so the
law for runs carries over to every operation, also to one that asks a memory of results, whatever
the memory does with the computation that it is given.
-/
namespace RequestSchema

open Analysis

namespace Session

/-- The session, which stops at errors or does not. -/
def withStrict (s : Session) (strict : Bool) : Session :=
  { s with settings := { s.settings with strict } }

/-- The strict outcome of an operation is the lenient one up to the first error. The log
before is `log`, and the lenient operation adds `added` to it. -/
structure UpToFirstError {α : Type} (log added : List Diagnostic)
    (lenient strict : Except Stop α × Session) : Prop where
  logged : lenient.2.log = log ++ added
  same : Clean added → strict = (lenient.1, lenient.2.withStrict true)
  stopped : ¬ Clean added → ∃ before d behind, added = before ++ d :: behind ∧ Clean before ∧
    d.isError = true ∧ strict.1 = .error (.halted d) ∧ strict.2.log = log ++ (before ++ [d])

variable {α : Type}

/-- What an analysis gives on a strict session or on a lenient one. -/
theorem perform_withStrict (s : Session) (strict : Bool) (a : Analysis α) :
    (s.withStrict strict).perform a =
      ((a.run strict s.registry).result,
        { s.withStrict strict with
          registry := (a.run strict s.registry).registry
          log := s.log ++ (a.run strict s.registry).reported }) :=
  rfl

/-- Running an analysis strictly is running it up to the first error. -/
theorem perform_upToFirstError (s : Session) (a : Analysis α) :
    ∃ added, UpToFirstError s.log added ((s.withStrict false).perform a)
      ((s.withStrict true).perform a) := by
  rw [perform_withStrict, perform_withStrict]
  refine ⟨(a.run false s.registry).reported, rfl, fun clean => ?_, fun unclean => ?_⟩
  · have same : a.run true s.registry = a.run false s.registry := run_strict_of_clean clean
    rw [same]
    rfl
  · obtain ⟨before, d, behind, reports, clean, error⟩ :=
      (clean_or_first_error (a.run false s.registry).reported).resolve_left unclean
    obtain ⟨r', stops⟩ := run_strict_of_error reports clean error
    rw [stops]
    exact ⟨before, d, behind, reports, clean, error, rfl, rfl⟩

end Session

/-- Whether a run is strict is no matter of the analysis. -/
theorem Operation.analysis_withStrict (op : Operation) (s : Session) (strict : Bool) :
    op.analysis (s.withStrict strict).settings (s.withStrict strict).factory =
      op.analysis s.settings s.factory := by
  cases op <;> rfl

namespace Session

/-- Every operation on a strict session is the operation on a lenient one up to the first
error. -/
theorem operate_upToFirstError (s : Session) (op : Operation) :
    ∃ added, UpToFirstError s.log added ((s.withStrict false).operate op)
      ((s.withStrict true).operate op) := by
  rw [operate, operate, op.analysis_withStrict, op.analysis_withStrict]
  exact perform_upToFirstError s (op.analysis s.settings s.factory)

/-- The parameters of an anonymous class whose lines have a syntax error and of which no
object can be made. -/
def brokenClass : Operation :=
  .anonymousParameters
    { name := "C", file := some "c.php", startLine := some 1, endLine := some 1
      behaviour := { create := .error { kind := "RuntimeError", text := "closed" } } } false

/-- A session in which the file of the class is there. -/
def withBrokenFile : Session :=
  .start {} (.ok (.mapping [])) (.ofList [("c.php", "new class\x7bfunction(\x7d\n")]) []

/-- Leniently both errors are reported and there are no parameters; strictly the first error
ends the operation. -/
theorem brokenClass_stops :
    ∃ d e, ((withBrokenFile.withStrict false).operate brokenClass).2.log = [d, e] ∧
      ((withBrokenFile.withStrict false).operate brokenClass).1.toOption.map List.length = some 0 ∧
      ((withBrokenFile.withStrict true).operate brokenClass).1 = .error (.halted d) ∧
      ((withBrokenFile.withStrict true).operate brokenClass).2.log = [d] := by
  obtain ⟨added, upTo⟩ := operate_upToFirstError withBrokenFile brokenClass
  have entries : ((withBrokenFile.withStrict false).operate brokenClass).2.log = added :=
    upTo.logged
  have errors : ((withBrokenFile.withStrict false).operate brokenClass).2.log.map
      (·.isError) = [true, true] := by decide +kernel
  rw [entries] at errors
  obtain ⟨d, rest, rfl, first, errors⟩ := List.map_eq_cons_iff.mp errors
  obtain ⟨e, rest, rfl, -, errors⟩ := List.map_eq_cons_iff.mp errors
  obtain rfl := List.map_eq_nil_iff.mp errors
  have unclean : ¬ Clean [d, e] := fun clean => by
    rw [clean.head] at first
    cases first
  obtain ⟨before, d', behind, same, clean, -, halts, log⟩ := upTo.stopped unclean
  cases before with
  | nil =>
    obtain ⟨rfl, -⟩ := List.cons.inj same
    exact ⟨d, e, entries, by decide +kernel, halts, log⟩
  | cons d'' rest =>
    obtain ⟨rfl, -⟩ := List.cons.inj same
    rw [clean.head] at first
    cases first

end Session

end RequestSchema
