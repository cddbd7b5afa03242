import RequestSchema.Diagnostic
import RequestSchema.Enumeration.Registry

/-!
Analyses: computations that report diagnostics and keep a registry of enumerations. An analysis is a
tree of steps; `Analysis.run` takes the steps on a registry, and stops at the first error when it is
told to be strict.
-/
namespace RequestSchema

/-- The steps of a computation with a result of type `α`. -/
inductive Analysis (α : Type) where
  | done (a : α)
  | fault (f : Fault)
  | report (d : Diagnostic) (rest : Analysis α)
  /-- read the registry -/
  | observe (next : Registry → Analysis α)
  /-- replace the registry -/
  | update (registry : Registry) (rest : Analysis α)

/-- Why a run has no result. -/
inductive Stop where
  | fault (f : Fault)
  /-- an error that stopped a strict run -/
  | halted (d : Diagnostic)

/-- What a run leaves: the registry, the diagnostics in order, and the result. -/
structure Outcome (α : Type) where
  registry : Registry
  reported : List Diagnostic
  result : Except Stop α

namespace Analysis

variable {α β : Type}

def bind : Analysis α → (α → Analysis β) → Analysis β
  | done a, f => f a
  | fault e, _ => fault e
  | report d rest, f => report d (rest.bind f)
  | observe next, f => observe fun r => (next r).bind f
  | update r rest, f => update r (rest.bind f)

instance : Monad Analysis where
  pure := done
  bind := bind

theorem bind_done (a : Analysis α) : a.bind done = a := by
  induction a with
  | done a => rfl
  | fault e => rfl
  | report d rest ih => exact congrArg (report d) ih
  | observe next ih => exact congrArg observe (funext ih)
  | update r rest ih => exact congrArg (update r) ih

theorem bind_bind {γ : Type} (a : Analysis α) (f : α → Analysis β) (g : β → Analysis γ) :
    (a.bind f).bind g = a.bind fun x => (f x).bind g := by
  induction a with
  | done a => rfl
  | fault e => rfl
  | report d rest ih => exact congrArg (report d) ih
  | observe next ih => exact congrArg observe (funext ih)
  | update r rest ih => exact congrArg (update r) ih

instance : LawfulMonad Analysis :=
  LawfulMonad.mk' Analysis bind_done (fun _ _ => rfl) bind_bind

def run (strict : Bool) : Analysis α → Registry → Outcome α
  | done a, r => ⟨r, [], .ok a⟩
  | fault e, r => ⟨r, [], .error (.fault e)⟩
  | report d rest, r =>
      if strict && d.isError then ⟨r, [d], .error (.halted d)⟩
      else
        let o := rest.run strict r
        { o with reported := d :: o.reported }
  | observe next, r => (next r).run strict r
  | update r rest, _ => rest.run strict r

def registry : Analysis Registry := observe done

def modify (f : Registry → Registry) : Analysis Unit := observe fun r => update (f r) (done ())

def emit (d : Diagnostic) : Analysis Unit := report d (done ())

def error (context message : String) (metadata : List (String × Value)) : Analysis Unit :=
  emit ⟨.error, context, message, .ofList metadata⟩

def warn (context message : String) (metadata : List (String × Value)) : Analysis Unit :=
  emit ⟨.warning, context, message, .ofList metadata⟩

instance : MonadLift (Except Fault) Analysis where
  monadLift
    | .ok a => done a
    | .error e => fault e

def ofLogged (m : Logged α) : Analysis α :=
  m.events.foldr report (match m.outcome with
    | .ok a => done a
    | .error e => fault e)

instance : MonadLift Logged Analysis where
  monadLift := ofLogged

end Analysis

end RequestSchema
