import RequestSchema.Fault
import RequestSchema.Value

/-!
Diagnostics: what an analysis reports besides its result, and computations that report them. A
computation of the type `Emit ε α` lists events of type `ε` in order and ends with a value or with a
fault; the events before a fault are kept.
-/
namespace RequestSchema

/-- How serious a diagnostic is. -/
inductive Severity where
  | error
  | warning
  deriving DecidableEq, Repr

def Severity.name : Severity → String
  | error => "error"
  | warning => "warning"

/-- A report on a part of the analysis. -/
structure Diagnostic where
  severity : Severity
  context : String
  message : String
  metadata : OrderedMap String Value := .empty

namespace Diagnostic

def isError (d : Diagnostic) : Bool := d.severity = .error

def kind (d : Diagnostic) : Value := (d.metadata.get? "error_type").getD .null

def hasKind (name : String) (d : Diagnostic) : Bool := d.kind.text? = some name

/-- The text that reports an error which stops the analysis. -/
def stopMessage (d : Diagnostic) : String := "Error in " ++ d.context ++ ": " ++ d.message

end Diagnostic

/-- Events in order, and how the computation ends. -/
structure Emit (ε α : Type) where
  events : List ε
  outcome : Except Fault α

namespace Emit

variable {ε α β : Type}

def after (events : List ε) (m : Emit ε α) : Emit ε α := ⟨events ++ m.events, m.outcome⟩

/-- One computation after another, which runs only if the first one ends with a value. -/
def bind (m : Emit ε α) (f : α → Emit ε β) : Emit ε β :=
  match m.outcome with
  | .ok a => (f a).after m.events
  | .error fault => ⟨m.events, .error fault⟩

instance : Monad (Emit ε) where
  pure a := ⟨[], .ok a⟩
  bind := Emit.bind

/-- After a value, the second computation adds its events and decides how both end. -/
theorem bind_ok {m : Emit ε α} {a : α} (f : α → Emit ε β) (ends : m.outcome = .ok a) :
    m >>= f = (f a).after m.events := by
  change Emit.bind m f = _
  simp only [Emit.bind, ends]

/-- After a fault, the second computation does not run. -/
theorem bind_error {m : Emit ε α} {fault : Fault} (f : α → Emit ε β)
    (ends : m.outcome = .error fault) : m >>= f = ⟨m.events, .error fault⟩ := by
  change Emit.bind m f = _
  simp only [Emit.bind, ends]

theorem mem_events_bind {m : Emit ε α} {f : α → Emit ε β} {e : ε} :
    e ∈ (m >>= f).events ↔ e ∈ m.events ∨ ∃ a, m.outcome = .ok a ∧ e ∈ (f a).events := by
  cases ends : m.outcome with
  | error fault => simp [bind_error f ends]
  | ok a => simp [bind_ok f ends, after]

instance : LawfulMonad (Emit ε) := by
  refine LawfulMonad.mk' (Emit ε) ?_ (fun a f => rfl) ?_
  · intro α m
    obtain ⟨events, outcome⟩ := m
    cases outcome <;> simp [Functor.map, Emit.bind, Emit.after]
  · intro α β γ m f g
    obtain ⟨events, outcome⟩ := m
    cases outcome with
    | error fault => rfl
    | ok a =>
      change Emit.bind ((f a).after events) g = (Emit.bind (f a) g).after events
      cases ends : (f a).outcome <;> simp [Emit.bind, Emit.after, ends]

def event (e : ε) : Emit ε Unit := ⟨[e], .ok ()⟩

instance : MonadLift (Except Fault) (Emit ε) where
  monadLift outcome := ⟨[], outcome⟩

theorem liftM_ok (a : α) : (liftM (Except.ok a : Except Fault α) : Emit ε α) = pure a := rfl

def mapEvents {δ : Type} (f : ε → δ) (m : Emit ε α) : Emit δ α := ⟨m.events.map f, m.outcome⟩

end Emit

abbrev Logged := Emit Diagnostic

def Logged.warn (context message : String) (metadata : List (String × Value)) : Logged Unit :=
  .event ⟨.warning, context, message, .ofList metadata⟩

end RequestSchema
