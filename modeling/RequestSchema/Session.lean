import RequestSchema.Request

/-!
Sessions: several analyses one after another. They share the registry of enumerations and a log of
diagnostics, which outlive a failure.
-/
namespace RequestSchema

/-- What analyses share. -/
structure Session where
  settings : Settings := {}
  factory : Anonymous.RequestFactory := .ok (.mapping [])
  registry : Registry := {}
  log : List Diagnostic := []

namespace Session

/-- A new session, in which some enumerations are known. -/
def start (settings : Settings) (factory : Anonymous.RequestFactory) (files : Files)
    (known : List Enumeration) : Session :=
  { settings
    factory
    registry := known.foldl Registry.register { roots := settings.roots, files } }

def perform {α : Type} (s : Session) (a : Analysis α) : Except Stop α × Session :=
  let o := a.run s.settings.strict s.registry
  (o.result, { s with registry := o.registry, log := s.log ++ o.reported })

def errors (s : Session) : List Diagnostic := s.log.filter (·.isError)

def warnings (s : Session) : List Diagnostic := s.log.filter (!·.isError)

def clear (s : Session) : Session := { s with log := [] }

end Session

end RequestSchema
