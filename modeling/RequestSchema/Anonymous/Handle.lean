import RequestSchema.Fault
import RequestSchema.Value

/-!
Handles on anonymous classes: where a class was written, and how an object of it behaves. The
behaviour is given by the class. It may depend on all that has been asked of the object before, and
a call may change what an earlier one has returned.
-/
namespace RequestSchema.Anonymous

/-- An exception that was raised: the name of its class, its text, and whether it is an ordinary
one. The others are meant to end the program, and nothing here catches them. An exception that has
no text counts as the one that is raised when its text is asked for, which is not caught either. -/
structure Raised where
  kind : String
  text : String
  ordinary : Bool := true
  deriving DecidableEq, Repr

/-- What can be asked of an object: to be made, to take a request, and to call a method. -/
inductive Call where
  | create
  | populate (request : Value)
  | invoke (method : String)

/-- What has been asked of an object, in order. A call that raises has been asked as well. -/
abbrev History := List Call

/-- The entries of a dictionary. Which keys it has is fixed when it is copied; the values are
shared, so they are those behind the calls up to now. -/
abbrev Entries := List (Key × (History → Value))

/-- The entries with the values that they have behind some calls. -/
def Entries.valuesAt (calls : History) (entries : Entries) : OrderedMap Key Value :=
  .ofList (entries.map fun (key, value) => (key, value calls))

/-- What a method returns. -/
inductive Returned where
  | dictionary (entries : Entries)
  /-- a dictionary that raises an exception when it is copied -/
  | uncopyable (e : Raised)
  /-- a mapping that is no dictionary -/
  | mapping
  | other

/-- The copy of a dictionary; anything else counts as an empty one. An exception that the copying
raises is not caught. -/
def Returned.copy : Returned → Except Fault Entries
  | dictionary entries => .ok entries
  | uncopyable e => .error (.raised e.kind e.text)
  | mapping => .ok []
  | other => .ok []

/-- How a class and an object of it behave. -/
structure Behaviour where
  hasMethod : History → String → Bool := fun _ _ => false
  /-- whether the class has a property for the request -/
  hasRequest : History → Bool := fun _ => false
  create : Except Raised Unit := .ok ()
  populate : Value → Except Raised Unit := fun _ => .ok ()
  invoke : History → String → Except Raised Returned := fun _ _ => .ok .other

/-- A handle on a class: the name under which it is reported, the file and the lines where it was
written, its namespace, and its behaviour. -/
structure Handle where
  name : String
  file : Option String := none
  startLine : Option Int := none
  endLine : Option Int := none
  space : String := ""
  behaviour : Behaviour := {}

namespace Handle

/-- What a method returns; a class without the method returns nothing of use. -/
def invoke (h : Handle) (before : History) (name : String) : Except Raised Returned :=
  if h.behaviour.hasMethod before name then h.behaviour.invoke before name else .ok .other

/-- What has been asked of an object once a method has been called, if there is one. -/
def behind (h : Handle) (before : History) (name : String) : History :=
  if h.behaviour.hasMethod before name then before ++ [.invoke name] else before

end Handle

end RequestSchema.Anonymous
