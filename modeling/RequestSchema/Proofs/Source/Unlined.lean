import RequestSchema.Source.Outline

/-!
# Sources without their lines

A tree tells on which lines its classes, methods, properties and returns stand. What is left of a
source without these lines still tells its namespace, its imports and its enumerations, and its
classes with their methods.
-/
namespace RequestSchema.Source

mutual

/-- A statement without its lines. -/
def Stmt.unlined : Stmt → Stmt
  | .expression e => .expression e
  | .result _ value => .result 0 value
  | .choice arms => .choice (Stmt.unlinedArms arms)
  | .block body => .block (Stmt.unlinedAll body)
  | .loop body rest => .loop (Stmt.unlinedAll body) (Stmt.unlinedAll rest)
  | .attempt body handlers => .attempt (Stmt.unlinedAll body) (Stmt.unlinedAll handlers)
  | .other => .other

def Stmt.unlinedAll : List Stmt → List Stmt
  | [] => []
  | s :: rest => s.unlined :: Stmt.unlinedAll rest

def Stmt.unlinedArms : List Arm → List Arm
  | [] => []
  | .arm guard body :: rest => .arm guard (Stmt.unlinedAll body) :: Stmt.unlinedArms rest

end

theorem Stmt.unlinedAll_eq_map (body : List Stmt) :
    Stmt.unlinedAll body = body.map Stmt.unlined := by
  induction body with
  | nil => rfl
  | cons s rest ih => rw [Stmt.unlinedAll, ih, List.map_cons]

def Arm.unlined : Arm → Arm
  | .arm guard body => .arm guard (body.map Stmt.unlined)

theorem Stmt.unlinedArms_eq_map (arms : List Arm) :
    Stmt.unlinedArms arms = arms.map Arm.unlined := by
  induction arms with
  | nil => rfl
  | cons a rest ih =>
    obtain ⟨guard, body⟩ := a
    rw [Stmt.unlinedArms, ih, Stmt.unlinedAll_eq_map, List.map_cons, Arm.unlined]

def Method.unlined (m : Method) : Method :=
  { m with line := 0, body := m.body.map (List.map Stmt.unlined) }

def Member.unlined : Member → Member
  | .method m => .method m.unlined
  | .property p => .property { p with line := 0 }
  | .case c => .case c
  | .other => .other

def ClassBody.unlined (c : ClassBody) : ClassBody := ⟨0, c.members.map Member.unlined⟩

def Declaration.unlined : Declaration → Declaration
  | .space name => .space name
  | .imports text items => .imports text items
  | .namedClass name body => .namedClass name body.unlined
  | .anonymousClass body => .anonymousClass body.unlined
  | .enumeration name header body => .enumeration name header body.unlined

/-! ## Members of a class -/

namespace ClassBody

theorem method?_unlined (c : ClassBody) (name : String) :
    c.unlined.method? name = (c.method? name).map Method.unlined := by
  have methods : c.unlined.methods = c.methods.map Method.unlined := by
    simp only [methods, unlined, List.filterMap_map, List.map_filterMap]
    congr 1
    funext m
    cases m <;> rfl
  rw [method?, method?, methods, List.find?_map]
  rfl

theorem cases_unlined (c : ClassBody) : c.unlined.cases = c.cases := by
  simp only [cases, unlined, List.filterMap_map]
  congr 1
  funext m
  cases m <;> rfl

end ClassBody

/-! ## The outline of a source -/

namespace SourceTree

variable {tree : SourceTree} {ds : List Declaration}
  (view : tree.declarations.map Declaration.unlined = ds)

include view

theorem namespace?_of_unlined : tree.namespace? = (mk [] ds).namespace? := by
  subst view
  rw [namespace?, namespace?, List.findSome?_map]
  congr 2
  funext d
  cases d <;> rfl

theorem aliases_of_unlined : tree.aliases = (mk [] ds).aliases := by
  subst view
  rw [aliases, aliases, List.flatMap_map]
  congr 2
  funext d
  cases d <;> rfl

theorem enumerations_of_unlined : tree.enumerations = (mk [] ds).enumerations := by
  have space := namespace?_of_unlined view
  subst view
  rw [enumerations, enumerations, List.filterMap_map, ← space]
  congr 1
  funext d
  cases d with
  | enumeration name header body =>
    simp only [Function.comp_apply, Declaration.unlined, enumerationOf, ClassBody.cases_unlined]
  | space name | imports text items | namedClass name body | anonymousClass body => rfl

theorem class?_of_unlined (name : String) :
    (tree.class? name).map ClassBody.unlined = (mk [] ds).class? name := by
  subst view
  rw [class?, class?, List.findSome?_map, List.map_findSome?]
  congr 1
  funext d
  cases d with
  | namedClass name body => simp only [Function.comp_apply, Declaration.unlined]; split <;> rfl
  | space name | imports text items | anonymousClass body | enumeration name header body => rfl

theorem anonymousClass?_of_unlined :
    tree.anonymousClass?.map ClassBody.unlined = (mk [] ds).anonymousClass? := by
  subst view
  rw [anonymousClass?, anonymousClass?, List.findSome?_map, List.map_findSome?]
  congr 1
  funext d
  cases d <;> rfl

end SourceTree

end RequestSchema.Source
