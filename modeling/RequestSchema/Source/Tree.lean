/-!
Trees of a source text: its expressions, statements and declarations, as far as the rules of a
request depend on them. Every expression carries its source text; expressions whose parts do not
matter have nothing else.
-/
namespace RequestSchema.Source

mutual

/-- An expression with its source text. -/
inductive Expr where
  | var (text : String)
  /-- a quoted text without interpolation -/
  | string (text : String)
  /-- a quoted text with interpolated expressions -/
  | template (text : String)
  /-- a text between two lines with a marker -/
  | heredoc (text : String)
  | integer (text : String)
  | float (text : String)
  /-- a name that stands for a constant, the truth values included -/
  | constant (text : String)
  | null (text : String)
  | parens (text : String) (inner : Expr)
  | array (text : String) (entries : List Entry)
  /-- an operand behind a sign or a negation -/
  | unary (text : String) (operand : Expr)
  | binary (text operator : String) (left right : Expr)
  | ternary (text : String)
  /-- a choice between the results of several arms -/
  | select (text : String) (results : List Expr)
  | call (text callee : String) (arguments : List Expr)
  /-- the call of a method of an object -/
  | method (text : String) (receiver : Expr) (name : String) (arguments : List Expr)
  /-- the call of a method of a class -/
  | static (text scope name : String) (arguments : List Expr)
  /-- a new object of a class, which has a name unless it is computed or anonymous -/
  | construct (text : String) (name : Option String) (arguments : List Expr)
  | classConstant (text : String)
  /-- a property of an object -/
  | member (text : String)
  | index (text : String) (base : Expr) (key : Option Expr)
  | assign (text : String) (target value : Expr)
  /-- an assignment that combines the old value with an operand -/
  | augment (text operator : String) (target value : Expr)
  | other (text : String)

/-- An entry of an array literal. -/
inductive Entry where
  | item (value : Expr)
  | pair (key value : Expr)
  | spread (value : Expr)

end

instance : Inhabited Expr := ⟨.other ""⟩

namespace Expr

def text : Expr → String
  | var text | string text | template text | heredoc text | integer text | float text
  | constant text | null text | parens text _ | array text _ | unary text _ | binary text _ _ _
  | ternary text | select text _ | call text _ _ | method text _ _ _ | static text _ _ _
  | construct text _ _ | classConstant text | member text | index text _ _ | assign text _ _
  | augment text _ _ _ | other text => text

def unwrap : Expr → Expr
  | parens _ inner => inner.unwrap
  | e => e

end Expr

/-- The test in front of an arm of a choice. -/
inductive Guard where
  | test (e : Expr)
  /-- a subject is compared with a value -/
  | equals (subject value : Expr)

mutual

/-- A statement. -/
inductive Stmt where
  | expression (e : Expr)
  /-- the end of the method on a line, with the value that it returns -/
  | result (line : Nat) (value : Option Expr)
  | choice (arms : List Arm)
  | block (body : List Stmt)
  /-- a loop; `rest` are statements of the body behind the one that is followed as its path -/
  | loop (body rest : List Stmt)
  /-- statements whose failure is handled by others -/
  | attempt (body handlers : List Stmt)
  | other

/-- An arm of a choice; the arm that is taken when no test holds has no guard. -/
inductive Arm where
  | arm (guard : Option Guard) (body : List Stmt)

end

instance : Inhabited Stmt := ⟨.other⟩

def Arm.guard : Arm → Option Guard
  | arm guard _ => guard

def Arm.body : Arm → List Stmt
  | arm _ body => body

/-- A method of a class; one without a body is abstract. -/
structure Method where
  name : String
  line : Nat
  text : String
  body : Option (List Stmt)

/-- A declaration of properties of a class. -/
structure Property where
  names : List String
  line : Nat
  text : String

/-- A case of an enumeration. -/
structure Case where
  name : String
  value : Option Expr

/-- A member of a class. -/
inductive Member where
  | method (m : Method)
  | property (p : Property)
  | case (c : Case)
  | other

/-- The line on which a class begins, and its members in order. -/
structure ClassBody where
  line : Nat
  members : List Member

namespace ClassBody

def methods (c : ClassBody) : List Method :=
  c.members.filterMap fun | .method m => some m | _ => none

def properties (c : ClassBody) : List Property :=
  c.members.filterMap fun | .property p => some p | _ => none

def cases (c : ClassBody) : List Case :=
  c.members.filterMap fun | .case c => some c | _ => none

end ClassBody

/-- A name that an import introduces: the qualified name that it stands for, without a backslash in
front, and the name by which it is used, if one is given. -/
structure Import where
  /-- whether a class is imported, and not a function or a constant -/
  isClass : Bool
  name : String
  short : Option String
  deriving DecidableEq, Repr

/-- A declaration of a source. -/
inductive Declaration where
  /-- the namespace that begins here; it may be the unnamed one -/
  | space (name : String)
  /-- imports in one statement, with its text -/
  | imports (text : String) (items : List Import)
  | namedClass (name : String) (body : ClassBody)
  | anonymousClass (body : ClassBody)
  /-- an enumeration with the text in front of its members -/
  | enumeration (name header : String) (body : ClassBody)

/-- A source: its top statements, and its declarations in the order in which they begin, wherever
they stand. -/
structure SourceTree where
  statements : List Stmt
  declarations : List Declaration

end RequestSchema.Source
