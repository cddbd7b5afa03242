import RequestSchema.Proofs.Source.Tracking.Signature
import RequestSchema.Source.Grammar.Expression

/-!
# Expressions at two places

The parsers of expressions track themselves, with grammars that track each other for what is nested
in them.
-/
namespace RequestSchema.Source

open Parse

def Parse.operation? (g : Grammar) (start : List Lexeme) (level : Nat) (e : Expr) :
    Parse (Option Expr) := do
  let next ← peek
  match (levelOf? next).filter (level ≤ ·) with
  | some found =>
      let operator ← advance
      let right ← g.operand (rightLevel found)
      return some (.binary (← textSince start) operator.string e right)
  | none =>
      if assignmentLevel < level || !next.isSymbol "?" then return none
      sign "?"
      if !(← atSign ":") then
        let _ ← g.expression
      sign ":"
      let _ ← g.operand (assignmentLevel + 1)
      return some (.ternary (← textSince start))

theorem operators_eq_iterate (g : Grammar) (start : List Lexeme) (level steps : Nat) (e : Expr) :
    operators g start level steps e = iterate (operation? g start level) steps e := by
  induction steps generalizing e with
  | zero => rfl
  | succ steps ih =>
    rw [operators, iterate, operation?]
    simp only [bind_assoc]
    congr 1
    funext next
    cases (levelOf? next).filter (level ≤ ·) with
    | some found => simp only [ih, bind_assoc, pure_bind]
    | none =>
      simp only [ih]
      split
      · rfl
      · simp only [bind_assoc]
        congr 1
        funext _
        congr 1
        funext chosen
        cases chosen <;> simp

theorem accesses_eq_iterate (g : Grammar) (start : List Lexeme) (steps : Nat) (e : Expr) :
    accesses g start steps e = iterate (access? g start) steps e := by
  induction steps generalizing e with
  | zero => rfl
  | succ steps ih =>
    rw [accesses, iterate]
    simp only [ih]
    congr 1
    funext o
    cases o <;> rfl

namespace Tracks

variable {known : List (List Lexeme × List Lexeme)} {g g' : Grammar} (inner : g.Tracked g')

section

include inner

theorem memberName :
    Tracks known (fun _ => 1) (fun _ => 0) id (Parse.memberName g) (Parse.memberName g') := by
  refine rest_bind fun start start' => ?_
  refine peek.bind_lexeme fun _ _ => ?_
  have text : Tracks ((start, start') :: known) (fun _ => 0) (fun _ => 0) id
    (Parse.textSince start) (Parse.textSince start') := textSince List.mem_cons_self
  refine ite (fun _ => ?_) fun _ => ?_
  · exact advance.bind_lexeme fun _ _ => text.last fun _ => rfl
  · have signs : Tracks ((start, start') :: known) (fun _ => 0) (fun _ => 1) id
        (Parse.many do if ← Parse.sign? "$" then return some () else return none)
        (Parse.many do if ← Parse.sign? "$" then return some () else return none) := by
      refine many_open_same ?_
      refine (sign? "$").bind_same fun found => ?_
      cases found <;> exact pure rfl rfl
    refine signs.bind_same fun _ => ?_
    refine peek.bind_lexeme fun _ _ => ?_
    refine ite (fun _ => ?_) fun _ => ?_
    · exact advance.bind_lexeme fun _ _ => text.last fun _ => rfl
    · refine (sign "\x7b").bind_same fun _ => ?_
      refine (inner.expression _).bind_same fun _ => ?_
      exact (sign "\x7d").bind_same fun _ => text.last fun _ => rfl

theorem access? {start start' : List Lexeme} (e : Expr) (member : (start, start') ∈ known) :
    Tracks known perPart (fun _ => 1) id (Parse.access? g start e) (Parse.access? g' start' e) := by
  refine peek.bind_lexeme fun next _ => ?_
  refine ite (fun _ => ?_) fun _ => ?_
  · refine advance.bind_lexeme fun _ _ => ?_
    refine (memberName inner).bind_same fun _ => ?_
    refine (atSign "(").bind_same fun called => ?_
    cases called with
    | true =>
      refine (arguments inner).bind_same fun _ => ?_
      exact (textSince member).bind_same fun _ => pure rfl rfl
    | false => exact (textSince member).bind_same fun _ => pure rfl rfl
  refine ite (fun _ => ?_) fun _ => ?_
  · refine (sign "::").bind_same fun _ => ?_
    refine peek.bind_lexeme fun _ _ => ?_
    refine (memberName inner).bind_same fun _ => ?_
    refine (atSign "(").bind_same fun called => ?_
    cases called with
    | true =>
      refine (arguments inner).bind_same fun _ => ?_
      exact (textSince member).bind_same fun _ => pure rfl rfl
    | false => exact (textSince member).bind_same fun _ => pure rfl rfl
  refine ite (fun _ => ?_) fun _ => ?_
  · refine (sign "[").bind_same fun _ => ?_
    refine (sign? "]").bind_same fun empty => ?_
    cases empty with
    | true => exact (textSince member).bind_same fun _ => pure rfl rfl
    | false =>
      refine (inner.expression _).bind_same fun _ => ?_
      refine (sign "]").bind_same fun _ => ?_
      exact (textSince member).bind_same fun _ => pure rfl rfl
  refine ite (fun _ => ?_) fun _ => ?_
  · refine (arguments inner).bind_same fun _ => ?_
    exact (textSince member).bind_same fun _ => pure rfl rfl
  refine ite (fun _ => ?_) fun _ => pure rfl rfl
  refine advance.bind_lexeme fun _ _ => ?_
  exact (textSince member).bind_same fun _ => pure rfl rfl

theorem assignment {start start' : List Lexeme} (e : Expr) (member : (start, start') ∈ known) :
    Tracks known (fun _ => 0) (fun _ => 1) id (Parse.assignment g start e)
      (Parse.assignment g' start' e) := by
  have continued : Tracks known (fun _ => 0) (fun _ => 1) id
      (do Parse.accesses g start ((← Parse.rest).length + 1) e)
      (do Parse.accesses g' start' ((← Parse.rest).length + 1) e) := by
    simp only [accesses_eq_iterate]
    exact iterate (fun e => access? inner e member) e
  rw [Parse.assignment, Parse.assignment, ← bind_assoc, ← bind_assoc]
  refine continued.bind_same fun e => ?_
  refine peek.bind_lexeme fun next _ => ?_
  refine ite (fun _ => pure rfl rfl) fun _ => ?_
  refine ite (fun _ => ?_) fun _ => ?_
  · refine (sign "=").bind_same fun _ => ?_
    refine (optionalSign "&").bind_same fun _ => ?_
    refine (inner.operand _ _).bind_same fun _ => ?_
    exact (textSince member).bind_same fun _ => pure rfl rfl
  refine ite (fun _ => ?_) fun _ => pure rfl rfl
  refine advance.bind_lexeme fun _ _ => ?_
  refine (inner.operand _ _).bind_same fun _ => ?_
  exact (textSince member).bind_same fun _ => pure rfl rfl

theorem referable :
    Tracks known (fun _ => 1) (fun _ => 1) id (Parse.referable g) (Parse.referable g') := by
  refine rest_bind fun start start' => ?_
  refine (sign? "&").bind_same fun found => ?_
  cases found with
  | true =>
    refine (inner.expression _).bind_same fun _ => ?_
    exact (textSince List.mem_cons_self).bind_same fun _ => pure rfl rfl
  | false => exact (inner.expression _).last fun _ => rfl

theorem entry : Tracks known (fun _ => 1) (fun _ => 1) id (Parse.entry g) (Parse.entry g') := by
  refine (sign? "...").bind_same fun spread => ?_
  cases spread with
  | true => exact (inner.expression _).bind_same fun _ => pure rfl rfl
  | false =>
    refine (referable inner).bind_same fun _ => ?_
    refine (sign? "=>").bind_same fun paired => ?_
    cases paired with
    | true => exact (referable inner).bind_same fun _ => pure rfl rfl
    | false => exact pure rfl rfl

omit inner in
/-- An entry that has been left out shows as none, whatever its line. -/
theorem slots_alike {slots slots' : List (Except Nat Entry)}
    (same : slots.map Except.toOption = slots'.map Except.toOption) :
    (slots.filterMap fun | .ok e => some e | .error _ => none) =
        (slots'.filterMap fun | .ok e => some e | .error _ => none) ∧
      (slots.filterMap fun | .ok _ => none | .error line => some line).length =
        (slots'.filterMap fun | .ok _ => none | .error line => some line).length := by
  induction slots generalizing slots' with
  | nil =>
    cases slots' with
    | nil => exact ⟨rfl, rfl⟩
    | cons slot' slots' => cases same
  | cons slot slots ih =>
    cases slots' with
    | nil => cases same
    | cons slot' slots' =>
      rw [List.map_cons, List.map_cons, List.cons.injEq] at same
      obtain ⟨head, tail⟩ := same
      obtain ⟨items, holes⟩ := ih tail
      cases slot <;> cases slot' <;> cases head <;>
        simp only [List.filterMap_cons, List.length_cons, items, holes, and_self]

theorem entries {close : String} :
    Tracks known (fun _ => 1) (fun _ => 0) (fun read => (read.1, read.2.length))
      (Parse.entries g close) (Parse.entries g' close) := by
  have slot : Tracks known (fun _ => 1) perPart (Option.map Except.toOption) (do
      let next ← Parse.peek
      if ← Parse.sign? close then return none
      else if ← Parse.sign? "," then return some (.error next.line)
      else
        let e ← Parse.entry g
        if !(← Parse.atSign close) then Parse.sign ","
        return some (.ok e) : Parse (Option (Except Nat Entry))) (do
      let next ← Parse.peek
      if ← Parse.sign? close then return none
      else if ← Parse.sign? "," then return some (.error next.line)
      else
        let e ← Parse.entry g'
        if !(← Parse.atSign close) then Parse.sign ","
        return some (.ok e)) := by
    refine peek.bind_lexeme fun next _ => ?_
    refine (sign? close).bind_same fun closed => ?_
    cases closed with
    | true => exact pure rfl rfl
    | false =>
      refine (sign? ",").bind_same fun hole => ?_
      cases hole with
      | true => exact pure rfl rfl
      | false =>
        refine (entry inner).bind_same fun e => ?_
        refine (atSign close).bind_same fun closing => ?_
        cases closing with
        | true => exact pure rfl rfl
        | false => exact (sign ",").bind_same fun _ => pure rfl rfl
  refine slot.many_closed.bind fun slots slots' same => pure ?_ rfl
  obtain ⟨items, holes⟩ := slots_alike same
  exact Prod.ext items holes

theorem array {start start' : List Lexeme} {close : String} (member : (start, start') ∈ known) :
    Tracks known (fun _ => 1) (fun _ => 1) id (Parse.array g start close)
      (Parse.array g' start' close) := by
  refine (entries inner).bind fun found found' same => ?_
  obtain ⟨items, holes⟩ := found
  obtain ⟨items', holes'⟩ := found'
  obtain ⟨rfl, count⟩ := Prod.mk.inj same
  have text : Tracks known (fun _ => 0) (fun _ => 0) id
      (do return Expr.array (← Parse.textSince start) items)
      (do return Expr.array (← Parse.textSince start') items) :=
    (textSince member).bind_same fun _ => pure rfl rfl
  cases holes with
  | nil =>
    cases holes' with
    | nil => exact text.last fun _ => rfl
    | cons line' holes' => cases count
  | cons line holes =>
    cases holes' with
    | nil => cases count
    | cons line' holes' =>
      refine (atSign "=").bind_same fun assigned => ?_
      refine ite (fun _ => ?_) fun _ => text.last fun _ => rfl
      refine of_fails fun c a d run => ?_
      cases run

theorem selectArm :
    Tracks known (fun _ => 1) (fun _ => 1) id (Parse.selectArm g) (Parse.selectArm g') := by
  refine (optionalWord "default").bind_same fun found => ?_
  refine ite (fun _ => ?_) fun _ => ?_
  · exact (sign "=>").bind_same fun _ => (inner.expression _).last fun _ => rfl
  · refine (inner.expression _).listUntil_same.bind_same fun tests => ?_
    refine ite (fun _ => ?_) fun _ => (inner.expression _).last fun _ => rfl
    exact fail_bind

theorem select {start start' : List Lexeme} (member : (start, start') ∈ known) :
    Tracks known (fun _ => 1) (fun _ => 0) id (Parse.select g start) (Parse.select g' start') := by
  refine (word "match").bind_same fun _ => ?_
  refine (sign "(").bind_same fun _ => ?_
  refine (inner.expression _).bind_same fun _ => ?_
  refine (sign ")").bind_same fun _ => ?_
  refine (sign "\x7b").bind_same fun _ => ?_
  refine (selectArm inner).listUntil_same.bind_same fun _ => ?_
  exact (textSince member).bind_same fun _ => pure rfl rfl

theorem computedClass :
    Tracks known (fun _ => 1) (fun _ => 1) id (Parse.computedClass g)
      (Parse.computedClass g') := by
  refine (sign? "(").bind_same fun grouped => ?_
  cases grouped with
  | true =>
    refine (inner.expression _).bind_same fun _ => ?_
    exact (sign ")").last fun _ => rfl
  | false =>
    refine (optionalSign "$").bind_same fun _ => ?_
    refine whenever (optionalSign "\x7b") ?_
    refine (ofKind .var).bind_lexeme fun _ _ => ?_
    refine (optionalSign "\x7d").bind_same fun _ => ?_
    refine (many_open_same ?_).bind_same fun _ => pure rfl rfl
    refine (optionalSign "->").bind_same fun _ => ?_
    refine (optionalSign "?->").bind_same fun _ => ?_
    refine (optionalSign "::").bind_same fun _ => ?_
    refine ite (fun _ => ?_) fun _ => ?_
    · exact (memberName inner).bind_same fun _ => pure rfl rfl
    · refine (sign? "[").bind_same fun found => ?_
      cases found with
      | true =>
        refine (inner.expression _).bind_same fun _ => ?_
        exact (sign "]").bind_same fun _ => pure rfl rfl
      | false => exact pure rfl rfl

omit inner in
theorem ancestors :
    Tracks known (fun _ => 0) (fun _ => 1) id Parse.ancestors Parse.ancestors := by
  have name : Tracks known (fun _ => 1) (fun _ => 1) Lexeme.unlined (Parse.ofKind .name)
      (Parse.ofKind .name) := (ofKind .name).last fun _ => rfl
  have named (w : String) : Tracks known (fun _ => 0) (fun _ => 1) id (do
      if ← Parse.word? w then
        let _ ← Parse.commaSeparated (Parse.ofKind .name)
      return ForInStep.yield PUnit.unit) (do
      if ← Parse.word? w then
        let _ ← Parse.commaSeparated (Parse.ofKind .name)
      return ForInStep.yield PUnit.unit) := by
    refine (optionalWord w).bind_same fun _ => ?_
    exact whenever name.commaSeparated (pure rfl rfl)
  simp only [Parse.ancestors, List.forIn_cons, List.forIn_nil, bind_pure_unit]
  refine (named "extends").bind_same fun step => ?_
  cases step with
  | done => exact pure rfl rfl
  | yield =>
    refine (named "implements").bind_same fun step => ?_
    cases step <;> exact pure rfl rfl

theorem anonymousClass :
    Tracks known (fun _ => 1) (fun _ => 0) ClassBody.unlined (Parse.anonymousClass g)
      (Parse.anonymousClass g') := by
  refine peek.bind_lexeme fun _ _ => ?_
  refine (attributes inner).bind_same fun _ => ?_
  refine modifiers.bind_same fun _ => ?_
  refine (word "class").bind_same fun _ => ?_
  refine (atSign "(").bind_same fun _ => ?_
  refine whenever (arguments inner) ?_
  refine ancestors.bind_same fun _ => ?_
  refine (inner.members _).bind fun members members' same => pure ?_ rfl
  rw [ClassBody.unlined, ClassBody.unlined, same]

theorem construct {start start' : List Lexeme} (member : (start, start') ∈ known) :
    Tracks known (fun _ => 1) (fun _ => 1) id (Parse.construct g start)
      (Parse.construct g' start') := by
  have text (name : Option String) (arguments : List Expr) :
      Tracks known (fun _ => 0) (fun _ => 0) id
        (do return Expr.construct (← Parse.textSince start) name arguments)
        (do return Expr.construct (← Parse.textSince start') name arguments) :=
    (textSince member).bind_same fun _ => pure rfl rfl
  refine (word "new").bind_same fun _ => ?_
  refine (atSign "#[").bind_same fun _ => ?_
  refine (atWord ["class", "readonly"]).bind_same fun _ => ?_
  refine ite (fun _ => ?_) fun _ => ?_
  · have declared : Tracks known (fun _ => 1) (fun _ => 0) ClassBody.unlined
        (Parse.declare (Parse.anonymousClass g) .anonymousClass)
        (Parse.declare (Parse.anonymousClass g') .anonymousClass) :=
      (anonymousClass inner).declare fun _ _ same => congrArg Declaration.anonymousClass same
    exact declared.bind fun _ _ _ => (text _ _).last fun _ => rfl
  have behind (name : Option String) : Tracks known (fun _ => 0) (fun _ => 1) id (do
      let arguments ← if ← Parse.atSign "(" then Parse.arguments g else Pure.pure []
      return Expr.construct (← Parse.textSince start) name arguments) (do
      let arguments ← if ← Parse.atSign "(" then Parse.arguments g' else Pure.pure []
      return Expr.construct (← Parse.textSince start') name arguments) := by
    refine (atSign "(").bind_same fun called => ?_
    cases called with
    | true =>
      refine (arguments inner).bind_same fun _ => ?_
      exact (text _ _).last fun _ => rfl
    | false => exact (text _ _).last fun _ => rfl
  refine peek.bind_lexeme fun next _ => ?_
  refine ite (fun _ => ?_) fun _ => ?_
  · refine advance.bind_lexeme fun _ _ => ?_
    exact (behind _).last fun _ => rfl
  · refine (computedClass inner).bind_same fun _ => ?_
    exact (behind _).last fun _ => rfl

omit inner in
theorem atEnd : Tracks known (fun _ => 0) (fun _ => 1) id Parse.atEnd Parse.atEnd :=
  peek.bind_lexeme fun _ _ => pure rfl rfl

theorem generated :
    Tracks known (fun _ => 1) (fun _ => 1) id (Parse.generated g) (Parse.generated g') := by
  refine (word "yield").bind_same fun _ => ?_
  refine atEnd.bind_same fun ended => ?_
  cases ended with
  | true => exact pure rfl rfl
  | false =>
    refine (optionalWord "from").bind_same fun _ => ?_
    refine (inner.expression _).bind_same fun _ => ?_
    refine (sign? "=>").bind_same fun paired => ?_
    cases paired with
    | true => exact (inner.expression _).bind_same fun _ => pure rfl rfl
    | false => exact pure rfl rfl

omit inner in
theorem atClosure : Tracks known (fun _ => 0) (fun _ => 2) id Parse.atClosure Parse.atClosure :=
  peek.bind_lexeme fun _ _ => peekSecond.bind_lexeme fun _ _ => pure rfl rfl

/-- What a word expression leaves to its caller when it is none. -/
def unlessWord : Option Expr → Nat
  | some _ => 1
  | none => 2

theorem wordExpression? {start start' : List Lexeme} (member : (start, start') ∈ known) :
    Tracks known perPart unlessWord id (Parse.wordExpression? g start)
      (Parse.wordExpression? g' start') := by
  have whole : Tracks known (fun _ => 0) (fun _ => 0) id
      (do return some (Expr.other (← Parse.textSince start)))
      (do return some (Expr.other (← Parse.textSince start'))) :=
    (textSince member).bind_same fun _ => pure rfl rfl
  refine peek.bind_lexeme fun next _ => ?_
  refine peekSecond.bind_lexeme fun second _ => ?_
  refine ite (fun _ => ?_) fun _ => ?_
  · refine (construct inner member).bind_same fun _ => ?_
    exact (assignment inner _ member).bind_same fun _ => pure rfl rfl
  refine ite (fun _ => ?_) fun _ => ?_
  · exact (select inner member).bind_same fun _ => pure rfl rfl
  refine ite (fun _ => ?_) fun _ => ?_
  · refine advance.bind_lexeme fun _ _ => ?_
    refine (sign "(").bind_same fun _ => ?_
    refine (array inner member).bind_same fun _ => ?_
    exact (assignment inner _ member).bind_same fun _ => pure rfl rfl
  refine ite (fun _ => ?_) fun _ => ?_
  · refine advance.bind_lexeme fun _ _ => ?_
    refine (sign "(").bind_same fun _ => ?_
    refine (entries inner).bind fun _ _ _ => ?_
    refine (textSince member).bind_same fun _ => ?_
    exact (assignment inner _ member).bind_same fun _ => pure rfl rfl
  refine ite (fun _ => ?_) fun _ => ?_
  · refine advance.bind_lexeme fun _ _ => ?_
    refine (inner.operand _ _).bind_same fun _ => ?_
    exact whole.last fun | none | some _ => rfl
  refine ite (fun _ => ?_) fun _ => ?_
  · refine advance.bind_lexeme fun _ _ => ?_
    refine (inner.operand _ _).bind_same fun _ => ?_
    exact whole.last fun | none | some _ => rfl
  refine ite (fun _ => ?_) fun _ => ?_
  · refine (generated inner).bind_same fun _ => ?_
    exact whole.last fun | none | some _ => rfl
  refine atClosure.bind_same fun _ => ?_
  refine ite (fun _ => ?_) fun _ => pure rfl rfl
  refine (optionalWord "static").bind_same fun _ => ?_
  refine (closure inner).bind_same fun _ => ?_
  exact whole.last fun | none | some _ => rfl

theorem parenthesised {start start' : List Lexeme} (member : (start, start') ∈ known) :
    Tracks known (fun _ => 1) (fun _ => 1) id (Parse.parenthesised g start)
      (Parse.parenthesised g' start') := by
  refine (sign "(").bind_same fun _ => ?_
  refine (atWord castTypes).bind_same fun _ => ?_
  refine peekSecond.bind_lexeme fun _ _ => ?_
  refine ite (fun _ => ?_) fun _ => ?_
  · refine advance.bind_lexeme fun _ _ => ?_
    refine (sign ")").bind_same fun _ => ?_
    refine (inner.operand _ _).bind_same fun _ => ?_
    exact (textSince member).bind_same fun _ => pure rfl rfl
  · refine (inner.expression _).bind_same fun _ => ?_
    refine (sign ")").bind_same fun _ => ?_
    refine (textSince member).bind_same fun _ => ?_
    exact (assignment inner _ member).last fun _ => rfl

theorem signExpression {start start' : List Lexeme} (member : (start, start') ∈ known) :
    Tracks known (fun _ => 1) (fun _ => 1) id (Parse.signExpression g start)
      (Parse.signExpression g' start') := by
  refine peek.bind_lexeme fun next _ => ?_
  simp only [Lexeme.string_line]
  have text (make : String → Expr) : Tracks known (fun _ => 0) (fun _ => 0) id
      (do return make (← Parse.textSince start)) (do return make (← Parse.textSince start')) :=
    (textSince member).bind_same fun _ => pure rfl rfl
  have negated : Tracks known (fun _ => 1) (fun _ => 1) id (do
      let _ ← Parse.advance
      let operand ← g.operand unaryLevel
      return Expr.unary (← Parse.textSince start) operand) (do
      let _ ← Parse.advance
      let operand ← g'.operand unaryLevel
      return Expr.unary (← Parse.textSince start') operand) := by
    refine advance.bind_lexeme fun _ _ => ?_
    refine (inner.operand _ _).bind_same fun _ => ?_
    exact (text _).last fun _ => rfl
  have stepped : Tracks known (fun _ => 1) (fun _ => 1) id (do
      let _ ← Parse.advance
      let _ ← g.operand unaryLevel
      return Expr.other (← Parse.textSince start)) (do
      let _ ← Parse.advance
      let _ ← g'.operand unaryLevel
      return Expr.other (← Parse.textSince start')) := by
    refine advance.bind_lexeme fun _ _ => ?_
    refine (inner.operand _ _).bind_same fun _ => ?_
    exact (text _).last fun _ => rfl
  generalize next.string = s
  split
  · exact negated.last fun _ => rfl
  · exact negated.last fun _ => rfl
  · exact negated.last fun _ => rfl
  · exact negated.last fun _ => rfl
  · exact stepped.last fun _ => rfl
  · exact stepped.last fun _ => rfl
  · exact stepped.last fun _ => rfl
  · refine (attributes inner).bind_same fun _ => ?_
    refine (optionalWord "static").bind_same fun _ => ?_
    refine (closure inner).bind_same fun _ => ?_
    exact (text _).last fun _ => rfl
  · exact (parenthesised inner member).last fun _ => rfl
  · refine advance.bind_lexeme fun _ _ => ?_
    refine (array inner member).bind_same fun _ => ?_
    exact (assignment inner _ member).last fun _ => rfl
  · refine (memberName inner).bind_same fun _ => ?_
    refine (textSince member).bind_same fun _ => ?_
    exact (assignment inner _ member).last fun _ => rfl
  · exact fail

theorem unary : Tracks known (fun _ => 1) (fun _ => 1) id (Parse.unary g) (Parse.unary g') := by
  refine rest_bind fun start start' => ?_
  refine peek.bind_lexeme fun next line => ?_
  have leaf (make : String → Expr) : Tracks ((start, start') :: known) (fun _ => 1) (fun _ => 1) id
      (do
        let _ ← Parse.advance
        Parse.assignment g start (make next.string))
      (do
        let _ ← Parse.advance
        Parse.assignment g' start' (make next.string)) := by
    refine advance.bind_lexeme fun _ _ => ?_
    exact (assignment inner _ List.mem_cons_self).last fun _ => rfl
  obtain ⟨kind, lead, text, line⟩ := next
  cases kind with
  | name =>
    refine (wordExpression? inner List.mem_cons_self).bind_same fun read => ?_
    cases read with
    | some e => exact pure rfl rfl
    | none =>
      refine ite (fun _ => fail) fun _ => ?_
      exact (leaf _).last fun _ => rfl
  | symbol => exact (signExpression inner List.mem_cons_self).last fun _ => rfl
  | var => exact (leaf _).last fun _ => rfl
  | string => exact (leaf _).last fun _ => rfl
  | template => exact (leaf _).last fun _ => rfl
  | heredoc => exact (leaf _).last fun _ => rfl
  | integer => exact (leaf _).last fun _ => rfl
  | float => exact (leaf _).last fun _ => rfl
  | _ => exact fail

theorem operation? {start start' : List Lexeme} (level : Nat) (e : Expr)
    (member : (start, start') ∈ known) :
    Tracks known perPart (fun _ => 1) id (Parse.operation? g start level e)
      (Parse.operation? g' start' level e) := by
  refine peek.bind_lexeme fun next _ => ?_
  change Tracks known _ _ _ (match (levelOf? next).filter _ with | some found => _ | none => _)
    (match (levelOf? next).filter _ with | some found => _ | none => _)
  cases (levelOf? next).filter (level ≤ ·) with
  | some found =>
    refine advance.bind_lexeme fun _ _ => ?_
    refine (inner.operand _ _).bind_same fun _ => ?_
    exact (textSince member).bind_same fun _ => pure rfl rfl
  | none =>
    refine ite (fun _ => pure rfl rfl) fun _ => ?_
    refine (sign "?").bind_same fun _ => ?_
    refine (atSign ":").bind_same fun _ => ?_
    refine whenever (inner.expression _) ?_
    refine (sign ":").bind_same fun _ => ?_
    refine (inner.operand _ _).bind_same fun _ => ?_
    exact (textSince member).bind_same fun _ => pure rfl rfl

theorem operand (level : Nat) :
    Tracks known (fun _ => 1) (fun _ => 1) id (Parse.operand g level)
      (Parse.operand g' level) := by
  refine rest_bind fun start start' => ?_
  refine (unary inner).bind_same fun first => ?_
  simp only [operators_eq_iterate]
  exact (iterate (fun e => operation? inner level e List.mem_cons_self) first).last fun _ => rfl

theorem expression :
    Tracks known (fun _ => 1) (fun _ => 1) id (Parse.expression g) (Parse.expression g') :=
  operand inner 0

end

end Tracks

end RequestSchema.Source
