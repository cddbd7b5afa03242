import RequestSchema.Proofs.Source.Tracking.Expression
import RequestSchema.Source.Grammar.Class

/-!
# Classes at two places

The parsers of members, and of the declarations that hold them, track themselves up to the lines of
what they read.
-/
namespace RequestSchema.Source

def Parse.otherNames (g : Grammar) : Parse (List String) := many do
  if ← sign? "," then return some (← propertyItem g).1 else return none

def Parse.propertyTail (g : Grammar) (start : List Lexeme) (line : Nat) : Parse Member := do
  if (← peek).kind != .var then type
  let (first, ended) ← propertyItem g
  if ended then return .property ⟨[first], line, ← textSince start⟩
  let others ← otherNames g
  endStatement
  return .property ⟨first :: others, line, ← textSince start⟩

namespace Tracks

open Parse

variable {known : List (List Lexeme × List Lexeme)} {g g' : Grammar} (inner : g.Tracked g')

theorem endStatement :
    Tracks known (fun _ => 1) (fun _ => 0) id Parse.endStatement Parse.endStatement := by
  refine peek.bind_lexeme fun _ _ => ?_
  refine ite (fun _ => ?_) fun _ => (sign ";").last fun _ => rfl
  exact advance.bind_lexeme fun _ _ => pure rfl rfl

theorem traitUse : Tracks known (fun _ => 1) (fun _ => 0) id Parse.traitUse Parse.traitUse := by
  have name : Tracks known (fun _ => 1) (fun _ => 1) Lexeme.unlined (Parse.ofKind .name)
      (Parse.ofKind .name) := (ofKind .name).last fun _ => rfl
  refine (word "use").bind_same fun _ => ?_
  refine name.commaSeparated.bind fun _ _ _ => ?_
  refine braced?.bind_same fun braced => ?_
  cases braced with
  | true => exact pure rfl rfl
  | false => exact endStatement.last fun _ => rfl

section

include inner

theorem constantItem :
    Tracks known (fun _ => 1) (fun _ => 1) id (Parse.constantItem g) (Parse.constantItem g') := by
  refine (ofKind .name).bind_lexeme fun _ _ => ?_
  refine (sign "=").bind_same fun _ => ?_
  exact (inner.expression _).bind_same fun _ => pure rfl rfl

theorem constants :
    Tracks known (fun _ => 1) (fun _ => 0) id (Parse.constants g) (Parse.constants g') := by
  refine (word "const").bind_same fun _ => ?_
  refine peekSecond.bind_lexeme fun _ _ => ?_
  refine whenever type ?_
  refine (constantItem inner).commaSeparated_same.bind_same fun _ => ?_
  exact endStatement.last fun _ => rfl

theorem hook : Tracks known (fun _ => 1) (fun _ => 0) id (Parse.hook g) (Parse.hook g') := by
  refine (attributes inner).bind_same fun _ => ?_
  refine modifiers.bind_same fun _ => ?_
  refine (optionalSign "&").bind_same fun _ => ?_
  refine (ofKind .name).bind_lexeme fun _ _ => ?_
  refine (atSign "(").bind_same fun _ => ?_
  refine whenever (parameters inner) ?_
  refine (sign? "=>").bind_same fun short => ?_
  cases short with
  | true =>
    refine (inner.expression _).bind_same fun _ => ?_
    exact (sign ";").last fun _ => rfl
  | false =>
    refine (atSign "\x7b").bind_same fun braced => ?_
    cases braced with
    | true => exact (block inner).bind fun _ _ _ => pure rfl rfl
    | false => exact (sign ";").last fun _ => rfl

/-- Hooks end at a brace that is read. -/
theorem propertyItem :
    Tracks known (fun _ => 1) (fun item => (!item.2).toNat) id (Parse.propertyItem g)
      (Parse.propertyItem g') := by
  refine (ofKind .var).bind_lexeme fun _ _ => ?_
  refine (optionalSign "=").bind_same fun _ => ?_
  refine whenever (inner.expression _) ?_
  refine (sign? "\x7b").bind_same fun hooked => ?_
  cases hooked with
  | true =>
    refine (many_closed_same ?_).bind_same fun _ => pure rfl rfl
    refine (sign? "\x7d").bind_same fun closed => ?_
    cases closed with
    | true => exact pure rfl rfl
    | false => exact (hook inner).bind_same fun _ => pure rfl rfl
  | false => exact pure rfl rfl

theorem otherNames :
    Tracks known (fun _ => 0) (fun _ => 1) id (Parse.otherNames g) (Parse.otherNames g') := by
  have item : Tracks known (fun _ => 1) (fun _ => 1) id (Parse.propertyItem g)
      (Parse.propertyItem g') :=
    (propertyItem inner).weaken (fun _ => Nat.le_refl 1) fun item => Bool.toNat_le _
  refine many_open_same ?_
  refine (sign? ",").bind_same fun found => ?_
  cases found with
  | true => exact item.bind_same fun _ => pure rfl rfl
  | false => exact pure rfl rfl

theorem propertyTail {start start' : List Lexeme} (member : (start, start') ∈ known)
    (line line' : Nat) :
    Tracks known (fun _ => 1) (fun _ => 0) Member.unlined (Parse.propertyTail g start line)
      (Parse.propertyTail g' start' line') := by
  refine peek.bind_lexeme fun _ _ => ?_
  refine whenever type ?_
  refine (propertyItem inner).bind_same fun item => ?_
  obtain ⟨first, ended⟩ := item
  cases ended with
  | true => exact (textSince member).bind_same fun _ => pure rfl rfl
  | false =>
    refine (otherNames inner).bind_same fun _ => ?_
    refine endStatement.bind_same fun _ => ?_
    exact (textSince member).bind_same fun _ => pure rfl rfl

theorem function :
    Tracks known (fun _ => 1) (fun _ => 0) (Prod.map id (Option.map (List.map Stmt.unlined)))
      (Parse.function g) (Parse.function g') := by
  refine (word "function").bind_same fun _ => ?_
  refine (optionalSign "&").bind_same fun _ => ?_
  refine (ofKind .name).bind_lexeme fun name _ => ?_
  refine (parameters inner).bind_same fun _ => ?_
  refine resultType.bind_same fun _ => ?_
  refine (atSign "\x7b").bind_same fun braced => ?_
  cases braced with
  | true =>
    refine (block inner).bind fun body body' same => pure ?_ rfl
    exact congrArg (Prod.mk name.string) (congrArg some same)
  | false => exact endStatement.bind_same fun _ => pure rfl rfl

theorem enumCase :
    Tracks known (fun _ => 1) (fun _ => 0) id (Parse.enumCase g) (Parse.enumCase g') := by
  refine (word "case").bind_same fun _ => ?_
  refine (ofKind .name).bind_lexeme fun _ _ => ?_
  refine (sign? "=").bind_same fun valued => ?_
  have ended (name : String) (value : Option Expr) : Tracks known (fun _ => 1) (fun _ => 0) id
      (do
        Parse.endStatement
        return Case.mk name value) (do
        Parse.endStatement
        return Case.mk name value) :=
    endStatement.bind_same fun _ => pure rfl rfl
  cases valued with
  | true =>
    have value : Tracks known (fun _ => 1) (fun _ => 1) id (some <$> g.expression)
        (some <$> g'.expression) := by
      rw [map_eq_pure_bind, map_eq_pure_bind]
      exact (inner.expression _).bind_same fun _ => pure rfl rfl
    exact value.bind_same fun _ => (ended _ _).last fun _ => rfl
  | false => exact (ended _ _).last fun _ => rfl

theorem member :
    Tracks known (fun _ => 1) (fun _ => 0) Member.unlined (Parse.member g) (Parse.member g') := by
  refine rest_bind fun start start' => ?_
  refine peek.bind_lexeme fun next line => ?_
  refine (attributes inner).bind_same fun _ => ?_
  refine (atWord ["use"]).bind_same fun used => ?_
  refine ite (fun _ => ?_) fun _ => ?_
  · exact traitUse.bind_same fun _ => pure rfl rfl
  refine (atWord ["case"]).bind_same fun _ => ?_
  refine ite (fun _ => ?_) fun _ => ?_
  · exact (enumCase inner).bind_same fun _ => pure rfl rfl
  refine (atWord modifierWords).bind_same fun modified => ?_
  refine modifiers.bind_same fun _ => ?_
  refine (atWord ["const"]).bind_same fun _ => ?_
  refine ite (fun _ => ?_) fun _ => ?_
  · exact (constants inner).bind_same fun _ => pure rfl rfl
  refine (atWord ["function"]).bind_same fun _ => ?_
  refine ite (fun _ => ?_) fun _ => ?_
  · refine (function inner).bind fun found found' same => ?_
    obtain ⟨name, body⟩ := found
    obtain ⟨name', body'⟩ := found'
    obtain ⟨rfl, alike⟩ := Prod.mk.inj same
    refine (textSince List.mem_cons_self).bind_same fun _ => pure ?_ rfl
    exact congrArg Member.method (congrArg (Method.mk name 0 _) alike)
  refine ite (fun _ => fail_bind) fun _ => ?_
  exact (propertyTail inner List.mem_cons_self next.line line).last fun _ => rfl

theorem members :
    Tracks known (fun _ => 1) (fun _ => 0) (List.map Member.unlined) (Parse.members g)
      (Parse.members g') := by
  refine (sign "\x7b").bind_same fun _ => ?_
  have each : Tracks known (fun _ => 1) perPart (Option.map Member.unlined) (do
      if ← Parse.sign? "\x7d" then return none else return some (← Parse.member g)) (do
      if ← Parse.sign? "\x7d" then return none else return some (← Parse.member g')) := by
    refine (sign? "\x7d").bind_same fun closed => ?_
    cases closed with
    | true => exact pure rfl rfl
    | false => exact (member inner).bind fun _ _ same => pure (congrArg some same) rfl
  exact each.many_closed.last fun _ => rfl

omit inner in
/-- An enumeration begins where its word, which does not end a stretch, is followed by a name. -/
theorem atEnumeration :
    Tracks known (fun _ => 0) (fun _ => 1) id Parse.atEnumeration Parse.atEnumeration := by
  have looks (c : Cursor) : Parse.atEnumeration.run c =
      .ok ((c.rest.headD endOfSource).word = "enum" &&
        ((c.rest.drop 1).headD endOfSource).kind = .name, c) := rfl
  refine of_looks _ looks (fun _ => rfl) fun S i c c' _ place inside => ?_
  refine ⟨_, looks c', ?_⟩
  rw [id, id, (place.head inside).eq_with_line]
  by_cases worded : (c.rest.headD endOfSource).word = "enum"
  · have named := (kind_of_word worded (by decide)).1
    rw [(place.secondHead inside (.inl named)).eq_with_line]
    rfl
  · change (decide _ && _) = (decide ((c.rest.headD endOfSource).word = "enum") && _)
    rw [decide_eq_false worded, Bool.false_and, Bool.false_and]

theorem enumeration {start start' : List Lexeme} (member : (start, start') ∈ known) :
    Tracks known (fun _ => 1) (fun _ => 0) (Prod.map id (Prod.map id ClassBody.unlined))
      (Parse.enumeration g start) (Parse.enumeration g' start') := by
  refine (word "enum").bind_same fun _ => ?_
  refine (ofKind .name).bind_lexeme fun name _ => ?_
  refine (optionalSign ":").bind_same fun _ => ?_
  refine whenever type ?_
  refine ancestors.bind_same fun _ => ?_
  refine peek.bind_lexeme fun _ _ => ?_
  refine (textSince member).bind_same fun _ => ?_
  refine (inner.members _).bind fun members members' same => pure ?_ rfl
  exact congrArg (Prod.mk name.string) (congrArg (Prod.mk _) (congrArg (ClassBody.mk 0) same))

theorem namedClass {start start' : List Lexeme} :
    Tracks known (fun _ => 1) (fun _ => 0) (Prod.map id ClassBody.unlined)
      (Parse.namedClass g start) (Parse.namedClass g' start') := by
  refine (word "class").bind_same fun _ => ?_
  refine (ofKind .name).bind_lexeme fun name _ => ?_
  refine ancestors.bind_same fun _ => ?_
  refine (inner.members _).bind fun members members' same => pure ?_ rfl
  exact congrArg (Prod.mk name.string) (congrArg (ClassBody.mk 0) same)

theorem otherClass :
    Tracks known (fun _ => 1) (fun _ => 0) id (Parse.otherClass g) (Parse.otherClass g') := by
  refine advance.bind_lexeme fun _ _ => ?_
  refine (ofKind .name).bind_lexeme fun _ _ => ?_
  refine ancestors.bind_same fun _ => ?_
  exact (inner.members _).bind fun _ _ _ => pure rfl rfl

end

end Tracks

end RequestSchema.Source
