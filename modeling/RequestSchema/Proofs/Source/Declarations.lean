import Mathlib
import RequestSchema.Proofs.Source.Reading
import RequestSchema.Source.Grammar

/-!
Every import of a source is as it is written there. The property is an invariant of the cursor: the
lexemes that are left stand in the source, and every import of classes that has been passed has the
text and the items of some of its lexemes. One lemma for each rule of the grammar says that it keeps
the invariant; only the rule of imports adds to what the invariant speaks about.
-/
namespace RequestSchema.Source

open Std.Do

set_option mvcgen.warning false

/-- An import of classes is as it is written; nothing is said about other declarations. -/
@[simp]
def Declaration.Sound : Declaration → Prop
  | .imports text items => (∀ i ∈ items, i.isClass = true) → Written text items
  | _ => True

/-- The lexemes that are left stand in a source, and the declarations that have been passed are
sound. -/
structure Cursor.Sound (c : Cursor) : Prop where
  chain : c.rest.IsChain Joined
  passed : ∀ d ∈ c.declarations, d.Sound

/-- A parser that succeeds leaves a sound cursor behind when it begins with one. -/
abbrev Keeps {α : Type} (p : Parse α) : Prop := ⦃fun c => ⌜c.Sound⌝⦄ p ⦃⇓? _ c => ⌜c.Sound⌝⦄

theorem keeps_iff {α : Type} {p : Parse α} :
    Keeps p ↔ ∀ c a c', c.Sound → p.run c = .ok (a, c') → c'.Sound := by
  constructor
  · intro keeps c a c' sound run
    have ends : (wp⟦p.run c⟧ (⇓? result => ⌜result.2.Sound⌝)).down := keeps c sound
    rw [run] at ends
    exact ends
  · intro keeps c sound
    have ends : (wp⟦p.run c⟧ (⇓? result => ⌜result.2.Sound⌝)).down := by
      cases run : p.run c with
      | error fault => exact trivial
      | ok result => exact keeps c result.1 result.2 sound run
    exact ends

/-- The rules that others refer to keep the invariant. -/
class Grammar.Sound (g : Grammar) : Prop where
  expression : Keeps g.expression
  operand (level : Nat) : Keeps (g.operand level)
  statement : Keeps g.statement
  members : Keeps g.members

attribute [spec] Grammar.Sound.expression Grammar.Sound.operand Grammar.Sound.statement
  Grammar.Sound.members

namespace Parse

variable {α : Type} {p : Parse α} {g : Grammar} [g.Sound]

/-! ## Lexemes and series -/

@[spec]
theorem fail_keeps : Keeps (fail : Parse α) := keeps_iff.mpr fun _ _ _ _ run => by cases run

@[spec]
theorem throw_keeps (fault : SyntaxFault) : Keeps (throw fault : Parse α) :=
  keeps_iff.mpr fun _ _ _ _ run => by cases run

@[spec]
theorem rest_keeps : Keeps rest := by mvcgen [rest]

@[spec]
theorem peek_keeps : Keeps peek := by mvcgen [peek]

@[spec]
theorem peekSecond_keeps : Keeps peekSecond := by mvcgen [peekSecond]

@[spec]
theorem advance_keeps : Keeps advance := by
  refine keeps_iff.mpr fun c l c' sound run => ?_
  unfold advance at run
  obtain ⟨c₁, _, got, run⟩ := bind_run_ok run
  cases got
  split at run
  · cases run
  · rename_i left
    split at run
    · cases run
    · cases run
      exact ⟨(left ▸ sound.chain).tail, sound.passed⟩

@[spec]
theorem atSign_keeps (s : String) : Keeps (atSign s) := by mvcgen [atSign]

@[spec]
theorem sign?_keeps (s : String) : Keeps (sign? s) := by mvcgen [sign?]

@[spec]
theorem sign_keeps (s : String) : Keeps (sign s) := by mvcgen [sign]

@[spec]
theorem atWord_keeps (words : List String) : Keeps (atWord words) := by mvcgen [atWord]

@[spec]
theorem word?_keeps (w : String) : Keeps (word? w) := by mvcgen [word?]

@[spec]
theorem word_keeps (w : String) : Keeps (word w) := by mvcgen [word]

@[spec]
theorem ofKind_keeps (kind : LexemeKind) : Keeps (ofKind kind) := by mvcgen [ofKind]

@[spec]
theorem textSince_keeps (start : List Lexeme) : Keeps (textSince start) := by mvcgen [textSince]

@[spec]
theorem repeated_keeps {p : Parse (Option α)} (keeps : Keeps p) (steps : Nat) :
    Keeps (repeated p steps) := by
  induction steps with
  | zero => mvcgen [repeated]
  | succ steps ih => mvcgen [repeated, keeps, ih]

@[spec]
theorem many_keeps {p : Parse (Option α)} (keeps : Keeps p) : Keeps (many p) := by
  mvcgen [many, keeps]

@[spec]
theorem listUntil_keeps (close : String) (keeps : Keeps p) : Keeps (listUntil close p) := by
  mvcgen [listUntil, keeps]

@[spec]
theorem commaSeparated_keeps (keeps : Keeps p) : Keeps (commaSeparated p) := by
  mvcgen [commaSeparated, keeps]

/-- A declaration is collected before those inside it. -/
theorem declare_sound {d : α → Declaration} {c c' : Cursor} {a : α} (keeps : Keeps p)
    (sound : c.Sound) (run : (declare p d).run c = .ok (a, c'))
    (declared : ∀ c₁ c₂, c₁.rest = c.rest → p.run c₁ = .ok (a, c₂) → (d a).Sound) : c'.Sound := by
  obtain ⟨c₂, ran, rfl⟩ := declare_run_ok run
  have begins : Cursor.Sound { c with declarations := [] } := ⟨sound.chain, by simp⟩
  have inner := keeps_iff.mp keeps _ _ _ begins ran
  refine ⟨inner.chain, fun d' member => ?_⟩
  rcases List.mem_append.mp member with earlier | later
  · exact sound.passed d' earlier
  · rcases List.mem_cons.mp later with rfl | inside
    · exact declared { c with declarations := [] } c₂ rfl ran
    · exact inner.passed d' inside

@[spec]
theorem declare_keeps (keeps : Keeps p) {d : α → Declaration} (declared : ∀ a, (d a).Sound) :
    Keeps (declare p d) :=
  keeps_iff.mpr fun _ a _ sound run => declare_sound keeps sound run fun _ _ _ _ => declared a

/-! ## Signatures -/

@[spec]
theorem argument_keeps : Keeps (argument g) := by mvcgen [argument]

@[spec]
theorem arguments_keeps : Keeps (arguments g) := by mvcgen [arguments]

@[spec]
theorem attributes_keeps : Keeps (attributes g) := by mvcgen [attributes]

@[spec]
theorem modifiers_keeps : Keeps modifiers := by mvcgen [modifiers]

@[spec]
theorem atReference_keeps : Keeps atReference := by mvcgen [atReference]

@[spec]
theorem typeMember_keeps : Keeps typeMember := by mvcgen [typeMember]

@[spec]
theorem type_keeps : Keeps type := by mvcgen [type]

@[spec]
theorem resultType_keeps : Keeps resultType := by mvcgen [resultType]

@[spec]
theorem block_keeps : Keeps (block g) := by mvcgen [block]

@[spec]
theorem skipBraces_keeps (inside steps : Nat) : Keeps (skipBraces inside steps) := by
  induction steps generalizing inside with
  | zero => mvcgen [skipBraces]
  | succ steps ih => mvcgen [skipBraces, ih]

@[spec]
theorem braced?_keeps : Keeps braced? := by mvcgen [braced?]

@[spec]
theorem parameter_keeps : Keeps (parameter g) := by mvcgen [parameter]

@[spec]
theorem parameters_keeps : Keeps (parameters g) := by mvcgen [parameters]

@[spec]
theorem closureUses_keeps : Keeps closureUses := by mvcgen [closureUses]

@[spec]
theorem closure_keeps : Keeps (closure g) := by mvcgen [closure]

/-! ## Expressions -/

@[spec]
theorem operators_keeps (start : List Lexeme) (level steps : Nat) (e : Expr) :
    Keeps (operators g start level steps e) := by
  induction steps generalizing e with
  | zero => mvcgen [operators]
  | succ steps ih => mvcgen [operators, ih]

@[spec]
theorem memberName_keeps : Keeps (memberName g) := by mvcgen [memberName]

@[spec]
theorem access?_keeps (start : List Lexeme) (e : Expr) : Keeps (access? g start e) := by
  mvcgen [access?]

@[spec]
theorem accesses_keeps (start : List Lexeme) (steps : Nat) (e : Expr) :
    Keeps (accesses g start steps e) := by
  induction steps generalizing e with
  | zero => mvcgen [accesses]
  | succ steps ih => mvcgen [accesses, ih]

@[spec]
theorem assignment_keeps (start : List Lexeme) (e : Expr) : Keeps (assignment g start e) := by
  mvcgen [assignment]

@[spec]
theorem referable_keeps : Keeps (referable g) := by mvcgen [referable]

@[spec]
theorem entry_keeps : Keeps (entry g) := by mvcgen [entry]

@[spec]
theorem entries_keeps (close : String) : Keeps (entries g close) := by mvcgen [entries]

@[spec]
theorem array_keeps (start : List Lexeme) (close : String) : Keeps (array g start close) := by
  mvcgen [array, -Spec.throw_MonadExcept]

@[spec]
theorem selectArm_keeps : Keeps (selectArm g) := by mvcgen [selectArm]

@[spec]
theorem select_keeps (start : List Lexeme) : Keeps (select g start) := by mvcgen [select]

@[spec]
theorem computedClass_keeps : Keeps (computedClass g) := by mvcgen [computedClass]

@[spec]
theorem ancestors_keeps : Keeps ancestors := by
  mvcgen [ancestors] invariants
  · ⇓? ⟨_, _⟩ c => ⌜c.Sound⌝

@[spec]
theorem anonymousClass_keeps : Keeps (anonymousClass g) := by mvcgen [anonymousClass]

@[spec]
theorem construct_keeps (start : List Lexeme) : Keeps (construct g start) := by
  mvcgen [construct] with simp

@[spec]
theorem atEnd_keeps : Keeps atEnd := by mvcgen [atEnd]

@[spec]
theorem generated_keeps : Keeps (generated g) := by mvcgen [generated]

@[spec]
theorem atClosure_keeps : Keeps atClosure := by mvcgen [atClosure]

@[spec]
theorem wordExpression?_keeps (start : List Lexeme) : Keeps (wordExpression? g start) := by
  mvcgen [wordExpression?]

@[spec]
theorem parenthesised_keeps (start : List Lexeme) : Keeps (parenthesised g start) := by
  mvcgen [parenthesised]

@[spec]
theorem signExpression_keeps (start : List Lexeme) : Keeps (signExpression g start) := by
  mvcgen [signExpression]

@[spec]
theorem unary_keeps : Keeps (unary g) := by mvcgen [unary]

@[spec]
theorem operand_keeps (level : Nat) : Keeps (operand g level) := by mvcgen [operand]

@[spec]
theorem expression_keeps : Keeps (expression g) := by mvcgen [expression]

/-! ## Classes -/

@[spec]
theorem endStatement_keeps : Keeps endStatement := by mvcgen [endStatement]

@[spec]
theorem traitUse_keeps : Keeps traitUse := by mvcgen [traitUse]

@[spec]
theorem constantItem_keeps : Keeps (constantItem g) := by mvcgen [constantItem]

@[spec]
theorem constants_keeps : Keeps (constants g) := by mvcgen [constants]

@[spec]
theorem hook_keeps : Keeps (hook g) := by mvcgen [hook]

@[spec]
theorem propertyItem_keeps : Keeps (propertyItem g) := by mvcgen [propertyItem]

@[spec]
theorem function_keeps : Keeps (function g) := by mvcgen [function]

@[spec]
theorem enumCase_keeps : Keeps (enumCase g) := by mvcgen [enumCase]

@[spec]
theorem member_keeps : Keeps (member g) := by mvcgen [member]

@[spec]
theorem members_keeps : Keeps (members g) := by mvcgen [members]

@[spec]
theorem atEnumeration_keeps : Keeps atEnumeration := by mvcgen [atEnumeration]

@[spec]
theorem enumeration_keeps (start : List Lexeme) : Keeps (enumeration g start) := by
  mvcgen [enumeration]

@[spec]
theorem namedClass_keeps (start : List Lexeme) : Keeps (namedClass g start) := by
  mvcgen [namedClass]

@[spec]
theorem otherClass_keeps : Keeps (otherClass g) := by mvcgen [otherClass]

/-! ## Statements -/

@[spec]
theorem statementsUntil_keeps (words : List String) : Keeps (statementsUntil g words) := by
  mvcgen [statementsUntil]

@[spec]
theorem closeWord_keeps (w : String) : Keeps (closeWord w) := by mvcgen [closeWord]

@[spec]
theorem test_keeps : Keeps (test g) := by mvcgen [test]

@[spec]
theorem colonArms_keeps : Keeps (colonArms g) := by mvcgen [colonArms]

@[spec]
theorem statementArms_keeps : Keeps (statementArms g) := by mvcgen [statementArms]

@[spec]
theorem choice_keeps : Keeps (choice g) := by mvcgen [choice]

@[spec]
theorem caseArm_keeps (subject : Expr) {stop : Parse Bool} (keeps : Keeps stop) :
    Keeps (caseArm g subject stop) := by
  mvcgen [caseArm, keeps]

@[spec]
theorem comparison_keeps : Keeps (comparison g) := by mvcgen [comparison]

@[spec]
theorem loopBody_keeps (w : String) : Keeps (loopBody g w) := by mvcgen [loopBody]

@[spec]
theorem expressionsUntil_keeps (close : String) : Keeps (expressionsUntil g close) := by
  mvcgen [expressionsUntil]

@[spec]
theorem countedLoop_keeps : Keeps (countedLoop g) := by mvcgen [countedLoop]

@[spec]
theorem loopTarget_keeps : Keeps (loopTarget g) := by mvcgen [loopTarget]

@[spec]
theorem elementLoop_keeps : Keeps (elementLoop g) := by mvcgen [elementLoop]

@[spec]
theorem testedLoop_keeps : Keeps (testedLoop g) := by mvcgen [testedLoop]

@[spec]
theorem repeatedLoop_keeps : Keeps (repeatedLoop g) := by mvcgen [repeatedLoop]

@[spec]
theorem handler?_keeps : Keeps (handler? g) := by mvcgen [handler?]

@[spec]
theorem attempt_keeps : Keeps (attempt g) := by mvcgen [attempt]

@[spec]
theorem result_keeps : Keeps (result g) := by mvcgen [result]

@[spec]
theorem space_keeps : Keeps (space g) := by mvcgen [space] with simp

@[spec]
theorem importsClasses_keeps : Keeps importsClasses := by mvcgen [importsClasses]

@[spec]
theorem importAlias?_keeps : Keeps importAlias? := by mvcgen [importAlias?]

@[spec]
theorem importItem_keeps (isClass : Bool) (space : String) : Keeps (importItem isClass space) := by
  mvcgen [importItem]

@[spec]
theorem importItems_keeps : Keeps importItems := by mvcgen [importItems]

theorem importText_keeps (start : List Lexeme) : Keeps (importText start) := by
  mvcgen [importText]

/-- An import is collected as it is written. -/
@[spec]
theorem imports_keeps : Keeps imports := by
  refine keeps_iff.mpr fun c _ c' sound run => ?_
  rw [imports_eq] at run
  obtain ⟨start, _, looked, run⟩ := bind_run_ok run
  cases looked
  obtain ⟨⟨text, items⟩, _, declared, run⟩ := bind_run_ok run
  cases run
  refine declare_sound (importText_keeps _) sound declared fun c₁ c₂ same ran classes => ?_
  obtain ⟨read, whole, holds⟩ := reads_importText c.rest sound.chain _ _ _ ran
  exact holds (same ▸ whole) classes

@[spec]
theorem declaration?_keeps (start : List Lexeme) : Keeps (declaration? g start) := by
  mvcgen [declaration?] with simp

@[spec]
theorem settings_keeps : Keeps (settings g) := by mvcgen [settings]

@[spec]
theorem listStatement_keeps : Keeps (listStatement g) := by mvcgen [listStatement]

@[spec]
theorem staticVariables_keeps : Keeps (staticVariables g) := by mvcgen [staticVariables]

@[spec]
theorem expressionStatement_keeps : Keeps (expressionStatement g) := by mvcgen [expressionStatement]

@[spec]
theorem plainStatement_keeps : Keeps (plainStatement g) := by mvcgen [plainStatement]

@[spec]
theorem statement_keeps : Keeps (statement g) := by mvcgen [statement]

end Parse

/-! ## The whole grammar -/

instance Grammar.sound_ofDepth (depth : Nat) : (Grammar.ofDepth depth).Sound := by
  induction depth with
  | zero => exact ⟨Parse.fail_keeps, fun _ => Parse.fail_keeps, Parse.fail_keeps, Parse.fail_keeps⟩
  | succ depth inner =>
    exact ⟨Parse.expression_keeps, Parse.operand_keeps, Parse.statement_keeps, Parse.members_keeps⟩

@[spec]
theorem Parse.source_keeps {g : Grammar} [g.Sound] : Keeps (Parse.source g) := by
  mvcgen [Parse.source]

/-- Every import of classes in a source is as it is written there. -/
theorem written_of_mem_declarations {source text : String} {tree : SourceTree} {items : List Import}
    (parsed : SourceTree.ofText source = .ok tree)
    (member : .imports text items ∈ tree.declarations)
    (classes : ∀ i ∈ items, i.isClass = true) : Written text items := by
  unfold SourceTree.ofText at parsed
  cases run : (Parse.source (Grammar.ofDepth ((scan source).length + 1))).run
      { rest := scan source } with
  | error fault => simp [run] at parsed
  | ok result =>
    have sound := keeps_iff.mp Parse.source_keeps _ _ _ ⟨isChain_scan source, by simp⟩ run
    simp only [run] at parsed
    cases parsed
    exact sound.passed _ member classes

end RequestSchema.Source
