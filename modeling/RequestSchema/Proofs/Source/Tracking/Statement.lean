import RequestSchema.Proofs.Source.Tracking.Class
import RequestSchema.Source.Grammar.Statement

/-!
# Statements at two places

The parsers of statements track themselves up to the lines of what they read. A choice and an
attempt end in front of a word that does not continue them, and what stands behind a stretch does
not begin with such a word: so a statement needs nothing behind its last lexeme.
-/
namespace RequestSchema.Source

open Parse

/-- The line of a lexeme is no part of its word. -/
theorem Lexeme.word_line (l : Lexeme) (line : Nat) : ({ l with line } : Lexeme).word = l.word :=
  rfl

theorem Parse.run_word? (w : String) (c : Cursor) : (word? w).run c =
    (if [w].contains (c.rest.headD endOfSource).word then (do let _ ← advance; return true)
      else return false : Parse Bool).run c := rfl

/-- A word that is missing is not read. -/
theorem Parse.eq_of_word?_false {c d : Cursor} {w : String}
    (run : (word? w).run c = .ok (false, d)) : d = c := by
  rw [run_word?] at run
  split at run
  · obtain ⟨l, e, -, run⟩ := Parse.bind_run_ok run
    cases run
  · cases run
    rfl

theorem Parse.run_word?_other {c : Cursor} {w : String}
    (other : (c.rest.headD endOfSource).word ≠ w) : (word? w).run c = .ok (false, c) := by
  have absent : ¬ [w].contains (c.rest.headD endOfSource).word = true := by simpa using other
  rw [run_word?, if_neg absent]
  rfl

def Cursor.atFunction (c : Cursor) : Bool :=
  let second := (c.rest.drop 1).headD endOfSource
  let third := (c.rest.drop 2).headD endOfSource
  ["function"].contains (c.rest.headD endOfSource).word &&
    (second.kind = .name || (second.isSymbol "&" && third.kind = .name))

def Parse.atFunction : Parse Bool := do
  if ← atWord ["function"] then
    let second ← peekSecond
    let third := ((← rest).drop 2).headD endOfSource
    return second.kind = .name || (second.isSymbol "&" && third.kind = .name)
  else return false

theorem Parse.run_atFunction (c : Cursor) : atFunction.run c = .ok (c.atFunction, c) := by
  change (if ["function"].contains (c.rest.headD endOfSource).word then _ else _ : Parse Bool).run
    c = _
  unfold Cursor.atFunction
  cases ["function"].contains (c.rest.headD endOfSource).word <;> rfl

theorem Parse.bind_atFunction {β : Type} (p q : Parse β) :
    (atFunction >>= fun found => if found then p else q) = (do
      if ← atWord ["function"] then
        let second ← peekSecond
        let third := ((← rest).drop 2).headD endOfSource
        if second.kind = .name || (second.isSymbol "&" && third.kind = .name) then p else q
      else q) := by
  simp only [atFunction, bind_assoc]
  congr 1
  funext found
  cases found with
  | true => simp only [if_true, bind_assoc, pure_bind]
  | false => simp only [Bool.false_eq_true, if_false, pure_bind]

/-- Whether a function is declared is seen within a stretch, as its word, and the sign of a
reference behind it, do not end one. -/
theorem Stretch.At.atFunction {S : Stretch} {i : Nat} {c c' : Cursor} (place : S.At i c c')
    (inside : i + 1 ≤ S.first.length) : c.atFunction = c'.atFunction := by
  have first : (c.rest.headD endOfSource).word = (c'.rest.headD endOfSource).word := by
    rw [(place.head inside).eq_with_line]
    rfl
  unfold Cursor.atFunction
  rw [← first]
  cases called : ["function"].contains (c.rest.headD endOfSource).word with
  | false => rfl
  | true =>
    have named : (c.rest.headD endOfSource).kind = .name := by
      refine (kind_of_word rfl fun empty => ?_).1
      rw [empty] at called
      cases called
    have behind := place.secondHead inside (.inl named)
    rw [behind.eq_with_line]
    change (true && (decide (((c.rest.drop 1).headD endOfSource).kind = .name) ||
        (((c.rest.drop 1).headD endOfSource).isSymbol "&" &&
          decide (((c.rest.drop 2).headD endOfSource).kind = .name)))) =
      (true && (decide (((c.rest.drop 1).headD endOfSource).kind = .name) ||
        (((c.rest.drop 1).headD endOfSource).isSymbol "&" &&
          decide (((c'.rest.drop 2).headD endOfSource).kind = .name))))
    cases signed : ((c.rest.drop 1).headD endOfSource).isSymbol "&" with
    | false => rfl
    | true =>
      have third := (place.behindNext inside).secondHead (place.further inside (.inl named))
        (.inr signed)
      rw [List.drop_drop, List.drop_drop] at third
      rw [third.eq_with_line]

def Parse.emptyStatements : Parse (List Unit) := many do
  if (← peek).kind = .page || (← atSign ";") then
    let _ ← advance
    return some ()
  else return none

/-- What ends the cases of a comparison, in the form with a colon or with braces. -/
def Parse.comparisonStop (colon : Bool) : Parse Bool :=
  if colon then atWord ["endswitch"] else atSign "\x7d"

/-- The cases of a comparison with a subject, and their end. -/
def Parse.comparisonArms (g : Grammar) (subject : Expr) (colon : Bool) : Parse Stmt := do
  let _ ← emptyStatements
  let arms ← many do
    if ← comparisonStop colon then return none
    else return some (← caseArm g subject (comparisonStop colon))
  if colon then closeWord "endswitch" else sign "\x7d"
  return .choice arms

namespace Tracks

variable {known : List (List Lexeme × List Lexeme)} {g g' : Grammar} (inner : g.Tracked g')

/-- A word that continues a statement is missing behind a stretch. -/
theorem continuing {w : String} (among : w ∈ continuingWords) :
    Tracks known Bool.toNat (fun _ => 0) id (Parse.word? w) (Parse.word? w) := by
  refine ⟨(@word? known w).reads, ?_⟩
  intro S i m c c' d found passed place run reads inside
  by_cases more : i + m + (!found).toNat ≤ S.first.length
  · exact (word? w).follows S i m c c' d found passed place run reads more
  · cases found with
    | true => exact absurd inside more
    | false =>
      obtain rfl := eq_of_word?_false run
      obtain rfl := reads.unique (.refl d)
      have last : i = S.first.length := by
        have before := place.inside
        rw [Bool.not_false, Bool.toNat_true] at more
        omega
      have left' : c'.rest = S.behind' := by
        rw [place.second, last, ← S.length_eq, List.drop_length, List.nil_append]
      have other' : (c'.rest.headD endOfSource).word ≠ w := by
        rintro rfl
        exact S.closed (by rw [← left']; exact among)
      exact ⟨false, c', run_word?_other other', place, rfl, .refl d c'⟩

section

include inner

theorem statementsUntil {words : List String} :
    Tracks known (fun _ => 0) (fun _ => 1) (List.map Stmt.unlined)
      (Parse.statementsUntil g words) (Parse.statementsUntil g' words) := by
  have each : Tracks known perPart (fun _ => 1) (Option.map (List.map Stmt.unlined)) (do
      if ← Parse.atWord words then return none else return some (← g.statement)) (do
      if ← Parse.atWord words then return none else return some (← g'.statement)) := by
    refine (atWord words).bind_same fun found => ?_
    refine ite (fun _ => pure rfl rfl) fun _ => ?_
    exact (inner.statement _).bind fun _ _ same => pure (congrArg some same) rfl
  refine each.many_open.bind fun statements statements' same => pure ?_ rfl
  rw [List.map_flatten, List.map_flatten, same]

omit inner in
theorem closeWord (w : String) :
    Tracks known (fun _ => 1) (fun _ => 0) id (Parse.closeWord w) (Parse.closeWord w) :=
  (word w).bind_same fun _ => endStatement.last fun _ => rfl

theorem test : Tracks known (fun _ => 1) (fun _ => 0) id (Parse.test g) (Parse.test g') := by
  refine (sign "(").bind_same fun _ => ?_
  refine (inner.expression _).bind_same fun _ => ?_
  exact (sign ")").bind_same fun _ => pure rfl rfl

theorem colonArms :
    Tracks known (fun _ => 1) (fun _ => 0) (List.map Arm.unlined) (Parse.colonArms g)
      (Parse.colonArms g') := by
  have each : Tracks known perPart (fun _ => 1) (Option.map Arm.unlined) (do
      if ← Parse.word? "elseif" then
        let e ← Parse.test g
        Parse.sign ":"
        return some (Arm.arm (some (.test e)) (← Parse.statementsUntil g armWords))
      else if ← Parse.word? "else" then
        Parse.sign ":"
        return some (Arm.arm none (← Parse.statementsUntil g ["endif"]))
      else return none) (do
      if ← Parse.word? "elseif" then
        let e ← Parse.test g'
        Parse.sign ":"
        return some (Arm.arm (some (.test e)) (← Parse.statementsUntil g' armWords))
      else if ← Parse.word? "else" then
        Parse.sign ":"
        return some (Arm.arm none (← Parse.statementsUntil g' ["endif"]))
      else return none) := by
    refine (word? "elseif").bind_same fun found => ?_
    cases found with
    | true =>
      refine (test inner).bind_same fun e => ?_
      refine (sign ":").bind_same fun _ => ?_
      refine (statementsUntil inner).bind fun body body' same => pure ?_ rfl
      exact congrArg (some ∘ Arm.arm (some (.test e))) same
    | false =>
      refine (word? "else").bind_same fun found => ?_
      cases found with
      | true =>
        refine (sign ":").bind_same fun _ => ?_
        refine (statementsUntil inner).bind fun body body' same => pure ?_ rfl
        exact congrArg (some ∘ Arm.arm none) same
      | false => exact pure rfl rfl
  refine each.many_open.bind fun arms arms' same => ?_
  exact (closeWord "endif").bind_same fun _ => pure same rfl

theorem statementArms :
    Tracks known (fun _ => 0) (fun _ => 0) (List.map Arm.unlined) (Parse.statementArms g)
      (Parse.statementArms g') := by
  have each : Tracks known perPart (fun _ => 0) (Option.map Arm.unlined) (do
      if ← Parse.word? "elseif" then
        let e ← Parse.test g
        return some (Arm.arm (some (.test e)) (← g.statement))
      else return none) (do
      if ← Parse.word? "elseif" then
        let e ← Parse.test g'
        return some (Arm.arm (some (.test e)) (← g'.statement))
      else return none) := by
    refine (continuing (by decide)).bind_same fun found => ?_
    cases found with
    | true =>
      refine (test inner).bind_same fun e => ?_
      refine (inner.statement _).bind fun body body' same => pure ?_ rfl
      exact congrArg (some ∘ Arm.arm (some (.test e))) same
    | false => exact pure rfl rfl
  refine (each.many (fun _ => Nat.le_refl 1) fun _ => Nat.le_refl 0).bind
    fun tested tested' same => ?_
  refine (continuing (by decide)).bind_same fun found => ?_
  cases found with
  | true =>
    refine (inner.statement _).bind fun body body' same' => pure ?_ rfl
    rw [List.map_append, List.map_append, same]
    exact congrArg (fun body => tested'.map Arm.unlined ++ [Arm.arm none body]) same'
  | false => exact pure same rfl

omit inner in
/-- Choices with the same arms up to their lines. -/
theorem choice_alike {guard : Option Guard} {body body' : List Stmt} {arms arms' : List Arm}
    (same : body.map Stmt.unlined = body'.map Stmt.unlined)
    (others : arms.map Arm.unlined = arms'.map Arm.unlined) :
    (Stmt.choice (.arm guard body :: arms)).unlined =
      (Stmt.choice (.arm guard body' :: arms')).unlined := by
  rw [Stmt.unlined, Stmt.unlined, Stmt.unlinedArms_eq_map, Stmt.unlinedArms_eq_map, List.map_cons,
    List.map_cons, Arm.unlined, Arm.unlined, same, others]

theorem choice :
    Tracks known (fun _ => 1) (fun _ => 0) Stmt.unlined (Parse.choice g) (Parse.choice g') := by
  refine (word "if").bind_same fun _ => ?_
  refine (test inner).bind_same fun e => ?_
  refine (sign? ":").bind_same fun colon => ?_
  cases colon with
  | true =>
    refine (statementsUntil inner).bind fun body body' same => ?_
    exact (colonArms inner).bind fun arms arms' others => pure (choice_alike same others) rfl
  | false =>
    refine (inner.statement _).bind fun body body' same => ?_
    exact (statementArms inner).bind fun arms arms' others => pure (choice_alike same others) rfl

theorem caseArm {subject : Expr} {stop : Parse Bool}
    (stops : Tracks known (fun _ => 0) (fun _ => 1) id stop stop) :
    Tracks known (fun _ => 1) (fun _ => 1) Arm.unlined (Parse.caseArm g subject stop)
      (Parse.caseArm g' subject stop) := by
  have body (guard : Option Guard) : Tracks known (fun _ => 1) (fun _ => 1) Arm.unlined (do
      if !(← Parse.sign? ":") then Parse.endStatement
      let body ← Parse.many do
        if (← Parse.atWord ["case", "default"]) || (← stop) then return none
        else return some (← g.statement)
      return Arm.arm guard body.flatten) (do
      if !(← Parse.sign? ":") then Parse.endStatement
      let body ← Parse.many do
        if (← Parse.atWord ["case", "default"]) || (← stop) then return none
        else return some (← g'.statement)
      return Arm.arm guard body.flatten) := by
    have each : Tracks known perPart (fun _ => 1) (Option.map (List.map Stmt.unlined)) (do
        if (← Parse.atWord ["case", "default"]) || (← stop) then return none
        else return some (← g.statement)) (do
        if (← Parse.atWord ["case", "default"]) || (← stop) then return none
        else return some (← g'.statement)) := by
      refine (atWord _).bind_same fun _ => ?_
      refine stops.bind_same fun _ => ?_
      refine ite (fun _ => pure rfl rfl) fun _ => ?_
      exact (inner.statement _).bind fun _ _ same => pure (congrArg some same) rfl
    have statements : Tracks known (fun _ => 0) (fun _ => 1) Arm.unlined (do
        let body ← Parse.many do
          if (← Parse.atWord ["case", "default"]) || (← stop) then return none
          else return some (← g.statement)
        return Arm.arm guard body.flatten) (do
        let body ← Parse.many do
          if (← Parse.atWord ["case", "default"]) || (← stop) then return none
          else return some (← g'.statement)
        return Arm.arm guard body.flatten) := by
      refine each.many_open.bind fun statements statements' same => pure ?_ rfl
      rw [Arm.unlined, Arm.unlined, List.map_flatten, List.map_flatten, same]
    refine (sign? ":").bind_same fun found => ?_
    cases found with
    | true => exact statements.last fun _ => rfl
    | false => exact endStatement.bind_same fun _ => statements.last fun _ => rfl
  refine (word? "default").bind_same fun found => ?_
  cases found with
  | true => exact (body _).last fun _ => rfl
  | false =>
    refine (word "case").bind_same fun _ => ?_
    exact (inner.expression _).bind_same fun _ => (body _).last fun _ => rfl

omit inner in
theorem emptyStatements :
    Tracks known (fun _ => 0) (fun _ => 1) id Parse.emptyStatements Parse.emptyStatements := by
  refine many_open_same ?_
  refine peek.bind_lexeme fun _ _ => ?_
  refine (atSign ";").bind_same fun _ => ?_
  refine ite (fun _ => ?_) fun _ => pure rfl rfl
  exact advance.bind_lexeme fun _ _ => pure rfl rfl

omit inner in
theorem comparisonStop (colon : Bool) :
    Tracks known (fun _ => 0) (fun _ => 1) id (Parse.comparisonStop colon)
      (Parse.comparisonStop colon) :=
  ite (fun _ => atWord _) fun _ => atSign _

theorem comparisonArms (subject : Expr) (colon : Bool) :
    Tracks known (fun _ => 1) (fun _ => 0) Stmt.unlined (Parse.comparisonArms g subject colon)
      (Parse.comparisonArms g' subject colon) := by
  have stops := @comparisonStop known colon
  have each : Tracks known perPart (fun _ => 1) (Option.map Arm.unlined) (do
      if ← Parse.comparisonStop colon then return none
      else return some (← Parse.caseArm g subject (Parse.comparisonStop colon))) (do
      if ← Parse.comparisonStop colon then return none
      else return some (← Parse.caseArm g' subject (Parse.comparisonStop colon))) := by
    refine stops.bind_same fun _ => ?_
    refine ite (fun _ => pure rfl rfl) fun _ => ?_
    exact (caseArm inner stops).bind fun _ _ same => pure (congrArg some same) rfl
  refine emptyStatements.bind_same fun _ => ?_
  refine each.many_open.bind fun arms arms' same => ?_
  have alike : (Stmt.choice arms).unlined = (Stmt.choice arms').unlined := by
    rw [Stmt.unlined, Stmt.unlined, Stmt.unlinedArms_eq_map, Stmt.unlinedArms_eq_map, same]
  refine ite (fun _ => ?_) fun _ => ?_
  · exact (closeWord "endswitch").bind_same fun _ => pure alike rfl
  · exact (sign "\x7d").bind_same fun _ => pure alike rfl

theorem comparison :
    Tracks known (fun _ => 1) (fun _ => 0) Stmt.unlined (Parse.comparison g)
      (Parse.comparison g') := by
  refine (word "switch").bind_same fun _ => ?_
  refine (test inner).bind_same fun subject => ?_
  refine (sign? ":").bind_same fun colon => ?_
  have arms := @comparisonArms known g g' inner subject
  cases colon with
  | true => exact (arms true).last fun _ => rfl
  | false => exact (sign "\x7b").bind_same fun _ => (arms false).last fun _ => rfl

theorem loopBody (w : String) :
    Tracks known (fun _ => 1) (fun _ => 0) (List.map Stmt.unlined) (Parse.loopBody g w)
      (Parse.loopBody g' w) := by
  refine (sign? ":").bind_same fun colon => ?_
  cases colon with
  | true =>
    refine (statementsUntil inner).bind fun body body' same => ?_
    exact (closeWord w).bind_same fun _ => pure same rfl
  | false => exact (inner.statement _).last fun _ => rfl

theorem expressionsUntil (close : String) :
    Tracks known (fun _ => 1) (fun _ => 0) id (Parse.expressionsUntil g close)
      (Parse.expressionsUntil g' close) := by
  refine (atSign close).bind_same fun _ => ?_
  exact whenever (inner.expression _).commaSeparated_same ((sign close).last fun _ => rfl)

omit inner in
/-- Loops with the same statements up to their lines. -/
theorem loop_alike {body body' rest rest' : List Stmt}
    (same : body.map Stmt.unlined = body'.map Stmt.unlined)
    (same' : rest.map Stmt.unlined = rest'.map Stmt.unlined) :
    (Stmt.loop body rest).unlined = (Stmt.loop body' rest').unlined := by
  rw [Stmt.unlined, Stmt.unlined, Stmt.unlinedAll_eq_map, Stmt.unlinedAll_eq_map,
    Stmt.unlinedAll_eq_map, Stmt.unlinedAll_eq_map, same, same']

theorem countedLoop :
    Tracks known (fun _ => 1) (fun _ => 0) Stmt.unlined (Parse.countedLoop g)
      (Parse.countedLoop g') := by
  refine (word "for").bind_same fun _ => ?_
  refine (sign "(").bind_same fun _ => ?_
  refine (expressionsUntil inner ";").bind_same fun _ => ?_
  refine (expressionsUntil inner ";").bind_same fun _ => ?_
  refine (expressionsUntil inner ")").bind_same fun _ => ?_
  refine (atSign ":").bind_same fun colon => ?_
  cases colon with
  | true =>
    refine (loopBody inner "endfor").bind fun body body' same => pure ?_ rfl
    refine loop_alike ?_ ?_
    · rw [List.map_take, List.map_take, same]
    · rw [List.map_drop, List.map_drop, same]
  | false => exact (inner.statement _).bind fun _ _ same => pure (loop_alike same rfl) rfl

theorem loopTarget :
    Tracks known (fun _ => 1) (fun _ => 1) id (Parse.loopTarget g) (Parse.loopTarget g') := by
  refine (optionalSign "&").bind_same fun _ => ?_
  refine (sign? "[").bind_same fun found => ?_
  cases found with
  | true => exact (entries inner).bind fun _ _ _ => pure rfl rfl
  | false => exact (inner.expression _).bind_same fun _ => pure rfl rfl

theorem elementLoop :
    Tracks known (fun _ => 1) (fun _ => 0) Stmt.unlined (Parse.elementLoop g)
      (Parse.elementLoop g') := by
  refine (word "foreach").bind_same fun _ => ?_
  refine (sign "(").bind_same fun _ => ?_
  refine (inner.expression _).bind_same fun _ => ?_
  refine (word "as").bind_same fun _ => ?_
  refine (loopTarget inner).bind_same fun _ => ?_
  refine (optionalSign "=>").bind_same fun _ => ?_
  refine whenever (loopTarget inner) ?_
  refine (sign ")").bind_same fun _ => ?_
  exact (loopBody inner _).bind fun _ _ same => pure (loop_alike same rfl) rfl

theorem testedLoop :
    Tracks known (fun _ => 1) (fun _ => 0) Stmt.unlined (Parse.testedLoop g)
      (Parse.testedLoop g') := by
  refine (word "while").bind_same fun _ => ?_
  refine (test inner).bind_same fun _ => ?_
  exact (loopBody inner _).bind fun _ _ same => pure (loop_alike same rfl) rfl

theorem repeatedLoop :
    Tracks known (fun _ => 1) (fun _ => 0) Stmt.unlined (Parse.repeatedLoop g)
      (Parse.repeatedLoop g') := by
  refine (word "do").bind_same fun _ => ?_
  refine (inner.statement _).bind fun body body' same => ?_
  refine (word "while").bind_same fun _ => ?_
  refine (test inner).bind_same fun _ => ?_
  exact endStatement.bind_same fun _ => pure (loop_alike same rfl) rfl

theorem handler? :
    Tracks known perPart (fun _ => 0) (Option.map (List.map Stmt.unlined)) (Parse.handler? g)
      (Parse.handler? g') := by
  refine (continuing (by decide)).bind_same fun found => ?_
  cases found with
  | true =>
    refine (sign "(").bind_same fun _ => ?_
    refine type.bind_same fun _ => ?_
    refine peek.bind_lexeme fun _ _ => ?_
    refine whenever advance ?_
    refine (sign ")").bind_same fun _ => ?_
    exact (block inner).bind fun _ _ same => pure (congrArg some same) rfl
  | false =>
    refine (continuing (by decide)).bind_same fun found => ?_
    cases found with
    | true => exact (block inner).bind fun _ _ same => pure (congrArg some same) rfl
    | false => exact pure rfl rfl

theorem attempt :
    Tracks known (fun _ => 1) (fun _ => 0) Stmt.unlined (Parse.attempt g) (Parse.attempt g') := by
  refine (word "try").bind_same fun _ => ?_
  refine (block inner).bind fun body body' same => ?_
  refine ((handler? inner).many (fun _ => Nat.le_refl 1) fun _ => Nat.le_refl 0).bind
    fun handlers handlers' others => ?_
  cases handlers with
  | nil => exact fail_bind
  | cons handler handlers =>
    cases handlers' with
    | nil => cases others
    | cons handler' handlers' =>
      refine pure ?_ rfl
      rw [Stmt.unlined, Stmt.unlined, Stmt.unlinedAll_eq_map, Stmt.unlinedAll_eq_map,
        Stmt.unlinedAll_eq_map, Stmt.unlinedAll_eq_map, same, List.map_flatten, List.map_flatten,
        others]

theorem result :
    Tracks known (fun _ => 1) (fun _ => 0) Stmt.unlined (Parse.result g) (Parse.result g') := by
  refine peek.bind_lexeme fun _ _ => ?_
  refine (word "return").bind_same fun _ => ?_
  refine peek.bind_lexeme fun _ _ => ?_
  refine (atSign ";").bind_same fun _ => ?_
  refine ite (fun _ => ?_) fun _ => ?_
  · exact endStatement.bind_same fun _ => pure rfl rfl
  · refine (inner.expression _).bind_same fun _ => ?_
    exact endStatement.bind_same fun _ => pure rfl rfl

theorem space : Tracks known (fun _ => 1) (fun _ => 0) id (Parse.space g) (Parse.space g') := by
  refine (word "namespace").bind_same fun _ => ?_
  have behind (name : String) : Tracks known (fun _ => 1) (fun _ => 0) id (do
      let _ ← Parse.declare (return name) .space
      if ← Parse.atSign "\x7b" then
        let _ ← Parse.block g
      else if name.isEmpty then Parse.fail
      else Parse.endStatement) (do
      let _ ← Parse.declare (return name) .space
      if ← Parse.atSign "\x7b" then
        let _ ← Parse.block g'
      else if name.isEmpty then Parse.fail
      else Parse.endStatement) := by
    have alike (a b : String) (same : id a = id b) :
        (Declaration.space a).unlined = (Declaration.space b).unlined :=
      congrArg Declaration.space same
    have named : Tracks known (fun _ => 0) (fun _ => 0) id (Pure.pure name : Parse String)
        (Pure.pure name) := pure rfl rfl
    have declared : Tracks known (fun _ => 0) (fun _ => 0) id
        (Parse.declare (Pure.pure name : Parse String) .space)
        (Parse.declare (Pure.pure name : Parse String) .space) := named.declare alike
    refine declared.bind_same fun _ => ?_
    refine (atSign "\x7b").bind_same fun _ => ?_
    refine ite (fun _ => ?_) fun _ => ite (fun _ => fail) fun _ => ?_
    · exact (block inner).bind fun _ _ _ => pure rfl rfl
    · exact endStatement.last fun _ => rfl
  refine peek.bind_lexeme fun next _ => ?_
  refine ite (fun _ => ?_) fun _ => ?_
  · have name : Tracks known (fun _ => 1) (fun _ => 0) id (Lexeme.string <$> Parse.advance)
        (Lexeme.string <$> Parse.advance) := by
      rw [map_eq_pure_bind]
      exact advance.bind_lexeme fun _ _ => pure rfl rfl
    exact name.bind_same fun _ => (behind _).last fun _ => rfl
  · exact (behind _).last fun _ => rfl

omit inner in
theorem importsClasses :
    Tracks known (fun _ => 0) (fun _ => 1) id Parse.importsClasses Parse.importsClasses := by
  refine (optionalWord "function").bind_same fun _ => ?_
  exact (optionalWord "const").bind_same fun _ => pure rfl rfl

omit inner in
theorem importAlias? :
    Tracks known (fun _ => 0) (fun _ => 1) id Parse.importAlias? Parse.importAlias? := by
  refine (word? "as").bind_same fun found => ?_
  cases found with
  | true => exact (ofKind .name).bind_lexeme fun _ _ => pure rfl rfl
  | false => exact pure rfl rfl

omit inner in
theorem importItem (isClass : Bool) (space : String) :
    Tracks known (fun _ => 1) (fun _ => 1) id (Parse.importItem isClass space)
      (Parse.importItem isClass space) := by
  refine importsClasses.bind_same fun _ => ?_
  refine (ofKind .name).bind_lexeme fun _ _ => ?_
  exact importAlias?.bind_same fun _ => pure rfl rfl

omit inner in
theorem importItems :
    Tracks known (fun _ => 1) (fun _ => 1) id Parse.importItems Parse.importItems := by
  refine importsClasses.bind_same fun isClass => ?_
  refine (ofKind .name).bind_lexeme fun first _ => ?_
  rw [Lexeme.string_line]
  refine (sign? "\\").bind_same fun grouped => ?_
  cases grouped with
  | true =>
    refine (sign "\x7b").bind_same fun _ => ?_
    refine (importItem _ _).listUntil_same.bind_same fun items => ?_
    exact ite (fun _ => fail_bind) fun _ => pure rfl rfl
  | false =>
    refine importAlias?.bind_same fun _ => ?_
    refine (many_open_same ?_).bind_same fun _ => pure rfl rfl
    refine (sign? ",").bind_same fun found => ?_
    cases found with
    | true => exact (importItem _ _).bind_same fun _ => pure rfl rfl
    | false => exact pure rfl rfl

omit inner in
theorem imports : Tracks known (fun _ => 1) (fun _ => 0) id Parse.imports Parse.imports := by
  refine rest_bind fun start start' => ?_
  have text : Tracks ((start, start') :: known) (fun _ => 0) (fun _ => 0) id
    (Parse.textSince start) (Parse.textSince start') := textSince List.mem_cons_self
  have body : Tracks ((start, start') :: known) (fun _ => 1) (fun _ => 0) id (do
      Parse.word "use"
      let items ← Parse.importItems
      let text ← Parse.textSince start
      let closed ← Parse.atSign ";"
      Parse.endStatement
      let whole ← Parse.textSince start
      return (if closed then whole else text, items)) (do
      Parse.word "use"
      let items ← Parse.importItems
      let text ← Parse.textSince start'
      let closed ← Parse.atSign ";"
      Parse.endStatement
      let whole ← Parse.textSince start'
      return (if closed then whole else text, items)) := by
    refine (word "use").bind_same fun _ => ?_
    refine importItems.bind_same fun _ => ?_
    refine text.bind_same fun _ => ?_
    refine (atSign ";").bind_same fun _ => ?_
    refine endStatement.bind_same fun _ => ?_
    exact text.bind_same fun _ => pure rfl rfl
  have alike (a b : String × List Import) (same : id a = id b) :
      (Declaration.imports a.1 a.2).unlined = (Declaration.imports b.1 b.2).unlined :=
    congrArg (fun read : String × List Import => (Declaration.imports read.1 read.2).unlined) same
  exact (body.declare alike).bind_same fun _ => pure rfl rfl

omit inner in
/-- What is behind a word of some is seen, as no word ends a stretch. Behind another lexeme it does
not matter. -/
theorem atWord_peekSecond_bind {β δ : Type} {least need : β → Nat} {view : β → δ}
    {f f' : Bool → Lexeme → Parse β} {words : List String} (filled : "" ∉ words)
    (behind : ∀ found l l', (found = true → l.Alike l') →
      Tracks known (fun r => max (least r) (1 - need r)) need view (f found l) (f' found l')) :
    Tracks known least need view
      (do
        let found ← Parse.atWord words
        let second ← Parse.peekSecond
        f found second)
      (do
        let found ← Parse.atWord words
        let second ← Parse.peekSecond
        f' found second) := by
  let look (c : Cursor) : Bool × Lexeme :=
    (words.contains (c.rest.headD endOfSource).word, (c.rest.drop 1).headD endOfSource)
  let both : Parse (Bool × Lexeme) := do
    return (← Parse.atWord words, ← Parse.peekSecond)
  have again (f : Bool → Lexeme → Parse β) : (do
      let found ← Parse.atWord words
      let second ← Parse.peekSecond
      f found second) = both >>= fun read => f read.1 read.2 := by
    simp only [both, bind_assoc, pure_bind]
  rw [again, again]
  refine looks_bind 1 look (fun _ => rfl)
    (fun read read' => read.1 = read'.1 ∧ (read.1 = true → read.2.Alike read'.2)) ?_ ?_
    fun read => ⟨read, rfl, fun _ => rfl⟩
  · intro S i c c' place inside
    have first : (c.rest.headD endOfSource).word = (c'.rest.headD endOfSource).word := by
      rw [(place.head inside).eq_with_line]
      rfl
    refine ⟨congrArg words.contains first, fun among => place.secondHead inside (.inl ?_)⟩
    refine (kind_of_word rfl fun empty => filled ?_).1
    rw [← empty]
    exact List.contains_iff_mem.mp among
  · rintro ⟨found, l⟩ ⟨_, l'⟩ ⟨rfl, alike⟩
    exact behind found l l' alike

omit inner in
/-- Parsers chosen by whether a function with a name begins. -/
theorem atFunction_bind {β δ : Type} {least need : β → Nat} {view : β → δ} {p p' q q' : Parse β}
    (yes : Tracks known (fun r => max (least r) (1 - need r)) need view p p')
    (no : Tracks known (fun r => max (least r) (1 - need r)) need view q q') :
    Tracks known least need view
      (do
        if ← Parse.atWord ["function"] then
          let second ← Parse.peekSecond
          let third := ((← Parse.rest).drop 2).headD endOfSource
          if second.kind = .name || (second.isSymbol "&" && third.kind = .name) then p else q
        else q)
      (do
        if ← Parse.atWord ["function"] then
          let second ← Parse.peekSecond
          let third := ((← Parse.rest).drop 2).headD endOfSource
          if second.kind = .name || (second.isSymbol "&" && third.kind = .name) then p' else q'
        else q') := by
  rw [← bind_atFunction, ← bind_atFunction]
  refine looks_bind 1 Cursor.atFunction run_atFunction (· = ·) ?_ ?_ fun found => ⟨found, rfl⟩
  · exact fun S i c c' place inside => place.atFunction inside
  · rintro found _ rfl
    exact ite (fun _ => yes) fun _ => no

theorem declaration? {start start' : List Lexeme} (member : (start, start') ∈ known) :
    Tracks known Bool.toNat (fun found => (!found).toNat) id (Parse.declaration? g start)
      (Parse.declaration? g' start') := by
  have alike (a b : String × String × ClassBody)
      (same : Prod.map id (Prod.map id ClassBody.unlined) a =
        Prod.map id (Prod.map id ClassBody.unlined) b) :
      (Declaration.enumeration a.1 a.2.1 a.2.2).unlined =
        (Declaration.enumeration b.1 b.2.1 b.2.2).unlined :=
    congrArg (fun read : String × String × ClassBody =>
      Declaration.enumeration read.1 read.2.1 read.2.2) same
  refine atEnumeration.bind_same fun _ => ?_
  refine ite (fun _ => ?_) fun _ => ?_
  · exact ((enumeration inner member).declare alike).bind fun _ _ _ => pure rfl rfl
  refine atWord_peekSecond_bind (by decide) fun found l l' second => ?_
  have same : (found && decide (l'.kind = .name)) = (found && decide (l.kind = .name)) := by
    cases found with
    | true => rw [(second rfl).eq_with_line]
    | false => rfl
  rw [same]
  generalize (found && decide (l.kind = .name)) = modified
  refine whenever modifiers ?_
  refine (atWord ["class"]).bind_same fun _ => ?_
  have named (a b : String × ClassBody)
      (same : Prod.map id ClassBody.unlined a = Prod.map id ClassBody.unlined b) :
      (Declaration.namedClass a.1 a.2).unlined = (Declaration.namedClass b.1 b.2).unlined :=
    congrArg (fun read : String × ClassBody => Declaration.namedClass read.1 read.2) same
  refine ite (fun _ => ?_) fun _ => ?_
  · exact ((namedClass inner).declare named).bind fun _ _ _ => pure rfl rfl
  refine (atWord ["interface", "trait"]).bind_same fun _ => ?_
  refine ite (fun _ => ?_) fun _ => ?_
  · exact (otherClass inner).bind_same fun _ => pure rfl rfl
  refine atFunction_bind ?_ ?_
  · exact (function inner).bind fun _ _ _ => pure rfl rfl
  refine (atWord ["const"]).bind_same fun _ => ?_
  refine ite (fun _ => ?_) fun _ => pure rfl rfl
  exact (constants inner).bind_same fun _ => pure rfl rfl

theorem settings :
    Tracks known (fun _ => 1) (fun _ => 0) id (Parse.settings g) (Parse.settings g') := by
  refine (word "declare").bind_same fun _ => ?_
  refine (sign "(").bind_same fun _ => ?_
  refine (constantItem inner).commaSeparated_same.bind_same fun _ => ?_
  refine (sign ")").bind_same fun _ => ?_
  refine (sign? ":").bind_same fun colon => ?_
  cases colon with
  | true =>
    refine (statementsUntil inner).bind fun _ _ _ => ?_
    exact (closeWord "enddeclare").last fun _ => rfl
  | false => exact (inner.statement _).bind fun _ _ _ => pure rfl rfl

theorem listStatement :
    Tracks known (fun _ => 1) (fun _ => 0) Stmt.unlined (Parse.listStatement g)
      (Parse.listStatement g') := by
  refine advance.bind_lexeme fun word _ => ?_
  refine peek.bind_lexeme fun _ _ => ?_
  refine (atSign ";").bind_same fun _ => ?_
  refine whenever (inner.expression _).commaSeparated_same ?_
  exact endStatement.bind_same fun _ => pure rfl rfl

theorem staticVariables :
    Tracks known (fun _ => 1) (fun _ => 0) Stmt.unlined (Parse.staticVariables g)
      (Parse.staticVariables g') := by
  have item : Tracks known (fun _ => 1) (fun _ => 1) id (Parse.propertyItem g)
      (Parse.propertyItem g') :=
    (propertyItem inner).weaken (fun _ => Nat.le_refl 1) fun item => Bool.toNat_le _
  refine (word "static").bind_same fun _ => ?_
  refine item.commaSeparated_same.bind_same fun _ => ?_
  exact endStatement.bind_same fun _ => pure rfl rfl

theorem expressionStatement :
    Tracks known (fun _ => 1) (fun _ => 0) Stmt.unlined (Parse.expressionStatement g)
      (Parse.expressionStatement g') := by
  refine (expression inner).bind_same fun _ => ?_
  exact endStatement.bind_same fun _ => pure rfl rfl

omit inner in
/-- The next two lexemes. The second is seen within a stretch when the first is a name. -/
theorem peek_peekSecond_bind {β δ : Type} {least need : β → Nat} {view : β → δ}
    {f f' : Lexeme → Lexeme → Parse β}
    (behind : ∀ next next' second second', next.Alike next' →
      (next.kind = .name → second.Alike second') →
      Tracks known (fun r => max (least r) (1 - need r)) need view (f next second)
        (f' next' second')) :
    Tracks known least need view
      (do
        let next ← Parse.peek
        let second ← Parse.peekSecond
        f next second)
      (do
        let next ← Parse.peek
        let second ← Parse.peekSecond
        f' next second) := by
  let look (c : Cursor) : Lexeme × Lexeme :=
    (c.rest.headD endOfSource, (c.rest.drop 1).headD endOfSource)
  let both : Parse (Lexeme × Lexeme) := do
    return (← Parse.peek, ← Parse.peekSecond)
  have again (f : Lexeme → Lexeme → Parse β) : (do
      let next ← Parse.peek
      let second ← Parse.peekSecond
      f next second) = both >>= fun read => f read.1 read.2 := by
    simp only [both, bind_assoc, pure_bind]
  rw [again, again]
  refine looks_bind 1 look (fun _ => rfl)
    (fun read read' => read.1.Alike read'.1 ∧ (read.1.kind = .name → read.2.Alike read'.2)) ?_ ?_
    fun read => ⟨read, rfl, fun _ => rfl⟩
  · intro S i c c' place inside
    exact ⟨place.head inside, fun named => place.secondHead inside (.inl named)⟩
  · rintro ⟨next, second⟩ ⟨next', second'⟩ ⟨alike, alike'⟩
    exact behind next next' second second' alike alike'

theorem plainStatement :
    Tracks known (fun _ => 1) (fun _ => 0) Stmt.unlined (Parse.plainStatement g)
      (Parse.plainStatement g') := by
  refine rest_bind fun start start' => ?_
  refine peek_peekSecond_bind fun next next' second second' alike alike' => ?_
  rw [alike.eq_with_line]
  have member : (start, start') ∈ (start, start') :: known := List.mem_cons_self
  refine ite (fun _ => ?_) fun _ => ?_
  · refine (block inner).bind fun body body' same => pure ?_ rfl
    rw [Stmt.unlined, Stmt.unlined, Stmt.unlinedAll_eq_map, Stmt.unlinedAll_eq_map, same]
  refine (sign? ";").bind_same fun empty => ?_
  cases empty with
  | true => exact pure rfl rfl
  | false =>
    refine ite (fun h => absurd h Bool.false_ne_true) fun _ => ?_
    refine ite (fun _ => ?_) fun _ => ?_
    · refine (attributes inner).bind_same fun _ => ?_
      refine (declaration? inner member).bind_same fun declared => ?_
      cases declared with
      | true => exact pure rfl rfl
      | false =>
        refine (optionalWord "static").bind_same fun _ => ?_
        refine (closure inner).bind_same fun _ => ?_
        exact endStatement.bind_same fun _ => pure rfl rfl
    refine (declaration? inner member).bind_same fun declared => ?_
    cases declared with
    | true => exact pure rfl rfl
    | false =>
      refine ite (fun h => absurd h Bool.false_ne_true) fun _ => ?_
      simp only [Lexeme.word_line]
      have named (w : String) (word : next.word = w) (filled : w ≠ "") : second.Alike second' :=
        alike' (kind_of_word word filled).1
      split
      · exact (choice inner).last fun _ => rfl
      · exact (comparison inner).last fun _ => rfl
      · exact (countedLoop inner).last fun _ => rfl
      · exact (elementLoop inner).last fun _ => rfl
      · exact (testedLoop inner).last fun _ => rfl
      · exact (repeatedLoop inner).last fun _ => rfl
      · exact (attempt inner).last fun _ => rfl
      · exact (result inner).last fun _ => rfl
      · exact (space inner).bind_same fun _ => pure rfl rfl
      · exact imports.bind_same fun _ => pure rfl rfl
      · exact (settings inner).bind_same fun _ => pure rfl rfl
      · rename_i word
        rw [(named _ word (by decide)).eq_with_line]
        refine ite (fun _ => ?_) fun _ => ?_
        · exact (staticVariables inner).last fun _ => rfl
        · exact (expressionStatement inner).last fun _ => rfl
      · refine ite (fun _ => (listStatement inner).last fun _ => rfl) fun _ => ?_
        by_cases name : next.kind = .name
        · rw [(alike' name).eq_with_line]
          refine ite (fun _ => ?_) fun _ => (expressionStatement inner).last fun _ => rfl
          refine advance.bind_lexeme fun _ _ => ?_
          exact (sign ":").bind_same fun _ => pure rfl rfl
        · simp only [name, decide_false, Bool.false_and, Bool.false_eq_true, if_false]
          exact (expressionStatement inner).last fun _ => rfl

theorem statement :
    Tracks known (fun _ => 1) (fun _ => 0) (List.map Stmt.unlined) (Parse.statement g)
      (Parse.statement g') := by
  refine peek.bind_lexeme fun _ _ => ?_
  refine ite (fun _ => ?_) fun _ => ?_
  · exact advance.bind_lexeme fun _ _ => pure rfl rfl
  · exact (plainStatement inner).bind fun _ _ same => pure (congrArg ([·]) same) rfl

end

end Tracks

end RequestSchema.Source
