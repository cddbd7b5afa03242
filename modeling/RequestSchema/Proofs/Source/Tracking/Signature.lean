import RequestSchema.Proofs.Source.Tracking
import RequestSchema.Source.Grammar.Signature

/-!
# Signatures at two places

The parsers of attributes, types, parameters and arguments track themselves, with grammars that
track each other for what is nested in them.
-/
namespace RequestSchema.Source

/-- The parsers of one grammar track those of another. -/
structure Grammar.Tracked (g g' : Grammar) : Prop where
  expression : ∀ known,
    Tracks known (fun _ => 1) (fun _ => 1) id g.expression g'.expression
  operand : ∀ known level,
    Tracks known (fun _ => 1) (fun _ => 1) id (g.operand level) (g'.operand level)
  statement : ∀ known,
    Tracks known (fun _ => 1) (fun _ => 0) (List.map Stmt.unlined) g.statement g'.statement
  members : ∀ known,
    Tracks known (fun _ => 1) (fun _ => 0) (List.map Member.unlined) g.members g'.members

namespace Tracks

open Parse

variable {known : List (List Lexeme × List Lexeme)} {g g' : Grammar} (inner : g.Tracked g')

/-- Whether a parameter by reference follows is seen at the sign of the reference, which does not
end a stretch. -/
theorem atReference :
    Tracks known (fun _ => 0) (fun _ => 1) id Parse.atReference Parse.atReference := by
  have guarded (c : Cursor) : Parse.atReference.run c =
      .ok ((c.rest.headD endOfSource).isSymbol "&" &&
        (let second := (c.rest.drop 1).headD endOfSource
         (second.kind = .var || second.isSymbol "..." || second.isSymbol "&")), c) := by
    change (if (c.rest.headD endOfSource).isSymbol "&" then _ else _ : Parse Bool).run c = _
    cases (c.rest.headD endOfSource).isSymbol "&" with
    | true => rfl
    | false => rfl
  refine of_looks _ guarded (fun _ => rfl) fun S i c c' _ place inside => ?_
  refine ⟨_, guarded c', ?_⟩
  rw [id, id, (place.head inside).eq_with_line]
  cases signed : (c.rest.headD endOfSource).isSymbol "&" with
  | false =>
    change false = ((c.rest.headD endOfSource).isSymbol "&" && _)
    rw [signed]
    rfl
  | true =>
    rw [(place.secondHead inside (.inr signed)).eq_with_line]
    change _ = ((c.rest.headD endOfSource).isSymbol "&" && _)
    rw [signed]
    rfl

theorem typeMember :
    Tracks known (fun _ => 1) (fun _ => 0) id Parse.typeMember Parse.typeMember := by
  refine (optionalSign "?").bind_same fun _ => ?_
  refine (sign? "(").bind_same fun grouped => ?_
  cases grouped with
  | true =>
    refine (many_closed_same ?_).bind_same fun parts => pure rfl rfl
    refine (sign? ")").bind_same fun closed => ?_
    cases closed with
    | true => exact pure rfl rfl
    | false =>
      refine (sign? "&").bind_same fun found => ?_
      cases found with
      | true => exact pure rfl rfl
      | false =>
        refine (sign? "|").bind_same fun found => ?_
        cases found with
        | true => exact pure rfl rfl
        | false => exact (ofKind .name).bind_lexeme fun _ _ => pure rfl rfl
  | false => exact (ofKind .name).bind_lexeme fun _ _ => pure rfl rfl

theorem type : Tracks known (fun _ => 1) (fun _ => 1) id Parse.type Parse.type := by
  refine typeMember.bind_same fun _ => ?_
  refine (many_open_same ?_).bind_same fun parts => pure rfl rfl
  refine (sign? "|").bind_same fun found => ?_
  cases found with
  | true => exact typeMember.bind_same fun _ => pure rfl rfl
  | false =>
    refine (atSign "&").bind_same fun joined => ?_
    refine atReference.bind_same fun reference => ?_
    refine ite (fun _ => ?_) fun _ => pure rfl rfl
    exact (sign "&").bind_same fun _ => typeMember.bind_same fun _ => pure rfl rfl

theorem resultType :
    Tracks known (fun _ => 0) (fun _ => 1) id Parse.resultType Parse.resultType := by
  refine (sign? ":").bind_same fun found => ?_
  cases found with
  | true => exact type.last fun _ => rfl
  | false => exact pure rfl rfl

theorem modifiers : Tracks known (fun _ => 0) (fun _ => 1) id Parse.modifiers Parse.modifiers := by
  refine (many_open_same ?_).bind_same fun parts => pure rfl rfl
  refine (atWord modifierWords).bind_same fun found => ?_
  cases found with
  | true =>
    refine advance.bind_lexeme fun _ _ => ?_
    refine (sign? "(").bind_same fun limited => ?_
    cases limited with
    | true =>
      exact (word "set").bind_same fun _ => (sign ")").bind_same fun _ => pure rfl rfl
    | false => exact pure rfl rfl
  | false => exact pure rfl rfl

section

include inner

theorem argument :
    Tracks known (fun _ => 1) (fun _ => 1) id (Parse.argument g) (Parse.argument g') := by
  have value : Tracks known (fun _ => 1) (fun _ => 1) id (do
      let start ← Parse.rest
      if ← Parse.sign? "..." then
        if ← Parse.atSign ")" then return none
        let _ ← g.expression
        return some (.other (← Parse.textSince start))
      let _ ← Parse.sign? "&"
      return some (← g.expression)) (do
      let start ← Parse.rest
      if ← Parse.sign? "..." then
        if ← Parse.atSign ")" then return none
        let _ ← g'.expression
        return some (.other (← Parse.textSince start))
      let _ ← Parse.sign? "&"
      return some (← g'.expression)) := by
    refine rest_bind fun start start' => ?_
    refine (sign? "...").bind_same fun spread => ?_
    cases spread with
    | true =>
      refine (atSign ")").bind_same fun closing => ?_
      cases closing with
      | true => exact pure rfl rfl
      | false =>
        refine (inner.expression _).bind_same fun _ => ?_
        exact (textSince List.mem_cons_self).bind_same fun _ => pure rfl rfl
    | false =>
      refine (optionalSign "&").bind_same fun _ => ?_
      exact (inner.expression _).bind_same fun _ => pure rfl rfl
  refine peek.bind_lexeme fun _ _ => ?_
  refine peekSecond.bind_lexeme fun _ _ => ?_
  refine ite (fun _ => ?_) fun _ => value.last fun _ => rfl
  refine advance.bind_lexeme fun _ _ => ?_
  exact (sign ":").bind_same fun _ => value.last fun _ => rfl

theorem arguments :
    Tracks known (fun _ => 1) (fun _ => 0) id (Parse.arguments g) (Parse.arguments g') := by
  refine (sign "(").bind_same fun _ => ?_
  exact (argument inner).listUntil_same.bind_same fun _ => pure rfl rfl

theorem attributes :
    Tracks known (fun _ => 0) (fun _ => 1) id (Parse.attributes g) (Parse.attributes g') := by
  refine (many_open_same ?_).bind_same fun _ => pure rfl rfl
  refine (sign? "#[").bind_same fun found => ?_
  cases found with
  | true =>
    refine (listUntil_same ?_).bind_same fun _ => pure rfl rfl
    refine (ofKind .name).bind_lexeme fun _ _ => ?_
    refine (atSign "(").bind_same fun called => ?_
    cases called with
    | true => exact (arguments inner).bind_same fun _ => pure rfl rfl
    | false => exact pure rfl rfl
  | false => exact pure rfl rfl

theorem block :
    Tracks known (fun _ => 1) (fun _ => 0) (List.map Stmt.unlined) (Parse.block g)
      (Parse.block g') := by
  refine (sign "\x7b").bind_same fun _ => ?_
  have body : Tracks known (fun _ => 1) perPart (Option.map (List.map Stmt.unlined)) (do
      if ← Parse.sign? "\x7d" then return none else return some (← g.statement)) (do
      if ← Parse.sign? "\x7d" then return none else return some (← g'.statement)) := by
    refine (sign? "\x7d").bind_same fun closed => ?_
    cases closed with
    | true => exact pure rfl rfl
    | false => exact (inner.statement _).bind fun _ _ same => pure (congrArg some same) rfl
  refine body.many_closed.bind fun statements statements' same => pure ?_ rfl
  rw [List.map_flatten, List.map_flatten, same]

end

/-- More steps than are needed do not matter. -/
theorem skipBraces_of_le {inside steps steps' : Nat} (fewer : steps ≤ steps') :
    Tracks known (fun _ => 1) (fun _ => 0) id (Parse.skipBraces inside steps)
      (Parse.skipBraces inside steps') := by
  induction steps generalizing inside steps' with
  | zero => exact fail
  | succ steps ih =>
    obtain ⟨steps', rfl⟩ : ∃ n, steps' = n + 1 := Nat.exists_eq_succ_of_ne_zero (by omega)
    have behind (inside : Nat) := @ih inside _ (Nat.le_of_succ_le_succ fewer)
    refine advance.bind_lexeme fun _ _ => ?_
    refine ite (fun _ => (behind _).last fun _ => rfl) fun _ => ?_
    refine ite (fun _ => (behind _).last fun _ => rfl) fun _ => ?_
    refine ite (fun _ => ?_) fun _ => (behind _).last fun _ => rfl
    exact pure rfl rfl

/-- The lexemes that are skipped are all the steps that are needed. -/
theorem skipBraces_steps {inside steps m : Nat} {c d : Cursor} {u : Unit}
    (run : (Parse.skipBraces inside steps).run c = .ok (u, d)) (reads : c.Reads m d) :
    (Parse.skipBraces inside m).run c = .ok (u, d) := by
  induction steps generalizing inside m c with
  | zero => exact absurd run (fails_fail c u d)
  | succ steps ih =>
    obtain ⟨l, e, first, behind⟩ := Parse.bind_run_ok run
    -- what is skipped behind the first lexeme is skipped with a step for each
    have one {inside' : Nat} (same : ∀ steps, (Parse.skipBraces inside (steps + 1)).run c =
          (Parse.skipBraces inside' steps).run e) :
        (Parse.skipBraces inside m).run c = .ok (u, d) := by
      rw [same] at run
      obtain ⟨m', -, reads'⟩ :=
        (@skipBraces_of_le [] inside' steps steps (Nat.le_refl _)).reads e u d run
      obtain rfl := reads.unique ((Parse.reads_of_run_advance first).trans reads')
      rw [Nat.add_comm, same]
      exact ih run reads'
    have again (steps : Nat) : (Parse.skipBraces inside (steps + 1)).run c =
        (if l.isSymbol "\x7b" then Parse.skipBraces (inside + 1) steps
          else if !l.isSymbol "\x7d" then Parse.skipBraces inside steps
          else if inside = 0 then Pure.pure ()
          else Parse.skipBraces (inside - 1) steps).run e := by
      rw [Parse.skipBraces, StateT.run_bind, first]
      rfl
    by_cases opens : l.isSymbol "\x7b" = true
    · exact one fun steps => by rw [again, if_pos opens]
    · by_cases within : (!l.isSymbol "\x7d") = true
      · exact one fun steps => by rw [again, if_neg opens, if_pos within]
      · by_cases last : inside = 0
        · have ends (steps : Nat) : (Parse.skipBraces inside (steps + 1)).run c = .ok ((), e) := by
            rw [again, if_neg opens, if_neg within, if_pos last]
            rfl
          rw [ends] at run
          cases run
          obtain rfl := reads.unique (Parse.reads_of_run_advance first)
          exact ends 0
        · exact one fun steps => by rw [again, if_neg opens, if_neg within, if_neg last]

/-- The lexeme that closes a brace is found whatever stands behind it. -/
theorem skipBraces :
    Tracks known (fun _ => 1) (fun _ => 0) id
      (do Parse.skipBraces 0 ((← Parse.rest).length + 1))
      (do Parse.skipBraces 0 ((← Parse.rest).length + 1)) := by
  constructor
  · intro c u d run
    exact (@skipBraces_of_le known 0 _ _ (Nat.le_refl _)).reads c u d run
  · intro S i m c c' d u passed place run reads inside
    have run' := skipBraces_steps run reads
    have bound := reads.bound
    have steps : m ≤ c'.rest.length + 1 := by
      rw [place.second, List.length_append, List.length_drop, S.length_eq]
      omega
    exact (skipBraces_of_le steps).follows S i m c c' d u passed place run' reads inside

theorem braced? :
    Tracks known Bool.toNat (fun found => (!found).toNat) id Parse.braced? Parse.braced? := by
  refine (sign? "\x7b").bind_same fun found => ?_
  cases found with
  | true => exact skipBraces.bind_same fun _ => pure rfl rfl
  | false => exact pure rfl rfl

section

include inner

theorem parameter :
    Tracks known (fun _ => 1) (fun _ => 1) id (Parse.parameter g) (Parse.parameter g') := by
  refine (attributes inner).bind_same fun _ => ?_
  refine modifiers.bind_same fun _ => ?_
  refine peek.bind_lexeme fun _ _ => ?_
  refine (atSign "?").bind_same fun _ => ?_
  refine (atSign "(").bind_same fun _ => ?_
  refine whenever type ?_
  refine (optionalSign "&").bind_same fun _ => ?_
  refine (optionalSign "...").bind_same fun _ => ?_
  refine (ofKind .var).bind_lexeme fun _ _ => ?_
  refine (optionalSign "=").bind_same fun _ => ?_
  refine whenever (inner.expression _) ?_
  refine braced?.bind_same fun braced => ?_
  cases braced <;> exact pure rfl rfl

theorem parameters :
    Tracks known (fun _ => 1) (fun _ => 0) id (Parse.parameters g) (Parse.parameters g') := by
  refine (sign "(").bind_same fun _ => ?_
  exact (parameter inner).listUntil_same.bind_same fun _ => pure rfl rfl

omit inner in
theorem closureUses :
    Tracks known (fun _ => 0) (fun _ => 1) id Parse.closureUses Parse.closureUses := by
  refine (word? "use").bind_same fun found => ?_
  cases found with
  | true =>
    refine (sign "(").bind_same fun _ => ?_
    refine (listUntil_same ?_).bind_same fun _ => pure rfl rfl
    refine (optionalSign "&").bind_same fun _ => ?_
    exact (ofKind .var).bind_lexeme fun _ _ => pure rfl rfl
  | false => exact pure rfl rfl

theorem closure :
    Tracks known (fun _ => 1) (fun _ => 1) id (Parse.closure g) (Parse.closure g') := by
  refine (optionalWord "fn").bind_same fun arrow => ?_
  refine whenever (word "function") ?_
  refine (optionalSign "&").bind_same fun _ => ?_
  refine (parameters inner).bind_same fun _ => ?_
  refine closureUses.bind_same fun _ => ?_
  refine resultType.bind_same fun _ => ?_
  refine ite (fun _ => ?_) fun _ => ?_
  · refine (sign "=>").bind_same fun _ => ?_
    exact (inner.expression _).bind_same fun _ => pure rfl rfl
  · exact (block inner).bind fun _ _ _ => pure rfl rfl

end

end Tracks

end RequestSchema.Source
