import RequestSchema.Proofs.Source.Tracking.Sources
import RequestSchema.Proofs.Source.Heads
import RequestSchema.Proofs.Source.Scan

/-!
# Code in front of a statement

Whole lines of code that are a source by themselves are read in the same way where one more
statement stands behind them (`Preface.ofText_append`).
-/
namespace RequestSchema.Source

open Parse

/-- Whole lines of code that are a source by themselves: behind an opening tag, every lexeme and
every statement ends within them. -/
structure Preface (text : String) (tree : SourceTree) : Prop where
  /-- the last line has an end -/
  line : text.toList.getLast? = some '\n'
  opened : pageLength text.toList < text.toList.length
  read : SourceTree.ofText text = .ok tree
  sound : ∀ l ∈ scan text, l.kind ≠ .bad
  /-- the last statement ends with a semicolon or a brace -/
  closed : ∀ l, (scan text).dropLast.getLast? = some l →
    l.isSymbol ";" = true ∨ l.isSymbol "\x7d" = true

theorem scan_eq_lexemesFrom (text : String) :
    scan text = lexemesFrom 1 false (text.toList.take (pageLength text.toList))
      (text.toList.drop (pageLength text.toList)) := by
  rw [scan]
  refine scanFrom_eq_lexemesFrom ?_
  rw [List.length_drop]
  omega

namespace Preface

variable {front : String} {tree : SourceTree}

/-- The lexemes of a preface are found in front of any code that begins without an open
comment. -/
theorem scan_append (preface : Preface front tree) {body : List Lexeme} {ending : Lexeme}
    (split : scan front = body ++ [ending]) {code : String}
    (begins : gapLength .blank code.toList ≠ none) :
    scan (front ++ code) = body ++ lexemesFrom (ending.line - lineFeeds ending.lead)
      (operandBehind false body) ending.lead code.toList := by
  obtain ⟨l, text⟩ : ∃ l, front.toList = l ++ ['\n'] := by
    obtain ⟨l, h⟩ := List.getLast?_eq_some_iff.mp preface.line
    exact ⟨l, h⟩
  have stops : Stops '\n' := .inl rfl
  have opened := preface.opened
  have whole : (front ++ code).toList = l ++ '\n' :: code.toList := by
    rw [String.toList_append, text, List.append_assoc]
    rfl
  have short : pageLength (l ++ ['\n']) ≤ l.length := by
    rw [text, List.length_append, List.length_singleton] at opened
    omega
  have whole' := split
  rw [scan_eq_lexemesFrom, text, List.drop_append_of_le_length short] at split
  rw [scan_eq_lexemesFrom, whole, stops.pageLength _ short, List.drop_append_of_le_length short,
    List.take_append_of_le_length short]
  rw [List.take_append_of_le_length short] at split
  have sound : ∀ x ∈ body, x.kind ≠ .bad := fun x member =>
    preface.sound x (by rw [whole']; exact List.mem_append_left _ member)
  refine lexemesFrom_append stops split sound ?_ (fun brace => absurd brace (by decide)) begins
  intro x final page
  have sign : x.kind = .symbol := by
    have closed := preface.closed x (by rw [whole', List.dropLast_concat]; exact final)
    simp only [Lexeme.isSymbol, Bool.and_eq_true, decide_eq_true_eq] at closed
    rcases closed with ⟨kind, -⟩ | ⟨kind, -⟩ <;> exact kind
  rw [sign] at page
  cases page

end Preface

/-- The code is one statement wherever it stands, with some declarations inside. -/
structure Coda (code : String) (declared : List Declaration) : Prop where
  begins : gapLength .blank code.toList ≠ none
  live : ∀ line operand lead,
    ((lexemesFrom line operand lead code.toList).headD endOfSource).kind ≠ .done
  /-- it continues no statement in front of it -/
  apart : ∀ line operand lead,
    ((lexemesFrom line operand lead code.toList).headD endOfSource).word ∉ continuingWords
  read : ∀ line operand lead depth c, c.rest = lexemesFrom line operand lead code.toList →
    c.rest.length ≤ depth → ∃ s e last passed,
      (statement (Grammar.ofDepth depth)).Takes c [s] e ∧ e.rest = [last] ∧ last.kind = .done ∧
        e.declarations = c.declarations ++ passed ∧ passed.map Declaration.unlined = declared

/-- A source is read by reading one statement after another. -/
theorem ofText_eq_ok {text : String} {tree : SourceTree} :
    SourceTree.ofText text = .ok tree ↔ ∃ items d,
      (Parse.repeated (item? (Grammar.ofDepth ((scan text).length + 1)))
        ((scan text).length + 1)).Takes { rest := scan text } items d ∧
        tree = ⟨items.flatten, d.declarations⟩ := by
  set statements := (Parse.repeated (item? (Grammar.ofDepth ((scan text).length + 1)))
    ((scan text).length + 1)).run { rest := scan text } with all
  have run : SourceTree.ofText text =
      (statements >>= fun out => .ok (out.1.flatten, out.2)) >>= fun out =>
        .ok ⟨out.1, out.2.declarations⟩ := rfl
  rw [run]
  unfold Takes
  rw [← all]
  cases statements with
  | error fault =>
    constructor
    · intro read
      cases read
    · rintro ⟨items, d, read, -⟩
      cases read
  | ok out =>
    constructor
    · intro read
      cases read
      exact ⟨out.1, out.2, rfl, rfl⟩
    · rintro ⟨items, d, read, rfl⟩
      cases read
      rfl

/-- The last statement of a source, and the end behind it. -/
theorem takes_lastItem {g : Grammar} {d e : Cursor} {items : List Stmt} (steps : Nat)
    (going : (d.rest.headD endOfSource).kind ≠ .done) (taken : g.statement.Takes d items e)
    (final : (e.rest.headD endOfSource).kind = .done) :
    (Parse.repeated (item? g) (steps + 2)).Takes d [items] e := by
  have item : (item? g).Takes d (some items) e := (run_item?_more _ going).trans (taken.bind rfl)
  exact item.bind (.bind (.bind (run_item?_done _ final) rfl) rfl)

theorem Preface.ofText_append {front code : String} {tree : SourceTree}
    {declared : List Declaration} (preface : Preface front tree) (coda : Coda code declared) :
    ∃ whole, SourceTree.ofText (front ++ code) = .ok whole ∧ whole.statements ≠ [] ∧
      whole.declarations.map Declaration.unlined =
        tree.declarations.map Declaration.unlined ++ declared := by
  obtain ⟨body, ending, split, done, live⟩ := lexemesFrom_ends 1 false
    (front.toList.take (pageLength front.toList)) (front.toList.drop (pageLength front.toList))
  rw [← scan_eq_lexemesFrom] at split
  have scanned := preface.scan_append split coda.begins
  set line := ending.line - lineFeeds ending.lead
  set operand := operandBehind false body
  obtain ⟨items, d, run, rfl⟩ := ofText_eq_ok.mp preface.read
  let S : Stretch :=
    { first := body, second := body, behind := [ending]
      behind' := lexemesFrom line operand ending.lead code.toList
      alike := List.forall₂_same.mpr fun _ _ => rfl
      ended := by
        intro l final
        rcases preface.closed l (by rw [split, List.dropLast_concat]; exact final) with sign | sign
        · exact ⟨by rw [(kind_of_isSymbol sign).1]; decide, isSymbol_other sign (by decide)⟩
        · exact ⟨by rw [(kind_of_isSymbol sign).1]; decide, isSymbol_other sign (by decide)⟩
      closed := coda.apart line operand ending.lead }
  have place : S.At 0 { rest := scan front } { rest := scan (front ++ code) } :=
    ⟨Nat.zero_le _, split, scanned⟩
  have filled : 0 < (lexemesFrom line operand ending.lead code.toList).length := by
    obtain ⟨more, last, ends, -, -⟩ := lexemesFrom_ends line operand ending.lead code.toList
    rw [ends, List.length_append, List.length_singleton]
    omega
  have total : (scan (front ++ code)).length =
      body.length + (lexemesFrom line operand ending.lead code.toList).length := by
    rw [scanned, List.length_append]
  have shorter : (scan front).length + 1 ≤ (scan (front ++ code)).length + 1 := by
    rw [total, split, List.length_append, List.length_singleton]
    omega
  obtain ⟨k, items', d', place', same, passed, bound, again⟩ := repeated_item?_through (S := S)
    (Grammar.tracked_of_le shorter) live done place (Nat.lt_succ_self _) run
  have bound : k ≤ body.length := by simpa using bound
  have left : d'.rest = lexemesFrom line operand ending.lead code.toList := by
    rw [place'.second, List.drop_length, List.nil_append]
  obtain ⟨s, e, last, more, taken, ended, end', declared', view⟩ :=
    coda.read line operand ending.lead (scan (front ++ code)).length d' left (by rw [left]; omega)
  obtain ⟨steps, enough⟩ : ∃ steps, (scan (front ++ code)).length + 1 = k + (steps + 2) :=
    ⟨(scan (front ++ code)).length - 1 - k, by omega⟩
  -- the statement is the last item
  have going : (d'.rest.headD endOfSource).kind ≠ .done := by
    rw [left]
    exact coda.live line operand ending.lead
  have final : (e.rest.headD endOfSource).kind = .done := by
    rw [ended]
    exact end'
  have others := takes_lastItem (g := Grammar.ofDepth ((scan (front ++ code)).length + 1)) steps
    going taken final
  have read : (Parse.repeated (item? (Grammar.ofDepth ((scan (front ++ code)).length + 1)))
      ((scan (front ++ code)).length + 1)).Takes { rest := scan (front ++ code) }
        (items' ++ [[s]]) e := by
    have through := again (steps + 2)
    rw [← enough] at through
    unfold Takes at others ⊢
    rw [through, StateT.run_map, others]
    rfl
  refine ⟨_, ofText_eq_ok.mpr ⟨_, e, read, rfl⟩, by simp, ?_⟩
  obtain ⟨before, before', declared₁, declared₂, alike⟩ := passed
  rw [declared', declared₁, declared₂, ← view]
  simp only [List.nil_append, List.map_append, alike]

end RequestSchema.Source
