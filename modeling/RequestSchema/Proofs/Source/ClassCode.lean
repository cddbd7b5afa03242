import RequestSchema.Proofs.Source.Append

/-!
# The code of a class

A class that is read from its word to its closing brace is read in the same way, but for its lines,
where it is declared behind other code (`IsClass.named`), and where it has no name and is assigned
to a variable or returned (`IsClass.assigned`, `IsClass.returned`).
-/
namespace RequestSchema.Source

open Parse

def classCode (name rest : String) : String := "class " ++ name ++ " extends " ++ rest

def classLexemes (name rest : String) : List Lexeme :=
  lexemesFrom 1 false [] (classCode name rest).toList

/-- The code is the declaration of a class up to its closing brace, with some declarations inside
its methods. -/
structure IsClass (name rest : String) (body : ClassBody) (inner : List Declaration) : Prop where
  word : IsWord name.toList
  brace : rest.toList.getLast? = some '\x7d'
  sound : ∀ l ∈ classLexemes name rest, l.kind ≠ .bad
  /-- the brace at the end is a sign, and not in a comment or a text -/
  closed : ∀ l, (classLexemes name rest).dropLast.getLast? = some l → l.isSymbol "\x7d" = true
  ended : ∀ l, (classLexemes name rest).getLast? = some l → l.lead = []
  read : ∃ d, (namedClass (Grammar.ofDepth (classLexemes name rest).length)
    (classLexemes name rest)).Takes { rest := classLexemes name rest } (name, body) d ∧
      d.rest.length = 1 ∧ d.declarations = inner

/-- What a class extends is tracked together with its members. -/
theorem Tracks.classTail {known : List (List Lexeme × List Lexeme)} {g g' : Grammar}
    (inner : g.Tracked g') :
    Tracks known (fun _ => 1) (fun _ => 0) (List.map Member.unlined) (classTail g)
      (classTail g') := by
  refine ancestors.bind_same fun _ => ?_
  exact (inner.members known).weaken (fun _ => by simp) fun _ => Nat.le_refl 0

/-- The word that a name in the source stands for. -/
theorem word_of_name (lead : List Char) (w : String) (line : Nat) :
    Lexeme.word ⟨.name, lead, w.toList, line⟩ = Text.lower w := by
  simp [Lexeme.word, Lexeme.string]

theorem word_class (lead : List Char) (line : Nat) :
    Lexeme.word ⟨.name, lead, "class".toList, line⟩ = "class" :=
  (word_of_name lead "class" line).trans (by decide)

/-- What is no name continues no statement. -/
theorem not_continuing {l : Lexeme} (kind : l.kind ≠ .name) : l.word ∉ continuingWords := by
  rw [Lexeme.word, if_neg kind]
  decide

def extendsWord (line : Nat) : Lexeme := ⟨.name, [' '], "extends".toList, line⟩

theorem classCode_toList (name rest X : String) : (classCode name rest ++ X).toList =
    "class".toList ++ ' ' :: (name.toList ++ ' ' :: ("extends".toList ++
      ' ' :: (rest.toList ++ X.toList))) := by
  simp [classCode, String.toList_append]

theorem lexemesBehind_extends (x : Lexeme) (X : List Char) :
    ∃ n, lexemesBehind x (' ' :: ("extends".toList ++ ' ' :: X)) =
      extendsWord n :: lexemesFrom n true [] (' ' :: X) := by
  obtain ⟨n, behind⟩ := lexemesBehind_word (x := x) (w := "extends".toList) (by decide) X
  have ends : Lexeme.endsOperand ⟨.name, [' '], "extends".toList, n⟩ = true := by
    simp only [Lexeme.endsOperand]
    decide
  refine ⟨n, behind.trans (congrArg _ ?_)⟩
  rw [lexemesBehind, ends]
  rfl

/-- The lexemes in front of what a class with a name extends. -/
theorem lexemesFrom_classCode {name : String} (word : IsWord name.toList) (rest X : String)
    (line : Nat) (operand : Bool) (lead : List Char) :
    ∃ l m n, lexemesFrom line operand lead (classCode name rest ++ X).toList =
      ⟨.name, lead, "class".toList, l⟩ :: ⟨.name, [' '], name.toList, m⟩ :: extendsWord n ::
        lexemesFrom n true [] (' ' :: (rest.toList ++ X.toList)) := by
  obtain ⟨l, first⟩ := lexemesFrom_word line operand lead
    (rfl : [].all isSpace = true) (by decide : IsWord "class".toList)
    (name.toList ++ ' ' :: ("extends".toList ++ ' ' :: (rest.toList ++ X.toList)))
  rw [List.nil_append, List.append_nil] at first
  obtain ⟨m, named⟩ := lexemesBehind_word (x := ⟨.name, lead, "class".toList, l⟩) word
    ("extends".toList ++ ' ' :: (rest.toList ++ X.toList))
  obtain ⟨n, behind⟩ := lexemesBehind_extends ⟨.name, [' '], name.toList, m⟩
    (rest.toList ++ X.toList)
  exact ⟨l, m, n, by rw [classCode_toList, first, named, behind]⟩

/-- The lexemes in front of what a class without a name extends. -/
theorem lexemesBehind_newClass (x : Lexeme) (X : List Char) :
    ∃ k l n, lexemesBehind x (" new class extends ".toList ++ X) =
      ⟨.name, [' '], "new".toList, k⟩ :: ⟨.name, [' '], "class".toList, l⟩ :: extendsWord n ::
        lexemesFrom n true [] (' ' :: X) := by
  have text : " new class extends ".toList ++ X = ' ' :: ("new".toList ++ ' ' ::
      ("class".toList ++ ' ' :: ("extends".toList ++ ' ' :: X))) := rfl
  rw [text]
  obtain ⟨k, new⟩ := lexemesBehind_word (x := x) (w := "new".toList) (by decide)
    ("class".toList ++ ' ' :: ("extends".toList ++ ' ' :: X))
  obtain ⟨l, word⟩ := lexemesBehind_word (x := ⟨.name, [' '], "new".toList, k⟩)
    (w := "class".toList) (by decide) ("extends".toList ++ ' ' :: X)
  obtain ⟨n, behind⟩ := lexemesBehind_extends ⟨.name, [' '], "class".toList, l⟩ X
  exact ⟨k, l, n, by rw [new, word, behind]⟩

/-! ## What a class extends, and its members -/

namespace IsClass

variable {name rest : String} {body : ClassBody} {inner : List Declaration}

/-- The lexemes of the class from its word on: those behind the word in front of what it extends are
`B`, and the last one of them closes the class. -/
theorem lexemes (isClass : IsClass name rest body inner) :
    ∃ l m n B ending,
      classLexemes name rest = ⟨.name, [], "class".toList, l⟩ ::
        ⟨.name, [' '], name.toList, m⟩ :: extendsWord n :: (B ++ [ending]) ∧
      lexemesFrom n true [] (' ' :: rest.toList) = B ++ [ending] ∧
      (∀ x ∈ B, x.kind ≠ .bad) ∧
      (∀ x, (extendsWord n :: B).getLast? = some x → x.isSymbol "\x7d" = true) ∧
      ending.lead = [] ∧ ending.kind = .done := by
  obtain ⟨l, m, n, lexemes⟩ := lexemesFrom_classCode isClass.word rest "" 1 false []
  obtain ⟨B, ending, split, done, -⟩ := lexemesFrom_ends n true [] (' ' :: rest.toList)
  have all : classLexemes name rest = ⟨.name, [], "class".toList, l⟩ ::
      ⟨.name, [' '], name.toList, m⟩ :: extendsWord n :: (B ++ [ending]) := by
    rw [← split, classLexemes]
    simpa using lexemes
  have front : ⟨.name, [], "class".toList, l⟩ :: ⟨.name, [' '], name.toList, m⟩ ::
      extendsWord n :: (B ++ [ending]) = (⟨.name, [], "class".toList, l⟩ ::
        ⟨.name, [' '], name.toList, m⟩ :: extendsWord n :: B) ++ [ending] := rfl
  refine ⟨l, m, n, B, ending, all, split, ?_, ?_, ?_, done⟩
  · intro x member
    exact isClass.sound x (by rw [all]; simp [member])
  · intro x final
    refine isClass.closed x ?_
    rw [all, front, List.dropLast_concat, List.getLast?_cons_cons, List.getLast?_cons_cons, final]
  · refine isClass.ended ending ?_
    rw [all, front, List.getLast?_concat]

/-- The same lexemes are found in front of any end of a statement. -/
theorem lexemes_append {n : Nat} {B : List Lexeme} {ending : Lexeme} {X : String}
    (isClass : IsClass name rest body inner) (line : Nat)
    (split : lexemesFrom n true [] (' ' :: rest.toList) = B ++ [ending])
    (sound : ∀ x ∈ B, x.kind ≠ .bad)
    (closed : ∀ x, (extendsWord n :: B).getLast? = some x → x.isSymbol "\x7d" = true)
    (ended : ending.lead = []) (gap : gapLength .blank X.toList ≠ none) :
    ∃ B' line' operand, List.Forall₂ Lexeme.Alike B B' ∧
      lexemesFrom line true [] (' ' :: (rest.toList ++ X.toList)) =
        B' ++ lexemesFrom line' operand [] X.toList := by
  obtain ⟨B', ending', split', -, -⟩ := lexemesFrom_ends line true [] (' ' :: rest.toList)
  have alike := lexemesFrom_alike n line true [] (' ' :: rest.toList)
  rw [split, split'] at alike
  have length : B.length = B'.length := by
    have lengths := alike.length_eq
    simpa using lengths
  have others : List.Forall₂ Lexeme.Alike B B' := by
    have taken := List.forall₂_take_append _ _ _ alike
    rwa [← length, List.take_left] at taken
  have views : B.map Lexeme.unlined = B'.map Lexeme.unlined := by
    rw [← List.forall₂_eq_eq_eq, List.forall₂_map_left_iff, List.forall₂_map_right_iff]
    exact others
  have last : ending.Alike ending' := by
    have dropped := List.forall₂_drop_append _ _ _ alike
    rw [← length, List.drop_left] at dropped
    cases dropped with
    | cons same _ => exact same
  obtain ⟨r, text⟩ : ∃ r, rest.toList = r ++ ['\x7d'] := List.getLast?_eq_some_iff.mp isClass.brace
  have before : ' ' :: rest.toList = (' ' :: r) ++ ['\x7d'] := by rw [text]; rfl
  have behind : ' ' :: (rest.toList ++ X.toList) = (' ' :: r) ++ '\x7d' :: X.toList := by
    rw [text]
    simp
  rw [before] at split'
  have ended' : ending'.lead = [] := by
    rw [last.eq_with_line]
    exact ended
  have joined := lexemesFrom_append (X := X.toList) (.inr rfl) split' ?_ ?_ (fun _ => ended') gap
  · rw [ended'] at joined
    exact ⟨B', _, _, others, by rw [behind, joined]⟩
  · intro x' member
    obtain ⟨x, inside, same⟩ : ∃ x ∈ B, x.unlined = x'.unlined := by
      rw [← List.mem_map, views]
      exact List.mem_map_of_mem member
    rw [Lexeme.Alike.eq_with_line same]
    exact sound x inside
  · intro x' final page
    obtain ⟨x, last, same⟩ : ∃ x, B.getLast? = some x ∧ x.unlined = x'.unlined := by
      rw [← Option.map_eq_some_iff, ← List.getLast?_map, views, List.getLast?_map, final]
      rfl
    have sign := closed x (by rw [List.getLast?_cons, last]; rfl)
    rw [Lexeme.Alike.eq_with_line same, (kind_of_isSymbol sign).1] at page
    cases page

/-- What a class extends and its members are read alike in front of any end of a statement. -/
theorem tail (isClass : IsClass name rest body inner) (line : Nat) {X : String}
    (gap : gapLength .blank X.toList ≠ none)
    (apart : ∀ line operand,
      ((lexemesFrom line operand [] X.toList).headD endOfSource).word ∉ continuingWords) :
    ∃ B line' operand,
      lexemesFrom line true [] (' ' :: (rest.toList ++ X.toList)) =
        B ++ lexemesFrom line' operand [] X.toList ∧
      ∀ n k depth, B.length + 4 ≤ depth → ∃ members d,
        (classTail (Grammar.ofDepth depth)).Takes
          ⟨extendsWord n :: (B ++ lexemesFrom line' operand [] X.toList), k, []⟩ members d ∧
        d.rest = lexemesFrom line' operand [] X.toList ∧
        members.map Member.unlined = body.members.map Member.unlined ∧
        d.declarations.map Declaration.unlined = inner.map Declaration.unlined := by
  obtain ⟨l₀, m₀, n₀, B₀, ending, whole, split, sound, closed, ended, done⟩ := isClass.lexemes
  obtain ⟨B, line', operand, others, joined⟩ :=
    isClass.lexemes_append line split sound closed ended gap
  refine ⟨B, line', operand, joined, ?_⟩
  intro n k depth deep
  obtain ⟨d₀, taken, left, passed⟩ := isClass.read
  rw [whole] at taken
  obtain ⟨members₀, taken, out⟩ := of_takes_namedClass (word_class _ _) rfl taken
  let S : Stretch :=
    { first := extendsWord n₀ :: B₀, second := extendsWord n :: B, behind := [ending]
      behind' := lexemesFrom line' operand [] X.toList
      alike := .cons rfl others
      ended := fun x final => by
        have sign := closed x final
        exact ⟨by rw [(kind_of_isSymbol sign).1]; decide, isSymbol_other sign (by decide)⟩
      closed := apart line' operand }
  have place : S.At 0 ⟨extendsWord n₀ :: (B₀ ++ [ending]), m₀ + lineFeeds name.toList, []⟩
      ⟨extendsWord n :: (B ++ lexemesFrom line' operand [] X.toList), k, []⟩ :=
    ⟨Nat.zero_le _, rfl, rfl⟩
  have deeper : (classLexemes name rest).length ≤ depth := by
    have lengths := others.length_eq
    rw [whole]
    simp only [List.length_cons, List.length_append, List.length_nil]
    omega
  rw [← whole] at taken
  have tracks := @Tracks.classTail [] _ _ (Grammar.tracked_of_le deeper)
  obtain ⟨m, -, reads⟩ := tracks.reads _ _ _ taken
  -- everything is read
  have all : 0 + m = S.first.length := by
    have lengths := reads.length
    simp only [List.length_cons, List.length_append, List.length_nil, left] at lengths
    change 0 + m = B₀.length + 1
    omega
  obtain ⟨members, d, taken', place', same, passed'⟩ := tracks.follows S 0 m _ _ _ _
    (fun _ member => absurd member List.not_mem_nil) place taken reads (Nat.le_of_eq all)
  refine ⟨members, d, taken', ?_, ?_, ?_⟩
  · rw [place'.second, all, ← S.length_eq, List.drop_length, List.nil_append]
  · rw [(Prod.mk.inj out).2]
    exact same.symm
  · obtain ⟨more, more', declared, declared', view⟩ := passed'
    rw [List.nil_append] at declared declared'
    rw [← passed, declared, declared', view]

/-! ## Three places -/

/-- A code that begins with a word begins without an open comment. -/
theorem begins_of_word {w X : List Char} (word : IsWord w) : gapLength .blank (w ++ X) ≠ none := by
  cases w with
  | nil => cases word.1
  | cons c w =>
    have letter : isNameStart c = true := word.1
    have other {d : Char} (sign : isNameStart d = false) : c ≠ d := by
      rintro rfl
      rw [letter] at sign
      cases sign
    have gap : gapLength .blank (c :: (w ++ X)) = some 0 :=
      gapLength_blanks (rfl : [].all isSpace = true) (not_isSpace_of_isNameStart letter)
        (other rfl) (other rfl)
    rw [List.cons_append, gap]
    exact Option.some_ne_none 0

/-- The declaration of the class at the end of the last line. -/
theorem named (isClass : IsClass name rest body inner) :
    Coda (classCode name rest ++ "\n")
      (.namedClass name body.unlined :: inner.map Declaration.unlined) := by
  have head (line : Nat) (operand : Bool) (lead : List Char) :=
    lexemesFrom_classCode isClass.word rest "\n" line operand lead
  constructor
  · rw [classCode_toList]
    exact begins_of_word (by decide)
  · intro line operand lead
    obtain ⟨l, m, n, lexemes⟩ := head line operand lead
    rw [lexemes, List.headD_cons]
    exact (by decide : LexemeKind.name ≠ .done)
  · intro line operand lead
    obtain ⟨l, m, n, lexemes⟩ := head line operand lead
    rw [lexemes, List.headD_cons, word_class]
    decide
  · intro line operand lead depth c text short
    obtain ⟨l, m, n, lexemes⟩ := head line operand lead
    have apart (line : Nat) (operand : Bool) :
        ((lexemesFrom line operand [] "\n".toList).headD endOfSource).word ∉ continuingWords := by
      obtain ⟨last, ends, done⟩ := lexemesFrom_lineFeed line operand []
      rw [show "\n".toList = ['\n'] from rfl, ends]
      exact not_continuing (by rw [List.headD_cons, done]; decide)
    obtain ⟨B, line', operand', split, read⟩ := isClass.tail n (X := "\n") (by decide) apart
    obtain ⟨last, ends, done⟩ := lexemesFrom_lineFeed line' operand' []
    obtain ⟨rest', lastLine, D⟩ := c
    rw [lexemes, split] at text
    cases text
    rw [show "\n".toList = ['\n'] from rfl, ends] at read short ⊢
    simp only [List.length_cons, List.length_append, List.length_nil] at short
    obtain ⟨members, d, taken, left, same, passed⟩ :=
      read n (m + lineFeeds name.toList) depth (by omega)
    have kind : Lexeme.kind ⟨.name, [' '], name.toList, m⟩ = .name := rfl
    have stated :=
      takes_statement_namedClass (n := lastLine) (D := D) (word_class lead l) kind taken
    refine ⟨_, _, last, _, stated, left, done, rfl, ?_⟩
    rw [List.map_cons, passed, Declaration.unlined, ClassBody.unlined, ClassBody.unlined, same]
    simp [Lexeme.string]

/-- A class without a name, up to the end of the statement that it stands in. -/
theorem operand (isClass : IsClass name rest body inner) (x : Lexeme) :
    ∃ new word n B semicolon last,
      lexemesBehind x (" new class extends ".toList ++ (rest.toList ++ ";\n".toList)) =
        new :: word :: extendsWord n :: (B ++ [semicolon, last]) ∧
      new.kind = .name ∧ semicolon.isSymbol ";" = true ∧ last.kind = .done ∧
      ∀ level lastLine D depth, B.length + 4 ≤ depth → ∃ e d,
        (Parse.operand (Grammar.ofDepth depth) level).Takes
          ⟨new :: word :: extendsWord n :: (B ++ [semicolon, last]), lastLine, D⟩ e d ∧
        d.rest = [semicolon, last] ∧ ∃ passed, d.declarations = D ++ passed ∧
          passed.map Declaration.unlined =
            .anonymousClass body.unlined :: inner.map Declaration.unlined := by
  have apart (line : Nat) (operand : Bool) :
      ((lexemesFrom line operand [] ";\n".toList).headD endOfSource).word ∉ continuingWords := by
    obtain ⟨semicolon, last, ends, sign, done⟩ := lexemesFrom_semicolon line operand []
    rw [show ";\n".toList = [';', '\n'] from rfl, ends]
    exact not_continuing (by rw [List.headD_cons, (kind_of_isSymbol sign).1]; decide)
  obtain ⟨k, l, n, lexemes⟩ := lexemesBehind_newClass x (rest.toList ++ ";\n".toList)
  obtain ⟨B, line', operand', split, read⟩ := isClass.tail n (X := ";\n") (by decide) apart
  obtain ⟨semicolon, last, ends, sign, done⟩ := lexemesFrom_semicolon line' operand' []
  rw [show ";\n".toList = [';', '\n'] from rfl, ends] at split read
  have new : Lexeme.word ⟨.name, [' '], "new".toList, k⟩ = "new" :=
    (word_of_name _ "new" k).trans (by decide)
  have open' : (extendsWord n).isSymbol "(" = false :=
    isSymbol_of_kind (by decide : LexemeKind.name ≠ .symbol)
  refine ⟨_, _, n, B, semicolon, last, lexemes.trans (by rw [← split]; rfl), rfl, sign, done, ?_⟩
  intro level lastLine D depth deep
  obtain ⟨members, d, taken, left, same, passed⟩ :=
    read n (l + lineFeeds "class".toList) depth deep
  obtain ⟨e, value⟩ := takes_operand_new (n := lastLine) (D := D) level new
    (word_class [' '] l) open' sign taken left
  refine ⟨e, _, value, left, _, rfl, ?_⟩
  rw [List.map_cons, passed, Declaration.unlined, ClassBody.unlined, ClassBody.unlined, same]

/-- The class without a name as the value of a variable. -/
theorem assigned (isClass : IsClass name rest body inner) :
    Coda ("$x = new class extends " ++ rest ++ ";\n")
      (.anonymousClass body.unlined :: inner.map Declaration.unlined) := by
  have text : ("$x = new class extends " ++ rest ++ ";\n").toList = '$' :: 'x' :: ' ' :: '=' ::
      (" new class extends ".toList ++ (rest.toList ++ ";\n".toList)) := by
    simp [String.toList_append]
  have head (line : Nat) (operand : Bool) (lead : List Char) :
      ∃ x assigned, lexemesFrom line operand lead
          ("$x = new class extends " ++ rest ++ ";\n").toList =
        x :: assigned :: lexemesBehind assigned
          (" new class extends ".toList ++ (rest.toList ++ ";\n".toList)) ∧
        x.kind = .var ∧ assigned.isSymbol "=" = true := by
    rw [text]
    exact lexemesFrom_assigned line operand lead _
  constructor
  · have gap : gapLength .blank ("$x = new class extends " ++ rest ++ ";\n").toList = some 0 := by
      rw [text]
      exact gapLength_blanks (rfl : [].all isSpace = true) rfl (by decide) (by decide)
    rw [gap]
    exact Option.some_ne_none 0
  · intro line operand lead
    obtain ⟨x, assigned, lexemes, kind, -⟩ := head line operand lead
    rw [lexemes, List.headD_cons, kind]
    decide
  · intro line operand lead
    obtain ⟨x, assigned, lexemes, kind, -⟩ := head line operand lead
    rw [lexemes]
    exact not_continuing (by rw [List.headD_cons, kind]; decide)
  · intro line operand lead depth c text short
    obtain ⟨x, assigned, lexemes, kind, sign⟩ := head line operand lead
    obtain ⟨new, word, n, B, semicolon, last, split, isName, ends, done, read⟩ :=
      isClass.operand assigned
    obtain ⟨rest', lastLine, D⟩ := c
    rw [lexemes, split] at text
    cases text
    simp only [List.length_cons, List.length_append, List.length_nil] at short
    obtain ⟨depth, rfl⟩ : ∃ k, depth = k + 1 := Nat.exists_eq_succ_of_ne_zero (by omega)
    obtain ⟨e, d, value, left, passed, declared, view⟩ :=
      read assignmentLevel (assigned.line + lineFeeds assigned.text) D depth (by omega)
    obtain ⟨s, d', stated, behind, declared'⟩ := takes_statement_assign
      (g := Grammar.ofDepth (depth + 1)) (n := lastLine) kind sign isName ends value left
    exact ⟨s, d', last, passed, stated, behind, done, declared'.trans declared, view⟩

/-- The class without a name as the value that a source returns. -/
theorem returned (isClass : IsClass name rest body inner) :
    Coda ("return new class extends " ++ rest ++ ";\n")
      (.anonymousClass body.unlined :: inner.map Declaration.unlined) := by
  have text : ("return new class extends " ++ rest ++ ";\n").toList = "return".toList ++
      (" new class extends ".toList ++ (rest.toList ++ ";\n".toList)) := by
    simp [String.toList_append]
  have head (line : Nat) (operand : Bool) (lead : List Char) :
      ∃ l, lexemesFrom line operand lead
          ("return new class extends " ++ rest ++ ";\n").toList =
        ⟨.name, lead, "return".toList, l⟩ :: lexemesBehind ⟨.name, lead, "return".toList, l⟩
          (" new class extends ".toList ++ (rest.toList ++ ";\n".toList)) := by
    obtain ⟨l, lexemes⟩ := lexemesFrom_word line operand lead
      (rfl : [].all isSpace = true) (by decide : IsWord "return".toList)
      ("new class extends ".toList ++ (rest.toList ++ ";\n".toList))
    rw [List.append_nil] at lexemes
    exact ⟨l, by rw [text]; exact lexemes⟩
  have word (lead : List Char) (l : Nat) :
      Lexeme.word ⟨.name, lead, "return".toList, l⟩ = "return" :=
    (word_of_name lead "return" l).trans (by decide)
  constructor
  · rw [text]
    exact begins_of_word (by decide)
  · intro line operand lead
    obtain ⟨l, lexemes⟩ := head line operand lead
    rw [lexemes, List.headD_cons]
    exact (by decide : LexemeKind.name ≠ .done)
  · intro line operand lead
    obtain ⟨l, lexemes⟩ := head line operand lead
    rw [lexemes, List.headD_cons, word]
    decide
  · intro line operand lead depth c text short
    obtain ⟨l, lexemes⟩ := head line operand lead
    obtain ⟨new, name, n, B, semicolon, last, split, isName, ends, done, read⟩ :=
      isClass.operand ⟨.name, lead, "return".toList, l⟩
    obtain ⟨rest', lastLine, D⟩ := c
    rw [lexemes, split] at text
    cases text
    simp only [List.length_cons, List.length_append, List.length_nil] at short
    obtain ⟨depth, rfl⟩ : ∃ k, depth = k + 1 := Nat.exists_eq_succ_of_ne_zero (by omega)
    obtain ⟨e, d, value, left, passed, declared, view⟩ :=
      read 0 (l + lineFeeds "return".toList) D depth (by omega)
    obtain ⟨s, d', stated, behind, declared'⟩ := takes_statement_return
      (g := Grammar.ofDepth (depth + 1)) (n := lastLine) (word lead l) isName ends value left
    exact ⟨s, d', last, passed, stated, behind, done, declared'.trans declared, view⟩

end IsClass

end RequestSchema.Source
