import RequestSchema.Proofs.Source.Tracking.Statement

/-!
# Heads of classes

How the lexemes in front of what a class extends are read, with and without a name: as a
declaration, behind an assignment, and as the value that a source returns. Each of them comes down
to reading what the class extends and its members (`Parse.classTail`), and passes the class in
front of the declarations inside it.
-/
namespace RequestSchema.Source

namespace Parse

variable {α β : Type} {l : Lexeme} {ls : List Lexeme} {n : Nat} {D : List Declaration}

/-- From one cursor, the parser ends well at the other one. -/
def Takes (p : Parse α) (c : Cursor) (a : α) (d : Cursor) : Prop := p.run c = .ok (a, d)

theorem Takes.bind {p : Parse α} {f : α → Parse β} {c d e : Cursor} {a : α} {b : β}
    (first : p.Takes c a d) (second : (f a).Takes d b e) : (p >>= f).Takes c b e := by
  unfold Takes at *
  rw [StateT.run_bind, first]
  exact second

theorem Takes.pure (a : α) (c : Cursor) : Takes (Pure.pure a) c a c := rfl

/-- The branch of a condition that holds. -/
theorem Takes.then {p q : Parse α} {c d : Cursor} {a : α} (taken : p.Takes c a d) :
    Takes (if true = true then p else q) c a d := taken

/-- The branch of a condition that fails. -/
theorem Takes.else {p q : Parse α} {c d : Cursor} {a : α} (taken : q.Takes c a d) :
    Takes (if false = true then p else q) c a d := taken

/-! ## Single lexemes -/

theorem takes_rest (c : Cursor) : rest.Takes c c.rest c := rfl

theorem takes_peek (l : Lexeme) (ls : List Lexeme) (n : Nat) (D : List Declaration) :
    peek.Takes ⟨l :: ls, n, D⟩ l ⟨l :: ls, n, D⟩ := rfl

theorem takes_peekSecond (l : Lexeme) (ls : List Lexeme) (n : Nat) (D : List Declaration) :
    peekSecond.Takes ⟨l :: ls, n, D⟩ (ls.headD endOfSource) ⟨l :: ls, n, D⟩ := by
  cases ls <;> rfl

theorem takes_textSince (start : List Lexeme) (c : Cursor) :
    ∃ text, (textSince start).Takes c text c := ⟨_, rfl⟩

theorem takes_advance (live : l.kind ≠ .done) :
    advance.Takes ⟨l :: ls, n, D⟩ l ⟨ls, l.line + lineFeeds l.text, D⟩ :=
  run_advance rfl live

theorem takes_atWord {words : List String} {found : Bool}
    (among : words.contains l.word = found) :
    (atWord words).Takes ⟨l :: ls, n, D⟩ found ⟨l :: ls, n, D⟩ := by
  subst among
  rfl

theorem takes_atSign {s : String} {found : Bool} (sign : l.isSymbol s = found) :
    (atSign s).Takes ⟨l :: ls, n, D⟩ found ⟨l :: ls, n, D⟩ := by
  subst sign
  rfl

theorem takes_word {w : String} (word : l.word = w) (some : w ≠ "") :
    (Parse.word w).Takes ⟨l :: ls, n, D⟩ () ⟨ls, l.line + lineFeeds l.text, D⟩ := by
  have live : l.kind ≠ .done := by
    rw [(kind_of_word word some).1]
    decide
  have found : [w].contains l.word = true := by simp [word]
  exact .bind (.bind (takes_atWord found) (.then (.bind (takes_advance live) (.pure _ _)))) rfl

theorem takes_sign?_true {s : String} (sign : l.isSymbol s = true) :
    (sign? s).Takes ⟨l :: ls, n, D⟩ true ⟨ls, l.line + lineFeeds l.text, D⟩ := by
  have live : l.kind ≠ .done := by
    simp only [Lexeme.isSymbol, Bool.and_eq_true, decide_eq_true_eq] at sign
    rw [sign.1]
    decide
  exact .bind (takes_atSign sign) (.then (.bind (takes_advance live) (.pure _ _)))

theorem takes_sign?_false {s : String} (other : l.isSymbol s = false) :
    (sign? s).Takes ⟨l :: ls, n, D⟩ false ⟨l :: ls, n, D⟩ :=
  .bind (takes_atSign other) (.pure _ _)

theorem takes_sign {s : String} (sign : l.isSymbol s = true) :
    (Parse.sign s).Takes ⟨l :: ls, n, D⟩ () ⟨ls, l.line + lineFeeds l.text, D⟩ :=
  .bind (takes_sign?_true sign) rfl

theorem takes_ofKind {kind : LexemeKind} (same : l.kind = kind) (live : kind ≠ .done) :
    (ofKind kind).Takes ⟨l :: ls, n, D⟩ l ⟨ls, l.line + lineFeeds l.text, D⟩ := by
  refine .bind (takes_peek l ls n D) ?_
  rw [if_pos same]
  exact takes_advance (same ▸ live)

theorem takes_many_nil {p : Parse (Option α)} {c : Cursor} (none : p.Takes c none c) :
    (many p).Takes c [] c :=
  .bind (takes_rest c) (.bind none rfl)

theorem takes_attributes (g : Grammar) (plain : l.isSymbol "#[" = false) :
    (attributes g).Takes ⟨l :: ls, n, D⟩ () ⟨l :: ls, n, D⟩ :=
  .bind (takes_many_nil (.bind (takes_sign?_false plain) (.else (.pure _ _)))) rfl

theorem takes_modifiers (plain : modifierWords.contains l.word = false) :
    modifiers.Takes ⟨l :: ls, n, D⟩ () ⟨l :: ls, n, D⟩ :=
  .bind (takes_many_nil (.bind (takes_atWord plain) (.else (.pure _ _)))) rfl

theorem takes_endStatement (ends : l.isSymbol ";" = true) :
    endStatement.Takes ⟨l :: ls, n, D⟩ () ⟨ls, l.line + lineFeeds l.text, D⟩ := by
  have kind : l.kind ≠ .page := by
    simp only [Lexeme.isSymbol, Bool.and_eq_true, decide_eq_true_eq] at ends
    rw [ends.1]
    decide
  refine .bind (takes_peek l ls n D) ?_
  rw [if_neg kind]
  exact takes_sign ends

theorem takes_declare {p : Parse α} {d : Cursor} {a : α} (declaration : α → Declaration)
    (inside : p.Takes ⟨ls, n, []⟩ a d) :
    (declare p declaration).Takes ⟨ls, n, D⟩ a
      { d with declarations := D ++ declaration a :: d.declarations } :=
  Takes.bind (c := ⟨ls, n, D⟩) (d := ⟨ls, n, D⟩) rfl
    (.bind (d := ⟨ls, n, []⟩) rfl (.bind inside (.bind rfl rfl)))

/-! ## Declarations -/

/-- What a class extends and implements, and its members. -/
def classTail (g : Grammar) : Parse (List Member) := do
  ancestors
  g.members

variable {g : Grammar} {name word : Lexeme} {members : List Member} {d : Cursor}

theorem takes_namedClass (start : List Lexeme) (isWord : word.word = "class")
    (named : name.kind = .name)
    (tail : (classTail g).Takes ⟨ls, name.line + lineFeeds name.text, D⟩ members d) :
    (namedClass g start).Takes ⟨word :: name :: ls, n, D⟩
      (name.string, ⟨(start.headD endOfSource).line, members⟩) d := by
  refine .bind (takes_word isWord (by decide)) (.bind (takes_ofKind named (by decide)) ?_)
  obtain ⟨⟨⟩, e, extended, inside⟩ := Parse.bind_run_ok tail
  exact .bind extended (.bind inside rfl)

/-- A class that is read has a tail that is read. -/
theorem of_takes_namedClass {start : List Lexeme} {out : String × ClassBody}
    (isWord : word.word = "class") (named : name.kind = .name)
    (taken : (namedClass g start).Takes ⟨word :: name :: ls, n, D⟩ out d) :
    ∃ members, (classTail g).Takes ⟨ls, name.line + lineFeeds name.text, D⟩ members d ∧
      out = (name.string, ⟨(start.headD endOfSource).line, members⟩) := by
  obtain ⟨⟨⟩, e, first, taken⟩ := Parse.bind_run_ok taken
  rw [takes_word isWord (by decide)] at first
  cases first
  obtain ⟨m, e, second, taken⟩ := Parse.bind_run_ok taken
  rw [takes_ofKind named (by decide)] at second
  cases second
  obtain ⟨⟨⟩, e, extended, taken⟩ := Parse.bind_run_ok taken
  obtain ⟨members, e', inside, ended⟩ := Parse.bind_run_ok taken
  cases ended
  exact ⟨members, Takes.bind extended inside, rfl⟩

/-- A statement that is no text of the page. -/
theorem takes_statement {s : Stmt} {d : Cursor} (code : l.kind ≠ .page)
    (taken : (plainStatement g).Takes ⟨l :: ls, n, D⟩ s d) :
    (statement g).Takes ⟨l :: ls, n, D⟩ [s] d := by
  refine .bind (takes_peek _ _ _ _) ?_
  rw [if_neg code]
  exact .bind taken rfl

theorem takes_atEnumeration_false (other : l.word ≠ "enum") :
    atEnumeration.Takes ⟨l :: ls, n, D⟩ false ⟨l :: ls, n, D⟩ := by
  refine .bind (takes_peek _ _ _ _) (.bind (takes_peekSecond _ _ _ _) ?_)
  rw [decide_eq_false other]
  rfl

def declarationWords : List String :=
  ["enum", "class", "interface", "trait", "function", "const"] ++ classModifiers

theorem takes_declaration?_false {start : List Lexeme} (other : l.word ∉ declarationWords) :
    (declaration? g start).Takes ⟨l :: ls, n, D⟩ false ⟨l :: ls, n, D⟩ := by
  have absent {words : List String} (some : words ⊆ declarationWords) :
      (atWord words).Takes ⟨l :: ls, n, D⟩ false ⟨l :: ls, n, D⟩ :=
    takes_atWord (by
      rw [List.contains_eq_mem, decide_eq_false_iff_not]
      exact fun member => other (some member))
  refine .bind (takes_atEnumeration_false fun same => other (same ▸ by decide)) (.else ?_)
  refine .bind (absent (by decide)) (.bind (takes_peekSecond _ _ _ _) (.else ?_))
  refine .bind (absent (by decide)) (.else (.bind (absent (by decide)) (.else ?_)))
  exact .bind (absent (by decide)) (.else (.bind (absent (by decide)) (.else rfl)))

theorem takes_declaration?_namedClass (start : List Lexeme) (isWord : word.word = "class")
    (named : name.kind = .name)
    (tail : (classTail g).Takes ⟨ls, name.line + lineFeeds name.text, []⟩ members d) :
    (declaration? g start).Takes ⟨word :: name :: ls, n, D⟩ true
      { d with declarations := D ++
          .namedClass name.string ⟨(start.headD endOfSource).line, members⟩ :: d.declarations } := by
  have read := takes_declare (D := D) (fun found => .namedClass found.1 found.2)
    (takes_namedClass (n := n) start isWord named tail)
  have other (w : String) (apart : "class" ≠ w) : word.word ≠ w := isWord ▸ apart
  have unmodified : classModifiers.contains word.word = false := by rw [isWord]; decide
  have begins : ["class"].contains word.word = true := by rw [isWord]; decide
  refine .bind (takes_atEnumeration_false (other _ (by decide))) (.else ?_)
  refine .bind (takes_atWord unmodified) (.bind (takes_peekSecond _ _ _ _) (.else ?_))
  exact .bind (takes_atWord begins) (.then (.bind read rfl))

theorem takes_statement_namedClass (isWord : word.word = "class") (named : name.kind = .name)
    (tail : (classTail g).Takes ⟨ls, name.line + lineFeeds name.text, []⟩ members d) :
    (statement g).Takes ⟨word :: name :: ls, n, D⟩ [.other]
      { d with declarations :=
          D ++ .namedClass name.string ⟨word.line, members⟩ :: d.declarations } := by
  have kind := (kind_of_word isWord (by decide)).1
  have unsigned (s : String) : word.isSymbol s = false := by simp [Lexeme.isSymbol, kind]
  refine takes_statement (by rw [kind]; decide) ?_
  refine .bind (takes_rest _) (.bind (takes_peek _ _ _ _) (.bind (takes_peekSecond _ _ _ _) ?_))
  rw [unsigned, unsigned]
  refine .else (.bind (takes_sign?_false (unsigned ";")) (.else (.else ?_)))
  have declared := takes_declaration?_namedClass (n := n) (D := D)
    (word :: name :: ls) isWord named tail
  exact .bind declared (.then rfl)

/-! ## Expressions -/

/-- A lexeme is one sign at most. -/
theorem isSymbol_other {s t : String} (sign : l.isSymbol s = true) (apart : s ≠ t) :
    l.isSymbol t = false := by
  simp only [Lexeme.isSymbol, Bool.and_eq_true, decide_eq_true_eq] at sign
  have other : s.toList ≠ t.toList := fun same => apart (String.toList_inj.mp same)
  simp [Lexeme.isSymbol, sign, other]

theorem isSymbol_of_kind {s : String} (kind : l.kind ≠ .symbol) : l.isSymbol s = false := by
  simp [Lexeme.isSymbol, kind]

def accessSigns : List String := ["->", "?->", "::", "[", "(", "++", "--"]

theorem takes_accesses_none {start : List Lexeme} {e : Expr} (k : Nat)
    (plain : ∀ s ∈ accessSigns, l.isSymbol s = false) :
    (accesses g start (k + 1) e).Takes ⟨l :: ls, n, D⟩ e ⟨l :: ls, n, D⟩ := by
  refine .bind (a := none) ?_ rfl
  refine .bind (takes_peek _ _ _ _) ?_
  rw [plain "->" (by decide), plain "?->" (by decide), plain "::" (by decide),
    plain "[" (by decide), plain "(" (by decide), plain "++" (by decide), plain "--" (by decide)]
  rfl

theorem takes_operators_none {start : List Lexeme} {level : Nat} {e : Expr} (k : Nat)
    (ends : l.isSymbol ";" = true) :
    (operators g start level (k + 1) e).Takes ⟨l :: ls, n, D⟩ e ⟨l :: ls, n, D⟩ := by
  have sign := ends
  simp only [Lexeme.isSymbol, Bool.and_eq_true, decide_eq_true_eq] at sign
  have none : levelOf? l = none := by
    rw [levelOf?, sign.1]
    simp only [Lexeme.string, sign.2]
    decide
  refine .bind (takes_peek _ _ _ _) ?_
  rw [none, isSymbol_other (t := "?") ends (by decide), Bool.not_false, Bool.or_true]
  exact .then rfl

variable {extending semicolon assigned return' x new : Lexeme}

theorem takes_construct (start : List Lexeme) (isNew : new.word = "new")
    (isWord : word.word = "class") (open' : extending.isSymbol "(" = false)
    (tail : (classTail g).Takes ⟨extending :: ls, word.line + lineFeeds word.text, []⟩ members d) :
    ∃ text, (construct g start).Takes ⟨new :: word :: extending :: ls, n, D⟩
      (.construct text none [])
      { d with declarations := D ++ .anonymousClass ⟨word.line, members⟩ :: d.declarations } := by
  have kind := (kind_of_word isWord (by decide)).1
  have unsigned (s : String) : word.isSymbol s = false :=
    isSymbol_of_kind (by rw [kind]; decide)
  have unmodified : modifierWords.contains word.word = false := by rw [isWord]; decide
  have begins : ["class", "readonly"].contains word.word = true := by rw [isWord]; decide
  have body (n : Nat) : (anonymousClass g).Takes ⟨word :: extending :: ls, n, []⟩
      ⟨word.line, members⟩ d := by
    refine .bind (takes_peek _ _ _ _) (.bind (takes_attributes g (unsigned "#[")) ?_)
    refine .bind (takes_modifiers unmodified) (.bind (takes_word isWord (by decide)) ?_)
    refine .bind (takes_atSign open') (.else ?_)
    obtain ⟨⟨⟩, e, extended, inside⟩ := Parse.bind_run_ok tail
    exact .bind extended (.bind inside rfl)
  have declared := takes_declare (D := D) .anonymousClass (body (new.line + lineFeeds new.text))
  obtain ⟨text, texted⟩ := takes_textSince start
    { d with declarations := D ++ .anonymousClass ⟨word.line, members⟩ :: d.declarations }
  refine ⟨text, .bind (takes_word isNew (by decide)) ?_⟩
  refine .bind (takes_atSign (unsigned "#[")) (.bind (takes_atWord begins) (.then ?_))
  exact .bind declared (.bind texted rfl)

/-- A new object of a class without a name, up to the end of a statement. -/
theorem takes_operand_new (level : Nat) {behind : List Lexeme} (isNew : new.word = "new")
    (isWord : word.word = "class") (open' : extending.isSymbol "(" = false)
    (ends : semicolon.isSymbol ";" = true)
    (tail : (classTail g).Takes ⟨extending :: ls, word.line + lineFeeds word.text, []⟩ members d)
    (left : d.rest = semicolon :: behind) :
    ∃ e, (operand g level).Takes ⟨new :: word :: extending :: ls, n, D⟩ e
      { d with declarations := D ++ .anonymousClass ⟨word.line, members⟩ :: d.declarations } := by
  obtain ⟨text, built⟩ := takes_construct (n := n) (D := D) (new :: word :: extending :: ls)
    isNew isWord open' tail
  obtain ⟨rest, last, passed⟩ := d
  cases left
  have plain : ∀ s ∈ accessSigns, semicolon.isSymbol s = false := fun s listed =>
    isSymbol_other ends fun same => absurd (same ▸ listed) (by decide)
  have kind := (kind_of_word isNew (by decide)).1
  have read : (wordExpression? g (new :: word :: extending :: ls)).Takes
      ⟨new :: word :: extending :: ls, n, D⟩ (some (.construct text none []))
      ⟨semicolon :: behind, last, D ++ .anonymousClass ⟨word.line, members⟩ :: passed⟩ := by
    refine .bind (takes_peek _ _ _ _) (.bind (takes_peekSecond _ _ _ _) ?_)
    rw [if_pos isNew]
    refine .bind built (.bind ?_ rfl)
    exact .bind (takes_rest _)
      (.bind (takes_accesses_none _ plain) (.bind (takes_peek _ _ _ _) rfl))
  refine ⟨.construct text none [], .bind (takes_rest _) (.bind ?_ (.bind (takes_rest _)
    (takes_operators_none _ ends)))⟩
  refine .bind (takes_rest _) (.bind (takes_peek _ _ _ _) ?_)
  rw [kind]
  exact .bind read rfl

/-! ## Statements -/

/-- A source that returns a new object. -/
theorem takes_statement_return {e : Expr} {behind : List Lexeme}
    (isReturn : return'.word = "return")
    (live : l.kind = .name) (ends : semicolon.isSymbol ";" = true)
    (value : g.expression.Takes ⟨l :: ls, return'.line + lineFeeds return'.text, D⟩ e d)
    (left : d.rest = semicolon :: behind) :
    ∃ s d', (statement g).Takes ⟨return' :: l :: ls, n, D⟩ [s] d' ∧ d'.rest = behind ∧
      d'.declarations = d.declarations := by
  obtain ⟨rest, last, passed⟩ := d
  cases left
  have kind := (kind_of_word isReturn (by decide)).1
  have unsigned (s : String) : return'.isSymbol s = false :=
    isSymbol_of_kind (by rw [kind]; decide)
  have unsigned' (s : String) : l.isSymbol s = false :=
    isSymbol_of_kind (by rw [live]; decide)
  have undeclared : return'.word ∉ declarationWords := by rw [isReturn]; decide
  refine ⟨.result return'.line (some e),
    ⟨behind, semicolon.line + lineFeeds semicolon.text, passed⟩,
    takes_statement (by rw [kind]; decide) ?_, rfl, rfl⟩
  refine .bind (takes_rest _) (.bind (takes_peek _ _ _ _) (.bind (takes_peekSecond _ _ _ _) ?_))
  rw [unsigned, unsigned, isReturn]
  refine .else (.bind (takes_sign?_false (unsigned ";")) (.else (.else ?_)))
  refine .bind (takes_declaration?_false undeclared) (.else ?_)
  refine Takes.bind (takes_peek _ _ _ _) (.bind (takes_word isReturn (by decide)) ?_)
  refine .bind (takes_peek _ _ _ _) (.bind (takes_atSign (unsigned' _)) ?_)
  rw [live]
  exact .else (.bind value (.bind (takes_endStatement ends) rfl))

/-- An assignment to a variable. -/
theorem takes_statement_assign {e : Expr} {behind : List Lexeme} (isVar : x.kind = .var)
    (isAssign : assigned.isSymbol "=" = true)
    (live : l.kind = .name) (ends : semicolon.isSymbol ";" = true)
    (value : (g.operand assignmentLevel).Takes
      ⟨l :: ls, assigned.line + lineFeeds assigned.text, D⟩ e d)
    (left : d.rest = semicolon :: behind) :
    ∃ s d', (statement g).Takes ⟨x :: assigned :: l :: ls, n, D⟩ [s] d' ∧ d'.rest = behind ∧
      d'.declarations = d.declarations := by
  obtain ⟨rest, last, passed⟩ := d
  cases left
  have unsigned (s : String) : x.isSymbol s = false :=
    isSymbol_of_kind (by rw [isVar]; decide)
  have wordless : x.word = "" := by rw [Lexeme.word, if_neg (by rw [isVar]; decide)]
  have undeclared : x.word ∉ declarationWords := by rw [wordless]; decide
  have plain : ∀ s ∈ accessSigns, assigned.isSymbol s = false := fun s listed =>
    isSymbol_other isAssign fun same => absurd (same ▸ listed) (by decide)
  have symbol : assigned.kind = .symbol := by
    simp only [Lexeme.isSymbol, Bool.and_eq_true, decide_eq_true_eq] at isAssign
    exact isAssign.1
  obtain ⟨text, texted⟩ := takes_textSince (x :: assigned :: l :: ls)
    ⟨semicolon :: behind, last, passed⟩
  have read : (unary g).Takes ⟨x :: assigned :: l :: ls, n, D⟩
      (.assign text (.var x.string) e) ⟨semicolon :: behind, last, passed⟩ := by
    refine .bind (takes_rest _) (.bind (takes_peek _ _ _ _) ?_)
    rw [isVar]
    refine .bind (takes_advance (by rw [isVar]; decide)) ?_
    refine .bind (takes_rest _) (.bind (takes_accesses_none _ plain) ?_)
    refine .bind (takes_peek _ _ _ _) ?_
    rw [symbol, isAssign]
    refine .else (.then (.bind (takes_sign isAssign) ?_))
    refine .bind (takes_sign?_false (isSymbol_of_kind (by rw [live]; decide))) ?_
    exact .bind value (.bind texted rfl)
  refine ⟨.expression (.assign text (.var x.string) e),
    ⟨behind, semicolon.line + lineFeeds semicolon.text, passed⟩,
    takes_statement (by rw [isVar]; decide) ?_, rfl, rfl⟩
  refine .bind (takes_rest _) (.bind (takes_peek _ _ _ _) (.bind (takes_peekSecond _ _ _ _) ?_))
  rw [unsigned, unsigned, wordless]
  refine .else (.bind (takes_sign?_false (unsigned ";")) (.else (.else ?_)))
  refine .bind (takes_declaration?_false undeclared) (.else ?_)
  have expressed : (expression g).Takes ⟨x :: assigned :: l :: ls, n, D⟩
      (.assign text (.var x.string) e) ⟨semicolon :: behind, last, passed⟩ :=
    .bind (takes_rest _) (.bind read (.bind (takes_rest _) (takes_operators_none _ ends)))
  have stated : (expressionStatement g).Takes ⟨x :: assigned :: l :: ls, n, D⟩
      (.expression (.assign text (.var x.string) e))
      ⟨behind, semicolon.line + lineFeeds semicolon.text, passed⟩ :=
    .bind expressed (.bind (takes_endStatement ends) rfl)
  rw [isVar]
  exact stated

end Parse

end RequestSchema.Source
