import RequestSchema.Source.Literal

/-!
# Literals that denote texts

A text can be quoted or stand between two lines with a marker, and parentheses around it do not
matter. The value of an expression is a text exactly when it is such a literal
(`stringValue?_eq_some_iff`): numbers, truth values and lists are no texts, and no sign makes one.
-/
namespace RequestSchema.Source

/-- A literal denotes a text. -/
inductive Denotes : Expr → String → Prop
  | quoted (text : String) : Denotes (.string text) (Quotation.decodeText text)
  | lines {text s : String} : Quotation.innerLines? text = some s → Denotes (.heredoc text) s
  | parens {text s : String} {inner : Expr} : Denotes inner s → Denotes (.parens text inner) s

theorem Denotes.value? {e : Expr} {s : String} (denotes : Denotes e s) :
    e.value? = some (.text s) := by
  induction denotes with
  | quoted text => rfl
  | lines inner => rw [Expr.value?, inner, Option.map_some]
  | parens _ ih => rw [Expr.value?, ih]

/-- What is negated is a number and no text. -/
theorem negated?_ne_text (v : Value) (s : String) : negated? v ≠ some (.text s) := by
  cases v <;> simp [negated?]

theorem denotes_of_value? {e : Expr} {s : String} (read : e.value? = some (.text s)) :
    Denotes e s := by
  fun_induction Expr.unwrap e with
  | case1 text inner ih =>
    rw [Expr.value?] at read
    exact .parens (ih read)
  | case2 e bare =>
    cases e with
    | parens text inner => exact absurd rfl (bare text inner)
    | string text =>
      rw [Expr.value?, Option.some.injEq, Value.text.injEq] at read
      exact read ▸ .quoted text
    | heredoc text =>
      rw [Expr.value?] at read
      obtain ⟨inner, found, same⟩ := Option.map_eq_some_iff.mp read
      exact .lines (Value.text.inj same ▸ found)
    | unary text operand =>
      rw [Expr.value?] at read
      split at read
      · obtain ⟨v, -, negated⟩ := Option.bind_eq_some_iff.mp read
        exact absurd negated (negated?_ne_text v s)
      · cases read
    | _ => simp [Expr.value?, Value.int] at read

/-- The texts of expressions are those that literals denote. -/
theorem stringValue?_eq_some_iff {e : Expr} {s : String} :
    e.stringValue? = some s ↔ Denotes e s := by
  constructor
  · intro read
    unfold Expr.stringValue? at read
    split at read
    · cases read
      exact denotes_of_value? ‹_›
    · cases read
  · intro denotes
    rw [Expr.stringValue?, denotes.value?]

end RequestSchema.Source
