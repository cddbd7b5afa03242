import RequestSchema.Extraction.Concatenation
import RequestSchema.Proofs.Outcome

/-!
# Concatenations and their operands

A concatenation puts operands together, in groups and with parentheses anywhere. What it denotes
depends on the operands alone, from left to right (`concatenation_of_operands`): its text is that of
the operands, one behind the other, and it is folded exactly when every operand is a literal. An
operand whose number cannot be written is a fault of the whole.
-/
namespace RequestSchema.Source.Expr

open RequestSchema.Text

/-- The operands of a concatenation from left to right, without the parentheses around them. Any
other expression is its own operand. -/
def operands : Expr → List Expr
  | .parens _ inner => inner.operands
  | .binary text operator left right =>
      if operator = "." then left.operands ++ right.operands
      else [.binary text operator left right]
  | e => [e]

/-- An expression that is neither in parentheses nor a concatenation. -/
structure IsOperand (e : Expr) : Prop where
  bare : ∀ text inner, e ≠ .parens text inner
  whole : ∀ text left right, e ≠ .binary text "." left right

/-- The text of the value of a quoted text, an integer or a floating point number. -/
def literalText? : Expr → Except Fault (Option String)
  | .string text => .ok (some (Quotation.decodeText text))
  | .integer text => (integerLiteral? text).mapM fun n => (Number.int n).text
  | .float text => (floatLiteral? text).mapM fun x => (Number.float x).text
  | _ => .ok none

/-- What an operand adds to a concatenation: the text of its value if it is a literal that has one,
otherwise its source text on one line. -/
def operandText (e : Expr) : Except Fault String := do
  return (← e.literalText?).getD (compact e.text)

theorem IsOperand.operator_ne {text operator : String} {left right : Expr}
    (operand : (binary text operator left right).IsOperand) : operator ≠ "." := by
  rintro rfl
  exact operand.whole text left right rfl

theorem IsOperand.operands {e : Expr} (operand : e.IsOperand) : e.operands = [e] := by
  cases e with
  | parens text inner => exact absurd rfl (operand.bare text inner)
  | binary text operator left right => rw [Expr.operands, if_neg operand.operator_ne]
  | _ => rfl

/-- Every expression is put together from operands with points and parentheses. -/
@[elab_as_elim]
theorem operandInduction {motive : Expr → Prop}
    (parens : ∀ text inner, motive inner → motive (.parens text inner))
    (point : ∀ text left right, motive left → motive right → motive (.binary text "." left right))
    (operand : ∀ e, e.IsOperand → motive e) (e : Expr) : motive e := by
  fun_induction Expr.operands e with
  | case1 text inner ih => exact parens text inner ih
  | case2 text left right ihLeft ihRight => exact point text left right ihLeft ihRight
  | case3 text operator left right other =>
    apply operand
    constructor
    · intro text inner same
      cases same
    · intro text left right same
      cases same
      exact other rfl
  | case4 e bare whole => exact operand e ⟨bare, fun text => whole text "."⟩

/-- The operands cannot be taken apart any further. -/
theorem isOperand_of_mem_operands {e operand : Expr} (member : operand ∈ e.operands) :
    operand.IsOperand := by
  induction e using operandInduction with
  | parens text inner ih => exact ih member
  | point text left right ihLeft ihRight =>
    rw [operands, if_pos rfl] at member
    rcases List.mem_append.mp member with first | second
    · exact ihLeft first
    · exact ihRight second
  | operand e own =>
    rw [own.operands] at member
    rw [List.mem_singleton.mp member]
    exact own

/-! ## Single operands -/

theorem scalarText?_integer (text : String) :
    (Expr.integer text).scalarText? = (Expr.integer text).literalText? := by
  rw [scalarText?, value?, literalText?]
  cases integerLiteral? text <;> rfl

theorem scalarText?_float (text : String) :
    (Expr.float text).scalarText? = (Expr.float text).literalText? := by
  rw [scalarText?, value?, literalText?]
  cases floatLiteral? text <;> rfl

/-- Of the operands, the literals are folded. -/
theorem IsOperand.foldedText? {e : Expr} (operand : e.IsOperand) :
    e.foldedText? = e.literalText? := by
  cases e with
  | parens text inner => exact absurd rfl (operand.bare text inner)
  | binary text operator left right =>
    simp [Expr.foldedText?, literalText?, operand.operator_ne]
  | integer text => exact scalarText?_integer text
  | float text => exact scalarText?_float text
  | _ => rfl

theorem IsOperand.concatenatedText {e : Expr} (operand : e.IsOperand) :
    e.concatenatedText = e.operandText := by
  have folded := operand.foldedText?
  cases e with
  | parens text inner => exact absurd rfl (operand.bare text inner)
  | binary text operator left right =>
    rw [Expr.concatenatedText, if_neg operand.operator_ne]
    rfl
  | _ => rw [Expr.concatenatedText, folded, operandText] <;> simp

/-! ## All operands -/

theorem concatenatedText_eq_join (e : Expr) :
    e.concatenatedText = (do return String.join (← e.operands.mapM operandText)) := by
  induction e using operandInduction with
  | parens text inner ih => exact ih
  | point text left right ihLeft ihRight =>
    rw [concatenatedText, if_pos rfl, operands, if_pos rfl, ihLeft, ihRight, List.mapM_append]
    simp only [bind_assoc, pure_bind, String.join_append]
  | operand e operand =>
    rw [operand.concatenatedText, operand.operands, List.mapM_cons, List.mapM_nil]
    simp only [bind_assoc, pure_bind, String.join_cons, String.join_nil, String.append_empty,
      bind_pure]

/-- The texts in a list of optional ones, joined if none is missing. -/
def joined? (texts : List (Option String)) : Option String :=
  if texts.all Option.isSome then some (String.join (texts.filterMap id)) else none

theorem joined?_append (front back : List (Option String)) :
    joined? (front ++ back) = (joined? front).bind fun a => (joined? back).map fun b => a ++ b := by
  unfold joined?
  rw [List.all_append, List.filterMap_append, String.join_append]
  cases front.all Option.isSome <;> cases back.all Option.isSome <;> rfl

theorem foldedText?_eq_joined? (e : Expr) :
    e.foldedText? = (do return joined? (← e.operands.mapM literalText?)) := by
  induction e using operandInduction with
  | parens text inner ih => exact ih
  | point text left right ihLeft ihRight =>
    rw [foldedText?, if_pos rfl, operands, if_pos rfl, ihLeft, ihRight, List.mapM_append]
    simp only [bind_assoc, pure_bind, joined?_append]
    refine bind_congr fun front => bind_congr fun back => ?_
    cases joined? front <;> cases joined? back <;> rfl
  | operand e operand =>
    rw [operand.foldedText?, operand.operands, List.mapM_cons, List.mapM_nil]
    simp only [bind_assoc, pure_bind]
    cases e.literalText? with
    | error fault => rfl
    | ok text => cases text <;> simp [joined?, pure, Except.pure, bind, Except.bind]

/-- Where every operand is a literal, the texts of the operands are those of the literals. -/
theorem mapM_operandText {es : List Expr} {texts : List (Option String)}
    (read : es.mapM literalText? = .ok texts) (literal : texts.all Option.isSome = true) :
    es.mapM operandText = .ok (texts.filterMap id) := by
  induction es generalizing texts with
  | nil =>
    cases read
    rfl
  | cons e rest ih =>
    rw [List.mapM_cons] at read ⊢
    obtain ⟨text?, first, read⟩ := exists_of_bind_ok read
    obtain ⟨others, later, read⟩ := exists_of_bind_ok read
    cases read
    obtain ⟨own, behind⟩ := Bool.and_eq_true_iff.mp literal
    obtain ⟨text, rfl⟩ := Option.isSome_iff_exists.mp own
    rw [ih later behind, operandText, first]
    rfl

/-- However its operands are grouped, the text of a concatenation is that of the operands from left
to right, where a literal stands for its value and anything else for its source text. It is folded
if every operand is a literal, to the same text, and not at all otherwise. -/
theorem concatenation_of_operands (e : Expr) :
    (∀ operand ∈ e.operands, operand.IsOperand) ∧
    e.concatenatedText = (do return String.join (← e.operands.mapM operandText)) ∧
    e.foldedText? = (do
      if (← e.operands.mapM literalText?).all Option.isSome then
        return some (← e.concatenatedText)
      else return none) := by
  refine ⟨?_, concatenatedText_eq_join e, ?_⟩
  · intro operand member
    exact isOperand_of_mem_operands member
  · rw [foldedText?_eq_joined?, concatenatedText_eq_join]
    cases read : e.operands.mapM literalText? with
    | error fault => rfl
    | ok texts =>
      change Except.ok (joined? texts) = if texts.all Option.isSome = true then _ else _
      unfold joined?
      split
      · rename_i literal
        rw [mapM_operandText read literal]
        rfl
      · rfl

/-- The parts of `'max:' . (self::MAX . '|in:' . 0x10)`. -/
example : concatenatedText (.binary "" "." (.string "'max:'")
    (.parens "" (.binary "" "." (.binary "" "." (.classConstant "self::MAX") (.string "'|in:'"))
      (.integer "0x10")))) = .ok "max:self::MAX|in:16" := by
  rfl

end RequestSchema.Source.Expr
