import RequestSchema.Proofs.Rule.Normalization
import RequestSchema.Proofs.Text.Recognition
import RequestSchema.Proofs.Text.Trim
import RequestSchema.Rule.Pattern

/-!
# Patterns between delimiters

A pattern stands between two delimiters, with flags behind the second one. Whatever the pattern
holds, it is read back from a rule in a list: the name ends at the first colon, the delimiters are
no white space that could be trimmed, and the last closing delimiter is the one in front of the
flags.

* `pattern_between_delimiters`: the pattern of the first `regex` or `pattern` rule in a list is what
  stands between its delimiters;
* `alternatives_read`: a pattern that holds its delimiters, a colon, a bar, a comma and a new line.
-/
namespace RequestSchema

open RequestSchema.Text

def Pattern.brackets : List (Char × Char) := [('(', ')'), ('\x7b', '\x7d'), ('[', ']'), ('<', '>')]

/-- Two delimiters of a pattern: a bracket and its counterpart, or one other symbol twice. -/
structure Delimiters where
  opening : Char
  closing : Char
  symbol : isAlphanumeric opening = false
  unescaped : opening ≠ '\\'
  unblank : isBlank opening = false
  paired : (opening, closing) ∈ Pattern.brackets ∨
    opening ∉ Pattern.brackets.map Prod.fst ∧ closing = opening

namespace Delimiters

/-- A pattern between delimiters, with flags behind it. -/
def enclose (d : Delimiters) (body flags : String) : String :=
  String.singleton d.opening ++ body ++ String.singleton d.closing ++ flags

def rule (d : Delimiters) (body flags : String) : String := "regex:" ++ d.enclose body flags

/-! ## Delimiters -/

variable (d : Delimiters)

theorem closing_eq : Pattern.closing d.opening = d.closing := by
  rcases d.paired with bracket | ⟨other, same⟩
  · simp only [Pattern.brackets, List.mem_cons, Prod.mk.injEq, List.not_mem_nil, or_false]
      at bracket
    rcases bracket with ⟨first, second⟩ | ⟨first, second⟩ | ⟨first, second⟩ | ⟨first, second⟩ <;>
      rw [first, second] <;> rfl
  · rw [same]
    unfold Pattern.closing
    split
    case h_5 => rfl
    all_goals
      rename_i bracket
      rw [bracket] at other
      exact absurd (by decide) other

/-- What holds of the opening delimiter and of all brackets holds of the closing one. -/
theorem closing_of_opening {p : Char → Prop} (opening : p d.opening)
    (brackets : ∀ pair ∈ Pattern.brackets, p pair.2) : p d.closing := by
  rcases d.paired with bracket | ⟨-, same⟩
  · exact brackets _ bracket
  · rwa [same]

/-- The closing delimiter is none of the flags. -/
theorem closing_not_mem {flags : String} (letters : ∀ c ∈ flags.toList, isAsciiLetter c = true) :
    d.closing ∉ flags.toList := by
  intro member
  have symbol : isAlphanumeric d.closing = false :=
    d.closing_of_opening (p := fun c => isAlphanumeric c = false) d.symbol (by decide)
  rw [isAlphanumeric_of_isAsciiLetter (letters _ member)] at symbol
  cases symbol

/-! ## Reading a pattern -/

variable {d} {body flags : String}

/-- No white space stands at the end of an enclosed pattern. -/
theorem isBlank_of_getLast? (letters : ∀ c ∈ flags.toList, isAsciiLetter c = true) :
    ∀ c ∈ (d.enclose body flags).toList.getLast?, isBlank c = false := by
  intro c last
  have parts : (d.enclose body flags).toList =
      (d.opening :: body.toList) ++ d.closing :: flags.toList := by simp [enclose]
  rw [parts, List.getLast?_append, List.getLast?_cons, Option.some_or, Option.mem_some] at last
  cases flag : flags.toList.getLast? with
  | none =>
    rw [← last, flag]
    exact d.closing_of_opening (p := fun c => isBlank c = false) d.unblank (by decide)
  | some c' =>
    rw [flag, Option.getD_some] at last
    subst last
    refine isBlank_of_isWord ?_
    rw [isWord, isAlphanumeric_of_isAsciiLetter (letters c' (List.mem_of_getLast? flag)),
      Bool.or_true]

theorem trim_enclose (letters : ∀ c ∈ flags.toList, isAsciiLetter c = true) :
    trim (d.enclose body flags) = d.enclose body flags := by
  refine trim_eq_self_iff.mpr ⟨fun c first => ?_, isBlank_of_getLast? letters⟩
  have head : (d.enclose body flags).toList.head? = some d.opening := by simp [enclose]
  rw [head] at first
  cases first
  exact d.unblank

theorem trim_rule (letters : ∀ c ∈ flags.toList, isAsciiLetter c = true) :
    trim (d.rule body flags) = d.rule body flags :=
  trim_append (by decide) (trim_enclose letters)

/-- The pattern is what stands between the delimiters. -/
theorem stripDelimiters_enclose (letters : ∀ c ∈ flags.toList, isAsciiLetter c = true) :
    Pattern.stripDelimiters (d.enclose body flags) = body := by
  have parts : (d.enclose body flags).toList =
      d.opening :: (body ++ String.singleton d.closing ++ flags).toList := by simp [enclose]
  have delimiter : Pattern.isDelimiter d.opening = true := by
    have unspaced : d.opening ≠ ' ' := by
      intro space
      have unblank := d.unblank
      rw [space] at unblank
      cases unblank
    simp [Pattern.isDelimiter, d.symbol, d.unescaped, unspaced]
  rw [Pattern.stripDelimiters, trim_enclose letters]
  simp only [parts, delimiter, if_true, String.ofList_toList, closing_eq,
    cutLast?_append (d.closing_not_mem letters), Option.map_some, Option.getD_some]

/-- The rule text is cut at its first colon, which stands behind the name. -/
theorem cut?_rule : cut? ':' (d.rule body flags) = some ("regex", d.enclose body flags) := by
  have start : "regex:" = "regex" ++ String.singleton ':' := by decide
  rw [rule, start]
  exact cut?_append (by decide) (d.enclose body flags)

theorem name_rule : (Token.rule (d.rule body flags)).name = "regex" := by
  simp only [Token.name, cut?_rule, Option.map_some, Option.getD_some]
  decide

theorem parameters_rule (letters : ∀ c ∈ flags.toList, isAsciiLetter c = true) :
    (Token.rule (d.rule body flags)).parameters = d.enclose body flags := by
  rw [Token.parameters, cut?_rule]
  exact trim_enclose letters

/-- In a list the rule text is one token, whatever it holds. -/
theorem ofTexts_rule (letters : ∀ c ∈ flags.toList, isAsciiLetter c = true) :
    Token.ofTexts [d.rule body flags] = [.rule (d.rule body flags)] := by
  have filled : (d.rule body flags).isEmpty = false := by
    rw [Bool.eq_false_iff, Ne, String.isEmpty_iff]
    intro empty
    have none := congrArg String.toList empty
    simp [rule] at none
  simp [Token.ofTexts, trim_rule letters, filled]

end Delimiters

/-- The pattern that the rules in a list state is what stands between the delimiters of the first
rule about patterns, whatever characters that is. -/
theorem pattern_between_delimiters (d : Delimiters) (body flags : String)
    (letters : ∀ c ∈ flags.toList, isAsciiLetter c = true) {before behind : List Value}
    {front back : List Token} (leads : (Value.list before).tokens = .ok front)
    (follows : (Value.list behind).tokens = .ok back)
    (first : ∀ t ∈ front, t.name ∉ ["regex", "pattern"]) :
    ∃ tokens, (Value.list (before ++ .text (d.rule body flags) :: behind)).tokens = .ok tokens ∧
      Pattern.ofTokens? tokens = some body := by
  have unnamed : front.find? (fun t => ["regex", "pattern"].contains t.name) = none := by
    rw [List.find?_eq_none]
    exact fun t member named => first t member (List.contains_iff_mem.mp named)
  have found : Token.find? ["regex", "pattern"] (front ++ .rule (d.rule body flags) :: back) =
      some (.rule (d.rule body flags)) := by
    rw [Token.find?, List.find?_append, unnamed, Option.none_or, List.find?_cons,
      Delimiters.name_rule]
    rfl
  refine ⟨front ++ .rule (d.rule body flags) :: back, ?_, ?_⟩
  · rw [Value.tokens] at leads follows ⊢
    rw [Value.itemTokens_append, leads, Value.itemTokens, follows, d.ofTexts_rule letters]
    rfl
  · rw [Pattern.ofTokens?, found, Option.map_some, Delimiters.parameters_rule letters,
      Delimiters.stripDelimiters_enclose letters]

def parentheses : Delimiters where
  opening := '('
  closing := ')'
  symbol := by decide
  unescaped := by decide
  unblank := by decide
  paired := .inl (by decide)

/-- A pattern that holds its own delimiters and everything at which rules are cut is read as it
stands. -/
theorem alternatives_read :
    (∀ c ∈ "iu".toList, isAsciiLetter c = true) ∧
      (Value.list [.text "required", .text "max:9"]).tokens =
        .ok [.rule "required", .rule "max:9"] ∧
      (Value.list [.text "pattern:/x/"]).tokens = .ok [.rule "pattern:/x/"] ∧
      (∀ t ∈ [Token.rule "required", .rule "max:9"], t.name ∉ ["regex", "pattern"]) ∧
      ∃ tokens, (Value.list [.text "required", .text "max:9", .text "regex:(a)|(b:c,\nd )iu",
        .text "pattern:/x/"]).tokens = .ok tokens ∧
        Pattern.ofTokens? tokens = some "a)|(b:c,\nd " := by
  have letters : ∀ c ∈ "iu".toList, isAsciiLetter c = true := List.all_eq_true.mp (by decide)
  have leads : (Value.list [.text "required", .text "max:9"]).tokens =
      .ok [.rule "required", .rule "max:9"] := by decide
  have follows : (Value.list [.text "pattern:/x/"]).tokens = .ok [.rule "pattern:/x/"] := by decide
  have first : ∀ t ∈ [Token.rule "required", .rule "max:9"], t.name ∉ ["regex", "pattern"] := by
    decide
  exact ⟨letters, leads, follows, first,
    pattern_between_delimiters parentheses "a)|(b:c,\nd " "iu" letters leads follows first⟩

end RequestSchema
