import RequestSchema.Proofs.Number.Text
import RequestSchema.Proofs.Outcome
import RequestSchema.Proofs.Text.Recognition
import RequestSchema.Rule.Token

/-!
# Tokens are stable

The tokens of a value are settled: the white space around a rule text and the empty rule
texts are gone. A list of settled tokens is read back as it is, with bars inside of its
rule texts untouched, so that reading the tokens of a field twice is reading them once
(`tokens_toValue`). With that, tokens are stable (`tokens_stable`): lists are read item by
item, and a list of texts is read like the text that joins them with bars.
-/
namespace RequestSchema

open RequestSchema.Text

/-- A rule text that is trimmed and not empty, or a token that is no rule text. -/
def Token.Settled : Token → Prop
  | .rule s => trim s = s ∧ s.isEmpty = false
  | _ => True

theorem Token.settled_of_mem_ofTexts (texts : List String) :
    ∀ t ∈ Token.ofTexts texts, t.Settled := by
  intro t member
  obtain ⟨s, kept, rfl⟩ := List.mem_map.mp member
  obtain ⟨trimmed, filled⟩ := List.mem_filter.mp kept
  obtain ⟨whole, -, rfl⟩ := List.mem_map.mp trimmed
  exact ⟨trim_trim whole, by simpa using filled⟩

theorem Token.settled_of_ofEntries {entries : OrderedMap Key Value} {tokens : List Token}
    (read : Token.ofEntries entries = .ok tokens) : ∀ t ∈ tokens, t.Settled := by
  unfold Token.ofEntries at read
  split at read
  · split at read
    · obtain ⟨name, -, read⟩ := exists_of_bind_ok read
      cases read
      exact List.forall_mem_singleton.mpr trivial
    · cases read
      exact fun t member => absurd member List.not_mem_nil
  · cases read
    exact fun t member => absurd member List.not_mem_nil

/-- The tokens of one item of a list: those that it has by itself, except that a text is not cut at
its bars. -/
def Value.tokensInList : Value → Except Fault (List Token)
  | .text s => .ok (Token.ofTexts [s])
  | v => v.tokens

theorem Value.itemTokens_cons (v : Value) (rest : List Value) :
    Value.itemTokens (v :: rest) =
      (do return (← v.tokensInList) ++ (← Value.itemTokens rest)) := by
  cases v <;> rfl

/-- The tokens of a list are those of its parts. -/
theorem Value.itemTokens_append (before behind : List Value) :
    Value.itemTokens (before ++ behind) =
      (do return (← Value.itemTokens before) ++ (← Value.itemTokens behind)) := by
  induction before with
  | nil => exact (bind_pure (Value.itemTokens behind)).symm
  | cons v rest ih =>
    rw [List.cons_append, Value.itemTokens_cons, Value.itemTokens_cons, ih]
    simp only [bind_assoc, pure_bind, List.append_assoc]

/-- Where a list has tokens, its items do. -/
theorem Value.tokens_of_itemTokens_cons {v : Value} {rest : List Value} {tokens : List Token}
    (read : Value.itemTokens (v :: rest) = .ok tokens) :
    ∃ own others, v.tokensInList = .ok own ∧ Value.itemTokens rest = .ok others ∧
      tokens = own ++ others := by
  rw [Value.itemTokens_cons] at read
  obtain ⟨own, first, read⟩ := exists_of_bind_ok read
  obtain ⟨others, later, read⟩ := exists_of_bind_ok read
  exact ⟨own, others, first, later, (Except.ok.inj read).symm⟩

mutual

/-- The tokens of a value are settled. -/
theorem Value.settled_of_tokens :
    ∀ (v : Value) (tokens : List Token), v.tokens = .ok tokens → ∀ t ∈ tokens, t.Settled
  | .null, _, rfl | .bool _, _, rfl | .condition _ _ _, _, rfl | .branch _ _ _, _, rfl
  | .object _ _, _, rfl => fun _ member => absurd member List.not_mem_nil
  | .number n, _, read => by
    obtain ⟨s, written, read⟩ := exists_of_bind_ok read
    cases read
    rw [← numeral_of_text written]
    exact List.forall_mem_singleton.mpr ⟨trim_numeral n, isEmpty_numeral n⟩
  | .text _, _, rfl => Token.settled_of_mem_ofTexts _
  | .source _, _, rfl | .enumClass _, _, rfl | .upload _, _, rfl =>
    List.forall_mem_singleton.mpr trivial
  | .list items, tokens, read => Value.settled_of_itemTokens items tokens read
  | .mapping _, _, read => Token.settled_of_ofEntries read

theorem Value.settled_of_itemTokens :
    ∀ (items : List Value) (tokens : List Token), Value.itemTokens items = .ok tokens →
      ∀ t ∈ tokens, t.Settled
  | [], _, rfl => fun _ member => absurd member List.not_mem_nil
  | v :: rest, tokens, read => by
    have alone := Value.settled_of_tokens v
    have behind := Value.settled_of_itemTokens rest
    obtain ⟨own, others, first, later, rfl⟩ := Value.tokens_of_itemTokens_cons read
    have settled : ∀ t ∈ own, t.Settled := by
      unfold Value.tokensInList at first
      split at first
      · cases first
        exact Token.settled_of_mem_ofTexts _
      · exact alone own first
    exact fun t member => (List.mem_append.mp member).elim (settled t) (behind others later t)

end

/-- Settled tokens in a list are read back as they are. -/
theorem itemTokens_toValue (tokens : List Token) (settled : ∀ t ∈ tokens, t.Settled) :
    Value.itemTokens (tokens.map Token.toValue) = .ok tokens := by
  induction tokens with
  | nil => rfl
  | cons t rest ih =>
    have read := ih fun t' member => settled t' (List.mem_cons_of_mem t member)
    have own : t.toValue.tokensInList = .ok [t] := by
      cases t with
      | rule s =>
        obtain ⟨trimmed, filled⟩ := settled (.rule s) List.mem_cons_self
        simp [Token.toValue, Value.tokensInList, Token.ofTexts, trimmed, filled]
      | _ => rfl
    rw [List.map_cons, Value.itemTokens_cons, own, read]
    rfl

/-- Reading the tokens of a list of tokens gives them back. -/
theorem Value.tokens_toValue (tokens : List Token) (settled : ∀ t ∈ tokens, t.Settled) :
    (Value.list (tokens.map Token.toValue)).tokens = .ok tokens :=
  itemTokens_toValue tokens settled

/-- A list of texts is a list of rule texts. -/
theorem Value.itemTokens_texts (texts : List String) :
    Value.itemTokens (texts.map .text) = .ok (Token.ofTexts texts) := by
  induction texts with
  | nil => rfl
  | cons s rest ih =>
    rw [List.map_cons, Value.itemTokens_cons, ih]
    change Except.ok (Token.ofTexts [s] ++ Token.ofTexts rest) = _
    simp only [Token.ofTexts, ← List.map_append, ← List.filter_append, List.singleton_append]

/-- Texts that are joined with bars are read like the list of the texts, unless one of them
holds a bar itself. -/
theorem Value.tokens_joined {texts : List String} (unbarred : ∀ s ∈ texts, '|' ∉ s.toList) :
    (Value.text ("|".intercalate texts)).tokens = (Value.list (texts.map .text)).tokens := by
  change .ok (Token.ofTexts (split '|' ("|".intercalate texts))) =
    Value.itemTokens (texts.map .text)
  rw [Value.itemTokens_texts]
  by_cases filled : texts = []
  · -- no text at all joins to the empty text, which is no rule text either
    subst filled
    rfl
  · exact congrArg (fun texts => Except.ok (Token.ofTexts texts))
      (split_intercalate unbarred filled)

/-- Tokens are stable: read once more, they are the same tokens of the same kinds; the
tokens of two lists in a row are those of the first one and those of the second one; and it
does not matter whether texts without bars are given in a list or joined with bars. A number that
cannot be written is a fault on both sides. -/
theorem Value.tokens_stable :
    (∀ v : Value, (do (Value.list ((← v.tokens).map Token.toValue)).tokens) = v.tokens) ∧
    (∀ before behind : List Value, (Value.list (before ++ behind)).tokens =
      (do return (← (Value.list before).tokens) ++ (← (Value.list behind).tokens))) ∧
    ∀ texts : List String, (∀ s ∈ texts, '|' ∉ s.toList) →
      (Value.text ("|".intercalate texts)).tokens = (Value.list (texts.map .text)).tokens := by
  refine ⟨?_, Value.itemTokens_append, ?_⟩
  · intro v
    cases read : v.tokens with
    | error fault => rfl
    | ok tokens => exact Value.tokens_toValue tokens (Value.settled_of_tokens v tokens read)
  · intro texts unbarred
    exact Value.tokens_joined unbarred

theorem Value.mixedRules_stable :
    let rules : Value := .list [.text " in:a|b ", .source "$x | $y", .list [.text "", .int 3]]
    rules.tokens = .ok [.rule "in:a|b", .source "$x | $y", .rule "3"] ∧
    (do (Value.list ((← rules.tokens).map Token.toValue)).tokens) = rules.tokens ∧
    (Value.text "required| max:255|").tokens =
      (Value.list (["required", " max:255", ""].map .text)).tokens := by
  intro rules
  obtain ⟨again, -, joined⟩ := Value.tokens_stable
  exact ⟨by rfl, again rules, joined ["required", " max:255", ""] (by decide)⟩

end RequestSchema
