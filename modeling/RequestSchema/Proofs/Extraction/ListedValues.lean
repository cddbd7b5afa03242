import RequestSchema.Field.Example
import RequestSchema.Proofs.Extraction.WritableRules
import RequestSchema.Proofs.Source.Literal
import RequestSchema.Proofs.Text.Recognition
import RequestSchema.Proofs.Text.Trim

/-!
# Rules that list values

A choice lists the values that a field may or must not have (`ChoiceRule`). It becomes a rule text
with commas between the values, and the parameters of the rule are read back from that text.

* `choice_values`: a choice is one token, in a list of rules and by itself, and its parameters are
  the listed values exactly when these can be told apart between commas (`Separable`); an example
  that the choice decides is then one of them;
* `commaChoice_split`: a value with a comma is read as two.
-/
namespace RequestSchema

open RequestSchema.Text RequestSchema.Source

/-! ## Choices in the source -/

namespace Extraction

/-- Arguments list texts, in one array or one by one. -/
inductive Lists : List Expr → List String → Prop
  | array {text : String} {items : List Expr} {vs : List String} :
      List.Forall₂ Denotes items vs → Lists [.array text (items.map .item)] vs
  | apart {arguments : List Expr} {vs : List String} :
      List.Forall₂ Denotes arguments vs → Lists arguments vs

def choiceMethods : List (String × String) := [("in", "in"), ("notin", "not_in")]

def choiceClasses : List (String × String) := [("In", "in"), ("NotIn", "not_in")]

/-- An expression builds the rule of some name that lists values. -/
inductive ChoiceRule (rule : String) (vs : List String) : Expr → Prop
  | built {text scope method : String} {arguments : List Expr} :
      lastSegment scope = "Rule" → (lower method, rule) ∈ choiceMethods → Lists arguments vs →
      ChoiceRule rule vs (.static text scope method arguments)
  | made {text name : String} {arguments : List Expr} :
      (lastSegment name, rule) ∈ choiceClasses → Lists arguments vs →
      ChoiceRule rule vs (.construct text (some name) arguments)

end Extraction

/-! ## The rule text of a choice -/

/-- The values of a list can be told apart between commas: none holds a comma or has white space at
its ends, and the list is not a single empty text. -/
def Separable (vs : List String) : Prop :=
  (∀ v ∈ vs, ',' ∉ v.toList ∧ trim v = v) ∧ vs ≠ [""]

instance (vs : List String) : Decidable (Separable vs) := inferInstanceAs (Decidable (_ ∧ _))

def choiceText (rule : String) (vs : List String) : String := rule ++ ":" ++ ",".intercalate vs

def choiceToken (rule : String) (vs : List String) : Token := .rule (trim (choiceText rule vs))

def choiceNames : List String := ["in", "not_in"]

variable {rule : String} {vs : List String}

theorem toList_choiceText :
    (choiceText rule vs).toList =
      rule.toList ++ ':' :: [','].intercalate (vs.map String.toList) := by
  simp [choiceText]

/-- The names hold neither white space nor a separator nor a capital letter. -/
theorem plain_of_choiceName (named : rule ∈ choiceNames) : trim rule = rule ∧ lower rule = rule ∧
    ':' ∉ rule.toList ∧ '|' ∉ rule.toList := by
  have plain : ∀ rule ∈ choiceNames, trim rule = rule ∧ lower rule = rule ∧
      ':' ∉ rule.toList ∧ '|' ∉ rule.toList := by decide
  exact plain rule named

/-- Trimming leaves the name and the colon of a choice. -/
theorem trim_choiceText (named : rule ∈ choiceNames) :
    trim (choiceText rule vs) = rule ++ String.singleton ':' ++
      String.ofList ((",".intercalate vs).toList.rdropWhile isBlank) := by
  have unled := (trim_eq_self_iff.mp (plain_of_choiceName named).1).1
  rw [trim, toList_choiceText, trimBy_append_cons unled (by decide)]
  simp [String.toList_intercalate, ← String.toList_inj]

theorem name_choiceToken (named : rule ∈ choiceNames) : (choiceToken rule vs).name = rule := by
  obtain ⟨bare, small, uncut, -⟩ := plain_of_choiceName named
  rw [choiceToken, trim_choiceText named, Token.name, cut?_append uncut, Option.map_some,
    Option.getD_some, bare, small]

theorem ofTexts_choiceText (named : rule ∈ choiceNames) :
    Token.ofTexts [choiceText rule vs] = [choiceToken rule vs] := by
  have filled : (trim (choiceText rule vs)).isEmpty = false := by
    rw [Bool.eq_false_iff, Ne, String.isEmpty_iff, trim_choiceText named]
    intro empty
    have none := congrArg String.toList empty
    simp at none
  simp [Token.ofTexts, filled, choiceToken]

/-- Without a bar in its values a choice is not cut. -/
theorem split_choiceText (named : rule ∈ choiceNames) (unbarred : ∀ v ∈ vs, '|' ∉ v.toList) :
    split '|' (choiceText rule vs) = [choiceText rule vs] := by
  refine split_of_absent fun bar => ?_
  rw [toList_choiceText, List.mem_append, List.mem_cons] at bar
  rcases bar with own | colon | later
  · exact (plain_of_choiceName named).2.2.2 own
  · exact absurd colon (by decide)
  · rcases mem_intercalate later with comma | ⟨piece, listed, own⟩
    · exact absurd comma (by decide)
    · obtain ⟨v, member, rfl⟩ := List.mem_map.mp listed
      exact unbarred v member own

/-! ## The parameters of a choice -/

/-- What is read back can be told apart, whatever was listed. -/
theorem separable_of_parameterList (named : rule ∈ choiceNames)
    (read : (choiceToken rule vs).parameterList = vs) : Separable vs := by
  constructor
  · intro v member
    rw [← read, Token.parameterList] at member
    split at member
    · cases member
    · obtain ⟨piece, cut, rfl⟩ := List.mem_map.mp member
      refine ⟨fun comma => not_mem_of_mem_split cut ?_, trim_trim piece⟩
      rw [trim, String.toList_ofList] at comma
      exact mem_of_mem_trimBy comma
  · -- A single empty text leaves no parameters, so it is read back as no value at all.
    rintro rfl
    have unread : ∀ rule ∈ choiceNames, (choiceToken rule [""]).parameterList ≠ [""] := by decide
    exact unread rule named read

/-- Values that can be told apart are the parameters of their choice. -/
theorem parameterList_choiceToken (named : rule ∈ choiceNames) (filled : vs ≠ [])
    (separable : Separable vs) : (choiceToken rule vs).parameterList = vs := by
  obtain ⟨plain, single⟩ := separable
  have joined : split ',' (",".intercalate vs) = vs :=
    split_intercalate (fun v member => (plain v member).1) filled
  have trimmed : trim (",".intercalate vs) = ",".intercalate vs :=
    trim_intercalate (by decide) fun v member => (plain v member).2
  obtain ⟨bare, -, uncut, -⟩ := plain_of_choiceName named
  have whole : trim (choiceText rule vs) = rule ++ String.singleton ':' ++ ",".intercalate vs :=
    trim_append (trim_append bare (by decide)) trimmed
  have parameters : (choiceToken rule vs).parameters = ",".intercalate vs := by
    rw [choiceToken, whole, Token.parameters, cut?_append uncut]
    exact trimmed
  have shown : (",".intercalate vs).isEmpty = false := by
    rw [Bool.eq_false_iff, Ne, String.isEmpty_iff]
    intro empty
    rw [empty] at joined
    exact single joined.symm
  rw [Token.parameterList, parameters, shown, joined]
  calc vs.map trim = vs.map id := List.map_congr_left fun v member => (plain v member).2
    _ = vs := List.map_id vs

/-! ## Reading a choice -/

namespace Extraction

theorem values_of_denotes {es : List Expr} (denote : List.Forall₂ Denotes es vs) :
    es.map Expr.value? = vs.map fun v => some (.text v) := by
  induction denote with
  | nil => rfl
  | cons first _ ih => rw [List.map_cons, List.map_cons, first.value?, ih]

theorem entryValues_of_denotes {es : List Expr} (denote : List.Forall₂ Denotes es vs) :
    entryValues (es.map .item) = vs.map .text := by
  induction denote with
  | nil => rfl
  | cons first _ ih => rw [List.map_cons, List.map_cons, entryValues, first.value?, ih]; rfl

theorem listedTexts?_of_lists {arguments : List Expr} (filled : vs ≠ [])
    (lists : Lists arguments vs) : listedTexts? arguments = .ok (some vs) := by
  have texts : (vs.map Value.text).mapM listedText = .ok vs := by
    rw [List.mapM_map]
    exact (mapM_eq_ok fun v _ => rfl).trans (congrArg _ (List.map_id' vs))
  cases lists with
  | array denote =>
    have unnested : (vs.map Value.text).filter (!isList ·) = vs.map Value.text := by
      simp [isList]
    simp only [listedTexts?, List.map_cons, List.map_nil, Expr.value?,
      entryValues_of_denotes denote, unnested, texts]
    rfl
  | apart denote =>
    have unnested : ∀ v ∈ vs.map fun v => some (Value.text v), v.all isList = false := by
      simp [isList]
    rw [listedTexts?, values_of_denotes denote]
    split
    · rename_i items whole
      cases unnested _ (whole ▸ List.mem_singleton_self (some (Value.list items)))
    · have literal : ((vs.map fun v => some (Value.text v)).any fun v => v.all isList) = false :=
        List.any_eq_false.mpr fun v member => by rw [unnested v member]; exact Bool.false_ne_true
      have kept : (vs.map fun v => some (Value.text v)).filterMap id = vs.map Value.text := by
        simp
      simp only [List.isEmpty_eq_false_iff.mpr (mt List.map_eq_nil_iff.mp filled), literal, kept,
        texts]
      rfl

theorem builtRule?_choice {method : String} {arguments : List Expr} {chain : List Link}
    (filled : vs ≠ []) (listing : (lower method, rule) ∈ choiceMethods)
    (lists : Lists arguments vs) :
    builtRule? method arguments chain = .ok (some (.text (choiceText rule vs))) := by
  have texts := listedTexts?_of_lists filled lists
  simp only [choiceMethods, List.mem_cons, Prod.mk.injEq, List.not_mem_nil, or_false] at listing
  rcases listing with ⟨name, rfl⟩ | ⟨name, rfl⟩
  · simp only [builtRule?, name, texts]
    rfl
  · simp only [builtRule?, name, texts]
    rfl

theorem singleRule?_unwrap (e : Expr) : singleRule? e.unwrap = singleRule? e := by
  fun_induction Expr.unwrap e with
  | case1 text inner ih => rw [ih, singleRule?]
  | case2 => rfl

theorem ChoiceRule.named {e : Expr} (choice : ChoiceRule rule vs e) : rule ∈ choiceNames := by
  have methods : ∀ entry ∈ choiceMethods, entry.2 ∈ choiceNames := by decide
  have classes : ∀ entry ∈ choiceClasses, entry.2 ∈ choiceNames := by decide
  cases choice with
  | built _ listing _ => exact methods _ listing
  | made listing _ => exact classes _ listing

/-- A choice is its rule text. -/
theorem ChoiceRule.singleRule? {e : Expr} (filled : vs ≠ []) (choice : ChoiceRule rule vs e) :
    Extraction.singleRule? e = .ok (some (.text (choiceText rule vs))) := by
  cases choice with
  | built facade listing lists =>
    simp [Extraction.singleRule?, builderValue, builderCall?, facade,
      builtRule?_choice filled listing lists]
  | made listing lists =>
    have classes : ∀ entry ∈ choiceClasses, ruleClasses.contains entry.1 = true ∧
        (lower entry.1, entry.2) ∈ choiceMethods := by decide
    obtain ⟨known, method⟩ := classes _ listing
    simp only [Extraction.singleRule?, objectValue, Option.map_some, known, if_true,
      builtRule?_choice filled method lists]
    rfl

/-- By itself a choice is no array, so it is read like a single rule. -/
theorem ChoiceRule.ruleValue? {e : Expr} (filled : vs ≠ []) (choice : ChoiceRule rule vs e.unwrap) :
    Extraction.ruleValue? e = .ok (some (.text (choiceText rule vs))) := by
  rw [Extraction.ruleValue?, ← choice.singleRule? filled]
  generalize e.unwrap = bare at choice
  cases choice <;> rfl

/-- The rules of an array that holds a choice. -/
theorem ruleValue?_array {e : Expr} {text : String} {before behind : List Entry}
    {rules rules' : List (Option Value)} (filled : vs ≠ []) (choice : ChoiceRule rule vs e.unwrap)
    (first : before.mapM entryRule? = .ok rules) (last : behind.mapM entryRule? = .ok rules') :
    Extraction.ruleValue? (.array text (before ++ .item e :: behind)) =
      .ok (some (.list
        (rules.filterMap id ++ .text (choiceText rule vs) :: rules'.filterMap id))) := by
  have own : entryRule? (.item e) = .ok (some (.text (choiceText rule vs))) := by
    rw [entryRule?, ← singleRule?_unwrap, choice.singleRule? filled]
  simp only [Extraction.ruleValue?, Expr.unwrap, List.mapM_append, List.mapM_cons, first, own, last]
  simp [bind, Except.bind, pure, Except.pure]

end Extraction

/-! ## The example that a choice decides -/

namespace Example

/-- The names of rules that decide the example of a text before a choice does. -/
def earlierNames : List String :=
  ["accepted", "accepted_if", "declined", "declined_if", "date_format", "timezone", "json"]

/-- Nothing decides the example of a text before the choices do. -/
structure Undecided (tokens : List Token) (format : Option Format)
    (enumeration : Option Enumeration) : Prop where
  unlisted : (enumeration.bind fun e => e.values.head?) = none
  unformatted : format.bind Format.example? = none
  unnamed : ∀ t ∈ tokens, t.name ∉ earlierNames

variable {tokens : List Token} {format : Option Format} {enumeration : Option Enumeration}

theorem Undecided.has_eq_false {names : List String}
    (undecided : Undecided tokens format enumeration)
    (earlier : ∀ name ∈ names, name ∈ earlierNames) : Token.has names tokens = false := by
  rw [Token.has, List.any_eq_false]
  exact fun t member named =>
    undecided.unnamed t member (earlier _ (List.contains_iff_mem.mp named))

/-- The example of a text is then the first value of the first choice. -/
theorem Undecided.ofField_eq {t : Token} {v : String}
    (undecided : Undecided tokens format enumeration) (room : Int) (field : String)
    (first : Token.find? ["in"] tokens = some t)
    (leads : t.parameterList.head? = some v) :
    ofField room field tokens .string format enumeration = .ok (.text v) := by
  have undated : Token.find? ["date_format"] tokens = none :=
    List.find?_eq_none.mpr (List.any_eq_false.mp (undecided.has_eq_false (by decide)))
  have accepted : Token.has ["accepted", "accepted_if"] tokens = false :=
    undecided.has_eq_false (by decide)
  have declined : Token.has ["declined", "declined_if"] tokens = false :=
    undecided.has_eq_false (by decide)
  have zoned : Token.has ["timezone"] tokens = false := undecided.has_eq_false (by decide)
  have structured : Token.has ["json"] tokens = false := undecided.has_eq_false (by decide)
  have chosen : text field tokens format = .text v := by
    simp [text, undated, undecided.unformatted, zoned, structured, first, leads]
  simp [ofField, undecided.unlisted, accepted, declined, chosen]

end Example

/-! ## The values of a choice -/

open Extraction

/-- A choice is one token of its name, as an entry of an array and, without bars in its values, by
itself. The parameters are the listed values exactly when these can be told apart, and an example
that the choice decides is then one of them. -/
theorem choice_values {e : Expr} (filled : vs ≠ []) (choice : ChoiceRule rule vs e.unwrap) :
    (∀ (text : String) (before behind : List Entry) (rules rules' : List (Option Value)),
      before.mapM entryRule? = .ok rules → behind.mapM entryRule? = .ok rules' →
      ∃ value front back, ruleValue? (.array text (before ++ .item e :: behind)) = .ok (some value) ∧
        Value.itemTokens (rules.filterMap id) = .ok front ∧
        Value.itemTokens (rules'.filterMap id) = .ok back ∧
        value.tokens = .ok (front ++ choiceToken rule vs :: back)) ∧
    ((∀ v ∈ vs, '|' ∉ v.toList) →
      ∃ value, ruleValue? e = .ok (some value) ∧ value.tokens = .ok [choiceToken rule vs]) ∧
    (choiceToken rule vs).name = rule ∧
    ((choiceToken rule vs).parameterList = vs ↔ Separable vs) ∧
    (Separable vs → ∀ (room : Int) (field : String) (tokens : List Token) (format : Option Format)
      (enumeration : Option Enumeration), Token.find? ["in"] tokens = some (choiceToken rule vs) →
      Example.Undecided tokens format enumeration →
      ∃ v ∈ vs, Example.ofField room field tokens .string format enumeration = .ok (.text v)) := by
  have named := choice.named
  refine ⟨fun text before behind rules rules' first last => ?_, fun unbarred => ?_,
    name_choiceToken named,
    ⟨separable_of_parameterList named, parameterList_choiceToken named filled⟩,
    fun separable room field tokens format enumeration first undecided => ?_⟩
  · obtain ⟨front, before⟩ := exists_itemTokens first
    obtain ⟨back, behind⟩ := exists_itemTokens last
    refine ⟨_, front, back, ruleValue?_array filled choice first last, before, behind, ?_⟩
    rw [Value.tokens, Value.itemTokens_append, before, Value.itemTokens, behind,
      ofTexts_choiceText named]
    rfl
  · refine ⟨_, choice.ruleValue? filled, ?_⟩
    rw [Value.tokens, split_choiceText named unbarred, ofTexts_choiceText named]
  · obtain ⟨v, rest, rfl⟩ := List.exists_cons_of_ne_nil filled
    have values := parameterList_choiceToken named filled separable
    exact ⟨v, List.mem_cons_self, undecided.ofField_eq room field first (by rw [values]; rfl)⟩

/-- A choice with an empty text among its values, beside another rule. -/
theorem statusChoice_read :
    let vs := ["draft", "in review", ""]
    let e : Expr := .static "Rule::in(['draft', 'in review', ''])" "Rule" "in"
      [.array "['draft', 'in review', '']"
        [.item (.string "'draft'"), .item (.string "'in review'"), .item (.string "''")]]
    vs ≠ [] ∧ ChoiceRule "in" vs e.unwrap ∧
    (∃ value, ruleValue? (.array "['required', Rule::in(['draft', 'in review', ''])]"
        [.item (.string "'required'"), .item e]) = .ok (some value) ∧
      value.tokens = .ok [.rule "required", choiceToken "in" vs]) ∧
    (choiceToken "in" vs).parameterList = vs := by
  intro vs e
  have filled : vs ≠ [] := by decide
  have denote : List.Forall₂ Denotes [.string "'draft'", .string "'in review'", .string "''"] vs :=
    .cons (.quoted _) (.cons (.quoted _) (.cons (.quoted _) .nil))
  have choice : ChoiceRule "in" vs e.unwrap := .built (by decide) (by decide) (.array denote)
  obtain ⟨entry, -, -, values, -⟩ := choice_values filled choice
  obtain ⟨value, front, back, read, before, behind, tokens⟩ :=
    entry "['required', Rule::in(['draft', 'in review', ''])]" [.item (.string "'required'")] [] _ _
      rfl rfl
  cases before
  cases behind
  exact ⟨filled, choice, ⟨value, read, tokens⟩, values.mpr (by decide)⟩

/-- A value with a comma is read as two, and the example is none of the listed values. -/
theorem commaChoice_split :
    let e : Expr :=
      .static "Rule::in(['a,b'])" "Rule" "in" [.array "['a,b']" [.item (.string "'a,b'")]]
    ChoiceRule "in" ["a,b"] e ∧
    ruleValue? (.array "[Rule::in(['a,b'])]" [.item e]) = .ok (some (.list [.text "in:a,b"])) ∧
    (Value.list [.text "in:a,b"]).tokens = .ok [.rule "in:a,b"] ∧
    (Token.rule "in:a,b").parameterList = ["a", "b"] ∧
    Example.ofField 9 "f" [.rule "in:a,b"] .string none none = .ok (.text "a") := by
  intro e
  have denote : List.Forall₂ Denotes [.string "'a,b'"] ["a,b"] := .cons (.quoted _) .nil
  have choice : ChoiceRule "in" ["a,b"] e := .built (by decide) (by decide) (.array denote)
  have undecided : Example.Undecided [.rule "in:a,b"] none none := ⟨rfl, rfl, by decide⟩
  have filled : ["a,b"] ≠ [] := by decide
  have alone : ([] : List Entry).mapM entryRule? = .ok [] := rfl
  have joined : choiceText "in" ["a,b"] = "in:a,b" := by decide
  refine ⟨choice, ?_, by decide, by decide, undecided.ofField_eq 9 "f" rfl rfl⟩
  rw [← joined]
  exact ruleValue?_array filled choice alone alone

end RequestSchema
