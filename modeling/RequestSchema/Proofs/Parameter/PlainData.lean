import RequestSchema.Proofs.Parameter.Branches
import RequestSchema.Proofs.Parameter.Reading
import RequestSchema.Proofs.Rule.Unread
import RequestSchema.Proofs.Text.Recognition

/-!
# Branches that are read back from plain data

* `parameters_of_plainData`: the branches of a class and what is read back from their plain
  data get the same parameters, tokens and conditional rules aside, when plain data keeps
  every rule value of the branches (`Value.Kept`).

Plain data has no tags for the structured rules. An upload is lost in it
(`imageRule_lost`), and source text is kept as long as nobody takes it for a rule.
-/
namespace RequestSchema

open RequestSchema.Text Analysis

/-! ## Tokens -/

/-- A token that is read back from plain data with all that it tells: no upload, no
enumeration without a name, and no source text that would be trimmed or taken for a rule. -/
def Token.Kept : Token → Prop
  | .rule _ => True
  | .source s => trim s = s ∧ s.isEmpty = false ∧ (Token.rule s).name ∉ Token.meaningful
  | .enumClass name => name.isEmpty = false
  | .upload _ => False

instance : DecidablePred Token.Kept
  | .rule _ => isTrue trivial
  | .source s => inferInstanceAs
      (Decidable (trim s = s ∧ s.isEmpty = false ∧ (Token.rule s).name ∉ Token.meaningful))
  | .enumClass name => inferInstanceAs (Decidable (name.isEmpty = false))
  | .upload _ => isFalse id

/-- Whether a value is source text that would be cut at its bars if it were a text. -/
def Value.isCut : Value → Bool
  | .source s => s.toList.contains '|'
  | _ => false

/-- A rule value that is read back from plain data with all that it tells. -/
structure Value.Kept (v : Value) : Prop where
  tokens : ∀ t ∈ v.tokenList, t.Kept
  whole : v.isCut = false

instance : DecidablePred Value.Kept := fun v =>
  decidable_of_iff ((∀ t ∈ v.tokenList, t.Kept) ∧ v.isCut = false)
    ⟨fun kept => ⟨kept.1, kept.2⟩, fun kept => ⟨kept.tokens, kept.whole⟩⟩

/-- Two lists of tokens are the same up to what nobody reads. -/
def SameUnread (tokens tokens' : List Token) : Prop :=
  tokens'.map Token.unread = tokens.map Token.unread

namespace Value

theorem ofTexts_kept {s : String} (kept : (Token.source s).Kept) :
    SameUnread [.source s] (Token.ofTexts [s]) := by
  obtain ⟨trimmed, filled, other⟩ := kept
  have read : Token.ofTexts [s] = [.rule s] := by simp [Token.ofTexts, trimmed, filled]
  rw [SameUnread, read, List.map_singleton, Token.unread, if_neg other]
  rfl

theorem tokens_plainEnum {name : String} (kept : (Token.enumClass name).Kept) :
    (enumClass name).plainLeaf.tokens = .ok [.enumClass name] := by
  have named : name.isEmpty = false := kept
  change Token.ofEntries (.ofList [(.text "type", .text "enum"), (.text "class", .text name)]) = _
  have kind : (OrderedMap.ofList [(Key.text "type", text "enum"), (.text "class", text name)]).get?
      (.text "type") = some (.text "enum") := rfl
  have cls : (OrderedMap.ofList [(Key.text "type", text "enum"), (.text "class", text name)]).get?
      (.text "class") = some (.text name) := rfl
  simp only [Token.ofEntries, kind, cls, text?, truthy, named, Bool.not_false, Bool.and_true,
    decide_true, if_true]
  rfl

section

variable {v : Value} {tokens : List Token}

/-- The plain data of an item of a list has the token of the item, up to what nobody reads. -/
theorem tokensInList_plainLeaf (read : v.tokensInList = .ok tokens) (kept : ∀ t ∈ tokens, t.Kept) :
    ∃ tokens', v.plainLeaf.tokensInList = .ok tokens' ∧ SameUnread tokens tokens' := by
  cases v with
  | source s =>
    cases read
    exact ⟨_, rfl, ofTexts_kept (kept (.source s) List.mem_cons_self)⟩
  | enumClass name =>
    cases read
    exact ⟨_, tokens_plainEnum (kept _ List.mem_cons_self), rfl⟩
  | upload limits =>
    cases read
    exact absurd (kept (.upload limits) List.mem_cons_self) id
  | null | bool b | number n | text s | list items | mapping entries | condition kind e m
  | branch c r s | object b s => exact ⟨tokens, read, rfl⟩

/-- The plain data of a leaf that is not cut has the tokens of the leaf, up to what nobody
reads. -/
theorem tokens_plainLeaf (read : v.tokens = .ok tokens) (kept : ∀ t ∈ tokens, t.Kept)
    (whole : v.isCut = false) :
    ∃ tokens', v.plainLeaf.tokens = .ok tokens' ∧ SameUnread tokens tokens' := by
  cases v with
  | source s =>
    cases read
    have absent : '|' ∉ s.toList := by simpa [isCut] using whole
    refine ⟨Token.ofTexts [s], ?_, ofTexts_kept (kept (.source s) List.mem_cons_self)⟩
    rw [plainLeaf, Value.tokens, split_of_absent absent]
  | enumClass name => exact tokensInList_plainLeaf (v := .enumClass name) read kept
  | upload limits => exact tokensInList_plainLeaf (v := .upload limits) read kept
  | null | bool b | number n | text s | list items | mapping entries | condition kind e m
  | branch c r s | object b s => exact ⟨tokens, read, rfl⟩

end

theorem itemTokens_plainLeaf {items : List Value} {tokens : List Token}
    (read : itemTokens items = .ok tokens) (kept : ∀ t ∈ tokens, t.Kept) :
    ∃ tokens', itemTokens (items.map plainLeaf) = .ok tokens' ∧ SameUnread tokens tokens' := by
  induction items generalizing tokens with
  | nil =>
    cases read
    exact ⟨[], rfl, rfl⟩
  | cons v rest ih =>
    obtain ⟨own, others, first, later, rfl⟩ := tokens_of_itemTokens_cons read
    obtain ⟨own', first', same⟩ :=
      tokensInList_plainLeaf first fun t member => kept t (List.mem_append_left _ member)
    obtain ⟨others', later', sames⟩ :=
      ih later fun t member => kept t (List.mem_append_right _ member)
    refine ⟨own' ++ others', ?_, ?_⟩
    · rw [List.map_cons, itemTokens_cons, first', later']
      rfl
    · rw [SameUnread, List.map_append, List.map_append, same, sames]

/-- The plain data of a value that it keeps can be written, and has the tokens of the value up to
what nobody reads. -/
theorem tokens_plain {v : Value} (writable : v.writable = true) (kept : v.Kept) :
    v.plain.writable = true ∧ SameUnread v.tokenList v.plain.tokenList := by
  have read := tokens_of_writable writable
  suffices ∃ tokens, v.plain.tokens = .ok tokens ∧ SameUnread v.tokenList tokens by
    obtain ⟨tokens, plain, same⟩ := this
    rw [tokenList_of_tokens plain]
    exact ⟨writable_of_tokens plain, same⟩
  cases v with
  | list items => exact itemTokens_plainLeaf read kept.tokens
  | null | bool b | number n | text s | source s | enumClass name | upload limits
  | mapping entries | condition kind e m | branch c r s | object b s =>
    exact tokens_plainLeaf read kept.tokens kept.whole

end Value

/-! ## Branches and joint rules -/

/-- The condition that is read back from the plain data of a condition. -/
def Condition.readBack (c : Condition) : Condition :=
  let kind := ConditionKind.ofName c.kind.name
  { c with
    kind
    method := match kind, c.method.text? with
      | .httpMethod, some verb => .text (Text.upper verb)
      | _, _ => c.method }

/-- The branch that is read back from the plain data of a branch. -/
def Branch.readBack (b : Branch) : Branch :=
  ⟨b.conditions.map Condition.readBack, b.rules.mapValues Value.plain⟩

theorem Condition.ofValue?_toValue (c : Condition) :
    Condition.ofValue? c.toValue = .ok (some c.readBack) := by
  obtain ⟨kind, expression, method⟩ : (c.toValue.field? "type").bind Value.text? = some c.kind.name ∧
      c.toValue.field? "expression" = some (.text c.expression) ∧
      (c.toValue.field? "method").getD .null = c.method := by
    unfold Condition.toValue
    cases c.method <;> exact ⟨rfl, rfl, rfl⟩
  change ofFields? c.toValue = _
  unfold ofFields? readBack
  simp only [kind, expression, method, Option.filter_some, Value.truthy]
  by_cases empty : c.expression = ""
  · rw [empty]
    rfl
  · have filled : c.expression.isEmpty = false := by simpa using empty
    simp only [filled, Bool.not_false, if_true]
    rfl

theorem entries?_plain (rules : RuleSet) :
    (RuleSet.plain rules).entries? = some (rules.mapValues Value.plain) :=
  congrArg some (OrderedMap.ofList_entries (rules.mapValues Value.plain))

theorem Branch.ofValue?_toValue (b : Branch) :
    Branch.ofValue? b.toValue = .ok (some b.readBack) := by
  have rules : (b.toValue.field? "rules").bind Value.entries? =
      some (b.rules.mapValues Value.plain) := entries?_plain b.rules
  have conditions : ((b.toValue.field? "conditions").bind Value.items?).getD [] =
      b.conditions.map Condition.toValue := rfl
  have parts : Branch.parts? b.toValue =
      some (b.conditions.map Condition.toValue, b.rules.mapValues Value.plain) := by
    change ((b.toValue.field? "rules").bind Value.entries?).map _ = _
    rw [rules, conditions]
    rfl
  have read : (b.conditions.map Condition.toValue).mapM Condition.ofValue? =
      .ok (b.conditions.map fun c => some c.readBack) := by
    rw [List.mapM_map]
    exact mapM_eq_ok fun c _ => c.ofValue?_toValue
  simp only [Branch.ofValue?, parts, read]
  have conditions : (b.conditions.map fun c => some c.readBack).filterMap id =
      b.conditions.map Condition.readBack := by
    rw [List.filterMap_map]
    exact congrFun List.filterMap_eq_map b.conditions
  exact congrArg (fun conditions => Except.ok (some (Branch.mk conditions _))) conditions

/-- What plain data of branches describe. -/
def ConditionalRules.plainSource (found : ConditionalRules) : ConditionalSource :=
  ⟨found.branches.map fun b => .data b.toValue, found.merged.mapValues Value.plain⟩

theorem ConditionalSource.ofValue?_toValue (found : ConditionalRules) :
    ConditionalSource.ofValue? found.toValue = some found.plainSource := by
  have ruleSets : found.toValue.field? "rules_sets" =
      some (.list (found.branches.map Branch.toValue)) := rfl
  have merged : found.toValue.field? "merged_rules" = some (RuleSet.plain found.merged) := rfl
  simp only [ConditionalSource.ofValue?, ruleSets, merged, Option.bind_eq_bind, Option.bind_some,
    entries?_plain, Value.items?, List.map_map]
  rfl

theorem branch?_toValue (b : Branch) :
    (RuleSetEntry.data b.toValue).branch? = .ok (some b.readBack) := b.ofValue?_toValue

/-- The branches that plain data of branches describe. -/
theorem rules_plainSource (found : ConditionalRules) :
    found.plainSource.rules =
      ⟨found.branches.map Branch.readBack, found.merged.mapValues Value.plain⟩ := by
  have each (b : Branch) : (RuleSetEntry.data b.toValue).found? = some b.readBack := by
    rw [RuleSetEntry.found?, branch?_toValue]
    rfl
  simp only [ConditionalSource.rules, ConditionalRules.plainSource, List.filterMap_map,
    Function.comp_def, each]
  rw [← List.filterMap_eq_map]
  rfl

/-- The joint value of a field is a list. -/
theorem list_of_get?_joint {branches : List Branch} {key : Key} {value : Value}
    (found : (Branch.joint branches).get? key = some value) : ∃ items, value = .list items := by
  rw [Branch.joint, Branch.get?_addEntries] at found
  split at found
  · cases found
    exact ⟨_, rfl⟩
  · cases found

/-- Plain data that keeps the rule values of all branches keeps their joint rules. -/
theorem kept_of_joint_kept {branches : List Branch} {key : Key} {value : Value}
    (kept : ∀ b ∈ branches, ∀ entry ∈ b.rules.entries, entry.2.Kept)
    (found : (Branch.joint branches).get? key = some value) : value.Kept where
  tokens := by
    intro t member
    rw [Value.tokenList_of_tokens (Branch.tokens_of_get?_joint found)] at member
    obtain ⟨b, there, own⟩ := List.mem_flatMap.mp member
    cases present : b.rules.get? key with
    | none =>
      rw [present] at own
      cases own
    | some value' =>
      rw [present] at own
      exact (kept b there _ (OrderedMap.mem_of_get? present)).tokens t own
  whole := by
    obtain ⟨items, rfl⟩ := list_of_get?_joint found
    rfl

/-! ## Tokens that differ in what nobody reads -/

namespace SameUnread

variable {tokens tokens' : List Token} (same : SameUnread tokens tokens')

include same

/-- What ignores what nobody reads is the same for both. -/
theorem reading_eq {α : Type} {f : List Token → α}
    (blind : ∀ tokens, f (tokens.map Token.unread) = f tokens) : f tokens' = f tokens := by
  rw [← blind tokens', same, blind]

theorem has_eq {names : List String}
    (known : names.all (Token.meaningful.contains ·) = true) :
    Token.has names tokens' = Token.has names tokens :=
  same.reading_eq (Token.has_unread known)

theorem sameReading : SameReading tokens tokens' where
  upload field := same.reading_eq (Upload.ofTokens?_unread field)
  type fallback := same.reading_eq (f := (FieldType.ofTokens · fallback)) fun tokens =>
    FieldType.ofTokens_unread tokens fallback
  format := same.reading_eq Format.ofTokens?_unread
  bounds type := same.reading_eq (boundsOf_unread type)
  pattern := same.reading_eq Pattern.ofTokens?_unread
  sample room field type format enumeration :=
    same.reading_eq (f := (Example.ofField room field · type format enumeration)) fun tokens =>
      Example.ofField_unread room field tokens type format enumeration
  description field type enumeration :=
    same.reading_eq (f := (Description.ofField field · type enumeration)) fun tokens =>
      Description.ofField_unread field tokens type enumeration

theorem enumeration?_eq (origin : Origin) :
    origin.enumeration? tokens' = origin.enumeration? tokens :=
  same.reading_eq (EnumReference.first?_unread origin.space origin.aliases)

end SameUnread

/-! ## Fields -/

/-- Elements that are related have images that are related. -/
theorem forall₂_filterMap {α β γ : Type} {R : β → γ → Prop} {f : α → Option β} {g : α → Option γ}
    {xs : List α} (each : ∀ x ∈ xs, Option.Rel R (f x) (g x)) :
    List.Forall₂ R (xs.filterMap f) (xs.filterMap g) := by
  induction xs with
  | nil => exact .nil
  | cons x rest ih =>
    have later := ih fun y member => each y (List.mem_cons_of_mem x member)
    have first := each x List.mem_cons_self
    rw [List.filterMap_cons, List.filterMap_cons]
    generalize f x = one at first ⊢
    generalize g x = other at first ⊢
    cases first with
    | none => exact later
    | some related => exact .cons related later

/-- The field that is read back for a field: only its tokens differ, in what nobody reads,
and its conditional rules. -/
structure ReadsBack (field field' : FieldRules) : Prop where
  name : field'.name = field.name
  required : field'.required = field.required
  conditionallyRequired : field'.conditionallyRequired = field.conditionallyRequired
  branches : field'.branches = field.branches
  tokens : SameUnread field.tokens field'.tokens

section

variable {branches : List Branch} (writable : ∀ b ∈ branches, b.Writable)
  (kept : ∀ b ∈ branches, ∀ entry ∈ b.rules.entries, entry.2.Kept)

include writable kept

/-- The branches that mention a field and those of them that require it are found again. -/
theorem requiredFlags_readBack (key : Key) :
    (Branch.mentions (branches.map Branch.readBack) key).map (fun mention =>
        Token.isRequired mention.2) =
      (Branch.mentions branches key).map fun mention => Token.isRequired mention.2 := by
  simp only [Branch.mentions, List.filterMap_map, List.map_filterMap]
  refine List.filterMap_congr fun b member => ?_
  simp only [Function.comp_apply, Branch.readBack, OrderedMap.get?_mapValues, Option.map_map]
  cases found : b.rules.get? key with
  | none => rfl
  | some value =>
    have entry := OrderedMap.mem_of_get? found
    obtain ⟨-, same⟩ := Value.tokens_plain (writable b member _ entry) (kept b member _ entry)
    exact congrArg some (same.reading_eq Token.isRequired_unread)

theorem joint?_readBack {key : Key} {value : Value} (written : value.writable = true)
    (own : value.Kept) :
    Option.Rel ReadsBack (FieldRules.joint? branches key value)
      (FieldRules.joint? (branches.map Branch.readBack) key value.plain) := by
  have flags := requiredFlags_readBack writable kept key
  obtain ⟨-, unread⟩ := Value.tokens_plain written own
  have empty : (Branch.mentions (branches.map Branch.readBack) key).isEmpty =
      (Branch.mentions branches key).isEmpty := by
    simpa only [List.isEmpty_map] using congrArg List.isEmpty flags
  have counted : (Branch.mentions (branches.map Branch.readBack) key).length =
      (Branch.mentions branches key).length := by
    simpa only [List.length_map] using congrArg List.length flags
  have everywhere : ((Branch.mentions (branches.map Branch.readBack) key).all fun mention =>
      Token.isRequired mention.2) =
      (Branch.mentions branches key).all fun mention => Token.isRequired mention.2 := by
    simpa only [List.all_map, Function.id_comp] using congrArg (List.all · id) flags
  have somewhere : ((Branch.mentions (branches.map Branch.readBack) key).any fun mention =>
      Token.isRequired mention.2) =
      (Branch.mentions branches key).any fun mention => Token.isRequired mention.2 := by
    simpa only [List.any_map, Function.id_comp] using congrArg (List.any · id) flags
  have excluded := unread.reading_eq Token.isExcluded_unread
  have conditional := unread.reading_eq Token.isConditionallyRequired_unread
  unfold FieldRules.joint? FieldRules.ofMentions?
  cases key.inputName? with
  | none => exact .none
  | some name =>
    simp only [Option.bind_some, empty, counted, everywhere, somewhere, excluded, conditional,
      List.length_map]
    split
    · exact .none
    · split
      · exact .none
      · exact .some ⟨rfl, rfl, rfl, rfl, unread⟩

/-- Fields that are read back are those of the branches, one by one. -/
theorem conditionalFields_readBack :
    List.Forall₂ ReadsBack (conditionalFields ⟨branches, Branch.joint branches⟩)
      (conditionalFields ⟨branches.map Branch.readBack,
        (Branch.joint branches).mapValues Value.plain⟩) := by
  have entries : ((Branch.joint branches).mapValues Value.plain).entries =
      (Branch.joint branches).entries.map fun entry => (entry.1, entry.2.plain) := rfl
  rw [conditionalFields, conditionalFields, entries, List.filterMap_map]
  refine forall₂_filterMap fun entry member => ?_
  have joint := OrderedMap.get?_of_mem member
  exact joint?_readBack writable kept
    (Value.writable_of_tokens (Branch.tokens_of_get?_joint joint)) (kept_of_joint_kept kept joint)

/-- The plain data of the branches can be read and written. -/
theorem written_plainSource :
    (ConditionalRules.plainSource ⟨branches, Branch.joint branches⟩).Written where
  ruleSets entry member := by
    obtain ⟨b, -, rfl⟩ := List.mem_map.mp member
    rw [branch?_toValue]
    rfl
  branches b member := by
    rw [rules_plainSource] at member
    obtain ⟨b, there, rfl⟩ := List.mem_map.mp member
    intro entry own _
    obtain ⟨entry', mapped, rfl⟩ := List.mem_map.mp own
    exact (Value.tokens_plain (writable b there _ mapped) (kept b there _ mapped)).1
  merged entry member _ _ := by
    obtain ⟨entry, own, rfl⟩ := List.mem_map.mp member
    have joint := OrderedMap.get?_of_mem own
    exact (Value.tokens_plain (Value.writable_of_tokens (Branch.tokens_of_get?_joint joint))
      (kept_of_joint_kept kept joint)).1

end

/-! ## Parameters -/

/-- A parameter without its tokens and its conditional rules. -/
def Parameter.withoutRules (p : Parameter) : Parameter :=
  { p with tokens := [], conditionalRules := [] }

/-- The parameter that is read back for a parameter. -/
structure Parameter.ReadsBack (p p' : Parameter) : Prop where
  same : p'.withoutRules = p.withoutRules
  confirmed : Token.has ["confirmed"] p'.tokens = Token.has ["confirmed"] p.tokens

/-- A confirmation does not depend on the rules that are left out. -/
theorem Parameter.confirmation_withoutRules (p : Parameter) :
    p.withoutRules.confirmation = p.confirmation := rfl

theorem Parameter.ReadsBack.withConfirmation {p p' : Parameter} (back : p.ReadsBack p') :
    p'.withConfirmation.map withoutRules = p.withConfirmation.map withoutRules := by
  have twins : p'.confirmation = p.confirmation := by
    rw [← confirmation_withoutRules, back.same, confirmation_withoutRules]
  rw [Parameter.withConfirmation, Parameter.withConfirmation, back.confirmed]
  split
  · simp only [List.map_cons, List.map_nil, back.same, twins]
  · simp only [List.map_cons, List.map_nil, back.same]

theorem parameter_readsBack {field field' : FieldRules} (back : ReadsBack field field')
    (origin : Origin) :
    Alike Eq Eq Parameter.ReadsBack (field.parameter origin) (field'.parameter origin) := by
  have lookups : Alike Eq Eq Eq (origin.enumeration? field.tokens)
      (origin.enumeration? field'.tokens) := by
    rw [back.tokens.enumeration?_eq]
    exact alike_refl _
  refine (parameter_alike field field' back.name back.tokens.sameReading lookups).imp ?_
  rintro p p' ⟨q, -, rfl, rfl⟩
  refine ⟨?_, back.tokens.has_eq (by decide)⟩
  simp only [Parameter.withoutRules, FieldRules.dress, FieldRules.remark, back.name, back.required,
    back.conditionallyRequired, back.branches]

/-- Branches and what is read back for them get the same parameters, rules aside. -/
theorem parameters_readBack {branches : List Branch} (writable : ∀ b ∈ branches, b.Writable)
    (kept : ∀ b ∈ branches, ∀ entry ∈ b.rules.entries, entry.2.Kept) (origin : Origin)
    (strict : Bool) (r : Registry) :
    let found : ConditionalRules := ⟨branches, Branch.joint branches⟩
    ((Parameter.ofConditionalData found.toValue origin).run strict r).result.map
        (List.map Parameter.withoutRules) =
      ((Parameter.ofConditionalRules found origin).run strict r).result.map
        (List.map Parameter.withoutRules) := by
  intro found
  rw [Parameter.ofConditionalData, ConditionalSource.ofValue?_toValue]
  simp only [Parameter.ofConditionalRules]
  rw [Parameter.ofConditionalSource_of_written (written_plainSource writable kept),
    Parameter.ofConditionalSource_of_written (ConditionalSource.written_ofRules writable),
    ConditionalSource.rules_ofRules, rules_plainSource]
  have each := (conditionalFields_readBack writable kept).imp fun _ _ back =>
    parameter_readsBack back origin
  refine ((mains_alike each strict r r rfl).result_map ?_).symm
  rintro ps ps' ⟨mains, mains', related, rfl, rfl⟩
  rw [List.map_flatMap, List.map_flatMap]
  induction related with
  | nil => rfl
  | cons first _ ih => rw [List.flatMap_cons, List.flatMap_cons, first.withConfirmation, ih]

/-! ## From the source -/

/-- The joint rule set of a class is that of its branches. -/
theorem SourceUnit.ofBranches_of_run {settings : Settings} {u : SourceUnit} {name : String}
    {strict : Bool} {r : Registry} {found : ConditionalRules}
    (returned : ((u.branches settings name).run strict r).result = .ok found) :
    ConditionalRules.ofBranches found.branches = .ok found := by
  have branches := run_branches returned
  cases method : rulesMethod? r.parse settings u name with
  | none =>
    rw [method] at branches
    rw [branches]
    rfl
  | some place =>
    rw [method] at branches
    exact ofBranches_of_method branches

/-- The branches of a class and their plain data get the same parameters, tokens and conditional
rules aside, when plain data keeps their rule values. -/
theorem parameters_of_plainData {s : Session} {u : SourceUnit} {name : String}
    {found : ConditionalRules} (branched : (s.perform (u.branches s.settings name)).1 = .ok found)
    (kept : ∀ b ∈ found.branches, ∀ entry ∈ b.rules.entries, entry.2.Kept) :
    ∀ origin strict r,
      ((Parameter.ofConditionalData found.toValue origin).run strict r).result.map
          (List.map Parameter.withoutRules) =
        ((Parameter.ofConditionalRules found origin).run strict r).result.map
          (List.map Parameter.withoutRules) := by
  intro origin strict r
  obtain ⟨writable, joined⟩ := Branch.eq_of_ofBranches (SourceUnit.ofBranches_of_run branched)
  rw [joined]
  exact parameters_readBack writable kept origin strict r

/-- A class with a password rule, which is source text, an enumeration and a condition. -/
def account : SourceUnit where
  text := "<?php class A\x7bfunction rules()\x7bif($x)return['p'=>Password::min(8)];" ++
    "return['s'=>['required',Rule::enum(S::class)]];\x7d\x7d"

theorem account_readBack :
    ∃ found, (({} : Session).perform (account.branches {} "A")).1 = .ok found ∧
      found.branches.length = 2 ∧
      (∀ b ∈ found.branches, ∀ entry ∈ b.rules.entries, entry.2.Kept) ∧
      ∀ origin strict r,
        ((Parameter.ofConditionalData found.toValue origin).run strict r).result.map
            (List.map Parameter.withoutRules) =
          ((Parameter.ofConditionalRules found origin).run strict r).result.map
            (List.map Parameter.withoutRules) := by
  obtain ⟨found, branched, checked⟩ := exists_ok_of_any
    (show ((({} : Session).perform (account.branches {} "A")).1.toOption.any fun found =>
      found.branches.length = 2 ∧
        ∀ b ∈ found.branches, ∀ entry ∈ b.rules.entries, entry.2.Kept) = true by
        decide +kernel)
  obtain ⟨two, kept⟩ := of_decide_eq_true checked
  exact ⟨found, branched, two, kept, parameters_of_plainData branched kept⟩

/-- A class with a rule that makes its field an upload. -/
def photo : SourceUnit where
  text := "<?php class U\x7bfunction rules()\x7breturn['f'=>['required',File::image()]];\x7d\x7d"

/-- The upload is lost in plain data, so its field becomes a text. -/
theorem imageRule_lost :
    ∃ found ps ps', (({} : Session).perform (photo.branches {} "U")).1 = .ok found ∧
      ((Parameter.ofConditionalRules found {}).run false {}).result = .ok ps ∧
      ((Parameter.ofConditionalData found.toValue {}).run false {}).result = .ok ps' ∧
      ps.map Parameter.type = [.file] ∧ ps'.map Parameter.type = [.string] := by
  obtain ⟨found, branched, rest⟩ := exists_ok_of_any
    (show ((({} : Session).perform (photo.branches {} "U")).1.toOption.any fun found =>
      (((Parameter.ofConditionalRules found {}).run false {}).result.toOption.any fun ps =>
        ps.map Parameter.type = [.file]) &&
      ((Parameter.ofConditionalData found.toValue {}).run false {}).result.toOption.any fun ps =>
        ps.map Parameter.type = [.string]) = true by decide +kernel)
  obtain ⟨own, back⟩ := Bool.and_eq_true_iff.mp rest
  obtain ⟨ps, returned, file⟩ := exists_ok_of_any own
  obtain ⟨ps', returned', string⟩ := exists_ok_of_any back
  exact ⟨found, ps, ps', branched, returned, returned', of_decide_eq_true file,
    of_decide_eq_true string⟩

end RequestSchema
