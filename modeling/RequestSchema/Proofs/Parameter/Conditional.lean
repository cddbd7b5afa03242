import RequestSchema.Proofs.Branch.Merge
import RequestSchema.Proofs.Parameter.Fields

/-!
# Fields of branches

What `FieldRules.joint?` puts together for a key of a joint rule set (`joint?_builtFrom`), when it
does so at all (`exists_field_of_kept`), and that the parameters of rule sets are those fields, one
by one (`fields_of_conditionalSource`).

Rule sets are read before their parameters are built. Where all of them can be
(`ConditionalSource.Written`), the parameters are those of the fields of the branches that they
describe (`ofConditionalSource_of_written`), and where parameters are returned they can be
(`written_of_ofConditionalSource`).
-/
namespace RequestSchema

/-! ## Fields -/

/-- The branches that mention a field, each with the tokens that it gives the field. -/
def Branch.mentions (branches : List Branch) (key : Key) : List (List Condition × List Token) :=
  branches.filterMap fun b => (b.rules.get? key).map fun value => (b.conditions, value.tokenList)

/-- The field of a joint rule set under a key, if it has a parameter. -/
def FieldRules.joint? (branches : List Branch) (key : Key) (value : Value) : Option FieldRules :=
  key.inputName?.bind fun name =>
    let mentions := Branch.mentions branches key
    if mentions.isEmpty then none
    else ofMentions? name branches.length mentions value.tokenList

def conditionalFields (rules : ConditionalRules) : List FieldRules :=
  rules.merged.entries.filterMap fun (key, value) =>
    FieldRules.joint? rules.branches key value

/-- What a field of a joint rule set is put together from: its joint value, and the
branches that mention it. -/
structure BuiltFrom (branches : List Branch) (key : Key) (value : Value) (field : FieldRules) :
    Prop where
  key_eq : key = .text field.name
  input : FieldName.isInput field.name = true
  mentioned : Branch.mentions branches key ≠ []
  kept : Token.isExcluded value.tokenList = false
  tokens : field.tokens = value.tokenList
  required : field.required =
    ((Branch.mentions branches key).length = branches.length &&
      (Branch.mentions branches key).all fun mention => Token.isRequired mention.2)
  conditionallyRequired : field.conditionallyRequired =
    (!field.required && ((Branch.mentions branches key).any (fun mention =>
      Token.isRequired mention.2) || Token.isConditionallyRequired value.tokenList))
  conditionalRules : field.conditionalRules =
    (Branch.mentions branches key).map fun mention => .path mention.1 mention.2

theorem name?_eq_some {key : Key} {name : String} (named : key.name? = some name) :
    key = .text name := by
  cases key <;> cases named
  rfl

theorem inputName?_eq_some {key : Key} {name : String} :
    key.inputName? = some name ↔ key = .text name ∧ FieldName.isInput name = true := by
  rw [Key.inputName?, Option.filter_eq_some_iff]
  refine and_congr_left fun _ => ⟨name?_eq_some, ?_⟩
  rintro rfl
  rfl

theorem joint?_builtFrom {branches : List Branch} {key : Key} {value : Value}
    {field : FieldRules} (found : FieldRules.joint? branches key value = some field) :
    BuiltFrom branches key value field := by
  obtain ⟨name, named, found⟩ := Option.bind_eq_some_iff.mp found
  obtain ⟨key_eq, input⟩ := inputName?_eq_some.mp named
  simp only at found
  split at found
  · cases found
  · rename_i mentioned
    unfold FieldRules.ofMentions? at found
    split at found
    · cases found
    · rename_i kept
      cases found
      rw [Bool.not_eq_true] at kept
      exact ⟨key_eq, input, mt List.isEmpty_iff.mpr mentioned, kept, rfl, rfl, rfl, rfl⟩

theorem exists_field_of_kept {branches : List Branch} {name : String} {value : Value}
    (input : FieldName.isInput name = true) (mentioned : Branch.mentions branches (.text name) ≠ [])
    (kept : Token.isExcluded value.tokenList = false) :
    ∃ field, FieldRules.joint? branches (.text name) value = some field ∧ field.name = name := by
  have named : (Key.text name).inputName? = some name := inputName?_eq_some.mpr ⟨rfl, input⟩
  have filled : (Branch.mentions branches (.text name)).isEmpty = false :=
    List.isEmpty_eq_false_iff.mpr mentioned
  simp only [FieldRules.joint?, named, Option.bind_some, filled, FieldRules.ofMentions?, kept,
    Bool.false_eq_true, if_false]
  exact ⟨_, rfl, rfl⟩

/-- A field with a parameter is put together from its joint value. -/
theorem builtFrom_of_mem {rules : ConditionalRules} {field : FieldRules}
    (member : field ∈ conditionalFields rules) :
    ∃ value, rules.merged.get? (.text field.name) = some value ∧
      BuiltFrom rules.branches (.text field.name) value field := by
  obtain ⟨⟨key, value⟩, entry, found⟩ := List.mem_filterMap.mp member
  have built := joint?_builtFrom found
  obtain rfl := built.key_eq
  exact ⟨value, OrderedMap.get?_of_mem entry, built⟩

/-! ## Reading rule sets -/

/-- The branch that an entry stands for, if there is one that can be read. -/
def RuleSetEntry.found? (entry : RuleSetEntry) : Option Branch := entry.branch?.toOption.join

/-- The branches of the entries that are well-formed, and the joint rule set as it stands. -/
def ConditionalSource.rules (source : ConditionalSource) : ConditionalRules :=
  ⟨source.ruleSets.filterMap RuleSetEntry.found?, source.merged⟩

/-- Rule sets can be read, and the tokens of the fields that they mention can be written. -/
structure ConditionalSource.Written (source : ConditionalSource) : Prop where
  ruleSets : ∀ entry ∈ source.ruleSets, entry.branch?.isOk = true
  branches : ∀ b ∈ source.rules.branches, b.rules.Written
  merged : ∀ entry ∈ source.merged.entries, entry.1.inputName?.isSome = true →
    Branch.mentions source.rules.branches entry.1 ≠ [] → entry.2.writable = true

instance (source : ConditionalSource) : Decidable source.Written :=
  decidable_of_iff (_ ∧ _ ∧ _)
    ⟨fun ⟨ruleSets, branches, merged⟩ => ⟨ruleSets, branches, merged⟩,
      fun written => ⟨written.ruleSets, written.branches, written.merged⟩⟩

namespace BranchTokens

/-- The tokens of the fields of a branch, where they can be written. -/
def writtenFields (entries : List (Key × Value)) : List (String × List Token) :=
  entries.filterMap fun (key, value) => key.inputName?.map fun name => (name, value.tokenList)

/-- The tokens of a branch, where they can be written. -/
def written (b : Branch) : BranchTokens := ⟨b.conditions, writtenFields b.rules.entries⟩

theorem field?_of_writable {key : Key} {value : Value}
    (writable : key.inputName?.isSome = true → value.writable = true) :
    field? key value = .ok (key.inputName?.map fun name => (name, value.tokenList)) := by
  unfold field?
  cases named : key.inputName? with
  | none => rfl
  | some name =>
    simp only [Value.tokens_of_writable (writable (by rw [named]; rfl))]
    rfl

theorem ofBranch_of_written {b : Branch} (written' : b.rules.Written) :
    ofBranch b = .ok (written b) := by
  have fields : (b.rules.entries.filterMapM fun (key, value) => field? key value) =
      .ok (writtenFields b.rules.entries) :=
    filterMapM_eq_ok fun entry member => field?_of_writable (written' entry member)
  rw [ofBranch, fields]
  rfl

theorem written_of_ofBranch {b : Branch} {tokens : BranchTokens}
    (read : ofBranch b = .ok tokens) : b.rules.Written := by
  obtain ⟨fields, read, -⟩ := exists_of_bind_ok read
  intro entry member input
  obtain ⟨found, own⟩ := ok_of_filterMapM read entry member
  obtain ⟨name, named⟩ := Option.isSome_iff_exists.mp input
  simp only [field?, named] at own
  obtain ⟨tokens, own, -⟩ := exists_of_bind_ok own
  exact Value.writable_of_tokens own

theorem lookup_writtenFields (name : String) (entries : List (Key × Value)) :
    (writtenFields entries).lookup name =
      if FieldName.isInput name then (OrderedMap.find? (.text name) entries).map Value.tokenList
      else none := by
  induction entries with
  | nil => simp [writtenFields, OrderedMap.find?]
  | cons entry rest ih =>
    obtain ⟨key, value⟩ := entry
    cases named : key.inputName? with
    | none =>
      have other : FieldName.isInput name = true → key ≠ .text name := fun input same => by
        rw [inputName?_eq_some.mpr ⟨same, input⟩] at named
        cases named
      have skipped : writtenFields ((key, value) :: rest) = writtenFields rest := by
        simp only [writtenFields, List.filterMap_cons, named, Option.map_none]
      rw [skipped, ih, OrderedMap.find?]
      split
      · rename_i input
        rw [if_neg (other input)]
      · rfl
    | some name' =>
      obtain ⟨rfl, input⟩ := inputName?_eq_some.mp named
      have taken : writtenFields ((Key.text name', value) :: rest) =
          (name', value.tokenList) :: writtenFields rest := by
        simp only [writtenFields, List.filterMap_cons, named, Option.map_some]
      rw [taken, List.lookup_cons, OrderedMap.find?, ih]
      by_cases same : name = name'
      · subst same
        simp [input]
      · have apart : Key.text name' ≠ Key.text name := fun equal => same (Key.text.inj equal).symm
        rw [if_neg apart, beq_eq_false_iff_ne.mpr same]

/-- Branches mention a field with its tokens if it is a field of the request at all. -/
theorem mentions_written (branches : List Branch) (name : String) :
    mentions (branches.map written) name =
      if FieldName.isInput name then Branch.mentions branches (.text name) else [] := by
  unfold mentions Branch.mentions
  rw [List.filterMap_map]
  split
  · rename_i input
    refine List.filterMap_congr fun b _ => ?_
    rw [Function.comp_apply, written, lookup_writtenFields, if_pos input, Option.map_map]
    rfl
  · rename_i other
    refine List.filterMap_eq_nil_iff.mpr fun b _ => ?_
    rw [Function.comp_apply, written, lookup_writtenFields, if_neg other, Option.map_none]

end BranchTokens

namespace RuleSetEntry

/-- The tokens of the branch that an entry stands for, where they can be written. -/
theorem tokens?_of_written {entry : RuleSetEntry} (read : entry.branch?.isOk = true)
    (written : ∀ b, entry.found? = some b → b.rules.Written) :
    entry.tokens? = .ok (entry.found?.map BranchTokens.written) := by
  unfold found? at written ⊢
  unfold tokens?
  cases found : entry.branch? with
  | error fault =>
    rw [found] at read
    cases read
  | ok b? =>
    rw [found] at written
    cases b? with
    | none => rfl
    | some b =>
      change (do return some (← BranchTokens.ofBranch b) : Except Fault _) = _
      rw [BranchTokens.ofBranch_of_written (written b rfl)]
      rfl

theorem written_of_tokens? {entry : RuleSetEntry} {tokens : Option BranchTokens}
    (read : entry.tokens? = .ok tokens) :
    entry.branch?.isOk = true ∧ ∀ b, entry.found? = some b → b.rules.Written := by
  obtain ⟨b?, found, read⟩ := exists_of_bind_ok read
  unfold found?
  rw [found]
  refine ⟨rfl, fun b same => ?_⟩
  obtain rfl : b? = some b := same
  obtain ⟨tokens, read, -⟩ := exists_of_bind_ok read
  exact BranchTokens.written_of_ofBranch read

end RuleSetEntry

namespace FieldRules

variable {branches : List Branch} {key : Key} {value : Value}

/-- What is put together for a key of a joint rule set whose value can be written where it is
needed. -/
theorem ofBranches?_of_writable
    (writable : key.inputName?.isSome = true → Branch.mentions branches key ≠ [] →
      value.writable = true) :
    ofBranches? (branches.map BranchTokens.written) key value =
      .ok (joint? branches key value) := by
  unfold ofBranches? joint?
  cases key with
  | text name =>
    simp only [Key.name?, Key.inputName?, Option.filter_some, BranchTokens.mentions_written]
    cases input : FieldName.isInput name with
    | false => rfl
    | true =>
      simp only [if_true, Option.bind_some, List.length_map]
      cases mentioned : (Branch.mentions branches (.text name)).isEmpty with
      | true => rfl
      | false =>
        have named : (Key.text name).inputName?.isSome = true := by
          rw [inputName?_eq_some.mpr ⟨rfl, input⟩]
          rfl
        have read := Value.tokens_of_writable
          (writable named (List.isEmpty_eq_false_iff.mp mentioned))
        simp only [read]
        rfl
  | number n | bool b | null => rfl

theorem writable_of_ofBranches?
    (read : (ofBranches? (branches.map BranchTokens.written) key value).isOk = true)
    (input : key.inputName?.isSome = true) (mentioned : Branch.mentions branches key ≠ []) :
    value.writable = true := by
  obtain ⟨name, named⟩ := Option.isSome_iff_exists.mp input
  obtain ⟨rfl, usable⟩ := inputName?_eq_some.mp named
  have filled : (Branch.mentions branches (.text name)).isEmpty = false :=
    List.isEmpty_eq_false_iff.mpr mentioned
  simp only [ofBranches?, Key.name?, BranchTokens.mentions_written, usable, if_true, filled,
    Bool.false_eq_true, if_false] at read
  rwa [← value.isOk_tokens, ← isOk_map]

theorem joint_of_ofBranches? {field? : Option FieldRules}
    (read : ofBranches? (branches.map BranchTokens.written) key value = .ok field?) :
    joint? branches key value = field? := by
  have ended : (ofBranches? (branches.map BranchTokens.written) key value).isOk = true := by
    rw [read]
    rfl
  have writable := writable_of_ofBranches? ended
  exact Except.ok.inj ((ofBranches?_of_writable writable).symm.trans read)

end FieldRules

namespace Parameter

variable {source : ConditionalSource} {origin : Origin} {ps : List Parameter}

theorem tokens_of_ruleSets (read : ∀ entry ∈ source.ruleSets, entry.branch?.isOk = true)
    (written : ∀ b ∈ source.rules.branches, b.rules.Written) :
    source.ruleSets.filterMapM RuleSetEntry.tokens? =
      .ok (source.rules.branches.map BranchTokens.written) := by
  rw [ConditionalSource.rules, List.map_filterMap]
  refine filterMapM_eq_ok fun entry member => ?_
  refine RuleSetEntry.tokens?_of_written (read entry member) fun b found => ?_
  exact written b (List.mem_filterMap.mpr ⟨entry, member, found⟩)

/-- Rule sets that can be read and written have the parameters of the fields that the branches
mention. -/
theorem ofConditionalSource_of_written (written : source.Written) (origin : Origin) :
    ofConditionalSource source origin = ofFields (conditionalFields source.rules) origin := by
  unfold ofConditionalSource
  rw [tokens_of_ruleSets written.ruleSets written.branches]
  exact ofEntries_eq (fun entry member => FieldRules.ofBranches?_of_writable
    (written.merged entry member)) origin

/-- Rule sets that can be read are well-formed branches with tokens that can be written. -/
theorem written_of_tokens {branches : List BranchTokens}
    (read : source.ruleSets.filterMapM RuleSetEntry.tokens? = .ok branches) :
    (∀ entry ∈ source.ruleSets, entry.branch?.isOk = true) ∧
      (∀ b ∈ source.rules.branches, b.rules.Written) ∧
      branches = source.rules.branches.map BranchTokens.written := by
  have each := fun entry member =>
    RuleSetEntry.written_of_tokens? (ok_of_filterMapM read entry member).choose_spec
  have ruleSets : ∀ entry ∈ source.ruleSets, entry.branch?.isOk = true :=
    fun entry member => (each entry member).1
  have written : ∀ b ∈ source.rules.branches, b.rules.Written := fun b member => by
    obtain ⟨entry, there, found⟩ := List.mem_filterMap.mp member
    exact (each entry there).2 b found
  rw [tokens_of_ruleSets ruleSets written] at read
  exact ⟨ruleSets, written, (Except.ok.inj read).symm⟩

/-- Rule sets that have parameters can be read and written. -/
theorem written_of_ofConditionalSource (yields : (ofConditionalSource source origin).Yields ps) :
    source.Written := by
  obtain ⟨branches, read, yields⟩ := Analysis.yields_bind yields
  obtain ⟨ruleSets, written, rfl⟩ := written_of_tokens (Analysis.yields_except read)
  have readable := readable_of_ofEntries yields
  exact ⟨ruleSets, written, fun entry member => FieldRules.writable_of_ofBranches?
    (readable _ (List.mem_map_of_mem member))⟩

theorem fields_of_ofConditionalSource (yields : (ofConditionalSource source origin).Yields ps) :
    (ofFields (conditionalFields source.rules) origin).Yields ps := by
  rwa [← ofConditionalSource_of_written (written_of_ofConditionalSource yields)]

end Parameter

/-- The branches of a source that branches were handed over to are these branches. -/
theorem ConditionalSource.rules_ofRules (found : ConditionalRules) :
    (ofRules found).rules = found := by
  simp only [ofRules, rules, List.filterMap_map]
  exact congrArg (fun branches => ConditionalRules.mk branches found.merged)
    List.filterMap_some

/-- Branches that can be written are read and written with the rule set that joins them. -/
theorem ConditionalSource.written_ofRules {branches : List Branch}
    (writable : ∀ b ∈ branches, b.Writable) :
    (ofRules ⟨branches, Branch.joint branches⟩).Written where
  ruleSets entry member := by
    obtain ⟨b, -, rfl⟩ := List.mem_map.mp member
    rfl
  branches b member := by
    rw [rules_ofRules] at member
    exact fun entry own _ => writable b member entry own
  merged entry member _ _ := by
    have joint := OrderedMap.get?_of_mem member
    exact Value.writable_of_tokens (Branch.tokens_of_get?_joint joint)

theorem Parameter.fields_of_ofConditionalRules {rules : ConditionalRules} {origin : Origin}
    {ps : List Parameter} (yields : (ofConditionalRules rules origin).Yields ps) :
    (ofFields (conditionalFields rules) origin).Yields ps := by
  have fields := fields_of_ofConditionalSource yields
  rwa [ConditionalSource.rules_ofRules] at fields

theorem fields_of_conditionalSource {source : ConditionalSource} {origin : Origin}
    {ps : List Parameter} (yields : (Parameter.ofConditionalSource source origin).Yields ps) :
    ∃ mains, ps = mains.flatMap Parameter.withConfirmation ∧
      List.Forall₂ Describes (conditionalFields source.rules) mains :=
  parameters_of_fields (Parameter.fields_of_ofConditionalSource yields)

theorem fields_of_conditionalRules {rules : ConditionalRules} {origin : Origin}
    {ps : List Parameter} (yields : (Parameter.ofConditionalRules rules origin).Yields ps) :
    ∃ mains, ps = mains.flatMap Parameter.withConfirmation ∧
      List.Forall₂ Describes (conditionalFields rules) mains :=
  parameters_of_fields (Parameter.fields_of_ofConditionalRules yields)

end RequestSchema
