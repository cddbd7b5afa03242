import Mathlib.Data.List.Nodup
import Mathlib.Data.List.Pairwise
import RequestSchema.Proofs.Parameter.UploadInformation

/-!
# Names of parameters

Fields have different names, and so have the confirmations of different fields. A field
can still be declared under the name that the confirmation of another one gets, and then
both are published.

* `distinct_names_iff`: the parameters of a rule set or of branches have different names
  exactly when no confirmed field has a field beside it with the name of its confirmation;
* `declaredConfirmation_repeats`: a confirmation that is declared as well is published twice.
-/
namespace RequestSchema

namespace FieldRules

def isConfirmed (field : FieldRules) : Bool := Token.has ["confirmed"] field.tokens

def confirmationName (field : FieldRules) : String := field.name ++ "_confirmation"

def publishedNames (field : FieldRules) : List String :=
  field.name :: if field.isConfirmed then [field.confirmationName] else []

theorem mem_publishedNames {field : FieldRules} {name : String} :
    name ∈ field.publishedNames ↔
      name = field.name ∨ field.isConfirmed = true ∧ name = field.confirmationName := by
  cases confirmed : field.isConfirmed <;> simp [publishedNames, confirmed]

theorem confirmationName_ne (field : FieldRules) : field.confirmationName ≠ field.name := by
  intro same
  have lengths := congrArg String.length same
  have suffix : "_confirmation".length = 13 := by decide
  rw [confirmationName, String.length_append, suffix] at lengths
  omega

theorem name_eq_of_confirmationName {field other : FieldRules}
    (same : field.confirmationName = other.confirmationName) : field.name = other.name := by
  have chars := congrArg String.toList same
  simp only [confirmationName, String.toList_append] at chars
  exact String.toList_inj.mp (List.append_cancel_right chars)

theorem nodup_publishedNames (field : FieldRules) : field.publishedNames.Nodup := by
  unfold publishedNames
  cases field.isConfirmed with
  | false => simp
  | true => simpa using field.confirmationName_ne.symm

end FieldRules

/-- No confirmed field has a field beside it with the name of its confirmation. -/
def Unambiguous (fields : List FieldRules) : Prop :=
  ∀ field ∈ fields, field.isConfirmed = true → ∀ other ∈ fields,
    other.name ≠ field.confirmationName

/-- Fields with different names are published under different names, unless one of them is declared
as the confirmation of another. -/
theorem nodup_publishedNames_iff {fields : List FieldRules}
    (distinct : (fields.map FieldRules.name).Nodup) :
    (fields.flatMap FieldRules.publishedNames).Nodup ↔ Unambiguous fields := by
  have names : fields.Pairwise fun field other => field.name ≠ other.name :=
    List.pairwise_map.mp distinct
  rw [List.nodup_flatMap]
  constructor
  · rintro ⟨-, apart⟩ field member confirmed other there same
    have differ : field ≠ other := by
      rintro rfl
      exact field.confirmationName_ne same.symm
    have symmetric : Std.Symm (Function.onFun List.Disjoint FieldRules.publishedNames) :=
      ⟨fun _ _ disjoint _ there here => disjoint here there⟩
    have disjoint := apart.forall member there differ
    exact disjoint (FieldRules.mem_publishedNames.mpr (.inr ⟨confirmed, rfl⟩))
      (FieldRules.mem_publishedNames.mpr (.inl same.symm))
  · intro unambiguous
    refine ⟨fun field _ => field.nodup_publishedNames, ?_⟩
    refine names.imp_of_mem fun {field other} member there differ => ?_
    intro name first second
    rcases FieldRules.mem_publishedNames.mp first with rfl | ⟨confirmed, rfl⟩ <;>
      rcases FieldRules.mem_publishedNames.mp second with same | ⟨confirmed', same⟩
    · exact differ same
    · exact unambiguous other there confirmed' field member same
    · exact unambiguous field member confirmed other there same.symm
    · exact differ (FieldRules.name_eq_of_confirmationName same)

/-! ## From fields to parameters -/

theorem names_withConfirmation {field : FieldRules} {p : Parameter}
    (describes : Describes field p) :
    p.withConfirmation.map Parameter.name = field.publishedNames := by
  have asks : p.isConfirmed = field.isConfirmed := by
    rw [Parameter.isConfirmed, FieldRules.isConfirmed, describes.tokens]
  cases confirmed : p.isConfirmed with
  | true =>
    rw [Parameter.withConfirmation_of_confirmed confirmed, FieldRules.publishedNames, ← asks,
      if_pos confirmed, ← describes.name, FieldRules.confirmationName, ← describes.name]
    rfl
  | false =>
    rw [Parameter.withConfirmation_of_unconfirmed confirmed, FieldRules.publishedNames, ← asks,
      confirmed, ← describes.name]
    rfl

theorem names_of_mains {fields : List FieldRules} {mains : List Parameter}
    (related : List.Forall₂ Describes fields mains) :
    (mains.flatMap Parameter.withConfirmation).map Parameter.name =
      fields.flatMap FieldRules.publishedNames := by
  induction related with
  | nil => rfl
  | cons first _ ih =>
    rw [List.flatMap_cons, List.map_append, names_withConfirmation first, ih, List.flatMap_cons]

/-- Fields that are taken from the entries of a map have different names. -/
theorem nodup_names_of_entries {entries : List (Key × Value)}
    (distinct : (entries.map Prod.fst).Nodup) {field? : Key × Value → Option FieldRules}
    (own : ∀ entry field, field? entry = some field → entry.1 = .text field.name) :
    ((entries.filterMap field?).map FieldRules.name).Nodup := by
  have keys : entries.Pairwise fun entry other => entry.1 ≠ other.1 := List.pairwise_map.mp distinct
  refine List.pairwise_map.mpr (List.pairwise_filterMap.mpr ?_)
  refine keys.imp fun {entry other} differ field found field' found' same => differ ?_
  rw [own entry field found, own other field' found', same]

theorem key_of_flat {key : Key} {value : Value} {field : FieldRules}
    (found : FieldRules.flat? key value = some field) : key = .text field.name := by
  obtain ⟨name, named, found⟩ := Option.bind_eq_some_iff.mp found
  unfold FieldRules.ofTokens? at found
  split at found
  · cases found
  · cases found
    exact (inputName?_eq_some.mp named).1

theorem nodup_flatFields (rules : RuleSet) : ((flatFields rules).map FieldRules.name).Nodup :=
  nodup_names_of_entries rules.distinct fun _ _ found => key_of_flat found

theorem nodup_conditionalFields (rules : ConditionalRules) :
    ((conditionalFields rules).map FieldRules.name).Nodup :=
  nodup_names_of_entries rules.merged.distinct fun _ _ found => (joint?_builtFrom found).key_eq

theorem names_of_ofFields {fields : List FieldRules} {origin : Origin} {ps : List Parameter}
    (yields : (Parameter.ofFields fields origin).Yields ps) :
    ps.map Parameter.name = fields.flatMap FieldRules.publishedNames := by
  obtain ⟨mains, rfl, related⟩ := parameters_of_fields yields
  exact names_of_mains related

/-- Whatever parameters are built from, a rule set or branches with their joint rule set:
their names are all different exactly when no confirmed field has a field beside it with
the name of its confirmation. -/
theorem distinct_names_iff {origin : Origin} {fields : List FieldRules} {ps : List Parameter}
    (built : (∃ rules, fields = flatFields rules ∧ (Parameter.ofRuleSet rules origin).Yields ps) ∨
      ∃ rules, fields = conditionalFields rules ∧
        (Parameter.ofConditionalRules rules origin).Yields ps) :
    (ps.map Parameter.name).Nodup ↔ Unambiguous fields := by
  rcases built with ⟨rules, rfl, yields⟩ | ⟨rules, rfl, yields⟩
  · rw [names_of_ofFields (Parameter.fields_of_ofRuleSet yields)]
    exact nodup_publishedNames_iff (nodup_flatFields rules)
  · rw [names_of_ofFields (Parameter.fields_of_ofConditionalRules yields)]
    exact nodup_publishedNames_iff (nodup_conditionalFields rules)

/-- A declared confirmation of another field, beside a confirmed password. -/
def passwordRules : RuleSet :=
  .ofList [(.text "password", .text "required|confirmed"),
    (.text "email_confirmation", .text "string")]

theorem passwordRules_distinct :
    ∃ ps, ((Parameter.ofRuleSet passwordRules {}).run false {}).result = .ok ps ∧
      ps.map Parameter.name = ["password", "password_confirmation", "email_confirmation"] ∧
      ((ps.map Parameter.name).Nodup ↔ Unambiguous (flatFields passwordRules)) := by
  obtain ⟨ps, returned, published⟩ := exists_ok_of_any
    (show (((Parameter.ofRuleSet passwordRules {}).run false {}).result.toOption.any fun ps =>
      ps.map Parameter.name =
        ["password", "password_confirmation", "email_confirmation"]) = true by decide +kernel)
  exact ⟨ps, returned, of_decide_eq_true published,
    distinct_names_iff (.inl ⟨_, rfl, false, {}, returned⟩)⟩

/-- A confirmed password whose confirmation has rules of its own. -/
def declaredConfirmation : RuleSet :=
  .ofList [(.text "password", .text "confirmed"),
    (.text "password_confirmation", .text "string")]

/-- A confirmation that is declared as well is published twice. -/
theorem declaredConfirmation_repeats :
    ∃ ps, ((Parameter.ofRuleSet declaredConfirmation {}).run false {}).result = .ok ps ∧
      ¬ (ps.map Parameter.name).Nodup := by
  obtain ⟨ps, returned, published⟩ := exists_ok_of_any
    (show (((Parameter.ofRuleSet declaredConfirmation {}).run false {}).result.toOption.any
      fun ps => ps.map Parameter.name =
        ["password", "password_confirmation", "password_confirmation"]) = true
      by decide +kernel)
  refine ⟨ps, returned, ?_⟩
  rw [of_decide_eq_true published]
  decide

end RequestSchema
