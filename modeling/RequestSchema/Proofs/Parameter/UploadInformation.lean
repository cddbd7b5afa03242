import RequestSchema.Proofs.Parameter.Conditional

/-!
# Uploads tell their constraints

A parameter has the type of a file exactly when it tells the constraints on its files,
unless it is a confirmation: that copies the type of its field and not the constraints.

* `informed_or_confirmation`: every parameter that is built tells the constraints on its
  files, or confirms an upload that does;
* `confirmedUpload_uninformed`: a confirmed upload has a confirmation that is a file and
  tells nothing.
-/
namespace RequestSchema

/-- The parameter tells the constraints on files exactly when it is one. -/
def Parameter.Informed (p : Parameter) : Prop := p.upload ≠ none ↔ p.type = .file

def Parameter.isConfirmed (p : Parameter) : Bool := Token.has ["confirmed"] p.tokens

namespace Parameter

theorem withConfirmation_of_confirmed {p : Parameter} (confirmed : p.isConfirmed = true) :
    p.withConfirmation = [p, p.confirmation] := if_pos confirmed

theorem withConfirmation_of_unconfirmed {p : Parameter} (unconfirmed : p.isConfirmed = false) :
    p.withConfirmation = [p] := if_neg (Bool.not_eq_true _ ▸ unconfirmed)

/-- A parameter of a field is that of the field itself or of its confirmation. -/
theorem mem_withConfirmation {p q : Parameter} :
    q ∈ p.withConfirmation ↔ q = p ∨ p.isConfirmed = true ∧ q = p.confirmation := by
  cases confirmed : p.isConfirmed with
  | true => simp [withConfirmation_of_confirmed confirmed]
  | false => simp [withConfirmation_of_unconfirmed confirmed]

theorem name_same (field : String) : (Token.rule ("same:" ++ field)).name = "same" := by
  have cut : Text.cutChars ':' ("same:" ++ field).toList =
      some (['s', 'a', 'm', 'e'], field.toList) := by
    simp [Text.cutChars]
  simp only [Token.name, Text.cut?, cut, Option.map_some, Option.getD_some]
  decide

/-- A confirmation is not confirmed again. -/
theorem isConfirmed_confirmation (p : Parameter) : p.confirmation.isConfirmed = false := by
  have required : (Token.rule "required").name = "required" := by decide
  unfold isConfirmed confirmation Token.has
  cases p.required <;> simp [name_same, required]

theorem informed_of_type_ne {p : Parameter} (plain : p.type ≠ .file) :
    p.confirmation.Informed := by
  have untold : p.confirmation.upload = none := rfl
  constructor
  · intro told
    exact absurd untold told
  · intro type
    exact absurd type plain

theorem not_informed_of_type_eq {p : Parameter} (file : p.type = .file) :
    ¬ p.confirmation.Informed := fun informed => informed.mpr file rfl

end Parameter

/-! ## From fields to parameters -/

/-- Only an upload rule makes a field a file: no other rule does, and no enumeration. -/
theorem typeOf_ne_file (tokens : List Token) (enumeration : Option Enumeration) :
    FieldRules.typeOf tokens enumeration ≠ .file := by
  have listed : (enumeration.map Enumeration.fieldType).getD .string ≠ .file := by
    cases enumeration with
    | none => simp
    | some e =>
      rw [Option.map_some, Option.getD_some, Enumeration.fieldType]
      split <;> simp
  unfold FieldRules.typeOf FieldType.ofTokens
  repeat' split
  all_goals first | exact listed | simp

theorem informed_of_parameter {field : FieldRules} {origin : Origin} {p : Parameter}
    (yields : (field.parameter origin).Yields p) : p.Informed := by
  rcases parameter_cases yields with ⟨upload, _, rfl⟩ | ⟨_, _, _, _, enumeration, rfl, -, -, -, rfl⟩
  · simp [Parameter.Informed]
  · simp [Parameter.Informed, typeOf_ne_file]

/-- The parameters of some fields, without their confirmations, are informed. -/
theorem informed_mains {fields : List FieldRules} {origin : Origin} {ps : List Parameter}
    (yields : (Parameter.ofFields fields origin).Yields ps) :
    ∃ mains : List Parameter, ps = mains.flatMap Parameter.withConfirmation ∧
      ∀ p ∈ mains, p.Informed := by
  obtain ⟨mains, published, each⟩ := mains_of_fields yields
  refine ⟨mains, published, fun p member => ?_⟩
  obtain ⟨field, -, built⟩ := exists_left_of_mem each p member
  exact informed_of_parameter built

/-- What the parameters of some fields tell of their files. -/
structure Parameter.UploadsTold (ps : List Parameter) : Prop where
  /-- only the confirmation of an upload does not tell the constraints on its files -/
  told : ∀ p ∈ ps, p.Informed ∨
    ∃ q ∈ ps, q.type = .file ∧ q.upload ≠ none ∧ q.isConfirmed = true ∧ p = q.confirmation
  /-- all of them tell the constraints exactly when no upload is confirmed -/
  all_told : (∀ p ∈ ps, p.Informed) ↔ ∀ p ∈ ps, p.type = .file → p.isConfirmed = false

theorem uploadsTold_of_informed {mains : List Parameter} (informed : ∀ p ∈ mains, p.Informed) :
    Parameter.UploadsTold (mains.flatMap Parameter.withConfirmation) := by
  have main_mem : ∀ p ∈ mains, p ∈ mains.flatMap Parameter.withConfirmation := fun p member =>
    List.mem_flatMap.mpr ⟨p, member, Parameter.mem_withConfirmation.mpr (.inl rfl)⟩
  constructor
  · intro p member
    obtain ⟨main, there, own⟩ := List.mem_flatMap.mp member
    rcases Parameter.mem_withConfirmation.mp own with rfl | ⟨confirmed, rfl⟩
    · exact .inl (informed p there)
    · by_cases file : main.type = .file
      · have told := (informed main there).mpr file
        exact .inr ⟨main, main_mem main there, file, told, confirmed, rfl⟩
      · exact .inl (Parameter.informed_of_type_ne file)
  · constructor
    · intro all p member file
      obtain ⟨main, there, own⟩ := List.mem_flatMap.mp member
      rcases Parameter.mem_withConfirmation.mp own with rfl | ⟨confirmed, rfl⟩
      · cases confirmed : p.isConfirmed with
        | false => rfl
        | true =>
          have twin : p.confirmation ∈ mains.flatMap Parameter.withConfirmation :=
            List.mem_flatMap.mpr
              ⟨p, there, Parameter.mem_withConfirmation.mpr (.inr ⟨confirmed, rfl⟩)⟩
          exact absurd (all _ twin) (Parameter.not_informed_of_type_eq file)
      · exact main.isConfirmed_confirmation
    · intro unconfirmed p member
      obtain ⟨main, there, own⟩ := List.mem_flatMap.mp member
      rcases Parameter.mem_withConfirmation.mp own with rfl | ⟨confirmed, rfl⟩
      · exact informed p there
      · apply Parameter.informed_of_type_ne
        intro file
        have unasked := unconfirmed main (main_mem main there) file
        rw [confirmed] at unasked
        cases unasked

/-- Whatever parameters are built from, a rule set or branches with their joint rule set:
a parameter tells the constraints on its files exactly when it is a file, unless it
confirms an upload; so all do exactly when no upload is confirmed. -/
theorem informed_or_confirmation {origin : Origin} {ps : List Parameter}
    (built : (∃ rules, (Parameter.ofRuleSet rules origin).Yields ps) ∨
      ∃ rules, (Parameter.ofConditionalRules rules origin).Yields ps) :
    Parameter.UploadsTold ps := by
  rcases built with ⟨rules, yields⟩ | ⟨rules, yields⟩
  · obtain ⟨mains, rfl, informed⟩ := informed_mains (Parameter.fields_of_ofRuleSet yields)
    exact uploadsTold_of_informed informed
  · obtain ⟨mains, rfl, informed⟩ :=
      informed_mains (Parameter.fields_of_ofConditionalRules yields)
    exact uploadsTold_of_informed informed

/-- An image that is also said to be an integer, and a confirmed password. -/
def portraitRules : RuleSet :=
  .ofList [(.text "portrait", .text "required|image|integer|max:2048"),
    (.text "password", .text "string|confirmed")]

theorem portraitRules_told :
    ∃ ps, ((Parameter.ofRuleSet portraitRules {}).run false {}).result = .ok ps ∧
      ps.map (fun p => (p.name, p.isUpload, p.upload.isSome)) =
        [("portrait", true, true), ("password", false, false),
          ("password_confirmation", false, false)] ∧
      Parameter.UploadsTold ps := by
  obtain ⟨ps, returned, published⟩ := exists_ok_of_any
    (show (((Parameter.ofRuleSet portraitRules {}).run false {}).result.toOption.any fun ps =>
      ps.map (fun p => (p.name, p.isUpload, p.upload.isSome)) =
        [("portrait", true, true), ("password", false, false),
          ("password_confirmation", false, false)]) = true by decide +kernel)
  exact ⟨ps, returned, of_decide_eq_true published,
    informed_or_confirmation (.inl ⟨_, false, {}, returned⟩)⟩

/-- A confirmed upload. -/
def confirmedUpload : RuleSet := .ofList [(.text "avatar", .text "file|confirmed")]

/-- The confirmation of an upload is a file without constraints. -/
theorem confirmedUpload_uninformed :
    ∃ ps, ((Parameter.ofRuleSet confirmedUpload {}).run false {}).result = .ok ps ∧
      ∃ p ∈ ps, p.name = "avatar_confirmation" ∧ ¬ (p.upload ≠ none ↔ p.type = .file) := by
  obtain ⟨ps, returned, published⟩ := exists_ok_of_any
    (show (((Parameter.ofRuleSet confirmedUpload {}).run false {}).result.toOption.any fun ps =>
      ps.any fun p => p.name = "avatar_confirmation" && p.type = .file && p.upload.isNone) = true
      by decide +kernel)
  simp only [List.any_eq_true, Bool.and_eq_true, decide_eq_true_eq, Option.isNone_iff_eq_none]
    at published
  obtain ⟨p, member, ⟨name, file⟩, untold⟩ := published
  exact ⟨ps, returned, p, member, name, by simp [file, untold]⟩

end RequestSchema
