import RequestSchema.Proofs.Enumeration.Lookup
import RequestSchema.Proofs.Enumeration.Search
import RequestSchema.Proofs.Parameter.Conditional
import RequestSchema.Proofs.Rule.Measurable
import RequestSchema.Proofs.Rule.Readable

/-!
# Building returns

Looking an enumeration up returns unless a path on which it is looked for is too long for the system
(`Registry.reaches`). So the parameter of a field is built as soon as its tokens are readable and
its classes are reached (`FieldRules.parameter_returns`), and the parameters of such fields are
built one by one, from whatever data the fields come, if the tokens of the fields can be written
(`build_returns`). A field whose parameter cannot be built leaves those of the others unbuilt
(`ofFields_unbuilt`, `endlessLimit_stops`).
-/
namespace RequestSchema

open RequestSchema.Text Analysis

/-! ## Enumerations -/

/-- Classes are looked for in the same files. -/
structure Registry.SameFiles (r₀ r : Registry) : Prop where
  roots : r.roots = r₀.roots
  files : r.files = r₀.files

/-- Whether a class can be looked for: no path on which it could be declared is too long. -/
def Registry.reaches (r : Registry) (name : String) : Bool := (r.declaringFile? name).isOk

section

variable {r₀ : Registry}

theorem parse_returns (text : String) (label : Option String) :
    Returns r₀.SameFiles (fun _ => True) (Analysis.parse text label) := by
  unfold Analysis.parse
  refine returns_registry.bind fun r _ => ?_
  split
  · exact returns_pure trivial
  · exact (returns_emit _).bind fun _ _ => returns_pure trivial

theorem registerTree_returns (tree : Source.SourceTree) :
    Returns r₀.SameFiles (fun _ => True) (Analysis.registerTree tree) := by
  refine (returns_modify fun r same => ?_).bind fun _ _ => returns_pure trivial
  rw [Registry.registerTree_eq]
  exact ⟨same.roots, same.files⟩

/-- The search for a class that is reached returns, also when the file that declares it cannot be
parsed. -/
theorem enumeration?_returns {name : String}
    (reached : r₀.reaches (trimChar '\\' name) = true) :
    Returns r₀.SameFiles (fun _ => True) (Analysis.enumeration? name) := by
  have known (name : String) : Returns r₀.SameFiles (fun _ => True) (do
      return (← Analysis.registry).known.get? name : Analysis (Option Enumeration)) :=
    returns_registry.bind fun _ _ => returns_pure trivial
  unfold Analysis.enumeration?
  refine returns_registry.bind fun r same => ?_
  split
  · exact returns_pure trivial
  · split
    · exact returns_pure trivial
    · refine (returns_modify fun r same => ⟨same.roots, same.files⟩).bind fun _ _ => ?_
      have ends : Succeeds (r.declaringFile? (trimChar '\\' name)) := by
        rw [Registry.declaringFile?_congr same.roots same.files]
        exact succeeds_of_isOk reached
      refine (returns_except ends).bind fun file? _ => ?_
      split
      · exact returns_pure trivial
      · refine (parse_returns _ _).bind fun tree? _ => ?_
        cases tree? with
        | none => exact known _
        | some tree => exact (registerTree_returns tree).bind fun _ _ => known _

namespace EnumReference

variable {space : Option String} {aliases : OrderedMap String String}

/-- A name stands for one of its candidates. -/
theorem resolve_returns {name : String}
    (reached : ∀ full ∈ candidates space aliases name, r₀.reaches (trimChar '\\' full) = true) :
    Returns r₀.SameFiles (· ∈ candidates space aliases name) (resolve name space aliases) := by
  unfold candidates at reached ⊢
  unfold resolve
  simp only
  generalize bareName name = name at reached ⊢
  by_cases rooted : name.toList.head? = some '\\'
  · simp only [qualified?, if_pos rooted]
    exact returns_pure (List.mem_singleton_self _)
  · simp only [qualified?, if_neg rooted] at reached ⊢
    cases aliased : aliases.get? ((cut? '\\' name).getD (name, "")).1 with
    | some full =>
      simp only [Option.map_some]
      exact returns_pure (List.mem_singleton_self _)
    | none =>
      simp only [aliased, Option.map_none] at reached ⊢
      refine (enumeration?_returns (reached name List.mem_cons_self)).bind fun found _ => ?_
      split
      · exact returns_pure List.mem_cons_self
      · unfold local? at reached ⊢
        cases spaced : space.filter (!·.isEmpty) with
        | none => exact returns_pure List.mem_cons_self
        | some space =>
          have inside : ∀ full, full ∈ [trimChar '\\' space ++ "\\" ++ name] →
              full ∈ name :: [trimChar '\\' space ++ "\\" ++ name] :=
            fun full member => List.mem_cons_of_mem name member
          simp only [spaced, Option.map_some, Option.toList_some] at reached ⊢
          have candidate := inside _ (List.mem_singleton_self _)
          split
          · exact returns_pure candidate
          · refine (enumeration?_returns (reached _ candidate)).bind fun found _ => ?_
            split
            · exact returns_pure candidate
            · exact returns_pure List.mem_cons_self

theorem lookUp_returns {token : Token}
    (reached : ∀ name ∈ consulted space aliases token, r₀.reaches name = true) :
    Returns r₀.SameFiles (fun _ => True) (lookUp space aliases token) := by
  unfold lookUp
  unfold consulted at reached
  cases named : ofToken? token with
  | none => exact returns_pure trivial
  | some name =>
    rw [named] at reached
    have each : ∀ full ∈ candidates space aliases name, r₀.reaches (trimChar '\\' full) = true :=
      fun full member => reached _ (List.mem_map_of_mem member)
    exact (resolve_returns each).bind fun full member => enumeration?_returns (each full member)

end EnumReference

end

/-! ## Fields -/

namespace FieldRules

/-- Whether the rules of a field that is no upload ask for anything but a number with decimal
places. -/
def isIntegral (tokens : List Token) : Bool := FieldType.ofTokens tokens .string ≠ .number

/-- An enumeration does not make a field a number with decimal places. -/
theorem integral_typeOf (tokens : List Token) (enumeration : Option Enumeration) :
    decide (typeOf tokens enumeration ≠ .number) = isIntegral tokens := by
  have listed : ((enumeration.map Enumeration.fieldType).getD .string) ≠ .number := by
    cases enumeration with
    | none => decide
    | some e =>
      rw [Option.map_some, Option.getD_some, Enumeration.fieldType]
      split
      · decide
      · decide
  unfold typeOf isIntegral FieldType.ofTokens
  congr 1
  repeat' split
  all_goals first
    | rfl
    | simp only [ne_eq, listed, reduceCtorEq]

/-- What is needed of the tokens of a field for its parameter to be built. -/
structure Readable (room : Int) (field : FieldRules) : Prop where
  upload : Upload.isUpload field.tokens = true → ∀ t ∈ field.tokens, t.Measurable
  other : Upload.isUpload field.tokens = false →
    ∀ t ∈ field.tokens, t.Readable room (isIntegral field.tokens)

instance (room : Int) (field : FieldRules) : Decidable (field.Readable room) :=
  decidable_of_iff (_ ∧ _)
    ⟨fun ⟨upload, other⟩ => ⟨upload, other⟩, fun readable => ⟨readable.upload, readable.other⟩⟩

section

variable {I : Registry → Prop} {field : FieldRules} {origin : Origin}
  (looked : ∀ token ∈ field.tokens,
    Returns I (fun _ => True) (EnumReference.lookUp origin.space origin.aliases token))

include looked

theorem enumeration?_returns : Returns I (fun _ => True) (origin.enumeration? field.tokens) := by
  unfold Origin.enumeration?
  generalize field.tokens = tokens at looked
  induction tokens with
  | nil => exact returns_pure trivial
  | cons token rest ih =>
    refine (looked token List.mem_cons_self).bind fun found _ => ?_
    cases found with
    | some e => exact returns_pure trivial
    | none => exact ih fun t member => looked t (List.mem_cons_of_mem token member)

theorem describe_returns (type : FieldType) :
    Returns I (fun _ => True) (field.describe origin type) := by
  unfold describe
  split
  · exact returns_pure trivial
  · exact (enumeration?_returns looked).bind fun enumeration _ => returns_pure trivial

/-- The parameter of a readable field is built if looking its enumerations up returns. -/
theorem parameter_returns (readable : field.Readable origin.room) :
    Returns I (Describes field) (field.parameter origin) := by
  suffices built : Returns I (fun _ => True) (field.parameter origin) from
    built.imp fun _ _ yields => describes_of_parameter yields
  unfold parameter
  refine (enumeration?_returns looked).bind fun enumeration _ => ?_
  refine (returns_except (Upload.ofTokens?_ends _ readable.upload)).bind fun upload? found => ?_
  obtain ⟨asked, told⟩ := found
  cases upload? with
  | some upload =>
    have described := Description.ofUpload_ends field.name (told upload rfl)
      (origin.label? field.name)
    exact returns_except (described.bind fun text _ => ends_ok trivial)
  | none =>
    have tokens := readable.other asked.symm
    rw [← integral_typeOf field.tokens enumeration] at tokens
    refine (returns_except (boundsOf_ends tokens)).bind fun bounds _ => ?_
    refine (describe_returns looked _).bind fun description _ => ?_
    refine (returns_except (Example.ofField_ends _ _ _ tokens)).bind fun sample _ => ?_
    exact returns_pure trivial

end

/-- What is needed of a field for its parameter to be built from a registry: its tokens are
readable, and the classes for which they may stand are reached. -/
structure Buildable (origin : Origin) (r : Registry) (field : FieldRules) : Prop where
  readable : field.Readable origin.room
  reached : ∀ token ∈ field.tokens,
    ∀ name ∈ EnumReference.consulted origin.space origin.aliases token, r.reaches name = true

instance (origin : Origin) (r : Registry) (field : FieldRules) :
    Decidable (field.Buildable origin r) :=
  decidable_of_iff (_ ∧ _)
    ⟨fun ⟨readable, reached⟩ => ⟨readable, reached⟩,
      fun buildable => ⟨buildable.readable, buildable.reached⟩⟩

end FieldRules

/-! ## Rule sets and branches -/

/-- The parameters are those of some fields, one by one, each with its confirmation behind it if it
has one. -/
def PublishedFrom (fields : List FieldRules) (ps : List Parameter) : Prop :=
  ∃ mains, ps = mains.flatMap Parameter.withConfirmation ∧ List.Forall₂ Describes fields mains

/-- The parameters of fields that can be built are built. -/
theorem ofFields_returns {fields : List FieldRules} {origin : Origin} {r : Registry}
    (buildable : ∀ field ∈ fields, field.Buildable origin r) :
    Returns r.SameFiles (PublishedFrom fields) (Parameter.ofFields fields origin) := by
  have each := Returns.mapM fun field member =>
    FieldRules.parameter_returns (I := r.SameFiles) (fun token own =>
      EnumReference.lookUp_returns ((buildable field member).reached token own))
      (buildable field member).readable
  exact each.bind fun mains described => returns_pure ⟨mains, rfl, described⟩

/-- Where the parameter of one field cannot be built, no parameters are. -/
theorem ofFields_unbuilt {fields : List FieldRules} {field : FieldRules} {origin : Origin}
    (member : field ∈ fields) (unbuilt : ∀ p, ¬ (field.parameter origin).Yields p)
    (ps : List Parameter) : ¬ (Parameter.ofFields fields origin).Yields ps := by
  intro yields
  obtain ⟨mains, -, each⟩ := mains_of_fields yields
  have built : List.Forall₂ (fun p field => (field.parameter origin).Yields p) mains fields :=
    each.flip
  obtain ⟨p, -, yields⟩ := exists_left_of_mem built field member
  exact unbuilt p yields

/-- The rules in plain data; data that are no mapping have none. -/
def rulesOfData (data : Value) : RuleSet := data.entries?.getD .empty

/-- The rule sets in plain data; data that lack the rule sets or the joint one have none. -/
def ruleSetsOfData (data : Value) : ConditionalSource :=
  (ConditionalSource.ofValue? data).getD ⟨[], .empty⟩

theorem ofRuleData_eq (data : Value) (origin : Origin) :
    Parameter.ofRuleData data origin = Parameter.ofRuleSet (rulesOfData data) origin := by
  unfold Parameter.ofRuleData rulesOfData
  cases data.entries? with
  | none => rfl
  | some rules => rfl

theorem ofConditionalData_eq (data : Value) (origin : Origin) :
    Parameter.ofConditionalData data origin =
      Parameter.ofConditionalSource (ruleSetsOfData data) origin := by
  unfold Parameter.ofConditionalData ruleSetsOfData
  cases ConditionalSource.ofValue? data with
  | none => rfl
  | some source => rfl

/-- Whatever data are handed over as rules or as branches, and whatever branches have been found,
the parameters of all fields are built if the tokens of the fields can be written and the fields can
be built. -/
theorem build_returns (origin : Origin) (r : Registry) :
    (∀ data, (rulesOfData data).Written →
      (∀ field ∈ flatFields (rulesOfData data), field.Buildable origin r) →
      ∃ ps, ((Parameter.ofRuleData data origin).run false r).result = .ok ps ∧
        PublishedFrom (flatFields (rulesOfData data)) ps) ∧
    (∀ data, (ruleSetsOfData data).Written →
      (∀ field ∈ conditionalFields (ruleSetsOfData data).rules, field.Buildable origin r) →
      ∃ ps, ((Parameter.ofConditionalData data origin).run false r).result = .ok ps ∧
        PublishedFrom (conditionalFields (ruleSetsOfData data).rules) ps) ∧
    ∀ rules, (ConditionalSource.ofRules rules).Written →
      (∀ field ∈ conditionalFields rules, field.Buildable origin r) →
      ∃ ps, ((Parameter.ofConditionalRules rules origin).run false r).result = .ok ps ∧
        PublishedFrom (conditionalFields rules) ps := by
  have built {fields : List FieldRules}
      (buildable : ∀ field ∈ fields, field.Buildable origin r) :
      ∃ ps, ((Parameter.ofFields fields origin).run false r).result = .ok ps ∧
        PublishedFrom fields ps := by
    obtain ⟨ps, returned, published, -⟩ := ofFields_returns buildable r ⟨rfl, rfl⟩
    exact ⟨ps, returned, published⟩
  refine ⟨fun data written buildable => ?_, fun data written buildable => ?_,
    fun rules written buildable => ?_⟩
  · rw [ofRuleData_eq, Parameter.ofRuleSet_of_written written]
    exact built buildable
  · rw [ofConditionalData_eq, Parameter.ofConditionalSource_of_written written]
    exact built buildable
  · rw [Parameter.ofConditionalRules, Parameter.ofConditionalSource_of_written written,
      ConditionalSource.rules_ofRules]
    exact built buildable

/-- Rules with parameters that are missing, no numbers, infinite or beyond any integer type, rules
on an upload, and a class that is declared nowhere. -/
def carelessRules : Value :=
  .mapping [(.text "age", .text "integer|between:5|gt:99999999999999999999|lt:1e999,old|size|"),
    (.text "photo", .text "image|between:1e3,inf1|dimensions:min_width=,max_width=wide,ratio"),
    (.text "secret", .source "Password::min(8)"),
    (.text "nested", .list [.list [.number (.int 5)], .record [("type", .text "enum")],
      .enumClass "App\\None"]),
    (.number (.int 7), .object true (.error .missingParameter))]

/-- Rules of a price without end and of a name. -/
def carelessPrice : RuleSet :=
  .ofList [(.text "price", .text "numeric|decimal:2,4|max:1e999|confirmed"),
    (.text "name", .list [.text "required", .text "min:", .text "max:many", .null])]

/-- The rules of the price as plain data, in one branch next to data that are no branches. -/
def carelessBranches : Value :=
  .record [("rules_sets", .list [.record [("conditions", .null),
      ("rules", .mapping carelessPrice.entries)], .record [("rules", .null)], .null]),
    ("merged_rules", .mapping carelessPrice.entries)]

def carelessChoice : ConditionalRules :=
  ⟨[⟨[{ kind := .custom, expression := "$all" }], carelessPrice⟩, ⟨[], .empty⟩], carelessPrice⟩

/-- A directory for classes, with no files in it. -/
def emptyDirectory : Registry := { roots := .ofList [("App", "src")] }

theorem carelessRules_built :
    (∃ ps, ((Parameter.ofRuleData carelessRules {}).run false emptyDirectory).result = .ok ps ∧
      ps.map Parameter.name = ["age", "photo", "secret", "nested"]) ∧
    (∃ ps, ((Parameter.ofConditionalData carelessBranches {}).run false emptyDirectory).result =
        .ok ps ∧ ps.map Parameter.name = ["price", "price_confirmation", "name"]) ∧
    ∃ ps, ((Parameter.ofConditionalRules carelessChoice {}).run false emptyDirectory).result =
        .ok ps ∧ ps.map Parameter.name = ["price", "price_confirmation", "name"] := by
  obtain ⟨flat, conditional, branches⟩ := build_returns {} emptyDirectory
  obtain ⟨ps, built, -⟩ := flat carelessRules (by decide +kernel) (by decide +kernel)
  obtain ⟨ps', built', -⟩ := conditional carelessBranches (by decide +kernel) (by decide +kernel)
  obtain ⟨ps'', built'', -⟩ := branches carelessChoice (by decide +kernel) (by decide +kernel)
  refine ⟨⟨ps, built, ?_⟩, ⟨ps', built', ?_⟩, ps'', built'', ?_⟩
  · have named : ((Parameter.ofRuleData carelessRules {}).run false
        emptyDirectory).result.toOption.any
          (·.map Parameter.name == ["age", "photo", "secret", "nested"]) = true := by
      decide +kernel
    rw [built] at named
    exact eq_of_beq named
  · have named : ((Parameter.ofConditionalData carelessBranches {}).run false
        emptyDirectory).result.toOption.any
          (·.map Parameter.name == ["price", "price_confirmation", "name"]) = true := by
      decide +kernel
    rw [built'] at named
    exact eq_of_beq named
  · have named : ((Parameter.ofConditionalRules carelessChoice {}).run false
        emptyDirectory).result.toOption.any
          (·.map Parameter.name == ["price", "price_confirmation", "name"]) = true := by
      decide +kernel
    rw [built''] at named
    exact eq_of_beq named

/-- A required name next to an age whose least length is infinite. -/
def endlessLimit : Value := .record [("age", .text "min:1e999"), ("name", .text "required")]

/-- The name has a parameter by itself, but none is built for it next to the age. -/
theorem endlessLimit_stops :
    (flatFields (rulesOfData endlessLimit)).map FieldRules.name = ["age", "name"] ∧
      (¬ ∃ ps, ((Parameter.ofRuleData endlessLimit {}).run false {}).result = .ok ps) ∧
      ∃ ps, ((Parameter.ofRuleData (.record [("name", .text "required")]) {}).run false
        {}).result = .ok ps := by
  refine ⟨by decide +kernel, ?_, ?_⟩
  · rintro ⟨ps, returned⟩
    have stopped : ((Parameter.ofRuleData endlessLimit {}).run false {}).result.isOk = false := by
      decide +kernel
    rw [returned] at stopped
    cases stopped
  · exact exists_ok_of_isOk (by decide +kernel)

end RequestSchema
