import RequestSchema.Parameter.Build
import RequestSchema.Proofs.Analysis.Results
import RequestSchema.Proofs.Rule.Writable

/-!
# From fields to parameters

Building the parameters of some fields works on one field after another. What is known
of a field goes into its parameter as it is, and only confirmations are added
(`parameters_of_fields`).

The entries of a rule set are read while the parameters are built, and one whose tokens cannot be
written is a fault. Where there is none, the parameters are those of the fields that the rule set
has (`ofRuleSet_of_written`), and where parameters are returned there is none
(`written_of_ofRuleSet`).
-/
namespace RequestSchema

def Parameter.ofFields (fields : List FieldRules) (origin : Origin) : Analysis (List Parameter) := do
  let parameters ← fields.mapM fun field => field.parameter origin
  return parameters.flatMap withConfirmation

theorem Parameter.ofFields_cons (field : FieldRules) (rest : List FieldRules) (origin : Origin) :
    ofFields (field :: rest) origin =
      (do return (← field.parameter origin).withConfirmation ++ (← ofFields rest origin)) := by
  simp only [ofFields, List.mapM_cons, bind_assoc, pure_bind, List.flatMap_cons]

/-! ## The fields of a rule set -/

/-- The field of a rule set under a key, if it has a parameter. -/
def FieldRules.flat? (key : Key) (value : Value) : Option FieldRules :=
  key.inputName?.bind fun name => ofTokens? name value.tokenList

/-- The fields of a rule set that have parameters. -/
def flatFields (rules : RuleSet) : List FieldRules :=
  rules.entries.filterMap fun (key, value) => FieldRules.flat? key value

/-- The tokens of the fields of a rule set can be written. -/
def RuleSet.Written (rules : RuleSet) : Prop :=
  ∀ entry ∈ rules.entries, entry.1.inputName?.isSome = true → entry.2.writable = true

instance (rules : RuleSet) : Decidable rules.Written := inferInstanceAs (Decidable (∀ _ ∈ _, _))

/-- Entries that can all be read give the parameters of their fields. -/
theorem Parameter.ofEntries_eq {α : Type} {read : α → Except Fault (Option FieldRules)}
    {field? : α → Option FieldRules} {xs : List α} (each : ∀ x ∈ xs, read x = .ok (field? x))
    (origin : Origin) : ofEntries origin (xs.map read) = ofFields (xs.filterMap field?) origin := by
  induction xs with
  | nil => rfl
  | cons x rest ih =>
    have others := ih fun y member => each y (List.mem_cons_of_mem x member)
    rw [List.map_cons, each x List.mem_cons_self, List.filterMap_cons]
    cases field? x with
    | none => exact others
    | some field =>
      rw [ofFields_cons, ← others]
      rfl

/-- Where parameters are returned, every entry can be read. -/
theorem Parameter.readable_of_ofEntries {origin : Origin}
    {entries : List (Except Fault (Option FieldRules))} {ps : List Parameter}
    (yields : (ofEntries origin entries).Yields ps) : ∀ entry ∈ entries, entry.isOk = true := by
  induction entries generalizing ps with
  | nil => exact fun entry member => absurd member List.not_mem_nil
  | cons entry rest ih =>
    obtain ⟨field?, first, yields⟩ := Analysis.yields_bind yields
    rw [Analysis.yields_except first]
    refine List.forall_mem_cons.mpr ⟨rfl, ?_⟩
    cases field? with
    | none => exact ih yields
    | some field =>
      obtain ⟨p, -, yields⟩ := Analysis.yields_bind yields
      obtain ⟨others, later, -⟩ := Analysis.yields_bind yields
      exact ih later

theorem FieldRules.ofPair?_of_writable {key : Key} {value : Value}
    (writable : key.inputName?.isSome = true → value.writable = true) :
    ofPair? key value = .ok (flat? key value) := by
  unfold ofPair? flat?
  cases named : key.inputName? with
  | none => rfl
  | some name =>
    simp only [Value.tokens_of_writable (writable (by rw [named]; rfl))]
    rfl

theorem FieldRules.writable_of_ofPair? {key : Key} {value : Value}
    (read : (ofPair? key value).isOk = true) (input : key.inputName?.isSome = true) :
    value.writable = true := by
  obtain ⟨name, named⟩ := Option.isSome_iff_exists.mp input
  rw [← value.isOk_tokens]
  simp only [ofPair?, named] at read
  rwa [isOk_map] at read

theorem FieldRules.flat_of_ofPair? {key : Key} {value : Value} {field? : Option FieldRules}
    (read : ofPair? key value = .ok field?) : flat? key value = field? := by
  have ended : (ofPair? key value).isOk = true := by
    rw [read]
    rfl
  have writable := writable_of_ofPair? ended
  exact Except.ok.inj ((ofPair?_of_writable writable).symm.trans read)

/-- A rule set whose tokens can be written has the parameters of its fields. -/
theorem Parameter.ofRuleSet_of_written {rules : RuleSet} (written : rules.Written)
    (origin : Origin) : ofRuleSet rules origin = ofFields (flatFields rules) origin :=
  ofEntries_eq (fun entry member => FieldRules.ofPair?_of_writable (written entry member)) origin

/-- A rule set that has parameters can be written. -/
theorem Parameter.written_of_ofRuleSet {rules : RuleSet} {origin : Origin} {ps : List Parameter}
    (yields : (ofRuleSet rules origin).Yields ps) : rules.Written := by
  have readable := readable_of_ofEntries yields
  exact fun entry member => FieldRules.writable_of_ofPair?
    (readable _ (List.mem_map_of_mem member))

theorem Parameter.fields_of_ofRuleSet {rules : RuleSet} {origin : Origin} {ps : List Parameter}
    (yields : (ofRuleSet rules origin).Yields ps) :
    (ofFields (flatFields rules) origin).Yields ps := by
  rwa [← ofRuleSet_of_written (written_of_ofRuleSet yields)]

/-! ## Parameters -/

/-- A parameter has what was known of a field before. -/
structure Describes (field : FieldRules) (p : Parameter) : Prop where
  name : p.name = field.name
  tokens : p.tokens = field.tokens
  required : p.required = field.required
  conditionallyRequired : p.conditionallyRequired = field.conditionallyRequired
  conditionalRules : p.conditionalRules = field.conditionalRules

/-- The two ways to a parameter. That of an upload needs a description only; any other one
has the type of its tokens, the bounds that they state for it, and a description and an
example for it. -/
theorem parameter_cases {field : FieldRules} {origin : Origin} {p : Parameter}
    (yields : (field.parameter origin).Yields p) :
    (∃ upload description,
      p = { name := field.name
            type := .file
            format := some .binary
            required := field.required
            conditionallyRequired := field.conditionallyRequired
            conditionalRules := field.conditionalRules
            tokens := field.tokens
            description
            upload := some upload }) ∨
    ∃ type bounds description sample enumeration,
      type = FieldRules.typeOf field.tokens enumeration ∧
      FieldRules.boundsOf type field.tokens = .ok bounds ∧
      (field.describe origin type).Yields description ∧
      Example.ofField origin.room field.name field.tokens type (Format.ofTokens? field.tokens)
          enumeration =
        .ok sample ∧
      p = { name := field.name
            type
            format := Format.ofTokens? field.tokens
            required := field.required
            conditionallyRequired := field.conditionallyRequired
            conditionalRules := field.conditionalRules
            tokens := field.tokens
            description
            example? := sample
            pattern := Pattern.ofTokens? field.tokens
            bounds
            enumeration } := by
  unfold FieldRules.parameter at yields
  obtain ⟨enumeration, -, yields⟩ := Analysis.yields_bind yields
  obtain ⟨upload, -, yields⟩ := Analysis.yields_bind yields
  cases upload with
  | some upload =>
    have built := Analysis.yields_except yields
    unfold FieldRules.uploadParameter at built
    obtain ⟨description, -, built⟩ := exists_of_bind_ok built
    cases built
    exact .inl ⟨upload, description, rfl⟩
  | none =>
    obtain ⟨bounds, stated, yields⟩ := Analysis.yields_bind yields
    obtain ⟨description, described, yields⟩ := Analysis.yields_bind yields
    obtain ⟨sample, shown, yields⟩ := Analysis.yields_bind yields
    exact .inr ⟨_, bounds, description, sample, enumeration, rfl, Analysis.yields_except stated,
      described, Analysis.yields_except shown, Analysis.yields_pure yields⟩

theorem describes_of_parameter {field : FieldRules} {origin : Origin} {p : Parameter}
    (yields : (field.parameter origin).Yields p) : Describes field p := by
  rcases parameter_cases yields with ⟨_, _, rfl⟩ | ⟨_, _, _, _, _, -, -, -, -, rfl⟩
  · exact ⟨rfl, rfl, rfl, rfl, rfl⟩
  · exact ⟨rfl, rfl, rfl, rfl, rfl⟩

/-- The parameters of some fields are built from one field after another. -/
theorem mains_of_fields {fields : List FieldRules} {origin : Origin} {ps : List Parameter}
    (yields : (Parameter.ofFields fields origin).Yields ps) :
    ∃ mains, ps = mains.flatMap Parameter.withConfirmation ∧
      List.Forall₂ (fun field p => (field.parameter origin).Yields p) fields mains := by
  obtain ⟨mains, each, yields⟩ := Analysis.yields_bind yields
  exact ⟨mains, Analysis.yields_pure yields, Analysis.yields_mapM each⟩

/-- Parameters are those of their fields in order, each with its confirmation behind it if
it has one. -/
theorem parameters_of_fields {fields : List FieldRules} {origin : Origin} {ps : List Parameter}
    (yields : (Parameter.ofFields fields origin).Yields ps) :
    ∃ mains, ps = mains.flatMap Parameter.withConfirmation ∧
      List.Forall₂ Describes fields mains := by
  obtain ⟨mains, published, each⟩ := mains_of_fields yields
  exact ⟨mains, published, each.imp fun _ _ => describes_of_parameter⟩

theorem exists_left_of_mem {α β : Type} {R : α → β → Prop} {xs : List α} {ys : List β}
    (related : List.Forall₂ R xs ys) : ∀ y ∈ ys, ∃ x ∈ xs, R x y := by
  induction related with
  | nil => exact fun _ member => nomatch member
  | cons first _ ih =>
    intro y member
    rcases List.mem_cons.mp member with rfl | later
    · exact ⟨_, List.mem_cons_self, first⟩
    · obtain ⟨x, there, pair⟩ := ih y later
      exact ⟨x, List.mem_cons_of_mem _ there, pair⟩

theorem names_of_fields {fields : List FieldRules} {mains : List Parameter}
    (related : List.Forall₂ Describes fields mains) :
    mains.map Parameter.name = fields.map FieldRules.name := by
  induction related with
  | nil => rfl
  | cons first _ ih => rw [List.map_cons, List.map_cons, first.name, ih]

end RequestSchema
