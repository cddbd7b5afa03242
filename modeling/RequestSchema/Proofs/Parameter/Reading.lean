import RequestSchema.Proofs.Analysis.Alike
import RequestSchema.Proofs.Parameter.Fields

/-!
# Parameters of fields that read alike

The parameter of a field is that of its name and its tokens, with the rest that is known
of the field put on (`parameter_eq_dress`). Where two lists of tokens tell the same about
types, bounds, examples and so on (`SameReading`), and stand for the same enumeration,
fields that have them get parameters that differ in what is put on only
(`parameter_alike`).
-/
namespace RequestSchema

open Analysis

/-! ## What is known of a field besides its tokens -/

namespace FieldRules

/-- A field of which nothing is known but its name and its tokens. -/
def bare (name : String) (tokens : List Token) : FieldRules :=
  { name, tokens, required := false, conditionallyRequired := false, conditionalRules := [] }

/-- A description that was made from the tokens of a field, with the remark that belongs to
the field. -/
def remark (field : FieldRules) (text : String) : String :=
  if field.branches = 0 then text else Description.varying field.name field.branches text

/-- A parameter of the bare field with what else is known of the field. -/
def dress (field : FieldRules) (origin : Origin) (p : Parameter) : Parameter :=
  { p with
    required := field.required
    conditionallyRequired := field.conditionallyRequired
    conditionalRules := field.conditionalRules
    tokens := field.tokens
    description :=
      if p.upload.isSome || (origin.label? field.name).isSome then p.description
      else field.remark p.description }

variable (field : FieldRules) (origin : Origin)

theorem uploadParameter_eq_dress (upload : Upload) :
    field.uploadParameter origin upload =
      field.dress origin <$> (bare field.name field.tokens).uploadParameter origin upload := by
  unfold uploadParameter bare
  cases Description.ofUpload field.name upload (origin.label? field.name) <;> rfl

theorem describe_eq (type : FieldType) :
    field.describe origin type =
      (fun text => if (origin.label? field.name).isSome then text else field.remark text) <$>
        (bare field.name field.tokens).describe origin type := by
  unfold describe bare remark
  cases origin.label? field.name with
  | some label => rfl
  | none => simp

/-- The parameter of a field is that of the bare field, with what else is known. -/
theorem parameter_eq_dress :
    field.parameter origin =
      field.dress origin <$> (bare field.name field.tokens).parameter origin := by
  unfold parameter
  simp only [map_bind]
  refine bind_congr fun enumeration => bind_congr fun upload => ?_
  cases upload with
  | some upload =>
    simp only
    rw [uploadParameter_eq_dress]
    cases (bare field.name field.tokens).uploadParameter origin upload <;> rfl
  | none =>
    simp only [map_bind, describe_eq field origin, bind_map_left]
    refine bind_congr fun bounds => bind_congr fun description => bind_congr fun sample => ?_
    rfl

end FieldRules

/-! ## Tokens that read alike -/

/-- Two lists of tokens tell the same about a field, enumerations aside. -/
structure SameReading (tokens tokens' : List Token) : Prop where
  upload : ∀ field, Upload.ofTokens? field tokens' = Upload.ofTokens? field tokens
  type : ∀ fallback, FieldType.ofTokens tokens' fallback = FieldType.ofTokens tokens fallback
  format : Format.ofTokens? tokens' = Format.ofTokens? tokens
  bounds : ∀ type, FieldRules.boundsOf type tokens' = FieldRules.boundsOf type tokens
  pattern : Pattern.ofTokens? tokens' = Pattern.ofTokens? tokens
  sample : ∀ room field type format enumeration,
    Example.ofField room field tokens' type format enumeration =
      Example.ofField room field tokens type format enumeration
  description : ∀ field type enumeration,
    Description.ofField field tokens' type enumeration =
      Description.ofField field tokens type enumeration

theorem SameReading.refl (tokens : List Token) : SameReading tokens tokens where
  upload _ := rfl
  type _ := rfl
  format := rfl
  bounds _ := rfl
  pattern := rfl
  sample _ _ _ _ _ := rfl
  description _ _ _ := rfl

section

variable {J : Registry → Registry → Prop} {origin : Origin} {tokens tokens' : List Token}

theorem describe_alike (name : String) (type : FieldType) (same : SameReading tokens tokens')
    (lookups : Alike J J Eq (origin.enumeration? tokens) (origin.enumeration? tokens')) :
    Alike J J Eq ((FieldRules.bare name tokens).describe origin type)
      ((FieldRules.bare name tokens').describe origin type) := by
  unfold FieldRules.describe FieldRules.bare
  cases origin.label? name with
  | some label => exact alike_pure rfl
  | none =>
    refine lookups.bind fun enumeration _ found => ?_
    subst found
    exact alike_pure (same.description name type enumeration).symm

/-- The parameters of a name with tokens that read alike differ in their tokens only. -/
theorem bare_parameter_alike (name : String) (same : SameReading tokens tokens')
    (lookups : Alike J J Eq (origin.enumeration? tokens) (origin.enumeration? tokens')) :
    Alike J J (fun p p' => p' = { p with tokens := tokens' })
      ((FieldRules.bare name tokens).parameter origin)
      ((FieldRules.bare name tokens').parameter origin) := by
  unfold FieldRules.parameter
  refine lookups.bind fun enumeration _ found => ?_
  subst found
  simp only [FieldRules.bare, same.upload]
  refine (alike_except _).bind fun upload _ read => ?_
  subst read
  cases upload with
  | some upload =>
    simp only [FieldRules.uploadParameter]
    cases Description.ofUpload name upload (origin.label? name) with
    | error fault => exact fun _ _ _ _ => .stop
    | ok text => exact alike_pure rfl
  | none =>
    simp only [FieldRules.typeOf, same.type, same.format, same.bounds, same.pattern, same.sample]
    refine (alike_except _).bind fun bounds _ stated => ?_
    subst stated
    refine (describe_alike name _ same lookups).bind fun description _ told => ?_
    subst told
    refine (alike_except _).bind fun sample _ shown => ?_
    subst shown
    exact alike_pure rfl

/-- The parameters of fields with tokens that read alike are one parameter, with what is
known of each of the fields put on. -/
theorem parameter_alike (field field' : FieldRules) (names : field'.name = field.name)
    (same : SameReading field.tokens field'.tokens)
    (lookups : Alike J J Eq (origin.enumeration? field.tokens)
      (origin.enumeration? field'.tokens)) :
    Alike J J (fun p p' => ∃ q,
        ((FieldRules.bare field.name field.tokens).parameter origin).Yields q ∧
          p = field.dress origin q ∧ p' = field'.dress origin q)
      (field.parameter origin) (field'.parameter origin) := by
  rw [FieldRules.parameter_eq_dress field, FieldRules.parameter_eq_dress field', names]
  refine (bare_parameter_alike field.name same lookups).yielding.map ?_
  rintro q q' ⟨differ, yields, -⟩
  subst differ
  exact ⟨q, yields, rfl, rfl⟩

/-- A bare field that is no upload and has no label is described by its tokens. -/
theorem description_of_bare {name : String} {q : Parameter}
    (yields : ((FieldRules.bare name tokens).parameter origin).Yields q)
    (plain : q.upload = none) (unlabelled : origin.label? name = none) :
    ∃ type enumeration, q.description = Description.ofField name tokens type enumeration := by
  rcases parameter_cases yields with ⟨_, _, rfl⟩ | ⟨type, _, description, _, _, -, -, told, -, rfl⟩
  · cases plain
  · unfold FieldRules.describe FieldRules.bare at told
    simp only [unlabelled] at told
    obtain ⟨enumeration, -, told⟩ := yields_bind told
    exact ⟨type, enumeration, yields_pure told⟩

/-- The parameters of lists of fields, confirmations aside, are as alike as those of their
fields. -/
theorem mains_alike {fields fields' : List FieldRules} {D : Parameter → Parameter → Prop}
    (each : List.Forall₂ (fun field field' =>
      Alike J J D (field.parameter origin) (field'.parameter origin)) fields fields') :
    Alike J J (fun ps ps' => ∃ mains mains', List.Forall₂ D mains mains' ∧
        ps = mains.flatMap Parameter.withConfirmation ∧
        ps' = mains'.flatMap Parameter.withConfirmation)
      (Parameter.ofFields fields origin) (Parameter.ofFields fields' origin) := by
  refine (Alike.mapM each fun _ _ alike => alike).bind fun mains mains' related => ?_
  exact alike_pure ⟨mains, mains', related, rfl, rfl⟩

end

end RequestSchema
