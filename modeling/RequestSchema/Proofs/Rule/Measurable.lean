import RequestSchema.Field.Description
import RequestSchema.Proofs.Number.Range
import RequestSchema.Proofs.Rule.Statements

/-!
# Measurable uploads

A token of an upload field is measurable if the sizes in it can be told, bounds in pixels are not
infinite, and a rule that states two sizes has a parameter (`Token.Measurable`). The constraints of
an upload whose tokens are measurable are found, and so is its description
(`Upload.ofTokens?_ends`, `Description.ofUpload_ends`).
-/
namespace RequestSchema

open RequestSchema.Text

namespace Upload

/-- Whether a size in kilobytes can be told: there is a floating point number next to its bytes. -/
def isSize (kb : Int) : Bool := (Number.int (kb * 1024)).toFloat.isOk

/-- Whether a text can be read where a size is expected: it denotes no number, or a size that can be
told. -/
def readsAsSize (s : String) : Bool := (integerPart? s).toOption.any fun kb? => kb?.all isSize

def isLimited (s : String) : Bool :=
  match Decimal.float? s with
  | some (.infinite _) => false
  | _ => true

end Upload

namespace Token

/-- The sizes that an upload rule carries. -/
def carriedSizes : Token → List Int
  | .upload limits => limits.minKb.toList ++ limits.maxKb.toList
  | _ => []

def sizeParameters (token : Token) : List String :=
  match token.name with
  | "max" | "min" => [token.parameters]
  | "size" | "between" => token.parameterList
  | _ => []

def assigned (s : String) : List String :=
  (split ',' s).filterMap fun pair => (cut? '=' pair).map fun parts => trim parts.2

/-- What an upload field asks of a token. -/
structure Measurable (token : Token) : Prop where
  carried : ∀ kb ∈ token.carriedSizes, Upload.isSize kb
  sizes : ∀ s ∈ token.sizeParameters, Upload.readsAsSize s
  parameter : token.name ∈ ["size", "between"] → token.parameterList ≠ []
  pixels : token.name = "dimensions" → ∀ s ∈ assigned token.parameters, Upload.isLimited s

instance (token : Token) : Decidable token.Measurable :=
  decidable_of_iff (_ ∧ _ ∧ _ ∧ _)
    ⟨fun ⟨carried, sizes, parameter, pixels⟩ => ⟨carried, sizes, parameter, pixels⟩,
      fun measurable =>
        ⟨measurable.carried, measurable.sizes, measurable.parameter, measurable.pixels⟩⟩

end Token

/-! ## Constraints -/

/-- An integer part is found unless the number is infinite. -/
theorem integerPart?_ends {s : String} (limited : Upload.isLimited s) :
    Succeeds (integerPart? s) := by
  unfold Upload.isLimited at limited
  unfold integerPart?
  split
  · exact ends_ok trivial
  · exact ends_ok trivial
  · rename_i x defined denoted
    cases x with
    | finite negative m e => exact ends_ok trivial
    | infinite negative =>
      rw [denoted] at limited
      cases limited
    | nan => exact absurd rfl defined

namespace Dimensions

/-- A bound that is not infinite can be set, whatever its name is. -/
theorem set_ends (d : Dimensions) (key : String) {value : String}
    (limited : Upload.isLimited value) : Succeeds (d.set key value) := by
  have pixels (put : Int → Dimensions) : Succeeds (do
      return ((← integerPart? value).map put).getD d : Except Fault Dimensions) :=
    (integerPart?_ends limited).bind fun n? _ => ends_ok trivial
  unfold set
  simp only
  split
  · exact ends_ok trivial
  · exact pixels _
  · exact pixels _
  · exact pixels _
  · exact pixels _
  · exact pixels _
  · exact pixels _
  · exact ends_ok trivial

theorem ofText?_ends {s : String} (limited : ∀ value ∈ Token.assigned s, Upload.isLimited value) :
    Succeeds (ofText? s) := by
  unfold ofText?
  refine (Ends.foldlM (I := fun _ => True) trivial fun d _ pair member => ?_).bind
    fun d _ => ends_ok trivial
  split
  · rename_i key value parts
    refine set_ends d _ (limited _ (List.mem_filterMap.mpr ⟨pair, member, ?_⟩))
    rw [parts]
    rfl
  · exact ends_ok trivial

end Dimensions

namespace Upload

/-- The sizes that are stated can be told. -/
structure Statement.Told (stated : Statement) : Prop where
  minKb : ∀ kb ∈ stated.minKb, isSize kb
  maxKb : ∀ kb ∈ stated.maxKb, isSize kb

theorem told_of_unstated {isImage : Bool} {extensions mediaTypes : List String}
    {dimensions : Option (Option Dimensions)} :
    Statement.Told { isImage, extensions, mediaTypes, dimensions } where
  minKb _ absent := nomatch absent
  maxKb _ absent := nomatch absent

/-- What reads as a size is found, and can be told. -/
theorem size_ends {s : String} (reads : readsAsSize s) :
    Ends (fun kb? => ∀ kb ∈ kb?, isSize kb) (integerPart? s) := by
  obtain ⟨kb?, read, each⟩ := exists_ok_of_any reads
  refine ⟨kb?, read, fun kb there => ?_⟩
  rw [Option.mem_def.mp there] at each
  exact each

/-- The first and the last parameter of a rule that has some are found as sizes. -/
theorem sizes_end (parameters : List String) :
    parameters ≠ [] → (∀ s ∈ parameters, readsAsSize s) →
      Ends Statement.Told (match parameters with
        | [] => .error .missingParameter
        | first :: rest => do
            let minKb ← integerPart? first
            let maxKb ← integerPart? (rest.getLast?.getD first)
            return { minKb, maxKb }) := by
  intro there each
  cases parameters with
  | nil => exact absurd rfl there
  | cons first rest =>
    have last : rest.getLast?.getD first ∈ first :: rest :=
      List.mem_of_getLast? List.getLast?_cons
    refine (size_ends (each first List.mem_cons_self)).bind fun least lower => ?_
    exact (size_ends (each _ last)).bind fun most upper => ends_ok ⟨lower, upper⟩

/-- What a measurable token states is found. -/
theorem Statement.ofToken_ends {token : Token} (measurable : token.Measurable) :
    Ends Statement.Told (Statement.ofToken token) := by
  cases token with
  | upload limits =>
    refine ends_ok ⟨fun kb there => ?_, fun kb there => ?_⟩
    · exact measurable.carried kb (List.mem_append_left _ (Option.mem_toList.mpr there))
    · exact measurable.carried kb (List.mem_append_right _ (Option.mem_toList.mpr there))
  | source s | enumClass name => exact ends_ok told_of_unstated
  | rule s =>
    have sizes := measurable.sizes
    have parameter := measurable.parameter
    unfold Token.sizeParameters at sizes
    unfold Statement.ofToken
    simp only
    split
    · exact ends_ok told_of_unstated
    · exact ends_ok told_of_unstated
    · exact ends_ok told_of_unstated
    · rename_i named
      rw [named] at sizes
      refine (size_ends (sizes _ List.mem_cons_self)).bind fun kb? each => ends_ok ?_
      exact ⟨(fun _ absent => nomatch absent), each⟩
    · rename_i named
      rw [named] at sizes
      refine (size_ends (sizes _ List.mem_cons_self)).bind fun kb? each => ends_ok ?_
      exact ⟨each, fun _ absent => nomatch absent⟩
    · rename_i named
      rw [named] at parameter sizes
      exact sizes_end _ (parameter (by decide)) sizes
    · rename_i named
      rw [named] at parameter sizes
      exact sizes_end _ (parameter (by decide)) sizes
    · rename_i named
      refine (Dimensions.ofText?_ends (measurable.pixels named)).bind fun d? _ => ?_
      exact ends_ok told_of_unstated
    · exact ends_ok told_of_unstated

/-- The sizes of an upload have floating point numbers next to them. -/
structure Told (upload : Upload) : Prop where
  minSize : ∀ n ∈ upload.minSize, (Number.int n).Representable
  maxSize : ∀ n ∈ upload.maxSize, (Number.int n).Representable

/-- What is read last of each size can be told as well. -/
theorem told_ofStatements {stated : List Statement} (each : ∀ e ∈ stated, e.Told) (field : String) :
    (ofReading field (Reading.ofStatements stated)).Told := by
  have last (part : Statement → Option Int) (sizes : ∀ e ∈ stated, ∀ kb ∈ part e, isSize kb) :
      ∀ n ∈ (stated.findSomeRev? part).map (· * 1024), (Number.int n).Representable := by
    intro n there
    obtain ⟨kb, found, rfl⟩ := Option.map_eq_some_iff.mp there
    obtain ⟨e, member, states⟩ := exists_of_findSomeRev? found
    exact succeeds_of_isOk (sizes e member kb states)
  exact ⟨last _ fun e member => (each e member).minKb, last _ fun e member => (each e member).maxKb⟩

/-- The constraints of an upload field are found. -/
theorem ofTokens?_ends (field : String) {tokens : List Token}
    (measurable : isUpload tokens → ∀ t ∈ tokens, t.Measurable) :
    Ends (fun upload? => upload?.isSome = isUpload tokens ∧ ∀ upload ∈ upload?, upload.Told)
      (ofTokens? field tokens) := by
  unfold ofTokens?
  cases asked : isUpload tokens with
  | false => exact ends_ok ⟨rfl, fun _ absent => nomatch absent⟩
  | true =>
    rw [if_pos rfl, reading_eq]
    have stated := Ends.mapM fun t member => Statement.ofToken_ends (measurable asked t member)
    have read := stated.map (Q := fun r => (ofReading field r).Told) fun _ each =>
      told_ofStatements each field
    refine read.bind fun r told => ends_ok ⟨rfl, fun upload there => ?_⟩
    cases there
    exact told

end Upload

/-! ## Descriptions -/

namespace Description

theorem scaleSize_bounded {size : Binary64} (bounded : size.Bounded) (unit : String)
    (units : List String) : (scaleSize unit units size).1.Bounded := by
  induction units generalizing size unit with
  | nil => exact bounded
  | cons next rest ih =>
    unfold scaleSize
    split
    · exact bounded
    · exact ih (bounded.scale_down (by decide)) next

/-- A count of bytes with a floating point number next to it can be told in the largest unit. -/
theorem fileSize_ends {n : Int} (representable : (Number.int n).Representable) :
    Succeeds (fileSize (.int n)) := by
  obtain ⟨x, converted, -⟩ := representable
  have scaled := scaleSize_bounded (Number.bounded_of_toFloat converted) "B" ["KB", "MB", "GB"]
  unfold fileSize
  rw [converted]
  have whole := Binary64.truncate_ends (Binary64.isFinite_of_bounded scaled)
  exact whole.bind fun k _ => ends_ok trivial

theorem ofUpload_ends (field : String) {upload : Upload} (told : upload.Told)
    (label : Option String) : Succeeds (ofUpload field upload label) := by
  have note (start : String) (n : Int) (representable : (Number.int n).Representable) :
      Succeeds (do return start ++ (← fileSize (.int n)) : Except Fault String) :=
    (fileSize_ends representable).bind fun text _ => ends_ok trivial
  unfold ofUpload
  refine (Ends.option fun n there => note _ n (told.maxSize n there)).bind fun greatest _ => ?_
  refine (Ends.option fun n there => note _ n (told.minSize n there)).bind fun least _ => ?_
  exact ends_ok trivial

end Description

end RequestSchema
