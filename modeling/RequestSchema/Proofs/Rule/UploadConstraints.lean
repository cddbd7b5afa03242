import Mathlib.Data.List.DropRight
import RequestSchema.Proofs.Analysis.Results
import RequestSchema.Proofs.Rule.Repetition
import RequestSchema.Proofs.Rule.Statements
import RequestSchema.Proofs.Text.Recognition

/-!
# The constraints of an upload

What the rules of an upload field amount to, in closed form. The file name extensions and the media
types are listed once, in the order of their first mention (`ListsOnce`); each end of the range of
sizes is the last one that could be read (`LastSize`), so a text that is no number takes nothing
back; and the six types of images stand in only where no other type is known.

* `constraints_of_upload`: a field is an upload exactly when one of its tokens asks for files, and
  the constraints of an upload are those that its tokens state;
* `scannedPages_constraints`: an upload whose rules repeat and contradict each other.
-/
namespace RequestSchema

open RequestSchema.Text

/-- A list has the members of another one, each once and in the order of their first mention. -/
structure ListsOnce {α : Type} [BEq α] (listed mentioned : List α) : Prop where
  nodup : listed.Nodup
  mem_iff : ∀ a, a ∈ listed ↔ a ∈ mentioned
  inOrder : listed.Pairwise fun a b => mentioned.idxOf a < mentioned.idxOf b

/-- The ends of a range of sizes. -/
inductive SizeEnd where
  | least
  | greatest
  deriving DecidableEq

namespace SizeEnd

/-- The rule that states a size at an end alone. -/
def ruleName : SizeEnd → String
  | least => "min"
  | greatest => "max"

/-- The parameter of a rule about both ends that counts for one of them. -/
def parameter? : SizeEnd → List String → Option String
  | least => List.head?
  | greatest => List.getLast?

/-- The size that an upload rule carries at an end, in kilobytes. -/
def carried? : SizeEnd → UploadRule → Option Int
  | least => UploadRule.minKb
  | greatest => UploadRule.maxKb

def published? : SizeEnd → Upload → Option Int
  | least => Upload.minSize
  | greatest => Upload.maxSize

end SizeEnd

namespace Token

def AsksForFiles (t : Token) : Prop :=
  (∃ limits, t = .upload limits) ∨ t.name ∈ ["file", "image", "mimes", "mimetypes"]

/-- Whether a token asks for an image: a rule of that name, or an upload rule for images. -/
def AsksForImage (t : Token) : Prop :=
  (∃ limits, t = .upload limits ∧ limits.image = true) ∨ ∃ s, t = .rule s ∧ t.name = "image"

/-- The file name extensions that a token mentions: an upload rule as they are written, a `mimes`
rule in lower case. -/
def extensions : Token → List String
  | .upload limits => limits.extensions
  | .rule s =>
      if (rule s).name = "mimes" then ((rule s).parameterList.filter (!·.isEmpty)).map lower else []
  | _ => []

def mediaTypes : Token → List String
  | .rule s =>
      if (rule s).name = "mimetypes" then (rule s).parameterList.filter (!·.isEmpty) else []
  | _ => []

/-- A token states a size at an end that can be read, in kilobytes. -/
inductive StatesSize : Token → SizeEnd → Int → Prop
  | carried {limits : UploadRule} {side : SizeEnd} {n : Int} :
      side.carried? limits = some n → StatesSize (.upload limits) side n
  | single {s : String} {side : SizeEnd} {n : Int} : (rule s).name = side.ruleName →
      integerPart? (rule s).parameters = .ok (some n) → StatesSize (.rule s) side n
  | range {s parameter : String} {side : SizeEnd} {n : Int} :
      (rule s).name ∈ ["size", "between"] →
      side.parameter? (rule s).parameterList = some parameter →
      integerPart? parameter = .ok (some n) → StatesSize (.rule s) side n

end Token

/-- The size at an end that the last token with a readable one states. -/
def LastSize (tokens : List Token) (side : SizeEnd) (n : Int) : Prop :=
  ∃ before t behind, tokens = before ++ t :: behind ∧ t.StatesSize side n ∧
    ∀ u ∈ behind, ∀ m, ¬ u.StatesSize side m

/-- The constraints of an upload are what the tokens of its field state. -/
structure Upload.StatedBy (field : String) (tokens : List Token) (u : Upload) : Prop where
  extensions : ListsOnce u.extensions (tokens.flatMap Token.extensions)
  isImage : u.isImage = true ↔ ∃ t ∈ tokens, t.AsksForImage
  /-- the media types that are named, then those of the extensions, or else those of images -/
  mediaTypes : ∃ named derived, ListsOnce named (tokens.flatMap Token.mediaTypes) ∧
    ListsOnce derived ((u.extensions.map mediaType).filter fun type => !named.contains type) ∧
    u.mediaTypes =
      if u.isImage = true ∧ named ++ derived = [] then imageTypes else named ++ derived
  nodup : u.mediaTypes.Nodup
  sizes : ∀ side bytes, SizeEnd.published? side u = some bytes ↔
    ∃ kb, LastSize tokens side kb ∧ bytes = 1024 * kb
  multiple : u.multiple = true ↔ ∃ segments : List String,
    field = ".".intercalate segments ∧ (∀ segment ∈ segments, '.' ∉ segment.toList) ∧
      "*" ∈ segments

/-! ## Lists without repetitions -/

namespace Upload

theorem distinct_concat (texts : List String) (text : String) :
    distinct (texts ++ [text]) =
      if text ∈ distinct texts then distinct texts else distinct texts ++ [text] := by
  rw [distinct, List.foldl_append, ← distinct]
  simp only [List.foldl_cons, List.foldl_nil, List.contains_iff_mem]

/-- What is mentioned again is not listed again, so every member is listed behind those that are
mentioned before it. -/
theorem listsOnce_distinct (texts : List String) : ListsOnce (distinct texts) texts := by
  induction texts using List.reverseRecOn with
  | nil => exact ⟨.nil, fun _ => .rfl, .nil⟩
  | append_singleton texts text ih =>
    obtain ⟨nodup, mem_iff, inOrder⟩ := ih
    have kept : (distinct texts).Pairwise fun a b =>
        (texts ++ [text]).idxOf a < (texts ++ [text]).idxOf b := by
      refine inOrder.imp_of_mem fun first second earlier => ?_
      rwa [List.idxOf_append_of_mem ((mem_iff _).mp first),
        List.idxOf_append_of_mem ((mem_iff _).mp second)]
    rw [distinct_concat]
    split
    case isTrue old =>
      refine ⟨nodup, fun a => ?_, kept⟩
      rw [mem_iff, List.mem_append, List.mem_singleton]
      exact ⟨.inl, fun listed => listed.elim id fun same => same ▸ (mem_iff _).mp old⟩
    case isFalse new =>
      refine ⟨?_, fun a => ?_, ?_⟩
      · rw [← List.concat_eq_append]
        exact nodup.concat new
      · rw [List.mem_append, List.mem_append, mem_iff]
      · refine List.pairwise_append.mpr ⟨kept, List.pairwise_singleton _ _, ?_⟩
        intro a member b last
        have listed := (mem_iff a).mp member
        have absent : text ∉ texts := mt (mem_iff text).mpr new
        rw [List.mem_singleton.mp last, List.idxOf_append_of_mem listed,
          List.idxOf_append_of_notMem absent]
        exact Nat.lt_of_lt_of_le (List.idxOf_lt_length_iff.mpr listed) (Nat.le_add_right _ _)

/-- Behind what is listed first, the others are listed once. -/
theorem distinct_append (texts others : List String) : distinct (texts ++ others) =
    distinct texts ++ distinct (others.filter fun text => !(distinct texts).contains text) := by
  have unlisted : others.removeAll texts =
      others.filter fun text => !(distinct texts).contains text := by
    refine List.filter_congr fun text _ => ?_
    simp only [List.elem_eq_contains, List.contains_eq_mem, (listsOnce_distinct texts).mem_iff]
  rw [distinct_eq_eraseDups, List.eraseDups_append, unlisted, ← distinct_eq_eraseDups,
    ← distinct_eq_eraseDups]

end Upload

/-! ## What single tokens state -/

namespace SizeEnd

def stated? : SizeEnd → Upload.Statement → Option Int
  | least => Upload.Statement.minKb
  | greatest => Upload.Statement.maxKb

end SizeEnd

namespace Token

theorem asksForImage_rule_iff {s : String} :
    (rule s).AsksForImage ↔ (rule s).name = "image" := by simp [AsksForImage]

theorem statesSize_upload_iff {limits : UploadRule} {side : SizeEnd} {n : Int} :
    (upload limits).StatesSize side n ↔ side.carried? limits = some n := by
  constructor
  · intro states
    cases states with
    | carried given => exact given
  · exact .carried

theorem statesSize_rule_iff {s : String} {side : SizeEnd} {n : Int} :
    (rule s).StatesSize side n ↔
      ((rule s).name = side.ruleName ∧ integerPart? (rule s).parameters = .ok (some n)) ∨
      ((rule s).name ∈ ["size", "between"] ∧ ∃ parameter,
        side.parameter? (rule s).parameterList = some parameter ∧
          integerPart? parameter = .ok (some n)) := by
  constructor
  · intro states
    cases states with
    | single named read => exact .inl ⟨named, read⟩
    | range named given read => exact .inr ⟨named, _, given, read⟩
  · rintro (⟨named, read⟩ | ⟨named, _, given, read⟩)
    · exact .single named read
    · exact .range named given read

end Token

namespace Upload.Statement

/-- A statement holds what its token mentions and states. -/
structure Tells (t : Token) (e : Statement) : Prop where
  isImage : e.isImage = true ↔ t.AsksForImage
  extensions : e.extensions = t.extensions
  mediaTypes : e.mediaTypes = t.mediaTypes
  sizes : ∀ side n, side.stated? e = some n ↔ t.StatesSize side n

variable {s : String} {e : Statement}

/-- A rule about no size states none. -/
theorem tells_unsized (named : (Token.rule s).name ∉ ["min", "max", "size", "between"])
    (unsized : e.minKb = none ∧ e.maxKb = none)
    (isImage : e.isImage = true ↔ (Token.rule s).name = "image")
    (extensions : e.extensions = (Token.rule s).extensions)
    (mediaTypes : e.mediaTypes = (Token.rule s).mediaTypes) : Tells (.rule s) e := by
  refine ⟨isImage.trans Token.asksForImage_rule_iff.symm, extensions, mediaTypes, ?_⟩
  intro side n
  rw [Token.statesSize_rule_iff]
  cases side <;> simp_all [SizeEnd.stated?, SizeEnd.ruleName]

/-- A rule about sizes mentions no types. -/
theorem tells_sized (named : (Token.rule s).name ∈ ["min", "max", "size", "between"])
    (untyped : e.isImage = false ∧ e.extensions = [] ∧ e.mediaTypes = [])
    (sizes : ∀ side n, side.stated? e = some n ↔ (Token.rule s).StatesSize side n) :
    Tells (.rule s) e := by
  obtain ⟨noImage, noExtensions, noTypes⟩ := untyped
  have other (name : String) (foreign : name ∉ ["min", "max", "size", "between"]) :
      (Token.rule s).name ≠ name := fun same => foreign (same ▸ named)
  refine ⟨?_, ?_, ?_, sizes⟩
  · simp [noImage, Token.asksForImage_rule_iff, other "image" (by decide)]
  · rw [noExtensions, Token.extensions, if_neg (other _ (by decide))]
  · rw [noTypes, Token.mediaTypes, if_neg (other _ (by decide))]

/-- The rule about one end states its parameters there. -/
theorem tells_single (side : SizeEnd) {kb : Option Int}
    (named : (Token.rule s).name = side.ruleName)
    (read : integerPart? (Token.rule s).parameters = .ok kb)
    (untyped : e.isImage = false ∧ e.extensions = [] ∧ e.mediaTypes = [])
    (stated : ∀ other, other.stated? e = if other = side then kb else none) :
    Tells (.rule s) e := by
  refine tells_sized (by cases side <;> simp [named, SizeEnd.ruleName]) untyped fun other n => ?_
  rw [stated, Token.statesSize_rule_iff]
  cases side <;> cases other <;> simp [named, read, SizeEnd.ruleName]

/-- A rule about both ends states its first parameter at one of them and its last one at the
other. -/
theorem tells_range (named : (Token.rule s).name ∈ ["size", "between"])
    (states : (match (Token.rule s).parameterList with
      | [] => .error .missingParameter
      | first :: rest => do
          let minKb ← integerPart? first
          let maxKb ← integerPart? (rest.getLast?.getD first)
          return { minKb, maxKb } : Except Fault Statement) = .ok e) : Tells (.rule s) e := by
  have single (side : SizeEnd) : (Token.rule s).name ≠ side.ruleName := by
    intro same
    rw [same] at named
    revert named
    cases side <;> decide
  cases parameters : (Token.rule s).parameterList with
  | nil =>
    rw [parameters] at states
    cases states
  | cons first rest =>
    rw [parameters] at states
    simp only at states
    obtain ⟨minKb, least, states⟩ := exists_of_bind_ok states
    obtain ⟨maxKb, greatest, states⟩ := exists_of_bind_ok states
    cases states
    have sized := List.mem_cons_of_mem "min" (List.mem_cons_of_mem "max" named)
    refine tells_sized sized ⟨rfl, rfl, rfl⟩ fun side n => ?_
    rw [Token.statesSize_rule_iff, parameters]
    cases side
    case least => simp [single, named, SizeEnd.parameter?, SizeEnd.stated?, least]
    case greatest =>
      simp [single, named, SizeEnd.parameter?, SizeEnd.stated?, List.getLast?_cons, greatest]

theorem tells_of_ofToken {t : Token} {e : Statement} (states : ofToken t = .ok e) : Tells t e := by
  cases t with
  | upload limits =>
    cases states
    refine ⟨by simp [Token.AsksForImage], rfl, rfl, fun side n => ?_⟩
    rw [Token.statesSize_upload_iff]
    cases side <;> rfl
  | source s | enumClass name =>
    cases states
    refine ⟨by simp [Token.AsksForImage], rfl, rfl, fun side n => ?_⟩
    constructor
    · cases side <;> nofun
    · nofun
  | rule s =>
    unfold ofToken at states
    simp only at states
    split at states
    case h_1 named | h_2 named | h_3 named =>
      cases states
      refine tells_unsized (by rw [named]; decide) ⟨rfl, rfl⟩ ?_ ?_ ?_ <;>
        simp [Token.extensions, Token.mediaTypes, named]
    case h_4 named =>
      obtain ⟨kb, read, states⟩ := exists_of_bind_ok states
      cases states
      refine tells_single .greatest named read ⟨rfl, rfl, rfl⟩ fun other => ?_
      cases other <;> rfl
    case h_5 named =>
      obtain ⟨kb, read, states⟩ := exists_of_bind_ok states
      cases states
      refine tells_single .least named read ⟨rfl, rfl, rfl⟩ fun other => ?_
      cases other <;> rfl
    case h_6 named | h_7 named => exact tells_range (by simp [named]) states
    case h_8 named =>
      obtain ⟨dimensions, -, states⟩ := exists_of_bind_ok states
      cases states
      refine tells_unsized (by rw [named]; decide) ⟨rfl, rfl⟩ ?_ ?_ ?_ <;>
        simp [Token.extensions, Token.mediaTypes, named]
    case h_9 notImage notExtensions notTypes notGreatest notLeast notSize notBetween _ =>
      cases states
      refine tells_unsized ?_ ⟨rfl, rfl⟩ ⟨nofun, fun named => (notImage named).elim⟩ ?_ ?_
      · simp only [List.mem_cons, List.not_mem_nil, or_false, not_or]
        exact ⟨notLeast, notGreatest, notSize, notBetween⟩
      · rw [Token.extensions, if_neg notExtensions]
      · rw [Token.mediaTypes, if_neg notTypes]

end Upload.Statement

/-! ## What all tokens state together -/

namespace Upload

/-- A field that can be read is read off the statements of its tokens. -/
theorem exists_statements {tokens : List Token} {r : Reading}
    (read : tokens.foldlM Reading.add ({} : Reading) = .ok r) :
    ∃ stated : Token → Statement, r = .ofStatements (tokens.map stated) ∧
      ∀ t ∈ tokens, (stated t).Tells t := by
  let stated (t : Token) : Statement := (Statement.ofToken t).toOption.getD {}
  rw [reading_eq] at read
  cases all : tokens.mapM Statement.ofToken with
  | error fault =>
    rw [all] at read
    cases read
  | ok es =>
    have each : ∀ t ∈ tokens, Statement.ofToken t = .ok (stated t) := by
      intro t member
      obtain ⟨e, states⟩ := ok_of_mapM all t member
      simp only [stated, states]
      rfl
    rw [mapM_eq_ok each] at read
    cases read
    exact ⟨stated, rfl, fun t member => Statement.tells_of_ofToken (each t member)⟩

variable {tokens : List Token} {stated : Token → Statement}

/-- Of each end the last size that is stated is read. -/
theorem findSomeRev?_stated (tells : ∀ t ∈ tokens, (stated t).Tells t) (side : SizeEnd) (n : Int) :
    (tokens.map stated).findSomeRev? side.stated? = some n ↔ LastSize tokens side n := by
  rw [findSomeRev?_map, findSomeRev?_eq_some_iff]
  refine exists_congr fun before => exists_congr fun t => exists_congr fun behind => ?_
  refine and_congr_right fun parts => ?_
  subst parts
  have own := (tells t (by simp)).sizes side n
  have silent : (∀ u ∈ behind, side.stated? (stated u) = none) ↔
      ∀ u ∈ behind, ∀ m, ¬ u.StatesSize side m := by
    refine forall₂_congr fun u member => ?_
    rw [Option.eq_none_iff_forall_not_mem]
    exact forall_congr' fun m => not_congr ((tells u (by simp [member])).sizes side m)
  rw [own, silent]

theorem any_isImage (tells : ∀ t ∈ tokens, (stated t).Tells t) :
    (tokens.map stated).any Statement.isImage = true ↔ ∃ t ∈ tokens, t.AsksForImage := by
  rw [List.any_map, List.any_eq_true]
  exact exists_congr fun t => and_congr_right fun member => (tells t member).isImage

theorem flatMap_stated {part : Statement → List String} {own : Token → List String}
    (same : ∀ t ∈ tokens, part (stated t) = own t) :
    (tokens.map stated).flatMap part = tokens.flatMap own := by
  rw [List.flatMap_map]
  exact List.flatMap_congr same

/-- The media types of an upload: those that are named, then those of its extensions. -/
theorem listed_mediaTypes (named extensions : List String) (isImage : Bool) :
    ∃ first derived, ListsOnce first named ∧
      ListsOnce derived ((extensions.map mediaType).filter fun type => !first.contains type) ∧
      (if isImage && (distinct (named ++ extensions.map mediaType)).isEmpty then imageTypes
        else distinct (named ++ extensions.map mediaType)) =
        if isImage = true ∧ first ++ derived = [] then imageTypes else first ++ derived := by
  refine ⟨distinct named, _, listsOnce_distinct named, listsOnce_distinct _, ?_⟩
  rw [← distinct_append]
  simp only [Bool.and_eq_true, List.isEmpty_iff]

theorem nodup_mediaTypes (isImage : Bool) (types : List String) :
    (if isImage && (distinct types).isEmpty then imageTypes else distinct types).Nodup := by
  split
  · decide
  · exact (listsOnce_distinct types).nodup

/-- A field stands for many files when one of the segments of its path is a star. -/
theorem isMultiple_iff (field : String) : isMultiple field = true ↔ ∃ segments : List String,
    field = ".".intercalate segments ∧ (∀ segment ∈ segments, '.' ∉ segment.toList) ∧
      "*" ∈ segments := by
  rw [isMultiple, List.contains_iff_mem]
  constructor
  · intro member
    exact ⟨split '.' field, (intercalate_split '.' field).symm,
      fun segment listed => not_mem_of_mem_split listed, member⟩
  · rintro ⟨segments, rfl, undotted, member⟩
    have pieces := split_intercalate undotted (List.ne_nil_of_mem member)
    exact pieces.symm ▸ member

theorem published?_ofReading (side : SizeEnd) (field : String) (stated : List Statement) :
    side.published? (ofReading field (.ofStatements stated)) =
      (stated.findSomeRev? side.stated?).map (· * 1024) := by
  cases side <;> rfl

theorem statedBy_ofReading (field : String) (tells : ∀ t ∈ tokens, (stated t).Tells t) :
    StatedBy field tokens (ofReading field (.ofStatements (tokens.map stated))) := by
  have extensions := flatMap_stated fun t member => (tells t member).extensions
  have mediaTypes := flatMap_stated fun t member => (tells t member).mediaTypes
  constructor
  · rw [← extensions]
    exact listsOnce_distinct _
  · exact any_isImage tells
  · rw [← mediaTypes]
    exact listed_mediaTypes _ _ _
  · exact nodup_mediaTypes _ _
  · intro side bytes
    rw [published?_ofReading, Option.map_eq_some_iff]
    refine exists_congr fun kb => ?_
    rw [findSomeRev?_stated tells, Int.mul_comm, eq_comm]
  · exact isMultiple_iff field

theorem isUpload_iff (tokens : List Token) :
    isUpload tokens = true ↔ ∃ t ∈ tokens, t.AsksForFiles := by
  rw [isUpload, Token.has, List.any_eq_true]
  refine exists_congr fun t => and_congr_right fun _ => ?_
  rw [List.contains_iff_mem]
  refine ⟨.inr, fun asks => asks.elim ?_ id⟩
  rintro ⟨limits, rfl⟩
  cases image : limits.image <;>
    simp [Token.name, Token.uploadName, image, Token.uploadNames]

end Upload

/-- A field is an upload exactly when one of its tokens asks for files, and the constraints of an
upload are those that its tokens state. -/
theorem constraints_of_upload (field : String) (tokens : List Token) :
    (Upload.ofTokens? field tokens = .ok none ↔ ¬ ∃ t ∈ tokens, t.AsksForFiles) ∧
      ∀ u, Upload.ofTokens? field tokens = .ok (some u) → u.StatedBy field tokens := by
  rw [Upload.ofTokens?, ← Upload.isUpload_iff]
  cases asked : Upload.isUpload tokens with
  | false => simp
  | true =>
    simp only [if_true, not_true_eq_false, iff_false]
    constructor
    · intro unread
      obtain ⟨r, -, found⟩ := exists_of_bind_ok unread
      cases found
    · intro u found
      obtain ⟨r, read, same⟩ := exists_of_bind_ok found
      cases same
      obtain ⟨stated, rfl, tells⟩ := Upload.exists_statements read
      exact Upload.statedBy_ofReading field tells

/-- Pages of which extensions are named twice and in different case, with a size that is no number
behind one that is. -/
def scannedPages : List Token :=
  [.rule "mimes:PDF,jpg,,pdf",
    .upload { extensions := ["png", "jpg"], maxKb := some 8, image := true },
    .rule "mimetypes:text/csv,image/png", .rule "between:5.5,large", .rule "min:-"]

theorem scannedPages_constraints :
    ∃ u, Upload.ofTokens? "pages.*.scan" scannedPages = .ok (some u) ∧
      u = { isImage := true, extensions := ["pdf", "jpg", "png"]
            mediaTypes := ["text/csv", "image/png", "application/pdf", "image/jpeg"]
            minSize := some 5120, maxSize := some 8192, multiple := true } ∧
      u.StatedBy "pages.*.scan" scannedPages := by
  obtain ⟨upload?, returned, read⟩ := exists_ok_of_any
    (show (Upload.ofTokens? "pages.*.scan" scannedPages).toOption.any (fun upload? => upload? = some
      { isImage := true, extensions := ["pdf", "jpg", "png"]
        mediaTypes := ["text/csv", "image/png", "application/pdf", "image/jpeg"]
        minSize := some 5120, maxSize := some 8192, multiple := true }) = true by decide +kernel)
  rw [of_decide_eq_true read] at returned
  exact ⟨_, returned, rfl, (constraints_of_upload "pages.*.scan" scannedPages).2 _ returned⟩

end RequestSchema
