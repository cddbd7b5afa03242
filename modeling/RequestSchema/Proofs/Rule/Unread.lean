import Mathlib.Data.List.Find
import RequestSchema.Enumeration.Reference
import RequestSchema.Field.Description
import RequestSchema.Parameter.Build
import RequestSchema.Proofs.Rule.Statements
import RequestSchema.Rule.Pattern

/-!
# Rules that nobody reads

A rule text whose name means nothing tells no more about its field than source text that was
not evaluated: only passwords and enumerations are looked for in it, and they are looked for
in source text too. `Token.unread` takes such rule texts for source text, and no reading of
the rules of a field notices.
-/
namespace RequestSchema

namespace Token

def conditionalNames : List String :=
  Effect.all.flatMap fun effect => conditionWords.map fun word => effect.name ++ "_" ++ word

/-- The names of rules that mean something. -/
def meaningful : List String :=
  ["required", "exclude", "confirmed", "enum", "array", "regex", "pattern", "dimensions",
    "date", "datetime", "date_format", "timezone", "json", "in", "after", "after_or_equal",
    "before", "before_or_equal", "date_equals", "declined", "declined_if"] ++
  conditionalNames ++ uploadNames ++ booleanNames ++ integerNames ++ numberNames ++ boundNames ++
  Format.byRule.map Prod.fst

/-- The token, or the source text that a rule text without a meaning may as well be. -/
def unread : Token → Token
  | rule s => if (rule s).name ∈ meaningful then rule s else source s
  | token => token

/-- A rule text without a meaning, or a token that is what it is. -/
theorem unread_cases (t : Token) :
    t.unread = t ∨ ∃ s, t = rule s ∧ t.unread = source s ∧ (rule s).name ∉ meaningful := by
  cases t with
  | rule s =>
    rw [unread]
    by_cases means : (rule s).name ∈ meaningful
    · rw [if_pos means]
      exact .inl rfl
    · rw [if_neg means]
      exact .inr ⟨s, rfl, rfl, means⟩
  | source s | enumClass name | upload limits => exact .inl rfl

theorem unread_of_meaningful {t : Token} (means : t.name ∈ meaningful) : t.unread = t := by
  rcases unread_cases t with same | ⟨s, rfl, -, other⟩
  · exact same
  · exact absurd means other

/-- What is made of a token alike for source text and for rule texts without a meaning. -/
theorem eq_of_unread {α : Type} {f : Token → α}
    (blind : ∀ s, (rule s).name ∉ meaningful → f (source s) = f (rule s)) (t : Token) :
    f t.unread = f t := by
  rcases unread_cases t with same | ⟨s, rfl, unread, other⟩
  · rw [same]
  · rw [unread, blind s other]

theorem mem_meaningful_of_contains {names : List String}
    (known : names.all (meaningful.contains ·) = true) {name : String}
    (listed : names.contains name = true) : name ∈ meaningful :=
  List.contains_iff_mem.mp (List.all_eq_true.mp known name (List.contains_iff_mem.mp listed))

theorem contains_of_meaningless {names : List String}
    (known : names.all (meaningful.contains ·) = true) {name : String}
    (other : name ∉ meaningful) : names.contains name = false :=
  Bool.eq_false_iff.mpr (mt (mem_meaningful_of_contains known) other)

/-- Source text has no name, and so none that means something. -/
theorem source_meaningless (s : String) : (source s).name ∉ meaningful := by
  have nameless : "" ∉ meaningful := by decide
  exact nameless

theorem contains_unread {names : List String} (known : names.all (meaningful.contains ·) = true)
    (t : Token) : names.contains t.unread.name = names.contains t.name := by
  refine eq_of_unread (f := fun t => names.contains t.name) (fun s other => ?_) t
  rw [contains_of_meaningless known other, contains_of_meaningless known (source_meaningless s)]

theorem mapM_unread {β : Type} {f : Token → Except Fault β} (blind : ∀ t, f (unread t) = f t)
    (tokens : List Token) : (tokens.map unread).mapM f = tokens.mapM f := by
  rw [List.mapM_map]
  exact congrArg (tokens.mapM ·) (funext blind)

/-! ## Asking for names -/

section

variable {names : List String} (known : names.all (meaningful.contains ·) = true)
  (tokens : List Token)

include known

theorem has_unread : has names (tokens.map unread) = has names tokens := by
  rw [has, List.any_map, has]
  exact congrArg (tokens.any ·) (funext fun t => contains_unread known t)

/-- A token that is found by a meaningful name is what it was. -/
theorem findNamed_unread : find? names (tokens.map unread) = find? names tokens := by
  have same : (fun t : Token => names.contains t.name) ∘ unread =
      fun t => names.contains t.name := funext fun t => contains_unread known t
  rw [find?, List.find?_map, same, find?]
  cases found : tokens.find? fun t => names.contains t.name with
  | none => rfl
  | some t =>
    have means := mem_meaningful_of_contains known
      (List.find?_some (p := fun t : Token => names.contains t.name) found)
    rw [Option.map_some, unread_of_meaningful means]

end

theorem isRequired_unread (tokens : List Token) :
    isRequired (tokens.map unread) = isRequired tokens :=
  has_unread (by decide) tokens

theorem isExcluded_unread (tokens : List Token) :
    isExcluded (tokens.map unread) = isExcluded tokens :=
  has_unread (by decide) tokens

/-- Conditional rules are told by their names, which are all meaningful. -/
theorem ofRuleName?_meaningless {name : String} (other : name ∉ meaningful) :
    Effect.ofRuleName? name = none := by
  refine List.find?_eq_none.mpr fun effect member holds => other ?_
  obtain ⟨word, listed, spelled⟩ := List.any_eq_true.mp holds
  have conditional : name ∈ conditionalNames := List.mem_flatMap.mpr
    ⟨effect, member, List.mem_map.mpr ⟨word, listed, (of_decide_eq_true spelled).symm⟩⟩
  simp only [meaningful, List.mem_append, conditional, or_true, true_or]

theorem isConditionallyRequired_unread (tokens : List Token) :
    isConditionallyRequired (tokens.map unread) = isConditionallyRequired tokens := by
  rw [isConditionallyRequired, List.any_map, isConditionallyRequired]
  refine congrArg (tokens.any ·) (funext fun t => ?_)
  refine eq_of_unread (f := fun t => decide (Effect.ofRuleName? t.name = some .required))
    (fun s other => ?_) t
  rw [ofRuleName?_meaningless other, ofRuleName?_meaningless (source_meaningless s)]

end Token

theorem FieldType.ofTokens_unread (tokens : List Token) (fallback : FieldType) :
    FieldType.ofTokens (tokens.map Token.unread) fallback =
      FieldType.ofTokens tokens fallback := by
  rw [FieldType.ofTokens, FieldType.ofTokens, Token.has_unread (by decide),
    Token.has_unread (by decide), Token.has_unread (by decide), Token.has_unread (by decide)]

theorem Pattern.ofTokens?_unread (tokens : List Token) :
    Pattern.ofTokens? (tokens.map Token.unread) = Pattern.ofTokens? tokens := by
  rw [Pattern.ofTokens?, Token.findNamed_unread (by decide), Pattern.ofTokens?]

/-! ## Passwords -/

namespace PasswordRequirements

/-- Password rules are found in source text as in rule texts. -/
theorem isPasswordToken_unread (t : Token) : isPasswordToken t.unread = isPasswordToken t :=
  Token.eq_of_unread (fun _ _ => rfl) t

theorem ofTokens?_unread (tokens : List Token) :
    ofTokens? (tokens.map Token.unread) = ofTokens? tokens := by
  have same : isPasswordToken ∘ Token.unread = isPasswordToken := funext isPasswordToken_unread
  have texts (t : Token) : t.unread.text = t.text :=
    Token.eq_of_unread (f := Token.text) (fun _ _ => rfl) t
  rw [ofTokens?, List.find?_map, same, ofTokens?]
  cases tokens.find? isPasswordToken with
  | none => rfl
  | some t => simp only [Option.map_some, Option.mapM_some, texts]

end PasswordRequirements

namespace Format

theorem ofDateToken?_unread (t : Token) : ofDateToken? t.unread = ofDateToken? t := by
  refine Token.eq_of_unread (fun s other => ?_) t
  have apart : ∀ name ∈ Token.meaningful, (Token.rule s).name ≠ name :=
    fun name means same => other (same ▸ means)
  unfold ofDateToken?
  rw [if_neg (apart "date" (by decide)), if_neg (apart "datetime" (by decide)),
    if_neg (apart "date_format" (by decide))]
  rfl

theorem ofTokens?_unread (tokens : List Token) :
    ofTokens? (tokens.map Token.unread) = ofTokens? tokens := by
  have passwords : (tokens.map Token.unread).any PasswordRequirements.isPasswordToken =
      tokens.any PasswordRequirements.isPasswordToken := by
    rw [List.any_map]
    exact congrArg (tokens.any ·) (funext PasswordRequirements.isPasswordToken_unread)
  have dates : ofDateTokens? (tokens.map Token.unread) = ofDateTokens? tokens := by
    rw [ofDateTokens?, List.findSome?_map, ofDateTokens?]
    exact congrArg (tokens.findSome? ·) (funext ofDateToken?_unread)
  have named : (byRule.find? fun entry => Token.has [entry.1] (tokens.map Token.unread)) =
      byRule.find? fun entry => Token.has [entry.1] tokens := by
    refine List.find?_congr fun entry member => Token.has_unread ?_ tokens
    have known : ∀ entry ∈ byRule, [entry.1].all (Token.meaningful.contains ·) = true := by decide
    exact known entry member
  rw [ofTokens?, passwords, dates, named, ofTokens?]

end Format

/-! ## Bounds and examples -/

namespace Limits

theorem parameters?_meaningless {t : Token} (other : t.name ∉ Token.meaningful) :
    parameters? t = none := by
  have known : Token.boundNames.all (Token.meaningful.contains ·) = true := by decide
  rw [parameters?, Token.contains_of_meaningless known other]
  rfl

theorem ofValues_unread (tokens : List Token) :
    ofValues (tokens.map Token.unread) = ofValues tokens := by
  rw [ofValues_eq, List.map_map, ofValues_eq]
  refine congrArg (fun f => latest (tokens.map f)) (funext ?_)
  refine Token.eq_of_unread fun s other => ?_
  rw [ofValueToken, ofValueToken, parameters?_meaningless other,
    parameters?_meaningless (Token.source_meaningless s)]

theorem ofCounts_unread (tokens : List Token) :
    ofCounts (tokens.map Token.unread) = ofCounts tokens := by
  rw [ofCounts_eq, ofCounts_eq, Token.mapM_unread]
  refine Token.eq_of_unread fun s other => ?_
  rw [ofCountToken, ofCountToken, parameters?_meaningless other,
    parameters?_meaningless (Token.source_meaningless s)]

end Limits

theorem boundsOf_unread (type : FieldType) (tokens : List Token) :
    FieldRules.boundsOf type (tokens.map Token.unread) = FieldRules.boundsOf type tokens := by
  simp only [FieldRules.boundsOf, Bounds.ofTokens, Limits.ofValues_unread,
    Limits.ofCounts_unread, PasswordRequirements.ofTokens?_unread]

namespace Example

theorem interval_unread (integer : Bool) (tokens : List Token) :
    Interval.ofTokens integer (tokens.map Token.unread) = Interval.ofTokens integer tokens := by
  rw [Interval.ofTokens_eq, Interval.ofTokens_eq, Token.mapM_unread]
  refine Token.eq_of_unread fun s other => ?_
  have apart : ∀ name ∈ Token.meaningful, (Token.rule s).name ≠ name :=
    fun name means same => other (same ▸ means)
  have between := apart "between" (by decide)
  have least := apart "min" (by decide)
  have most := apart "max" (by decide)
  have atLeast := apart "gte" (by decide)
  have atMost := apart "lte" (by decide)
  have above := apart "gt" (by decide)
  have below := apart "lt" (by decide)
  change Except.ok {} = Interval.ofToken integer (.rule s)
  rw [Interval.ofToken]
  split
  · rw [Interval.restrict.eq_def]
    split
    · rfl
    · simp [between, least, most, atLeast, atMost, above, below]
  · rfl

theorem ofField_unread (room : Int) (field : String) (tokens : List Token) (type : FieldType)
    (format : Option Format) (enumeration : Option Enumeration) :
    ofField room field (tokens.map Token.unread) type format enumeration =
      ofField room field tokens type format enumeration := by
  have has (names : List String) (known : names.all (Token.meaningful.contains ·) = true) :=
    Token.has_unread known tokens
  have find? (names : List String) (known : names.all (Token.meaningful.contains ·) = true) :=
    Token.findNamed_unread known tokens
  have accepted := has ["accepted", "accepted_if"] (by decide)
  have declined := has ["declined", "declined_if"] (by decide)
  have zone := has ["timezone"] (by decide)
  have json := has ["json"] (by decide)
  have dates := find? ["date_format"] (by decide)
  have choices := find? ["in"] (by decide)
  have places := find? ["decimal"] (by decide)
  simp only [ofField, integer, number, decimalPlaces?, text, interval_unread, accepted, declined,
    zone, json, dates, choices, places]

end Example

/-! ## Uploads -/

namespace Upload

theorem statement_unread (t : Token) : Statement.ofToken t.unread = Statement.ofToken t := by
  refine Token.eq_of_unread (fun s other => ?_) t
  have apart : ∀ name ∈ Token.meaningful, (Token.rule s).name ≠ name :=
    fun name means same => other (same ▸ means)
  change Except.ok {} = Statement.ofToken (.rule s)
  unfold Statement.ofToken
  simp only
  split
  · exact absurd ‹_› (apart "image" (by decide))
  · exact absurd ‹_› (apart "mimes" (by decide))
  · exact absurd ‹_› (apart "mimetypes" (by decide))
  · exact absurd ‹_› (apart "max" (by decide))
  · exact absurd ‹_› (apart "min" (by decide))
  · exact absurd ‹_› (apart "size" (by decide))
  · exact absurd ‹_› (apart "between" (by decide))
  · exact absurd ‹_› (apart "dimensions" (by decide))
  · rfl

theorem ofTokens?_unread (field : String) (tokens : List Token) :
    ofTokens? field (tokens.map Token.unread) = ofTokens? field tokens := by
  rw [ofTokens?, isUpload, Token.has_unread (by decide), reading_eq,
    Token.mapM_unread statement_unread, ofTokens?, isUpload, reading_eq]

end Upload

/-! ## Descriptions -/

namespace Description

theorem valueClause?_meaningless {name : String} (other : name ∉ Token.meaningful)
    (field value : String) : valueClause? name field value = none := by
  unfold valueClause?
  split
  · exact absurd (by decide) other
  · exact absurd (by decide) other
  · exact absurd (by decide) other
  · exact absurd (by decide) other
  · rfl

theorem opening?_meaningless {name : String} (other : name ∉ Token.meaningful) :
    opening? name = none := by
  unfold opening?
  split
  case h_11 => rfl
  all_goals exact absurd (by decide) other

theorem clause?_unread (t : Token) : clause? t.unread = clause? t := by
  refine Token.eq_of_unread (fun s other => ?_) t
  have zone : (Token.rule s).name ≠ "timezone" := fun same => other (same ▸ by decide)
  have plain : clause?.clauseOfParameters (.rule s) = none := by
    rw [clause?.clauseOfParameters, if_neg zone, opening?_meaningless other, Option.map_none,
      ite_self]
  change none = clause? (.rule s)
  unfold clause?
  simp only [valueClause?_meaningless other, Option.none_or, plain]
  split
  · rfl
  · rfl

/-- Tokens that are found by meaningful names are what they were. -/
theorem firstNamed_unread {names : List String}
    (known : names.all (Token.meaningful.contains ·) = true) (tokens : List Token) :
    firstNamed names (tokens.map Token.unread) = firstNamed names tokens := by
  induction tokens generalizing names with
  | nil => rfl
  | cons t rest ih =>
    rw [List.map_cons, firstNamed, firstNamed, Token.contains_unread known]
    split
    · rename_i listed
      rw [Token.unread_of_meaningful (Token.mem_meaningful_of_contains known listed)]
      congr 1
      refine ih (List.all_eq_true.mpr fun name member => ?_)
      exact List.all_eq_true.mp known name (List.mem_of_mem_erase member)
    · exact ih known

theorem ofField_unread (field : String) (tokens : List Token) (type : FieldType)
    (enumeration : Option Enumeration) :
    ofField field (tokens.map Token.unread) type enumeration =
      ofField field tokens type enumeration := by
  have lengths : lengthNotes (tokens.map Token.unread) = lengthNotes tokens := by
    rw [lengthNotes, firstNamed_unread (by decide), lengthNotes]
  have same : clauses (tokens.map Token.unread) = clauses tokens := by
    rw [clauses, List.filterMap_map, clauses]
    exact congrArg (fun f => Upload.distinct (tokens.filterMap f)) (funext clause?_unread)
  simp only [ofField, lengths, same]

end Description

/-! ## Enumerations -/

namespace EnumReference

theorem ofToken?_unread (t : Token) : ofToken? t.unread = ofToken? t := by
  refine Token.eq_of_unread (fun s other => ?_) t
  have apart : (Token.rule s).name ≠ "enum" := fun same => other (same ▸ by decide)
  unfold ofToken?
  simp only [if_neg apart]

theorem first?_unread (space : Option String) (aliases : OrderedMap String String)
    (tokens : List Token) :
    first? space aliases (tokens.map Token.unread) = first? space aliases tokens := by
  induction tokens with
  | nil => rfl
  | cons t rest ih =>
    rw [List.map_cons, first?, first?, ih, lookUp, lookUp, ofToken?_unread]

end EnumReference

end RequestSchema
