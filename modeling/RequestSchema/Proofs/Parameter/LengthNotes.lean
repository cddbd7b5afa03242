import RequestSchema.Proofs.Number.Numeral
import RequestSchema.Proofs.Parameter.Reading
import RequestSchema.Proofs.Parameter.UploadInformation
import RequestSchema.Proofs.Rule.Repetition
import RequestSchema.Proofs.Text.Recognition

/-!
# Lengths that descriptions tell

The description of a text shows the parameters of the first rule about each end of its length, and
the length that is published is the one that is stated last. The two are read on their own, so what
a description tells is true where they happen to agree.

* `lengths_told_iff`: each end of a length is told as it is published exactly when the first rule
  named for it shows the number that is stated last;
* `firstIsLast_of_agreement`: which is so when one number is stated throughout;
* `twiceLimited_misstated`: a second, different limit is published and not told.
-/
namespace RequestSchema

open RequestSchema.Text

/-! ## The ends of a length -/

/-- An end of a length. -/
inductive LengthSide where
  | least
  | greatest
  deriving DecidableEq

namespace LengthSide

def word : LengthSide → String
  | least => "min"
  | greatest => "max"

def limit : LengthSide → Limits Int → Option Int
  | least => Limits.lower
  | greatest => Limits.upper

def bound : LengthSide → Bounds → Option Int
  | least => Bounds.minLength
  | greatest => Bounds.maxLength

def note (side : LengthSide) (shown : String) : String :=
  side.word ++ " " ++ shown ++ " characters"

end LengthSide

/-- The limit at an end that is stated last. -/
def LengthSide.stated (side : LengthSide) (tokens : List Token) : Option Int :=
  tokens.findSomeRev? fun token => side.limit (.ofLengthToken token)

/-- Whether a number is an integer, of either kind. -/
def Number.is (v : Number) (n : Int) : Bool :=
  match v with
  | .int m => m = n
  | .float x => x.fraction?.any fun (num, den) => num = n * den

/-- The first rule named for an end shows the limit that is stated last there. -/
def LengthSide.FirstIsLast (side : LengthSide) (tokens : List Token) : Prop :=
  ∀ t, Token.find? [side.word] tokens = some t → ∃ v n,
    Number.parse? t.parameters = some v ∧ side.stated tokens = some n ∧ v.is n

/-- What the notes on the length of a text tell about an end is published: the text in a note
denotes the bound. -/
def Parameter.TellsLength (p : Parameter) (side : LengthSide) : Prop :=
  ∀ shown, side.note shown ∈ Description.lengthNotes p.tokens → ∃ v n,
    Number.parse? shown = some v ∧ side.bound p.bounds = some n ∧ v.is n

/-- The description of a text is made from its rules, with a remark where several branches mention
the field. -/
def Parameter.IsGenerated (p : Parameter) : Prop :=
  ∃ enumeration branches, p.description =
    { FieldRules.bare p.name p.tokens with branches }.remark
      (Description.ofField p.name p.tokens .string enumeration)

/-! ## The rule that is shown -/

theorem Token.findNamed_cons (n : String) (u : Token) (rest : List Token) :
    Token.find? [n] (u :: rest) = if u.name = n then some u else Token.find? [n] rest := by
  rw [Token.find?, Token.find?, List.find?_cons]
  by_cases named : u.name = n
  · simp [named]
  · simp [named]

theorem Token.name_of_findNamed {n : String} {tokens : List Token} {t : Token}
    (first : Token.find? [n] tokens = some t) : t.name = n := by
  simpa using List.find?_some first

/-- Notes about the ends of a length are told apart by the name in front. -/
theorem LengthSide.eq_of_note {side : LengthSide} {name parameters shown : String}
    (named : name ∈ ["min", "max"])
    (same : name ++ " " ++ parameters ++ " characters" = side.note shown) :
    name = side.word ∧ parameters = shown := by
  have lengths : name.toList.length = side.word.toList.length := by
    simp only [List.mem_cons, List.not_mem_nil, or_false] at named
    rcases named with rfl | rfl <;> cases side <;> decide
  have chars := congrArg String.toList same
  simp only [note, String.toList_append, List.append_assoc] at chars
  obtain ⟨words, rest⟩ := List.append_inj chars lengths
  exact ⟨String.toList_inj.mp words,
    String.toList_inj.mp (List.append_cancel_right (List.append_cancel_left rest))⟩

namespace Description

/-- The tokens that are taken are the first ones of their names. -/
theorem mem_firstNamed {names : List String} (different : names.Nodup) {tokens : List Token}
    {t : Token} :
    t ∈ firstNamed names tokens ↔ t.name ∈ names ∧ Token.find? [t.name] tokens = some t := by
  induction tokens generalizing names with
  | nil => simp [firstNamed, Token.find?]
  | cons u rest ih =>
    rw [firstNamed, Token.findNamed_cons]
    by_cases same : u.name = t.name
    · rw [if_pos same]
      split
      · rename_i listed
        rw [List.mem_cons, ih (different.erase _), same]
        have taken : t.name ∉ names.erase t.name := different.not_mem_erase
        have named : t.name ∈ names := by simpa [same] using listed
        simp [taken, named, eq_comm]
      · rename_i unlisted
        rw [ih different]
        have unnamed : t.name ∉ names := by simpa [same] using unlisted
        simp [unnamed]
    · rw [if_neg same]
      have other : t ≠ u := fun equal => same (congrArg Token.name equal.symm)
      split
      · rw [List.mem_cons, ih (different.erase _), different.mem_erase_iff]
        simp [other, Ne.symm same]
      · exact ih different

/-- A note about an end shows the parameters of the first rule named for it. -/
theorem mem_lengthNotes {side : LengthSide} {shown : String} {tokens : List Token} :
    side.note shown ∈ lengthNotes tokens ↔
      ∃ t, Token.find? [side.word] tokens = some t ∧ t.parameters = shown := by
  have words : side.word ∈ ["min", "max"] := by cases side <;> decide
  rw [lengthNotes, List.mem_map]
  constructor
  · rintro ⟨t, taken, same⟩
    obtain ⟨named, first⟩ := (mem_firstNamed (by decide)).mp taken
    obtain ⟨own, equal⟩ := LengthSide.eq_of_note named same
    exact ⟨t, own ▸ first, equal⟩
  · rintro ⟨t, first, rfl⟩
    have named := Token.name_of_findNamed first
    refine ⟨t, (mem_firstNamed (by decide)).mpr ⟨named ▸ words, named ▸ first⟩, ?_⟩
    rw [named, LengthSide.note]

end Description

/-! ## The limit that is stated -/

/-- A rule whose parameters denote one number has that number as its only one: a numeral holds no
comma. -/
theorem Token.numbers?_of_parse {t : Token} {v : Number}
    (denotes : Number.parse? t.parameters = some v) : t.numbers? = some [v] := by
  have whole : ',' ∉ t.parameters.toList := by
    intro comma
    rw [Number.parse?_of_foreign (by decide) comma] at denotes
    cases denotes
  have filled : t.parameters.isEmpty = false := by
    cases empty : t.parameters.isEmpty with
    | false => rfl
    | true =>
      rw [String.isEmpty_iff.mp empty] at denotes
      cases denotes
  have single : t.parameterList = [trim t.parameters] := by
    rw [parameterList, filled, split_of_absent whole]
    rfl
  have trimmed : Number.parse? (trim t.parameters) = some v := by
    rw [← denotes, Number.parse?, Number.parse?, trim_trim]
  rw [numbers?, single]
  simp [trimmed]

namespace LengthSide

/-- A rule named for an end that shows a number limits that end by its integer part. -/
theorem ofCountToken_of_parse {side : LengthSide} {t : Token} {v : Number}
    (named : t.name = side.word) (denotes : Number.parse? t.parameters = some v) :
    Limits.ofCountToken t =
      (fun m => Limits.restrict false side.word [m] {}) <$> v.truncate := by
  have listed : Token.boundNames.contains t.name = true := by
    rw [named]
    cases side <;> decide
  rw [Limits.ofCountToken, Limits.parameters?, if_pos listed, Token.numbers?_of_parse denotes,
    named]
  simp only [List.mapM_cons, List.mapM_nil]
  cases v.truncate with
  | error fault => rfl
  | ok m => rfl

theorem limit_of_parse {side : LengthSide} {t : Token} {v : Number} {limits : Limits Int}
    (named : t.name = side.word) (denotes : Number.parse? t.parameters = some v)
    (read : Limits.ofCountToken t = .ok limits) :
    ∃ m, v.truncate = .ok m ∧ side.limit limits = some m := by
  rw [ofCountToken_of_parse named denotes] at read
  cases part : v.truncate with
  | error fault =>
    rw [part] at read
    cases read
  | ok m =>
    rw [part] at read
    cases read
    exact ⟨m, rfl, by cases side <;> rfl⟩

end LengthSide

namespace LengthSide

variable {side : LengthSide} {tokens : List Token} {b : Bounds}

/-- Where bounds are found, every token can be read. -/
theorem counts_of_boundsOf (ends : FieldRules.boundsOf .string tokens = .ok b) :
    ∃ limits, Limits.ofCounts tokens = .ok limits := by
  obtain ⟨own, read, -⟩ := exists_of_bind_ok ends
  obtain ⟨limits, counts, -⟩ := exists_of_bind_ok read
  exact ⟨limits, counts⟩

/-- A limit that is stated is published: the rules of a password do not count beside it. -/
theorem bound_of_stated {n : Int} (ends : FieldRules.boundsOf .string tokens = .ok b)
    (last : side.stated tokens = some n) : side.bound b = some n := by
  obtain ⟨own, read, ends⟩ := exists_of_bind_ok ends
  obtain ⟨limits, counts, built⟩ := exists_of_bind_ok read
  have limited : side.limit limits = some n := by
    rw [← last, (Limits.eq_latest_of_counts counts).1, stated]
    cases side <;> exact findSomeRev?_map _ _ _
  cases built
  split at ends
  · rename_i unstated
    simp only [Bool.and_eq_true, Option.isNone_iff_eq_none] at unstated
    have absent : side.limit limits = none := by
      cases side
      · exact unstated.1.2
      · exact unstated.2
    rw [absent] at limited
    cases limited
  · cases ends
    cases side <;> exact limited

/-- Where a token states a limit, some limit is the last one. -/
theorem exists_stated {t : Token} {m : Int} (member : t ∈ tokens)
    (limited : side.limit (.ofLengthToken t) = some m) : ∃ n, side.stated tokens = some n := by
  rw [← Option.isSome_iff_exists, stated, List.findSomeRev?_eq_findSome?_reverse,
    List.findSome?_isSome_iff]
  exact ⟨t, List.mem_reverse.mpr member, by rw [limited]; rfl⟩

end LengthSide

/-- An integer is its own integer part. -/
theorem Number.truncate_of_is {v : Number} {n : Int} (same : v.is n) : v.truncate = .ok n := by
  cases v with
  | int m =>
    rw [of_decide_eq_true same]
    rfl
  | float x =>
    cases x with
    | finite negative m e =>
      have positive : (2 ^ (-(min e 0)).toNat : Nat) ≠ 0 := Nat.two_pow_pos _ |>.ne'
      have multiple := of_decide_eq_true same
      simp only [truncate, Binary64.truncate, Binary64.truncate?, Binary64.fraction?,
        Option.map_some, multiple]
      rw [Int.mul_tdiv_cancel _ (Int.natCast_ne_zero.mpr positive)]
    | infinite negative => cases same
    | nan => cases same

/-- Where one number is stated for an end throughout, the first rule shows what the last one
states. -/
theorem LengthSide.firstIsLast_of_agreement {side : LengthSide} {tokens : List Token} {n : Int}
    (shown : ∀ t ∈ tokens, t.name = side.word → ∃ v, Number.parse? t.parameters = some v ∧ v.is n)
    (limited : ∀ t ∈ tokens, ∀ m ∈ side.limit (.ofLengthToken t), m = n) :
    side.FirstIsLast tokens := by
  intro t first
  have member := List.mem_of_find?_eq_some first
  obtain ⟨v, denotes, same⟩ := shown t member (Token.name_of_findNamed first)
  refine ⟨v, n, denotes, ?_, same⟩
  have own : side.limit (.ofLengthToken t) = some n := by
    rw [Limits.ofLengthToken, ofCountToken_of_parse (Token.name_of_findNamed first) denotes,
      Number.truncate_of_is same]
    cases side <;> rfl
  obtain ⟨m, last⟩ := LengthSide.exists_stated member own
  obtain ⟨u, there, states⟩ := exists_of_findSomeRev? last
  rw [last, limited u there m states]

/-! ## Parameters -/

/-- What is told about an end is published exactly when the rule that is shown says what the last
one does. -/
theorem Parameter.tellsLength_iff {p : Parameter} {side : LengthSide}
    (ends : FieldRules.boundsOf .string p.tokens = .ok p.bounds) :
    p.TellsLength side ↔ side.FirstIsLast p.tokens := by
  constructor
  · intro told t first
    obtain ⟨v, n, denotes, published, same⟩ :=
      told t.parameters (Description.mem_lengthNotes.mpr ⟨t, first, rfl⟩)
    have member := List.mem_of_find?_eq_some first
    obtain ⟨limits, counts⟩ := LengthSide.counts_of_boundsOf ends
    obtain ⟨m, -, limited⟩ := LengthSide.limit_of_parse (Token.name_of_findNamed first) denotes
      ((Limits.eq_latest_of_counts counts).2 t member)
    obtain ⟨last, latest⟩ := LengthSide.exists_stated member limited
    rw [LengthSide.bound_of_stated ends latest] at published
    cases published
    exact ⟨v, _, denotes, latest, same⟩
  · intro agree shown noted
    obtain ⟨t, first, rfl⟩ := Description.mem_lengthNotes.mp noted
    obtain ⟨v, n, denotes, last, same⟩ := agree t first
    exact ⟨v, n, denotes, LengthSide.bound_of_stated ends last, same⟩

/-- A text without a label is described by its rules, and its bounds are made of them. -/
theorem generated_of_parameter {field : FieldRules} {origin : Origin} {p : Parameter}
    (yields : (field.parameter origin).Yields p) (text : p.type = .string)
    (unlabelled : origin.label? p.name = none) :
    p.IsGenerated ∧ FieldRules.boundsOf .string p.tokens = .ok p.bounds := by
  rcases parameter_cases yields with
    ⟨_, _, rfl⟩ | ⟨type, bounds, description, _, _, -, limited, told, -, rfl⟩
  · cases text
  · simp only at text unlabelled limited
    subst text
    refine ⟨?_, limited⟩
    unfold FieldRules.describe at told
    simp only [unlabelled] at told
    obtain ⟨enumeration, -, told⟩ := Analysis.yields_bind told
    exact ⟨enumeration, field.branches, Analysis.yields_pure told⟩

/-- Rules that only ask for a value, or for that of another field, have no clause. -/
theorem Description.clause?_of_name {t : Token} (named : t.name = "required" ∨ t.name = "same") :
    clause? t = none := by
  cases t with
  | rule s =>
    unfold clause?
    simp only
    unfold clause?.clauseOfParameters
    rcases named with named | named <;> rw [named] <;> cases fieldAndValue? _ <;>
      simp [valueClause?, opening?]
  | source s | enumClass name | upload limits => rfl

namespace Parameter

/-- The tokens of a confirmation name no end of a length. -/
theorem name_of_confirmation (p : Parameter) :
    ∀ t ∈ p.confirmation.tokens, t.name = "required" ∨ t.name = "same" := by
  have required : (Token.rule "required").name = "required" := by decide
  unfold confirmation
  cases p.required <;> simp [name_same, required]

theorem findNamed_confirmation (p : Parameter) (side : LengthSide) :
    Token.find? [side.word] p.confirmation.tokens = none := by
  cases first : Token.find? [side.word] p.confirmation.tokens with
  | none => rfl
  | some t =>
    have listed := p.name_of_confirmation t (List.mem_of_find?_eq_some first)
    rw [Token.name_of_findNamed first] at listed
    cases side <;> simp [LengthSide.word] at listed

/-- The description of a confirmation is its label, since its rules have nothing to note. -/
theorem isGenerated_confirmation (p : Parameter) : p.confirmation.IsGenerated := by
  have names := p.name_of_confirmation
  have unnoted : Description.lengthNotes p.confirmation.tokens = [] := by
    rw [Description.lengthNotes, Description.firstNamed_of_unnamed, List.map_nil]
    intro t member
    rcases names t member with named | named <;> simp [named]
  have silent : Description.clauses p.confirmation.tokens = [] := by
    rw [Description.clauses, List.filterMap_eq_nil_iff.mpr fun t member =>
      Description.clause?_of_name (names t member)]
    rfl
  refine ⟨none, 0, ?_⟩
  unfold FieldRules.remark Description.ofField
  rw [unnoted, silent]
  rfl

end Parameter

/-- What is known of a text without a label. -/
structure Parameter.LengthsTold (p : Parameter) : Prop where
  generated : p.IsGenerated
  told : ∀ side : LengthSide, p.TellsLength side ↔ side.FirstIsLast p.tokens

theorem Parameter.lengthsTold_confirmation (p : Parameter) : p.confirmation.LengthsTold where
  generated := p.isGenerated_confirmation
  told side := by
    have unshown := p.findNamed_confirmation side
    constructor
    · intro _ t first
      rw [unshown] at first
      cases first
    · intro _ shown noted
      obtain ⟨t, first, -⟩ := Description.mem_lengthNotes.mp noted
      rw [unshown] at first
      cases first

theorem lengths_told_of_fields {fields : List FieldRules} {origin : Origin} {ps : List Parameter}
    (yields : (Parameter.ofFields fields origin).Yields ps) :
    ∀ p ∈ ps, p.type = .string → origin.label? p.name = none → p.LengthsTold := by
  obtain ⟨mains, rfl, each⟩ := mains_of_fields yields
  intro p member text unlabelled
  obtain ⟨main, there, own⟩ := List.mem_flatMap.mp member
  rcases Parameter.mem_withConfirmation.mp own with rfl | ⟨-, rfl⟩
  · obtain ⟨field, -, built⟩ := exists_left_of_mem each p there
    obtain ⟨generated, limited⟩ := generated_of_parameter built text unlabelled
    exact ⟨generated, fun side => Parameter.tellsLength_iff limited⟩
  · exact main.lengthsTold_confirmation

/-- Whatever parameters are built from, a rule set or branches with their joint rule set: a text
without a label of its own is described by its rules, and each end of its length is told as it is
published exactly when the first rule named for that end shows the number that is stated last. -/
theorem lengths_told_iff {origin : Origin} {ps : List Parameter}
    (built : (∃ rules, (Parameter.ofRuleSet rules origin).Yields ps) ∨
      ∃ rules, (Parameter.ofConditionalRules rules origin).Yields ps) :
    ∀ p ∈ ps, p.type = .string → origin.label? p.name = none → p.LengthsTold := by
  rcases built with ⟨rules, yields⟩ | ⟨rules, yields⟩
  · exact lengths_told_of_fields (Parameter.fields_of_ofRuleSet yields)
  · exact lengths_told_of_fields (Parameter.fields_of_ofConditionalRules yields)

/-- A title whose greatest length is stated twice over, in two ways. -/
def titleRules : RuleSet := .ofList [(.text "title", .text "required|max:255|between:3,255")]

theorem titleRules_told :
    ∃ p, ((Parameter.ofRuleSet titleRules {}).run false {}).result = .ok [p] ∧
      p.type = .string ∧ ({} : Origin).label? p.name = none ∧
      p.description = "Title (max 255 characters)" ∧ p.bounds.maxLength = some 255 ∧
      p.LengthsTold := by
  obtain ⟨ps, returned, published⟩ := exists_ok_of_any
    (show (((Parameter.ofRuleSet titleRules {}).run false {}).result.toOption.any fun ps =>
      ps.map (fun p => (p.name, p.type, p.description, p.bounds.maxLength)) =
        [("title", .string, "Title (max 255 characters)", some 255)]) = true by decide +kernel)
  obtain ⟨p, rfl, same⟩ := List.map_eq_singleton_iff.mp (of_decide_eq_true published)
  simp only [Prod.mk.injEq] at same
  obtain ⟨name, text, told, bound⟩ := same
  have unlabelled : ({} : Origin).label? p.name = none := by rw [name]; rfl
  exact ⟨p, returned, text, unlabelled, told, bound,
    lengths_told_iff (.inl ⟨_, false, {}, returned⟩) p List.mem_cons_self text unlabelled⟩

/-- A name with two greatest lengths. -/
def twiceLimited : RuleSet := .ofList [(.text "name", .text "max:5|max:10")]

/-- The first limit is told and the second one is published. -/
theorem twiceLimited_misstated :
    ∃ p, ((Parameter.ofRuleSet twiceLimited {}).run false {}).result = .ok [p] ∧
      p.type = .string ∧ p.description = "Name (max 5 characters)" ∧
      p.bounds.maxLength = some 10 ∧ ¬ p.TellsLength .greatest := by
  obtain ⟨ps, returned, published⟩ := exists_ok_of_any
    (show (((Parameter.ofRuleSet twiceLimited {}).run false {}).result.toOption.any fun ps =>
      ps.map (fun p => (p.tokens, p.type, p.description, p.bounds.maxLength)) =
        [([.rule "max:5", .rule "max:10"], .string, "Name (max 5 characters)", some 10)]) = true
      by decide +kernel)
  obtain ⟨p, rfl, same⟩ := List.map_eq_singleton_iff.mp (of_decide_eq_true published)
  simp only [Prod.mk.injEq] at same
  obtain ⟨tokens, text, told, bound⟩ := same
  refine ⟨p, returned, text, told, bound, fun tells => ?_⟩
  have noted : LengthSide.greatest.note "5" ∈ Description.lengthNotes p.tokens := by
    rw [tokens]
    decide +kernel
  obtain ⟨v, n, denotes, limited, same⟩ := tells "5" noted
  have five : Number.parse? "5" = some (.int 5) := by decide +kernel
  rw [five] at denotes
  change p.bounds.maxLength = some n at limited
  rw [bound] at limited
  cases denotes
  cases limited
  cases same

end RequestSchema
