import RequestSchema.Proofs.Number.Numeral
import RequestSchema.Proofs.Number.Range
import RequestSchema.Proofs.Rule.Statements

/-!
# The limits that rules state

The bounds of a field in closed form. A token counts for a limit if it has the name of a rule about
limits, has parameters, and all of them are finite numbers (`Token.Applies`); each limit is what the
last such token that speaks about it states (`LastStated`). So names of other fields, missing
parameters and a `between` with one parameter neither set a limit nor take one back.

* `boundsOfTokens_stated`: the bounds of every type are found, are those that are stated last, and
  do not change with a token that states nothing;
* `mixedLimits_stated`: a text whose rules are in part of no use.
-/
namespace RequestSchema

def Number.isFinite : Number → Bool
  | int _ => true
  | float x => x.isFinite

/-! ## What a rule states -/

/-- The limits of a quantity: two that it may reach, and two that it may not. -/
inductive Edge where
  | lower
  | upper
  | above
  | below

namespace Edge

def limit {α : Type} : Edge → Limits α → Option α
  | lower => Limits.lower
  | upper => Limits.upper
  | above => Limits.above
  | below => Limits.below

def names (numeric : Bool) : Edge → List String
  | lower => if numeric then ["min", "size", "gte"] else ["min", "size"]
  | upper => if numeric then ["max", "size", "lte"] else ["max", "size"]
  | above => if numeric then ["gt"] else []
  | below => if numeric then ["lt"] else []

end Edge

/-- What a rule with some parameters states at an edge. A `between` needs two parameters, of which
it states one at each of the edges that may be reached. -/
inductive Limits.States {α : Type} (numeric : Bool) (name : String) : List α → Edge → α → Prop
  | first {edge : Edge} {v : α} {rest : List α} :
      name ∈ edge.names numeric → States numeric name (v :: rest) edge v
  | least {v w : α} {rest : List α} :
      name = "between" → States numeric name (v :: w :: rest) .lower v
  | greatest {v w : α} {rest : List α} :
      name = "between" → States numeric name (v :: w :: rest) .upper w

namespace Token

/-- A rule about limits whose parameters are finite numbers, at least one of them. -/
structure Applies (t : Token) (values : List Number) : Prop where
  named : t.name ∈ boundNames
  filled : values ≠ []
  denoted : t.parameterList.map Number.parse? = values.map some
  finite : ∀ v ∈ values, v.isFinite

/-- What a token states at an edge, of a numeric value or of a count. -/
def States (numeric : Bool) (t : Token) (edge : Edge) (v : Number) : Prop :=
  ∃ values, t.Applies values ∧ Limits.States numeric t.name values edge v

/-- No parameter of a rule about limits is infinite. -/
def Unexcessive (t : Token) : Prop :=
  t.name ∈ boundNames → ∀ s ∈ t.parameterList, ∀ negative,
    Number.parse? s ≠ some (.float (.infinite negative))

instance (t : Token) : Decidable t.Unexcessive := inferInstanceAs (Decidable (_ → _))

end Token

/-- What the last token that states something at an edge states there. -/
def LastStated (numeric : Bool) (tokens : List Token) (edge : Edge) (v : Number) : Prop :=
  ∃ before t behind, tokens = before ++ t :: behind ∧ t.States numeric edge v ∧
    ∀ u ∈ behind, ∀ w, ¬ u.States numeric edge w

/-- The integer part of what is stated last at an edge of a count. -/
def LastCounted (tokens : List Token) (edge : Edge) (n : Int) : Prop :=
  ∃ v, LastStated false tokens edge v ∧ v.truncate = .ok n

def FieldType.isNumeric (type : FieldType) : Bool := type = .integer || type = .number

/-- The bounds of a type are what rules state last about them, and there are no others. -/
def Bounds.StatedBy (tokens : List Token) (type : FieldType) (b : Bounds) : Prop :=
  match type with
  | .string =>
      (∀ n, b.minLength = some n ↔ LastCounted tokens .lower n) ∧
      (∀ n, b.maxLength = some n ↔ LastCounted tokens .upper n) ∧
      b = { minLength := b.minLength, maxLength := b.maxLength }
  | .array =>
      (∀ n, b.minItems = some n ↔ LastCounted tokens .lower n) ∧
      (∀ n, b.maxItems = some n ↔ LastCounted tokens .upper n) ∧
      b = { minItems := b.minItems, maxItems := b.maxItems }
  | .integer | .number =>
      (∀ v, b.minimum = some v ↔ LastStated true tokens .lower v) ∧
      (∀ v, b.maximum = some v ↔ LastStated true tokens .upper v) ∧
      (∀ v, b.exclusiveMinimum = some v ↔ LastStated true tokens .above v) ∧
      (∀ v, b.exclusiveMaximum = some v ↔ LastStated true tokens .below v) ∧
      b = { minimum := b.minimum, maximum := b.maximum,
            exclusiveMinimum := b.exclusiveMinimum, exclusiveMaximum := b.exclusiveMaximum }
  | _ => b = {}

/-! ## The limits of single tokens -/

namespace Limits

variable {α β : Type}

theorem states_cons_iff {numeric : Bool} {name : String} {u v : α} {rest : List α} {edge : Edge} :
    States numeric name (u :: rest) edge v ↔ (name ∈ edge.names numeric ∧ v = u) ∨
      (name = "between" ∧ ((edge = .lower ∧ rest ≠ [] ∧ v = u) ∨
        (edge = .upper ∧ rest.head? = some v))) := by
  constructor
  · intro stated
    cases stated with
    | first named => exact .inl ⟨named, rfl⟩
    | least between => exact .inr ⟨between, .inl ⟨rfl, List.cons_ne_nil _ _, rfl⟩⟩
    | greatest between => exact .inr ⟨between, .inr ⟨rfl, rfl⟩⟩
  · rintro (⟨named, rfl⟩ | ⟨between, ⟨rfl, more, rfl⟩ | ⟨rfl, second⟩⟩)
    · exact .first named
    · obtain ⟨w, others, rfl⟩ := List.exists_cons_of_ne_nil more
      exact .least between
    · cases rest with
      | nil => cases second
      | cons w others =>
        cases second
        exact .greatest between

theorem States.mem {numeric : Bool} {name : String} {values : List α} {edge : Edge} {v : α}
    (stated : States numeric name values edge v) : v ∈ values := by
  cases stated with
  | first named => exact List.mem_cons_self
  | least between => exact List.mem_cons_self
  | greatest between => exact List.mem_cons_of_mem _ List.mem_cons_self

/-- A rule limits a quantity by what it states. -/
theorem limit_restrict_iff (numeric : Bool) (name : String) (values : List α) (edge : Edge)
    (v : α) :
    edge.limit (restrict numeric name values {}) = some v ↔ States numeric name values edge v := by
  cases values with
  | nil =>
    constructor
    · intro limited
      cases edge <;> cases limited
    · intro stated
      cases stated
  | cons u rest =>
    rw [states_cons_iff]
    unfold restrict
    cases rest <;> cases edge <;> cases numeric <;> simp [Edge.limit, Edge.names] <;> grind

/-- What is stated about other parameters is made of what is stated about the first ones. -/
theorem states_map_iff {numeric : Bool} {name : String} {values : List α} {edge : Edge}
    (part : α → β) {n : β} : States numeric name (values.map part) edge n ↔
      ∃ v, States numeric name values edge v ∧ part v = n := by
  constructor
  · intro stated
    generalize parts : values.map part = counts at stated
    cases stated with
    | first named =>
      obtain ⟨v, rest, rfl, rfl, -⟩ := List.map_eq_cons_iff.mp parts
      exact ⟨v, .first named, rfl⟩
    | least between =>
      obtain ⟨v, rest, rfl, rfl, others⟩ := List.map_eq_cons_iff.mp parts
      obtain ⟨w, rest, rfl, -, -⟩ := List.map_eq_cons_iff.mp others
      exact ⟨v, .least between, rfl⟩
    | greatest between =>
      obtain ⟨u, rest, rfl, -, others⟩ := List.map_eq_cons_iff.mp parts
      obtain ⟨v, rest, rfl, rfl, -⟩ := List.map_eq_cons_iff.mp others
      exact ⟨v, .greatest between, rfl⟩
  · rintro ⟨v, stated, rfl⟩
    cases stated with
    | first named => exact .first named
    | least between => exact .least between
    | greatest between => exact .greatest between

end Limits

/-- Texts that all denote numbers are read one by one. -/
theorem mapM_parse?_eq_some {texts : List String} {values : List Number} :
    texts.mapM Number.parse? = some values ↔ texts.map Number.parse? = values.map some := by
  induction texts generalizing values with
  | nil => cases values <;> simp
  | cons s rest ih =>
    rw [List.mapM_cons]
    constructor
    · intro read
      obtain ⟨v, first, read⟩ := Option.bind_eq_some_iff.mp read
      obtain ⟨others, later, read⟩ := Option.bind_eq_some_iff.mp read
      cases read
      rw [List.map_cons, List.map_cons, first, ih.mp later]
    · intro denoted
      cases values with
      | nil => cases denoted
      | cons v others =>
        rw [List.map_cons, List.map_cons, List.cons.injEq] at denoted
        rw [denoted.1, ih.mpr denoted.2]
        rfl

namespace Token

variable {t : Token}

/-- The numbers that parameters denote are finite when none of them is infinite. -/
theorem Unexcessive.isFinite (limited : t.Unexcessive) (named : t.name ∈ boundNames) {s : String}
    (member : s ∈ t.parameterList) {v : Number} (denoted : Number.parse? s = some v) :
    v.isFinite = true := by
  cases v with
  | int n => rfl
  | float x =>
    cases x with
    | finite negative m e => rfl
    | infinite negative => exact absurd denoted (limited named s member negative)
    | nan => exact absurd denoted (Number.parse?_ne_nan s)

/-- The parameters that are read are those with which a rule applies. -/
theorem parameters?_iff (limited : t.Unexcessive) {values : List Number} :
    Limits.parameters? t = some values ↔ t.Applies values := by
  unfold Limits.parameters? numbers?
  constructor
  · intro read
    split at read
    · rename_i known
      have named := List.contains_iff_mem.mp known
      split at read
      · cases read
      · rename_i filled
        have denoted := mapM_parse?_eq_some.mp read
        refine ⟨named, ?_, denoted, fun v member => ?_⟩
        · rintro rfl
          exact filled (List.isEmpty_iff.mpr (List.map_eq_nil_iff.mp denoted))
        · have listed : some v ∈ t.parameterList.map Number.parse? := by
            rw [denoted]
            exact List.mem_map_of_mem member
          obtain ⟨s, there, same⟩ := List.mem_map.mp listed
          exact limited.isFinite named there same
    · cases read
  · intro applies
    have filled : t.parameterList.isEmpty = false := by
      rw [List.isEmpty_eq_false_iff]
      intro empty
      have none := applies.denoted
      rw [empty] at none
      exact applies.filled (List.map_eq_nil_iff.mp none.symm)
    rw [if_pos (List.contains_iff_mem.mpr applies.named), filled]
    exact mapM_parse?_eq_some.mpr applies.denoted

/-- The limits that a token puts on a value are what it states. -/
theorem limit_ofValueToken_iff (limited : t.Unexcessive) (edge : Edge) (v : Number) :
    edge.limit (Limits.ofValueToken t) = some v ↔ t.States true edge v := by
  unfold Limits.ofValueToken
  cases read : Limits.parameters? t with
  | none =>
    constructor
    · intro absent
      cases edge <;> cases absent
    · rintro ⟨values, applies, -⟩
      rw [(parameters?_iff limited).mpr applies] at read
      cases read
  | some values =>
    have applies := (parameters?_iff limited).mp read
    rw [Limits.limit_restrict_iff]
    constructor
    · exact fun stated => ⟨values, applies, stated⟩
    · rintro ⟨values', applies', stated⟩
      rw [(parameters?_iff limited).mpr applies'] at read
      cases read
      exact stated

/-- The integer parts of the parameters with which a rule applies are found. -/
theorem Applies.counts {values : List Number} (applies : t.Applies values) :
    ∃ part : Number → Int, (∀ v ∈ values, v.truncate = .ok (part v)) ∧
      values.mapM Number.truncate = .ok (values.map part) := by
  have whole : ∀ v ∈ values, v.truncate = .ok (v.truncate.toOption.getD 0) := by
    intro v member
    have finite := applies.finite v member
    cases v with
    | int n => rfl
    | float x =>
      obtain ⟨n, found, -⟩ := Binary64.truncate_ends finite
      rw [Number.truncate, found]
      rfl
  exact ⟨_, whole, mapM_eq_ok whole⟩

/-- What is stated about a count has an integer part. -/
theorem States.truncate {edge : Edge} {v : Number} (stated : t.States false edge v) :
    ∃ n, v.truncate = .ok n := by
  obtain ⟨values, applies, stated⟩ := stated
  obtain ⟨part, whole, -⟩ := applies.counts
  exact ⟨part v, whole v stated.mem⟩

/-- The limits that a token puts on a count are the integer parts of what it states. -/
theorem limit_ofCountToken (limited : t.Unexcessive) :
    Limits.ofCountToken t = .ok (.ofLengthToken t) ∧
      ∀ edge n, edge.limit (Limits.ofLengthToken t) = some n ↔
        ∃ v, t.States false edge v ∧ v.truncate = .ok n := by
  unfold Limits.ofLengthToken Limits.ofCountToken
  cases read : Limits.parameters? t with
  | none =>
    refine ⟨rfl, fun edge n => ⟨fun absent => ?_, ?_⟩⟩
    · cases edge <;> cases absent
    · rintro ⟨v, ⟨values, applies, -⟩, -⟩
      rw [(parameters?_iff limited).mpr applies] at read
      cases read
  | some values =>
    have applies := (parameters?_iff limited).mp read
    obtain ⟨part, whole, counts⟩ := applies.counts
    have single (v : Number) (n : Int) (member : v ∈ values) :
        v.truncate = .ok n ↔ part v = n := by
      rw [whole v member, Except.ok.injEq]
    simp only [counts]
    refine ⟨rfl, fun edge n => ?_⟩
    refine (Limits.limit_restrict_iff ..).trans ((Limits.states_map_iff part).trans ?_)
    constructor
    · rintro ⟨v, stated, same⟩
      exact ⟨v, ⟨values, applies, stated⟩, (single v n stated.mem).mpr same⟩
    · rintro ⟨v, ⟨values', applies', stated⟩, same⟩
      rw [(parameters?_iff limited).mpr applies'] at read
      cases read
      exact ⟨v, stated, (single v n stated.mem).mp same⟩

end Token

/-! ## The limits of all tokens -/

namespace Limits

variable {α : Type}

theorem limit_latest (read : Token → Limits α) (tokens : List Token) (edge : Edge) :
    edge.limit (latest (tokens.map read)) =
      tokens.findSomeRev? fun t => edge.limit (read t) := by
  cases edge <;> exact findSomeRev?_map ..

theorem eq_of_limit {l l' : Limits α} (same : ∀ edge : Edge, edge.limit l = edge.limit l') :
    l = l' := by
  have lower := same .lower
  have upper := same .upper
  have above := same .above
  have below := same .below
  cases l
  cases l'
  simp_all [Edge.limit]

/-- What limits no edge is nothing. -/
theorem eq_empty_of_limit {l : Limits α} (silent : ∀ edge a, Edge.limit edge l ≠ some a) :
    l = {} := by
  refine eq_of_limit fun edge => ?_
  rw [Option.eq_none_iff_forall_ne_some.mpr (silent edge)]
  cases edge <;> rfl

/-- Where the limits of single tokens are made of what these state, the last ones are made of what
is stated last. -/
theorem limit_latest_iff {numeric : Bool} {tokens : List Token} {read : Token → Limits α}
    {edge : Edge} {makes : Number → α → Prop}
    (each : ∀ t ∈ tokens, ∀ a, edge.limit (read t) = some a ↔
      ∃ v, t.States numeric edge v ∧ makes v a)
    (total : ∀ t ∈ tokens, ∀ v, t.States numeric edge v → ∃ a, makes v a) (a : α) :
    edge.limit (latest (tokens.map read)) = some a ↔
      ∃ v, LastStated numeric tokens edge v ∧ makes v a := by
  rw [limit_latest, findSomeRev?_eq_some_iff]
  constructor
  · rintro ⟨before, t, behind, rfl, limited, silent⟩
    obtain ⟨v, stated, made⟩ := (each t (by simp) a).mp limited
    -- What a token behind it states would be made into a limit, and there is none.
    refine ⟨v, ⟨before, t, behind, rfl, stated, fun u member w other => ?_⟩, made⟩
    have there : u ∈ before ++ t :: behind := by simp [member]
    obtain ⟨b, made'⟩ := total u there w other
    have spoken := (each u there b).mpr ⟨w, other, made'⟩
    rw [silent u member] at spoken
    cases spoken
  · rintro ⟨v, ⟨before, t, behind, rfl, stated, silent⟩, made⟩
    refine ⟨before, t, behind, rfl, (each t (by simp) a).mpr ⟨v, stated, made⟩, fun u member => ?_⟩
    rw [Option.eq_none_iff_forall_ne_some]
    intro b limited
    obtain ⟨w, other, -⟩ := (each u (by simp [member]) b).mp limited
    exact silent u member w other

variable {tokens : List Token}

/-- The limits of a value are those that are stated last. -/
theorem ofValues_stated (limited : ∀ t ∈ tokens, t.Unexcessive) (edge : Edge) (v : Number) :
    edge.limit (ofValues tokens) = some v ↔ LastStated true tokens edge v := by
  have each : ∀ t ∈ tokens, ∀ v, edge.limit (ofValueToken t) = some v ↔
      ∃ w, t.States true edge w ∧ w = v := by
    intro t member v
    rw [Token.limit_ofValueToken_iff (limited t member)]
    simp
  rw [ofValues_eq, limit_latest_iff each fun _ _ w _ => ⟨w, rfl⟩]
  simp

/-- The limits of a count are found where no parameter is infinite. -/
theorem ofCounts_latest (limited : ∀ t ∈ tokens, t.Unexcessive) :
    ofCounts tokens = .ok (latest (tokens.map ofLengthToken)) := by
  rw [ofCounts_eq, mapM_eq_ok fun t member => (Token.limit_ofCountToken (limited t member)).1]
  rfl

/-- The limits of a count are the integer parts of what is stated last. -/
theorem ofCounts_stated (limited : ∀ t ∈ tokens, t.Unexcessive) (edge : Edge) (n : Int) :
    edge.limit (latest (tokens.map ofLengthToken)) = some n ↔ LastCounted tokens edge n :=
  limit_latest_iff (fun t member => (Token.limit_ofCountToken (limited t member)).2 edge)
    (fun _ _ _ stated => stated.truncate) n

/-- A token that states nothing does not limit a value. -/
theorem ofValueToken_silent {t : Token} (limited : t.Unexcessive)
    (silent : ∀ edge v, ¬ t.States true edge v) : ofValueToken t = {} := by
  refine eq_empty_of_limit fun edge v stated => ?_
  exact silent edge v ((Token.limit_ofValueToken_iff limited edge v).mp stated)

theorem ofLengthToken_silent {t : Token} (limited : t.Unexcessive)
    (silent : ∀ edge v, ¬ t.States false edge v) : ofLengthToken t = {} := by
  refine eq_empty_of_limit fun edge n counted => ?_
  obtain ⟨v, stated, -⟩ := ((Token.limit_ofCountToken limited).2 edge n).mp counted
  exact silent edge v stated

theorem latest_insert {read : Token → Limits α} {t : Token} (silent : read t = {})
    (before behind : List Token) :
    latest ((before ++ t :: behind).map read) = latest ((before ++ behind).map read) := by
  refine eq_of_limit fun edge => ?_
  rw [limit_latest, limit_latest]
  refine findSomeRev?_insert ?_ before behind
  rw [silent]
  cases edge <;> rfl

end Limits

/-! ## Bounds -/

namespace Bounds

variable {tokens : List Token}

/-- The bounds of a field are found, and are those that are stated last. -/
theorem statedBy_of_unexcessive (type : FieldType) (limited : ∀ t ∈ tokens, t.Unexcessive) :
    ∃ b, Bounds.ofTokens type tokens = .ok b ∧ b.StatedBy tokens type := by
  have counted := Limits.ofCounts_stated limited
  have valued := Limits.ofValues_stated limited
  cases type with
  | string =>
    refine ⟨_, by rw [Bounds.ofTokens, Limits.ofCounts_latest limited]; rfl, ?_⟩
    exact ⟨counted .lower, counted .upper, rfl⟩
  | array =>
    refine ⟨_, by rw [Bounds.ofTokens, Limits.ofCounts_latest limited]; rfl, ?_⟩
    exact ⟨counted .lower, counted .upper, rfl⟩
  | integer | number =>
    exact ⟨_, rfl, valued .lower, valued .upper, valued .above, valued .below, rfl⟩
  | boolean | file | other name => exact ⟨_, rfl, rfl⟩

/-- A token that states nothing changes no bounds. -/
theorem ofTokens_insert (type : FieldType) {before behind : List Token} {t : Token}
    (limited : ∀ u ∈ before ++ t :: behind, u.Unexcessive)
    (silent : ∀ edge v, ¬ t.States type.isNumeric edge v) :
    Bounds.ofTokens type (before ++ t :: behind) = Bounds.ofTokens type (before ++ behind) := by
  have own : t.Unexcessive := limited t (by simp)
  have others : ∀ u ∈ before ++ behind, u.Unexcessive := fun u member =>
    limited u (by simp only [List.mem_append, List.mem_cons] at member ⊢; tauto)
  have counts (uncounted : ∀ edge v, ¬ t.States false edge v) :
      Limits.ofCounts (before ++ t :: behind) = Limits.ofCounts (before ++ behind) := by
    rw [Limits.ofCounts_latest limited, Limits.ofCounts_latest others,
      Limits.latest_insert (Limits.ofLengthToken_silent own uncounted)]
  have values (unvalued : ∀ edge v, ¬ t.States true edge v) :
      Limits.ofValues (before ++ t :: behind) = Limits.ofValues (before ++ behind) := by
    rw [Limits.ofValues_eq, Limits.ofValues_eq,
      Limits.latest_insert (Limits.ofValueToken_silent own unvalued)]
  cases type with
  | string | array => simp only [Bounds.ofTokens, counts silent]
  | integer | number => simp only [Bounds.ofTokens, values silent]
  | boolean | file | other name => rfl

end Bounds

/-- Where no rule about limits has an infinite parameter, the bounds of a field are found. They are
what the last rules state about them, of those rules that have finite numbers for parameters, and
a rule that states nothing does not change them. -/
theorem boundsOfTokens_stated (type : FieldType) (tokens : List Token)
    (limited : ∀ t ∈ tokens, t.Unexcessive) :
    ∃ b, Bounds.ofTokens type tokens = .ok b ∧ b.StatedBy tokens type ∧
      ∀ before behind t, tokens = before ++ t :: behind →
        (∀ edge v, ¬ t.States type.isNumeric edge v) →
        Bounds.ofTokens type (before ++ behind) = .ok b := by
  obtain ⟨b, found, stated⟩ := Bounds.statedBy_of_unexcessive type limited
  refine ⟨b, found, stated, ?_⟩
  rintro before behind t rfl silent
  rw [← found, Bounds.ofTokens_insert type limited silent]

/-- Rules of a text of which some do not limit it: they compare it with another field, belong to
numeric values only, have no number or one too few. -/
def mixedLimits : List Token :=
  [.rule "min:3", .rule "between:2.9,10", .rule "gt:other", .rule "lte:4", .rule "max:many",
    .rule "between:5", .rule "size"]

theorem mixedLimits_stated :
    (∀ t ∈ mixedLimits, t.Unexcessive) ∧
      ∃ b, Bounds.ofTokens .string mixedLimits = .ok b ∧
        b = { minLength := some 2, maxLength := some 10 } ∧ b.StatedBy mixedLimits .string ∧
        Bounds.ofTokens .string
          [.rule "min:3", .rule "between:2.9,10", .rule "lte:4", .rule "max:many",
            .rule "between:5", .rule "size"] = .ok b := by
  have limited : ∀ t ∈ mixedLimits, t.Unexcessive := by decide +kernel
  obtain ⟨b, found, stated, unchanged⟩ := boundsOfTokens_stated .string mixedLimits limited
  have read : (Bounds.ofTokens .string mixedLimits).toOption =
      some { minLength := some 2, maxLength := some 10 } := by decide +kernel
  have silent : ∀ edge v, ¬ (Token.rule "gt:other").States false edge v := by
    rintro edge v ⟨values, applies, -⟩
    have denoted : [none] = values.map some := by
      rw [← applies.denoted]
      decide +kernel
    cases values with
    | nil => cases denoted
    | cons w rest => cases denoted
  refine ⟨limited, b, found, ?_, stated, ?_⟩
  · rw [found] at read
    exact Option.some.inj read
  · exact unchanged [.rule "min:3", .rule "between:2.9,10"] _ (.rule "gt:other") rfl silent

end RequestSchema
