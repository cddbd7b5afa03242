import Mathlib.Data.Int.SuccPred
import RequestSchema.Proofs.Parameter.Fields
import RequestSchema.Proofs.Rule.Readable

/-!
# Examples of integers

The bounds that are published and the interval of the example are read from the same
tokens, but not in the same way. Published are the last inclusive and the last exclusive
bound on each side. The example obeys the bound that is stated last on each side, of
whatever kind, and no bound that a `size` states.

* `integerExample_permitted`: where the bounds that are stated last are as tight as the
  published ones (`LastTightest`), the example is an integer that these permit, if there is
  one;
* `lastTightest_of_oneKind`: they are if no size is stated, and bounds of one kind only on
  each side;
* `misledExamples_outside`: the example of a size, and that of a tight bound before a looser
  one of the other kind, are outside of the published bounds.
-/
namespace RequestSchema

/-! ## Integers between bounds -/

def Number.whole? : Number → Option Int
  | int n => some n
  | float _ => none

def Value.whole? : Value → Option Int
  | number n => n.whole?
  | _ => none

theorem Value.eq_int_of_whole? {v : Value} {k : Int} (whole : v.whole? = some k) : v = .int k := by
  cases v with
  | number n =>
    cases n <;> cases whole
    rfl
  | _ => cases whole

namespace Bounds

def permits (b : Bounds) (n : Int) : Bool :=
  b.minimum.all (fun m => !(Number.int n).lt m) &&
    b.exclusiveMinimum.all (fun m => m.lt (.int n)) &&
    b.maximum.all (fun m => !m.lt (.int n)) &&
    b.exclusiveMaximum.all fun m => (Number.int n).lt m

def least? (b : Bounds) : Option Int :=
  (b.minimum.bind Number.whole?).merge max ((b.exclusiveMinimum.bind Number.whole?).map (· + 1))

/-- The greatest integer that the upper bounds permit, where they are integers. -/
def greatest? (b : Bounds) : Option Int :=
  (b.maximum.bind Number.whole?).merge min ((b.exclusiveMaximum.bind Number.whole?).map (· - 1))

/-- The bounds of a numeric value are integers. -/
structure Whole (b : Bounds) : Prop where
  minimum : ∀ m ∈ b.minimum, ∃ n, m = .int n
  exclusiveMinimum : ∀ m ∈ b.exclusiveMinimum, ∃ n, m = .int n
  maximum : ∀ m ∈ b.maximum, ∃ n, m = .int n
  exclusiveMaximum : ∀ m ∈ b.exclusiveMaximum, ∃ n, m = .int n

theorem whole_cases {bound : Option Number} (whole : ∀ m ∈ bound, ∃ n, m = .int n) :
    bound = none ∨ ∃ n, bound = some (.int n) := by
  cases bound with
  | none => exact .inl rfl
  | some m =>
    obtain ⟨n, rfl⟩ := whole m rfl
    exact .inr ⟨n, rfl⟩

theorem lower_iff {b : Bounds} (whole : b.Whole) (n : Int) :
    (b.minimum.all (fun m => !(Number.int n).lt m) &&
      b.exclusiveMinimum.all fun m => m.lt (.int n)) = true ↔ ∀ k ∈ b.least?, k ≤ n := by
  unfold least?
  rcases whole_cases whole.minimum with inclusive | ⟨m, inclusive⟩ <;>
    rcases whole_cases whole.exclusiveMinimum with exclusive | ⟨e, exclusive⟩ <;>
    simp [inclusive, exclusive, Number.whole?, Number.lt]

theorem upper_iff {b : Bounds} (whole : b.Whole) (n : Int) :
    (b.maximum.all (fun m => !m.lt (.int n)) &&
      b.exclusiveMaximum.all fun m => (Number.int n).lt m) = true ↔
      ∀ k ∈ b.greatest?, n ≤ k := by
  unfold greatest?
  rcases whole_cases whole.maximum with inclusive | ⟨m, inclusive⟩ <;>
    rcases whole_cases whole.exclusiveMaximum with exclusive | ⟨e, exclusive⟩ <;>
    simp [inclusive, exclusive, Number.whole?, Number.lt]

/-- Integer bounds permit the integers from the least to the greatest one. -/
theorem permits_iff {b : Bounds} (whole : b.Whole) (n : Int) :
    b.permits n = true ↔ (∀ k ∈ b.least?, k ≤ n) ∧ ∀ k ∈ b.greatest?, n ≤ k := by
  rw [← lower_iff whole, ← upper_iff whole, permits, Bool.and_assoc, Bool.and_eq_true]

end Bounds

/-! ## What tokens state about integers -/

namespace Token

/-- The parameters of a rule that states a limit are integers, or no numbers, like the
names of other fields. -/
def LimitedByIntegers (t : Token) : Prop :=
  t.name ∈ boundNames → ∀ s ∈ t.parameterList, ∀ n ∈ Number.parse? s, n.whole?.isSome

instance (t : Token) : Decidable t.LimitedByIntegers :=
  inferInstanceAs (Decidable (_ → _))

def least? (t : Token) : Option Int :=
  match t.numbers? with
  | some (.int n :: rest) =>
      if t.name = "min" || t.name = "gte" || (t.name = "between" && !rest.isEmpty) then some n
      else if t.name = "gt" then some (n + 1)
      else none
  | _ => none

def greatest? (t : Token) : Option Int :=
  match t.numbers? with
  | some (.int n :: rest) =>
      if t.name = "max" || t.name = "lte" then some n
      else if t.name = "lt" then some (n - 1)
      else if t.name = "between" then (rest.head?.bind Number.whole?)
      else none
  | _ => none

theorem mem_boundNames {name : String} : name ∈ boundNames ↔
    name = "min" ∨ name = "max" ∨ name = "size" ∨ name = "between" ∨ name = "gt" ∨ name = "gte" ∨
      name = "lt" ∨ name = "lte" := by
  simp [boundNames]

theorem LimitedByIntegers.whole {t : Token} (limited : t.LimitedByIntegers)
    (bound : t.name ∈ boundNames) {values : List Number} (read : t.numbers? = some values) :
    ∀ v ∈ values, ∃ n, v = .int n := by
  intro v member
  obtain ⟨s, there, denoted⟩ := exists_parameter_of_numbers? read v member
  have integer := limited bound s there v denoted
  cases v with
  | int n => exact ⟨n, rfl⟩
  | float x => cases integer

end Token

namespace Example.Interval

def between (low high : Option Int) : Interval where
  minimum := low.map .int
  maximum := high.map .int

/-- What a token states about the example of an integer. -/
theorem ofToken_integer {t : Token} (limited : t.LimitedByIntegers) :
    ofToken true t = .ok (between t.least? t.greatest?) := by
  unfold ofToken Token.least? Token.greatest?
  cases read : t.numbers? with
  | none => rfl
  | some values =>
    by_cases bound : t.name ∈ Token.boundNames
    · have whole := limited.whole bound read
      rcases values with _ | ⟨v, rest⟩
      · rfl
      · obtain ⟨n, rfl⟩ := whole v List.mem_cons_self
        rcases Token.mem_boundNames.mp bound with
          name | name | name | name | name | name | name | name
        case inr.inr.inr.inl =>
          rcases rest with _ | ⟨w, others⟩
          · simp [restrict, name, between]
          · obtain ⟨m, rfl⟩ := whole w (by simp)
            simp [restrict, name, between, Number.whole?]
        all_goals simp [restrict, name, between, stepUp, stepDown]
    · simp only [Token.mem_boundNames, not_or] at bound
      rcases values with _ | ⟨_ | _, rest⟩ <;> simp [restrict, bound, between]

/-- The interval of the example of an integer has the bounds that are stated last. -/
theorem ofTokens_integer {tokens : List Token} (limited : ∀ t ∈ tokens, t.LimitedByIntegers) :
    ofTokens true tokens = .ok
      (between (tokens.findSomeRev? Token.least?) (tokens.findSomeRev? Token.greatest?)) := by
  have stated := mapM_eq_ok fun t member => ofToken_integer (limited t member)
  have lower : tokens.findSomeRev? (fun t => (between t.least? t.greatest?).minimum) =
      (tokens.findSomeRev? Token.least?).map .int := findSomeRev?_eq_map fun _ _ => rfl
  have upper : tokens.findSomeRev? (fun t => (between t.least? t.greatest?).maximum) =
      (tokens.findSomeRev? Token.greatest?).map .int := findSomeRev?_eq_map fun _ _ => rfl
  rw [ofTokens_eq, stated]
  simp only [Except.map_ok, latest, findSomeRev?_map, lower, upper]
  cases tokens.findSomeRev? Token.least? <;> cases tokens.findSomeRev? Token.greatest? <;> rfl

/-- An integer is moved up to the lower bound first, then down to the upper one. -/
theorem clamp_int (low high : Option Int) (n : Int) :
    (between low high).clamp (.int n) =
      .int (high.elim (low.elim n (max n)) (min (low.elim n (max n)))) := by
  have raised (l k : Int) : (if (Number.int k).lt (.int l) then Number.int l else .int k) =
      .int (max k l) := by
    simp only [Number.lt, decide_eq_true_eq]
    split <;> congr 1 <;> omega
  have lowered (h k : Int) : (if (Number.int h).lt (.int k) then Number.int h else .int k) =
      .int (min k h) := by
    simp only [Number.lt, decide_eq_true_eq]
    split <;> congr 1 <;> omega
  unfold clamp between
  cases low <;> cases high <;> simp [raised, lowered]

/-- An integer that is moved between two integers gets there, unless they are in the wrong
order. -/
theorem clamp_between {low high : Option Int} {m : Int} (above : ∀ l ∈ low, l ≤ m)
    (below : ∀ h ∈ high, m ≤ h) (n : Int) :
    ∃ k, (between low high).clamp (.int n) = .int k ∧ (∀ l ∈ low, l ≤ k) ∧ ∀ h ∈ high, k ≤ h := by
  refine ⟨_, clamp_int low high n, ?_, ?_⟩
  · rintro l ⟨⟩
    have there := above l rfl
    cases high with
    | none => exact Int.le_max_right n l
    | some h =>
      have order := below h rfl
      simp only [Option.elim_some]
      omega
  · rintro h ⟨⟩
    exact Int.min_le_right _ h

end Example.Interval

/-- Whatever the name suggests, an integer is moved into the interval. -/
theorem Example.exists_first (field : String) {tokens : List Token} {low high : Option Int}
    (read : Interval.ofTokens true tokens = .ok (Interval.between low high)) :
    ∃ n : Int, Example.integer field tokens =
      ((Interval.between low high).clamp (.int n)).truncate >>= fun k => .ok (.int k) := by
  unfold Example.integer
  rw [read]
  change ∃ n : Int, (Number.truncate (Interval.clamp _ (ite _ _ _)) >>= _) = _
  split
  · exact ⟨1, rfl⟩
  · split
    · exact ⟨25, rfl⟩
    · split
      · exact ⟨10, rfl⟩
      · cases low with
        | none => exact ⟨2, rfl⟩
        | some l => exact ⟨l + 1, rfl⟩

/-- The example of an integer is an integer that the bounds stated last permit, if there is
one. -/
theorem Example.integer_between {tokens : List Token}
    (limited : ∀ t ∈ tokens, t.LimitedByIntegers) {m : Int}
    (above : ∀ l ∈ tokens.findSomeRev? Token.least?, l ≤ m)
    (below : ∀ h ∈ tokens.findSomeRev? Token.greatest?, m ≤ h) (field : String) :
    ∃ k : Int, Example.integer field tokens = .ok (.int k) ∧
      (∀ l ∈ tokens.findSomeRev? Token.least?, l ≤ k) ∧
      ∀ h ∈ tokens.findSomeRev? Token.greatest?, k ≤ h := by
  obtain ⟨n, sample⟩ := Example.exists_first field (Interval.ofTokens_integer limited)
  obtain ⟨k, moved, inside⟩ := Interval.clamp_between above below n
  refine ⟨k, ?_, inside⟩
  rw [sample, moved]
  rfl

/-! ## Published bounds -/

namespace Limits

/-- The limits that are there have a property. -/
structure Each {α : Type} (P : α → Prop) (l : Limits α) : Prop where
  lower : ∀ v ∈ l.lower, P v
  upper : ∀ v ∈ l.upper, P v
  above : ∀ v ∈ l.above, P v
  below : ∀ v ∈ l.below, P v

theorem each_restrict {α : Type} {P : α → Prop} {values : List α} (each : ∀ v ∈ values, P v)
    (numeric : Bool) (name : String) : (restrict numeric name values {}).Each P := by
  unfold restrict
  cases values with
  | nil => exact ⟨by simp, by simp, by simp, by simp⟩
  | cons v rest =>
    have first := each v List.mem_cons_self
    repeat' split
    all_goals constructor
    all_goals simp_all

theorem each_latest {α : Type} {P : α → Prop} {stated : List (Limits α)}
    (each : ∀ l ∈ stated, l.Each P) : (latest stated).Each P := by
  have last (part : Limits α → Option α) (holds : ∀ l ∈ stated, ∀ v ∈ part l, P v) :
      ∀ v ∈ stated.findSomeRev? part, P v := by
    intro v found
    obtain ⟨l, member, states⟩ := exists_of_findSomeRev? found
    exact holds l member v states
  exact ⟨last lower fun l member => (each l member).lower,
    last upper fun l member => (each l member).upper,
    last above fun l member => (each l member).above,
    last below fun l member => (each l member).below⟩

theorem each_ofValues {tokens : List Token} (limited : ∀ t ∈ tokens, t.LimitedByIntegers) :
    (ofValues tokens).Each fun v => ∃ n, v = .int n := by
  rw [ofValues_eq]
  refine each_latest fun l member => ?_
  obtain ⟨t, there, rfl⟩ := List.mem_map.mp member
  unfold ofValueToken
  cases read : parameters? t with
  | none => exact ⟨by simp, by simp, by simp, by simp⟩
  | some values =>
    unfold parameters? at read
    split at read
    · rename_i bound
      exact each_restrict ((limited t there).whole (List.contains_iff_mem.mp bound) read) ..
    · cases read

end Limits

/-- The published bounds of an integer. -/
theorem boundsOf_integer {tokens : List Token} {b : Bounds}
    (stated : FieldRules.boundsOf .integer tokens = .ok b) :
    b = { minimum := (Limits.ofValues tokens).lower
          maximum := (Limits.ofValues tokens).upper
          exclusiveMinimum := (Limits.ofValues tokens).above
          exclusiveMaximum := (Limits.ofValues tokens).below } :=
  (Except.ok.inj stated).symm

theorem whole_of_boundsOf {tokens : List Token} {b : Bounds}
    (limited : ∀ t ∈ tokens, t.LimitedByIntegers)
    (stated : FieldRules.boundsOf .integer tokens = .ok b) : b.Whole := by
  rw [boundsOf_integer stated]
  have each := Limits.each_ofValues limited
  exact ⟨each.lower, each.above, each.upper, each.below⟩

/-! ## Examples within the published bounds -/

/-- On both sides the bound that is stated last, sizes aside, is the tightest published one. -/
structure LastTightest (tokens : List Token) (b : Bounds) : Prop where
  lower : tokens.findSomeRev? Token.least? = b.least?
  upper : tokens.findSomeRev? Token.greatest? = b.greatest?

instance (tokens : List Token) (b : Bounds) : Decidable (LastTightest tokens b) :=
  decidable_of_iff (_ ∧ _)
    ⟨fun ⟨lower, upper⟩ => ⟨lower, upper⟩, fun tightest => ⟨tightest.lower, tightest.upper⟩⟩

/-- A token that is no size states its least integer, and its greatest one, as a bound of
one of the two kinds. -/
theorem Limits.ofValueToken_integer {t : Token} (limited : t.LimitedByIntegers)
    (unsized : t.name ≠ "size") :
    ofValueToken t =
      { lower := if t.name = "gt" then none else t.least?.map .int
        above := if t.name = "gt" then t.least?.map fun n => .int (n - 1) else none
        upper := if t.name = "lt" then none else t.greatest?.map .int
        below := if t.name = "lt" then t.greatest?.map fun n => .int (n + 1) else none } := by
  unfold ofValueToken parameters? Token.least? Token.greatest?
  by_cases bound : t.name ∈ Token.boundNames
  · rw [if_pos (List.contains_iff_mem.mpr bound)]
    cases read : t.numbers? with
    | none => simp
    | some values =>
      have whole := limited.whole bound read
      rcases values with _ | ⟨v, rest⟩
      · simp [restrict]
      · obtain ⟨n, rfl⟩ := whole v List.mem_cons_self
        rcases Token.mem_boundNames.mp bound with
          name | name | name | name | name | name | name | name
        case inr.inr.inl => exact absurd name unsized
        case inr.inr.inr.inl =>
          rcases rest with _ | ⟨w, others⟩
          · simp [restrict, name]
          · obtain ⟨m, rfl⟩ := whole w (by simp)
            simp [restrict, name, Number.whole?]
        all_goals simp [restrict, name]
  · rw [if_neg (mt List.contains_iff_mem.mp bound)]
    simp only [Token.mem_boundNames, not_or] at bound
    rcases t.numbers? with _ | _ | ⟨_ | _, rest⟩ <;> simp [bound]

/-- A token that states no lower bound has no least integer. -/
theorem Token.least?_eq_none {t : Token} (other : t.name ∉ ["min", "gte", "between", "gt"]) :
    t.least? = none := by
  unfold least?
  split
  · simp_all
  · rfl

theorem Token.greatest?_eq_none {t : Token} (other : t.name ∉ ["max", "lte", "between", "lt"]) :
    t.greatest? = none := by
  unfold greatest?
  split
  · simp_all
  · rfl

/-- Where tokens state bounds of one kind only, the other kind has no last bound. -/
theorem latest_of_oneKind {tokens : List Token} {state : Token → Option Int}
    {inside outside : Token → Option Number} {kind : String} {step : Int → Int}
    (inner : ∀ t ∈ tokens, inside t = if t.name = kind then none else (state t).map .int)
    (outer : ∀ t ∈ tokens,
      outside t = if t.name = kind then (state t).map fun n => .int (step n) else none)
    (oneKind : (∀ t ∈ tokens, t.name ≠ kind) ∨ ∀ t ∈ tokens, t.name ≠ kind → state t = none) :
    tokens.findSomeRev? inside = (tokens.findSomeRev? state).map .int ∧
        tokens.findSomeRev? outside = none ∨
      tokens.findSomeRev? inside = none ∧
        tokens.findSomeRev? outside =
          (tokens.findSomeRev? state).map fun n => .int (step n) := by
  rcases oneKind with inclusive | exclusive
  · refine .inl ⟨findSomeRev?_eq_map fun t member => ?_, findSomeRev?_eq_none fun t member => ?_⟩
    · rw [inner t member, if_neg (inclusive t member)]
    · rw [outer t member, if_neg (inclusive t member)]
  · refine .inr ⟨findSomeRev?_eq_none fun t member => ?_, findSomeRev?_eq_map fun t member => ?_⟩
    · rw [inner t member]
      split
      · rfl
      · rename_i other
        rw [exclusive t member other, Option.map_none]
    · rw [outer t member]
      split
      · rfl
      · rename_i other
        rw [exclusive t member other, Option.map_none]

/-- The bound that is stated last on a side is the tightest one where no size is stated, and
bounds of one kind only, inclusive or exclusive, on each side. -/
theorem lastTightest_of_oneKind {tokens : List Token} {b : Bounds}
    (stated : FieldRules.boundsOf .integer tokens = .ok b)
    (limited : ∀ t ∈ tokens, t.LimitedByIntegers) (unsized : ∀ t ∈ tokens, t.name ≠ "size")
    (lower : (∀ t ∈ tokens, t.name ≠ "gt") ∨ ∀ t ∈ tokens, t.name ∉ ["min", "gte", "between"])
    (upper : (∀ t ∈ tokens, t.name ≠ "lt") ∨ ∀ t ∈ tokens, t.name ∉ ["max", "lte", "between"]) :
    LastTightest tokens b := by
  have each (t : Token) (member : t ∈ tokens) :=
    Limits.ofValueToken_integer (limited t member) (unsized t member)
  have least := latest_of_oneKind
    (fun t member => congrArg Limits.lower (each t member))
    (fun t member => congrArg Limits.above (each t member))
    (lower.imp_right fun exclusive t member other =>
      Token.least?_eq_none (by simpa [other] using exclusive t member))
  have greatest := latest_of_oneKind
    (fun t member => congrArg Limits.upper (each t member))
    (fun t member => congrArg Limits.below (each t member))
    (upper.imp_right fun exclusive t member other =>
      Token.greatest?_eq_none (by simpa [other] using exclusive t member))
  rw [boundsOf_integer stated, Limits.ofValues_eq]
  constructor
  · simp only [Bounds.least?, Limits.latest, findSomeRev?_map]
    rcases least with ⟨inclusive, exclusive⟩ | ⟨inclusive, exclusive⟩ <;>
      rw [inclusive, exclusive] <;>
      cases tokens.findSomeRev? Token.least? <;> simp [Number.whole?]
  · simp only [Bounds.greatest?, Limits.latest, findSomeRev?_map]
    rcases greatest with ⟨inclusive, exclusive⟩ | ⟨inclusive, exclusive⟩ <;>
      rw [inclusive, exclusive] <;>
      cases tokens.findSomeRev? Token.greatest? <;> simp [Number.whole?]

/-- The example of a field of integers that is neither chosen from an enumeration nor
accepted or declined. -/
theorem sample_of_integer {field : FieldRules} {origin : Origin} {p : Parameter}
    (yields : (field.parameter origin).Yields p) (type : p.type = .integer)
    (unlisted : p.enumeration.bind (fun e => e.values.head?) = none)
    (undecided : Token.has ["accepted", "accepted_if", "declined", "declined_if"] field.tokens =
      false) :
    FieldRules.boundsOf .integer field.tokens = .ok p.bounds ∧
      Example.integer field.name field.tokens = .ok p.example? := by
  have unaccepted : Token.has ["accepted", "accepted_if"] field.tokens = false := by
    simp_all [Token.has]
  have undeclined : Token.has ["declined", "declined_if"] field.tokens = false := by
    simp_all [Token.has]
  rcases parameter_cases yields with ⟨_, _, rfl⟩ | ⟨_, _, _, _, _, -, stated, -, shown, rfl⟩
  · cases type
  · obtain rfl := type
    simp only at unlisted
    simp only [Example.ofField, unlisted, unaccepted, undeclined] at shown
    exact ⟨stated, shown⟩

/-- The parameter of a field of integers, with bounds that are integers or tell of other
fields: where the bound that is stated last is the tightest one, the example is an integer
that the published bounds permit, if they permit any. -/
theorem integerExample_permitted {field : FieldRules} {origin : Origin} {p : Parameter}
    (yields : (field.parameter origin).Yields p) (type : p.type = .integer)
    (unlisted : p.enumeration.bind (fun e => e.values.head?) = none)
    (undecided : Token.has ["accepted", "accepted_if", "declined", "declined_if"] field.tokens =
      false)
    (limited : ∀ t ∈ field.tokens, t.LimitedByIntegers)
    (tightest : LastTightest field.tokens p.bounds) {n : Int}
    (satisfiable : p.bounds.permits n = true) :
    ∃ k : Int, p.example? = .int k ∧ p.bounds.permits k = true := by
  obtain ⟨stated, shown⟩ := sample_of_integer yields type unlisted undecided
  have whole := whole_of_boundsOf limited stated
  obtain ⟨above, below⟩ := (Bounds.permits_iff whole n).mp satisfiable
  rw [← tightest.lower] at above
  rw [← tightest.upper] at below
  obtain ⟨k, sample, least, greatest⟩ := Example.integer_between limited above below field.name
  rw [tightest.lower] at least
  rw [tightest.upper] at greatest
  rw [shown] at sample
  exact ⟨k, Except.ok.inj sample, (Bounds.permits_iff whole k).mpr ⟨least, greatest⟩⟩

/-- A page between a looser and a tighter lower bound, below another field. -/
def pageField : FieldRules where
  name := "page"
  tokens := [.rule "integer", .rule "gt:2", .rule "min:5", .rule "lt:last_page", .rule "lte:40"]
  required := false
  conditionallyRequired := false
  conditionalRules := []

theorem pageField_permitted :
    ∃ p, ((pageField.parameter {}).run false {}).result = .ok p ∧
      p.bounds = { minimum := some (.int 5), maximum := some (.int 40),
                   exclusiveMinimum := some (.int 2) } ∧
      ∃ k : Int, p.example? = .int k ∧ p.bounds.permits k = true := by
  obtain ⟨p, returned, published⟩ := exists_ok_of_any
    (show (((pageField.parameter {}).run false {}).result.toOption.any fun p =>
      p.type = .integer && p.enumeration.isNone &&
        p.bounds = { minimum := some (.int 5), maximum := some (.int 40),
                     exclusiveMinimum := some (.int 2) }) = true by decide +kernel)
  simp only [Bool.and_eq_true, decide_eq_true_eq, Option.isNone_iff_eq_none] at published
  obtain ⟨⟨type, unlisted⟩, bounds⟩ := published
  refine ⟨p, returned, bounds, integerExample_permitted ⟨false, {}, returned⟩ type ?_ ?_ ?_ ?_
    (n := 5) ?_⟩
  · rw [unlisted]
    rfl
  · decide
  · decide +kernel
  · rw [bounds]
    decide +kernel
  · rw [bounds]
    decide

/-- A size, and a tight bound before a looser one of the other kind. -/
def misledExamples : RuleSet :=
  .ofList [(.text "level", .text "integer|size:5"), (.text "grade", .text "integer|gt:10|min:5")]

/-- The published bounds permit an integer in both cases, but not the one that is the
example. -/
theorem misledExamples_outside :
    ∃ ps, ((Parameter.ofRuleSet misledExamples {}).run false {}).result = .ok ps ∧
      ps.map Parameter.name = ["level", "grade"] ∧
      ∀ p ∈ ps, p.type = .integer ∧ (∃ n, p.bounds.permits n = true) ∧
        ∃ k : Int, p.example? = .int k ∧ p.bounds.permits k = false := by
  obtain ⟨ps, returned, published⟩ := exists_ok_of_any
    (show (((Parameter.ofRuleSet misledExamples {}).run false {}).result.toOption.any fun ps =>
      ps.map Parameter.name = ["level", "grade"] && ps.all fun p => p.type = .integer &&
        [5, 11].any p.bounds.permits && p.example?.whole?.any fun k => !p.bounds.permits k) = true
      by decide +kernel)
  simp only [Bool.and_eq_true, decide_eq_true_eq, List.all_eq_true, List.any_eq_true,
    Option.any_eq_true, Bool.not_eq_true'] at published
  obtain ⟨names, each⟩ := published
  refine ⟨ps, returned, names, fun p member => ?_⟩
  obtain ⟨⟨type, n, -, permitted⟩, k, shown, outside⟩ := each p member
  exact ⟨type, ⟨n, permitted⟩, k, Value.eq_int_of_whole? shown, outside⟩

end RequestSchema
