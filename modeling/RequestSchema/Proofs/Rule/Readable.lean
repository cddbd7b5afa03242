import RequestSchema.Parameter.Build
import RequestSchema.Proofs.Number.Numeral
import RequestSchema.Proofs.Number.Range
import RequestSchema.Proofs.Rule.Statements

/-!
# Readable rules

A token is readable if the numbers that limit its field are not too large (`Token.Readable`).
Parameters that are missing or denote no number are no hindrance, and neither is a name that means
nothing. The bounds and the example of a field whose tokens are readable are found
(`boundsOf_ends`, `Example.ofField_ends`).
-/
namespace RequestSchema

open RequestSchema.Text

/-! ## Numbers of use -/

namespace Number

/-- Whether a field has a use for a number: an integral field for its integer part, any other one
for the floating point number next to it. -/
def fits : Bool → Number → Bool
  | true, int _ => true
  | true, float x => x.isFinite
  | false, n => n.toFloat.isOk

/-- The number stays of use to a field when it is moved by one step. -/
def Usable : Bool → Number → Prop
  | true, n => n.Bounded
  | false, n => n.Representable

theorem usable_of_fits {integral : Bool} {s : String} {n : Number} (read : parse? s = some n)
    (fits : n.fits integral) : n.Usable integral := by
  cases integral with
  | true => cases n with
    | int i => trivial
    | float x => exact bounded_of_parse? read fits
  | false => exact succeeds_of_isOk fits

end Number

/-! ## Passwords -/

namespace PasswordRequirements

/-- What is found behind a call are digits. -/
theorem digits_of_argumentAfter? {start : String} {cs : List Char} {digits : String}
    (found : argumentAfter? start cs = some digits) :
    digits.toList ≠ [] ∧ ∀ c ∈ digits.toList, isDecimalDigit c := by
  unfold argumentAfter? at found
  obtain ⟨rest, -, found⟩ := Option.bind_eq_some_iff.mp found
  simp only at found
  split at found
  · cases found
  · rename_i closed
    cases found
    rw [Bool.or_eq_true, not_or, List.isEmpty_iff] at closed
    rw [String.toList_ofList]
    exact ⟨closed.1, fun c member => List.mem_takeWhile_imp member⟩

/-- What is found in a text is found at the head of one of its ends. -/
theorem exists_of_firstMatch {α : Type} {recognise : List Char → Option α} {cs : List Char} {x : α}
    (found : firstMatch recognise cs = some x) : ∃ rest, recognise rest = some x := by
  induction cs with
  | nil => exact ⟨[], found⟩
  | cons c rest ih =>
    rw [firstMatch] at found
    split at found
    · cases found
      exact ⟨c :: rest, by assumption⟩
    · exact ih found

/-- The lengths that the text of a password rule states, as digits. -/
def lengths (s : String) : List String :=
  let cs := (withoutBlanks s).toList
  (leastDigits? cs).toList ++ (greatestDigits? cs).toList

theorem exists_argument_of_least {cs : List Char} {digits : String}
    (found : leastDigits? cs = some digits) :
    ∃ start rest, argumentAfter? start rest = some digits := by
  unfold leastDigits? at found
  rcases Option.or_eq_some_iff.mp found with first | ⟨-, found⟩
  · exact ⟨_, _, first⟩
  · rcases Option.or_eq_some_iff.mp found with chained | ⟨-, called⟩
    · obtain ⟨rest, found⟩ := exists_of_firstMatch chained
      rcases Option.or_eq_some_iff.mp found with static | ⟨-, method⟩
      · exact ⟨_, _, static⟩
      · exact ⟨_, _, method⟩
    · obtain ⟨rest, found⟩ := exists_of_firstMatch called
      exact ⟨_, _, found⟩

theorem exists_argument_of_lengths {s digits : String} (stated : digits ∈ lengths s) :
    ∃ start rest, argumentAfter? start rest = some digits := by
  unfold lengths at stated
  rcases List.mem_append.mp stated with least | greatest
  · exact exists_argument_of_least (Option.mem_toList.mp least)
  · obtain ⟨rest, found⟩ := exists_of_firstMatch (Option.mem_toList.mp greatest)
    exact ⟨_, _, found⟩

/-- Digits are read as a length if there are not too many of them. -/
theorem lengthOf_ends {s digits : String} (stated : digits ∈ lengths s)
    (short : digits.length ≤ Decimal.digitLimit) : Succeeds (lengthOf digits) := by
  obtain ⟨start, rest, found⟩ := exists_argument_of_lengths stated
  obtain ⟨filled, each⟩ := digits_of_argumentAfter? found
  have read := Decimal.int?_of_digits filled each (by rwa [String.length_toList])
  obtain ⟨n, read⟩ := Option.isSome_iff_exists.mp read
  unfold lengthOf
  rw [read]
  exact ends_ok trivial

/-- The requirements of a password rule are found if its lengths are short. -/
theorem ofText_ends {s : String}
    (short : ∀ digits ∈ lengths s, digits.length ≤ Decimal.digitLimit) :
    Succeeds (ofText s) := by
  have each (digits : String) (stated : digits ∈ lengths s) :=
    lengthOf_ends stated (short digits stated)
  unfold ofText
  refine (Ends.option fun digits found => each digits ?_).bind fun least _ => ?_
  · exact List.mem_append_left _ (Option.mem_toList.mpr found)
  · refine (Ends.option fun digits found => each digits ?_).bind fun greatest _ => ?_
    · exact List.mem_append_right _ (Option.mem_toList.mpr found)
    · exact ends_ok trivial

theorem ofTokens?_ends {tokens : List Token}
    (short : ∀ token ∈ tokens, isPasswordToken token →
      ∀ digits ∈ lengths token.text, digits.length ≤ Decimal.digitLimit) :
    Succeeds (ofTokens? tokens) := by
  have each : ∀ token ∈ tokens.find? isPasswordToken, Succeeds (ofText token.text) :=
    fun token found =>
      ofText_ends (short token (List.mem_of_find?_eq_some found) (List.find?_some found))
  exact (Ends.option each).succeeds

end PasswordRequirements

/-! ## Readable tokens -/

namespace Token

/-- What a field asks of a token: numbers of use where it states a limit, counts of decimal places
that a text can have and that the memory has room for, and short lengths of a password. -/
structure Readable (room : Int) (integral : Bool) (token : Token) : Prop where
  limits : boundNames.contains token.name →
    ∀ values ∈ token.numbers?, ∀ n ∈ values, n.fits integral
  places : integral = false → token.name = "decimal" →
    ∀ n ∈ token.parameterList.filterMap Number.parse?,
      n.truncate.toOption.any fun places => places ≤ Example.longestText && places ≤ room
  lengths : integral = true → PasswordRequirements.isPasswordToken token →
    ∀ digits ∈ PasswordRequirements.lengths token.text, digits.length ≤ Decimal.digitLimit

instance (room : Int) (integral : Bool) (token : Token) :
    Decidable (token.Readable room integral) :=
  decidable_of_iff (_ ∧ _ ∧ _)
    ⟨fun ⟨limits, places, lengths⟩ => ⟨limits, places, lengths⟩,
      fun readable => ⟨readable.limits, readable.places, readable.lengths⟩⟩

/-- The numbers of a token are denoted by parameters. -/
theorem exists_parameter_of_numbers? {token : Token} {values : List Number}
    (read : token.numbers? = some values) :
    ∀ n ∈ values, ∃ s ∈ token.parameterList, Number.parse? s = some n := by
  unfold numbers? at read
  split at read
  · cases read
  · generalize token.parameterList = texts at read
    induction texts generalizing values with
    | nil =>
      cases read
      exact fun n member => nomatch member
    | cons s rest ih =>
      rw [List.mapM_cons] at read
      obtain ⟨first, denoted, read⟩ := Option.bind_eq_some_iff.mp read
      obtain ⟨others, later, read⟩ := Option.bind_eq_some_iff.mp read
      cases read
      refine List.forall_mem_cons.mpr ⟨⟨s, List.mem_cons_self, denoted⟩, fun n member => ?_⟩
      obtain ⟨text, there, denoted⟩ := ih later n member
      exact ⟨text, List.mem_cons_of_mem s there, denoted⟩

theorem Readable.usable {room : Int} {integral : Bool} {token : Token}
    (readable : token.Readable room integral) {values : List Number}
    (limit : boundNames.contains token.name)
    (read : token.numbers? = some values) : ∀ n ∈ values, n.Usable integral := by
  intro n member
  obtain ⟨s, -, denoted⟩ := exists_parameter_of_numbers? read n member
  exact Number.usable_of_fits denoted (readable.limits limit values read n member)

end Token

/-! ## Bounds -/

variable {room : Int}

/-- The counts that a token states are found. -/
theorem Limits.ofCountToken_ends {token : Token} (readable : token.Readable room true) :
    Succeeds (ofCountToken token) := by
  unfold ofCountToken
  cases read : parameters? token with
  | none => exact ends_ok trivial
  | some values =>
    unfold parameters? at read
    split at read
    · rename_i limit
      have counts := Ends.mapM fun n member =>
        Number.truncate_ends (readable.usable limit read n member)
      exact counts.bind fun _ _ => ends_ok trivial
    · cases read

/-- Counts are found, whatever the rules say that state no limit. -/
theorem Limits.ofCounts_ends {tokens : List Token} (readable : ∀ t ∈ tokens, t.Readable room true) :
    Succeeds (ofCounts tokens) := by
  rw [ofCounts_eq]
  have each := Ends.mapM fun t member => ofCountToken_ends (readable t member)
  exact each.map fun _ _ => trivial

theorem Bounds.ofTokens_ends {type : FieldType} {tokens : List Token}
    (readable : ∀ t ∈ tokens, t.Readable room (type ≠ .number)) :
    Succeeds (Bounds.ofTokens type tokens) := by
  cases type with
  | string | array => exact (Limits.ofCounts_ends readable).bind fun limits _ => ends_ok trivial
  | integer | number | boolean | file | other name => exact ends_ok trivial

/-- The bounds of a field are found, with the lengths of a password where they are needed. -/
theorem boundsOf_ends {type : FieldType} {tokens : List Token}
    (readable : ∀ t ∈ tokens, t.Readable room (type ≠ .number)) :
    Succeeds (FieldRules.boundsOf type tokens) := by
  unfold FieldRules.boundsOf
  refine (Bounds.ofTokens_ends readable).bind fun bounds _ => ?_
  split
  · rename_i unbounded
    have integral : decide (type ≠ .number) = true := by
      simp only [Bool.and_eq_true, decide_eq_true_eq] at unbounded
      rw [unbounded.1.1]
      rfl
    have passwords := PasswordRequirements.ofTokens?_ends fun t member =>
      (readable t member).lengths integral
    refine passwords.bind fun p? _ => ?_
    cases p? with
    | some p => exact ends_ok trivial
    | none => exact ends_ok trivial
  · exact ends_ok trivial

/-! ## Examples -/

namespace Example

theorem stepUp_ends {integral : Bool} {n : Number} (usable : n.Usable integral) :
    Ends (Number.Usable integral) (stepUp integral n) := by
  have one : Binary64.ofInt 1 = .finite false (2 ^ 52) (-52) := by decide
  cases integral with
  | true => cases n with
    | int i => exact ends_ok trivial
    | float x =>
      unfold stepUp
      rw [one]
      exact ends_ok (Binary64.Bounded.add_unit usable false)
  | false =>
    rw [stepUp]
    exact usable.bind fun x _ => ends_ok (Number.representable_float _)

theorem stepDown_ends {integral : Bool} {n : Number} (usable : n.Usable integral) :
    Ends (Number.Usable integral) (stepDown integral n) := by
  have one : (Binary64.ofInt 1).neg = .finite true (2 ^ 52) (-52) := by decide
  cases integral with
  | true => cases n with
    | int i => exact ends_ok trivial
    | float x =>
      unfold stepDown Binary64.sub
      rw [one]
      exact ends_ok (Binary64.Bounded.add_unit usable true)
  | false =>
    rw [stepDown]
    exact usable.bind fun x _ => ends_ok (Number.representable_float _)

namespace Interval

/-- The bounds that are there have a property. -/
structure Each (P : Number → Prop) (i : Interval) : Prop where
  minimum : ∀ n ∈ i.minimum, P n
  maximum : ∀ n ∈ i.maximum, P n

variable {P : Number → Prop}

theorem each_open : Each P {} where
  minimum _ absent := nomatch absent
  maximum _ absent := nomatch absent

theorem each_lower {n : Number} (holds : P n) : Each P { minimum := some n } where
  minimum _ same := Option.some.inj same ▸ holds
  maximum _ absent := nomatch absent

theorem each_upper {n : Number} (holds : P n) : Each P { maximum := some n } where
  minimum _ absent := nomatch absent
  maximum _ same := Option.some.inj same ▸ holds

theorem each_latest {stated : List Interval} (each : ∀ i ∈ stated, i.Each P) :
    (latest stated).Each P := by
  have last (part : Interval → Option Number) (holds : ∀ i ∈ stated, ∀ n ∈ part i, P n) :
      ∀ n ∈ stated.findSomeRev? part, P n := by
    intro n found
    obtain ⟨i, member, states⟩ := exists_of_findSomeRev? found
    exact holds i member n states
  exact ⟨last minimum fun i member => (each i member).minimum,
    last maximum fun i member => (each i member).maximum⟩

/-- Moving a number into an interval gives the number or one of the bounds. -/
theorem clamp_cases (i : Interval) (n : Number) :
    i.clamp n = n ∨ i.clamp n ∈ i.minimum ∨ i.clamp n ∈ i.maximum := by
  unfold clamp
  simp only [Option.mem_def]
  cases i.minimum with
  | none => cases i.maximum with
    | none => exact .inl rfl
    | some high => grind
  | some low => cases i.maximum with
    | none => grind
    | some high => grind

theorem Each.clamp {i : Interval} (each : i.Each P) {n : Number} (holds : P n) :
    P (i.clamp n) := by
  rcases i.clamp_cases n with same | low | high
  · rwa [same]
  · exact each.minimum _ low
  · exact each.maximum _ high

variable {integral : Bool}

/-- What a rule states by itself can be found if it states no limit or its numbers are of use. -/
theorem restrict_ends {name : String} {values : List Number}
    (usable : Token.boundNames.contains name → ∀ n ∈ values, n.Usable integral) :
    Ends (Each (Number.Usable integral)) (restrict integral name values {}) := by
  have limit (known : name ∈ Token.boundNames) := usable (List.contains_iff_mem.mpr known)
  cases values with
  | nil => exact ends_ok each_open
  | cons v rest =>
    have lower (known : name ∈ Token.boundNames) : v.Usable integral :=
      limit known v List.mem_cons_self
    unfold restrict
    simp only [Bool.or_eq_true, decide_eq_true_eq]
    split
    · rename_i between
      cases rest with
      | nil => exact ends_ok each_open
      | cons w others =>
        have upper : w.Usable integral :=
          limit (between ▸ by decide) w (List.mem_cons_of_mem v List.mem_cons_self)
        have both := each_lower (lower (between ▸ by decide))
        exact ends_ok ⟨both.minimum, (each_upper upper).maximum⟩
    · split
      · rename_i least
        refine ends_ok (each_lower (lower ?_))
        rcases least with rfl | rfl
        · decide
        · decide
      · split
        · rename_i most
          refine ends_ok (each_upper (lower ?_))
          rcases most with rfl | rfl
          · decide
          · decide
        · split
          · rename_i above
            have moved := stepUp_ends (lower (above ▸ by decide))
            exact moved.bind fun m usable => ends_ok (each_lower usable)
          · split
            · rename_i below
              have moved := stepDown_ends (lower (below ▸ by decide))
              exact moved.bind fun m usable => ends_ok (each_upper usable)
            · exact ends_ok each_open

theorem ofToken_ends {token : Token} (readable : token.Readable room integral) :
    Ends (Each (Number.Usable integral)) (ofToken integral token) := by
  unfold ofToken
  cases read : token.numbers? with
  | none => exact ends_ok each_open
  | some values => exact restrict_ends fun limit => readable.usable limit read

/-- Numbers of use have integers next to them. -/
theorem toIntegers_ends {i : Interval} (each : i.Each Number.Bounded) :
    Ends (Each Number.Bounded) i.toIntegers := by
  have least : Succeeds (i.minimum.mapM Number.ceil) :=
    (Ends.option fun n there => Number.ceil_ends (each.minimum n there)).succeeds
  have most : Succeeds (i.maximum.mapM Number.floor) :=
    (Ends.option fun n there => Number.floor_ends (each.maximum n there)).succeeds
  have whole (n? : Option Int) : ∀ n ∈ n?.map Number.int, n.Bounded := by
    intro n there
    obtain ⟨k, -, rfl⟩ := Option.map_eq_some_iff.mp there
    trivial
  exact least.bind fun low _ => most.bind fun high _ => ends_ok ⟨whole low, whole high⟩

/-- The interval that readable rules permit is found. -/
theorem ofTokens_ends {tokens : List Token} (readable : ∀ t ∈ tokens, t.Readable room integral) :
    Ends (Each (Number.Usable integral)) (ofTokens integral tokens) := by
  rw [ofTokens_eq]
  have stated := Ends.mapM fun t member => ofToken_ends (readable t member)
  refine (stated.map fun _ each => each_latest each).bind fun i each => ?_
  cases integral with
  | true => exact toIntegers_ends each
  | false => exact ends_ok each

end Interval

theorem integer_ends (field : String) {tokens : List Token}
    (readable : ∀ t ∈ tokens, t.Readable room true) : Succeeds (integer field tokens) := by
  unfold integer
  refine (Interval.ofTokens_ends readable).bind fun i each => ?_
  generalize FieldName.words field = words
  refine (Number.truncate_ends (each.clamp ?_)).bind fun n _ => ends_ok trivial
  -- the number that is moved is an integer in each case
  change Number.Bounded _
  split
  · trivial
  · split
    · trivial
    · split
      · trivial
      · split
        · trivial
        · trivial

/-- The count of decimal places is found, a text can have as many, and there is room for them. -/
theorem decimalPlaces?_ends {tokens : List Token} (readable : ∀ t ∈ tokens, t.Readable room false) :
    Ends (fun places? => ∀ places ∈ places?, places ≤ longestText ∧ places ≤ room)
      (decimalPlaces? tokens) := by
  unfold decimalPlaces?
  cases found : Token.find? ["decimal"] tokens with
  | none => exact ends_ok fun _ absent => nomatch absent
  | some token =>
    have named : ["decimal"].contains token.name = true :=
      List.find?_some (p := fun t : Token => ["decimal"].contains t.name) found
    have short := (readable token (List.mem_of_find?_eq_some found)).places rfl
      (List.mem_singleton.mp (List.contains_iff_mem.mp named))
    have counts : Ends (fun counts => ∀ k ∈ counts, k ≤ longestText ∧ k ≤ room)
        ((token.parameterList.filterMap Number.parse?).mapM Number.truncate) := by
      refine Ends.mapM fun n member => ?_
      obtain ⟨k, whole, below⟩ := exists_ok_of_any (short n member)
      obtain ⟨short, fits⟩ := Bool.and_eq_true_iff.mp below
      exact ⟨k, whole, of_decide_eq_true short, of_decide_eq_true fits⟩
    refine counts.bind fun ks each => ends_ok fun places greatest => ?_
    exact each places (List.max?_mem greatest)

/-- A number of which a text can show the decimal places. -/
theorem nines_ends {places : Int} (short : places ≤ longestText) (fits : places ≤ room) :
    Succeeds (nines room places) := by
  unfold nines
  split
  · exact ends_ok trivial
  · rw [if_neg (Int.not_lt.mpr short), if_neg (Int.not_lt.mpr fits)]
    exact ends_ok trivial

theorem number_ends {tokens : List Token} (readable : ∀ t ∈ tokens, t.Readable room false) :
    Succeeds (number room tokens) := by
  unfold number
  refine (decimalPlaces?_ends readable).bind fun places? short => ?_
  have moved (x : Binary64) : Succeeds (do
      let i ← Interval.ofTokens false tokens
      return Value.number (.float (← (i.clamp (.float x)).toFloat))) := by
    refine (Interval.ofTokens_ends readable).bind fun i each => ?_
    have clamped : (i.clamp (.float x)).Representable := each.clamp (Number.representable_float x)
    exact clamped.bind fun y _ => ends_ok trivial
  cases places? with
  | some places =>
    exact (nines_ends (short places rfl).1 (short places rfl).2).bind fun x _ => moved x
  | none => exact moved _

/-- The example of a field is found. -/
theorem ofField_ends (field : String) {tokens : List Token} {type : FieldType}
    (format : Option Format) (enumeration : Option Enumeration)
    (readable : ∀ t ∈ tokens, t.Readable room (type ≠ .number)) :
    Succeeds (ofField room field tokens type format enumeration) := by
  unfold ofField
  split
  · exact ends_ok trivial
  · split
    · exact ends_ok trivial
    · split
      · exact ends_ok trivial
      · cases type with
        | integer => exact integer_ends field readable
        | number => exact number_ends readable
        | string | boolean | array | file | other name => exact ends_ok trivial

end Example

end RequestSchema
