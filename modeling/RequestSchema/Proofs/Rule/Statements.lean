import RequestSchema.Field.Example
import RequestSchema.Proofs.Outcome
import RequestSchema.Rule.Bounds
import RequestSchema.Rule.Upload

/-!
# What single rules state

Bounds, intervals and uploads are read by going through the tokens of a field, where a
later token overwrites what an earlier one has said. Each of these readings is told by what
the tokens state one by one:

* `Limits.ofValues_eq`, `Limits.ofCounts_eq` and `Example.Interval.ofTokens_eq`: every limit is
  the last one that is stated;
* `Upload.reading_eq`: so are sizes and dimensions, while types are collected.

A token whose numbers cannot be made integers fails whatever stands before it.
-/
namespace RequestSchema

section

variable {σ τ ε β : Type}

/-- A pass whose steps fail whatever has been read before fails at the first step that does,
and otherwise takes in what the single steps state. -/
theorem foldlM_eq_statements {step : σ → τ → Except Fault σ} (take : σ → ε → σ)
    (state : τ → Except Fault ε) (each : ∀ s t, step s t = take s <$> state t) (s : σ)
    (ts : List τ) :
    ts.foldlM step s = (fun stated => stated.foldl take s) <$> ts.mapM state := by
  induction ts generalizing s with
  | nil => rfl
  | cons t rest ih =>
    rw [List.foldlM_cons, List.mapM_cons, each]
    cases state t with
    | error fault => rfl
    | ok e =>
      change rest.foldlM step (take s e) = _
      rw [ih]
      cases rest.mapM state <;> rfl

/-- What a step takes in may depend on a number that cannot always be made. -/
theorem bind_eq_map {x : Except Fault τ} {f : τ → Except Fault σ} {g : τ → Except Fault ε}
    {take : ε → σ} (each : ∀ a, f a = take <$> g a) : (x >>= f) = take <$> (x >>= g) := by
  cases x with
  | error fault => rfl
  | ok a => exact each a

/-- A part that every step overwrites, unless it says nothing about it, has its last value
in the end. -/
theorem foldl_latest (part : σ → Option β) (take : σ → ε → σ) {state : ε → Option β}
    (each : ∀ s e, part (take s e) = (state e).or (part s)) (s : σ) (stated : List ε) :
    part (stated.foldl take s) = (stated.findSomeRev? state).or (part s) := by
  induction stated generalizing s with
  | nil => exact Option.none_or.symm
  | cons e rest ih =>
    rw [List.foldl_cons, ih, each, List.findSomeRev?_eq_findSome?_reverse,
      List.findSomeRev?_eq_findSome?_reverse, List.reverse_cons, List.findSome?_append,
      List.findSome?_singleton, Option.or_assoc]

/-- What is stated last is stated somewhere. -/
theorem exists_of_findSomeRev? {state : ε → Option β} {stated : List ε} {b : β}
    (last : stated.findSomeRev? state = some b) : ∃ e ∈ stated, state e = some b := by
  rw [List.findSomeRev?_eq_findSome?_reverse] at last
  obtain ⟨e, member, states⟩ := List.exists_of_findSome?_eq_some last
  exact ⟨e, List.mem_reverse.mp member, states⟩

/-- What is stated last is stated somewhere, and nothing is stated behind. -/
theorem findSomeRev?_eq_some_iff {state : ε → Option β} {stated : List ε} {b : β} :
    stated.findSomeRev? state = some b ↔ ∃ before e behind, stated = before ++ e :: behind ∧
      state e = some b ∧ ∀ e' ∈ behind, state e' = none := by
  rw [List.findSomeRev?_eq_findSome?_reverse, List.findSome?_eq_some_iff]
  constructor
  · rintro ⟨behind, e, before, reversed, states, silent⟩
    refine ⟨before.reverse, e, behind.reverse, ?_, states, fun e' member => ?_⟩
    · rw [← List.reverse_reverse stated, reversed]
      simp
    · exact silent e' (List.mem_reverse.mp member)
  · rintro ⟨before, e, behind, rfl, states, silent⟩
    refine ⟨behind.reverse, e, before.reverse, by simp, states, fun e' member => ?_⟩
    exact silent e' (List.mem_reverse.mp member)

/-- What states nothing can be left out. -/
theorem findSomeRev?_insert {state : ε → Option β} {e : ε} (silent : state e = none)
    (before behind : List ε) :
    (before ++ e :: behind).findSomeRev? state = (before ++ behind).findSomeRev? state := by
  simp [List.findSomeRev?_eq_findSome?_reverse, List.findSome?_append, silent]

theorem findSomeRev?_map (part : τ → Option β) (g : σ → τ) (xs : List σ) :
    (xs.map g).findSomeRev? part = xs.findSomeRev? fun x => part (g x) := by
  simp only [List.findSomeRev?_eq_findSome?_reverse, ← List.map_reverse, List.findSome?_map]
  rfl

/-- A part that is made of another one has the last value that is made. -/
theorem findSomeRev?_eq_map {part : σ → Option β} {f : σ → Option τ} {wrap : τ → β} {xs : List σ}
    (same : ∀ x ∈ xs, part x = (f x).map wrap) :
    xs.findSomeRev? part = (xs.findSomeRev? f).map wrap := by
  simp only [List.findSomeRev?_eq_findSome?_reverse, List.map_findSome?]
  have reversed : ∀ x ∈ xs.reverse, part x = (f x).map wrap := fun x member =>
    same x (List.mem_reverse.mp member)
  generalize xs.reverse = ys at reversed
  induction ys with
  | nil => rfl
  | cons y rest ih =>
    rw [List.findSome?_cons, List.findSome?_cons, Function.comp_apply,
      reversed y List.mem_cons_self, ih fun x member => reversed x (List.mem_cons_of_mem y member)]

theorem findSomeRev?_eq_none {part : σ → Option β} {xs : List σ}
    (absent : ∀ x ∈ xs, part x = none) : xs.findSomeRev? part = none := by
  rw [List.findSomeRev?_eq_findSome?_reverse, List.findSome?_eq_none_iff]
  exact fun x member => absent x (List.mem_reverse.mp member)

/-- A part that every step appends to is all that has been appended. -/
theorem foldl_collected (part : σ → List β) (take : σ → ε → σ) {state : ε → List β}
    (each : ∀ s e, part (take s e) = part s ++ state e) (s : σ) (stated : List ε) :
    part (stated.foldl take s) = part s ++ stated.flatMap state := by
  induction stated generalizing s with
  | nil => exact (List.append_nil _).symm
  | cons e rest ih => rw [List.foldl_cons, ih, each, List.flatMap_cons, List.append_assoc]

/-- A part that a step can only set is set when one of the steps does so. -/
theorem foldl_any (part : σ → Bool) (take : σ → ε → σ) {state : ε → Bool}
    (each : ∀ s e, part (take s e) = (part s || state e)) (s : σ) (stated : List ε) :
    part (stated.foldl take s) = (part s || stated.any state) := by
  induction stated generalizing s with
  | nil => exact (Bool.or_false _).symm
  | cons e rest ih => rw [List.foldl_cons, ih, each, List.any_cons, Bool.or_assoc]

end

/-! ## Limits -/

namespace Limits

variable {α : Type}

def take (limits stated : Limits α) : Limits α where
  lower := stated.lower.or limits.lower
  upper := stated.upper.or limits.upper
  above := stated.above.or limits.above
  below := stated.below.or limits.below

def latest (stated : List (Limits α)) : Limits α where
  lower := stated.findSomeRev? lower
  upper := stated.findSomeRev? upper
  above := stated.findSomeRev? above
  below := stated.findSomeRev? below

theorem foldl_take (stated : List (Limits α)) : stated.foldl take {} = latest stated := by
  have lower := foldl_latest lower take (fun _ _ => rfl) {} stated
  have upper := foldl_latest upper take (fun _ _ => rfl) {} stated
  have above := foldl_latest above take (fun _ _ => rfl) {} stated
  have below := foldl_latest below take (fun _ _ => rfl) {} stated
  simp only [Option.or_none] at lower upper above below
  rw [latest, ← lower, ← upper, ← above, ← below]

/-- A rule adds what it states by itself. -/
theorem restrict_eq_take (numeric : Bool) (name : String) (values : List α) (limits : Limits α) :
    limits.restrict numeric name values = limits.take (restrict numeric name values {}) := by
  unfold restrict
  split
  · rfl
  · repeat' split
    all_goals rfl

def ofValueToken (token : Token) : Limits Number :=
  match parameters? token with
  | some values => restrict true token.name values {}
  | none => {}

def ofCountToken (token : Token) : Except Fault (Limits Int) :=
  match parameters? token with
  | some values => do return restrict false token.name (← values.mapM Number.truncate) {}
  | none => .ok {}

/-- Each limit of a value is the last one that is stated. -/
theorem ofValues_eq (tokens : List Token) : ofValues tokens = latest (tokens.map ofValueToken) := by
  rw [← foldl_take, List.foldl_map, ofValues]
  congr 1
  funext limits token
  rw [ofValueToken]
  cases parameters? token with
  | none => rfl
  | some values => exact restrict_eq_take true token.name values limits

/-- Each limit of a count is the last one that is stated. -/
theorem ofCounts_eq (tokens : List Token) :
    ofCounts tokens = latest <$> tokens.mapM ofCountToken := by
  rw [ofCounts, foldlM_eq_statements take ofCountToken]
  · simp only [foldl_take]
  · intro limits token
    rw [ofCountToken]
    cases parameters? token with
    | none => rfl
    | some values =>
      change (values.mapM Number.truncate >>= _) = take limits <$> (values.mapM _ >>= _)
      cases values.mapM Number.truncate with
      | error fault => rfl
      | ok counts => exact congrArg Except.ok (restrict_eq_take false token.name counts limits)

def ofLengthToken (token : Token) : Limits Int := (ofCountToken token).toOption.getD {}

/-- When the limits of a count are found, they are those that are stated last, and every token can
be read. -/
theorem eq_latest_of_counts {tokens : List Token} {limits : Limits Int}
    (read : ofCounts tokens = .ok limits) :
    limits = latest (tokens.map ofLengthToken) ∧
      ∀ t ∈ tokens, ofCountToken t = .ok (.ofLengthToken t) := by
  rw [ofCounts_eq] at read
  cases each : tokens.mapM ofCountToken with
  | error fault =>
    rw [each] at read
    cases read
  | ok stated =>
    have single : ∀ t ∈ tokens, ofCountToken t = .ok (.ofLengthToken t) := by
      intro t member
      obtain ⟨limits, found⟩ := ok_of_mapM each t member
      rw [ofLengthToken, found]
      rfl
    rw [mapM_eq_ok single] at each read
    cases read
    exact ⟨rfl, single⟩

end Limits

/-! ## Intervals of examples -/

namespace Example.Interval

def take (i stated : Interval) : Interval where
  minimum := stated.minimum.or i.minimum
  maximum := stated.maximum.or i.maximum

def latest (stated : List Interval) : Interval where
  minimum := stated.findSomeRev? minimum
  maximum := stated.findSomeRev? maximum

theorem foldl_take (stated : List Interval) : stated.foldl take {} = latest stated := by
  have minimum := foldl_latest minimum take (fun _ _ => rfl) {} stated
  have maximum := foldl_latest maximum take (fun _ _ => rfl) {} stated
  simp only [Option.or_none] at minimum maximum
  rw [latest, ← minimum, ← maximum]

/-- A rule adds what it states by itself. -/
theorem restrict_eq_take (integer : Bool) (name : String) (values : List Number) (i : Interval) :
    restrict integer name values i = i.take <$> restrict integer name values {} := by
  unfold restrict
  split
  · rfl
  · repeat' split
    all_goals first
      | rfl
      | exact bind_eq_map fun _ => rfl

def ofToken (integer : Bool) (token : Token) : Except Fault Interval :=
  match token.numbers? with
  | some values => restrict integer token.name values {}
  | none => .ok {}

/-- Each bound is the last one that is stated. -/
theorem ofTokens_eq (integer : Bool) (tokens : List Token) :
    ofTokens integer tokens = latest <$> tokens.mapM (ofToken integer) >>= fun i =>
      if integer then i.toIntegers else .ok i := by
  rw [ofTokens, foldlM_eq_statements take (ofToken integer)]
  · simp only [foldl_take]
  · intro i token
    rw [ofToken]
    cases token.numbers? with
    | none => rfl
    | some values => exact restrict_eq_take integer token.name values i

end Example.Interval

/-! ## Uploads -/

namespace Upload

/-- What a token states about an upload. Dimensions can be stated to be none. -/
structure Statement where
  isImage : Bool := false
  extensions : List String := []
  mediaTypes : List String := []
  minKb : Option Int := none
  maxKb : Option Int := none
  dimensions : Option (Option Dimensions) := none

def Statement.ofToken : Token → Except Fault Statement
  | .upload limits =>
      .ok { isImage := limits.image
            extensions := limits.extensions
            minKb := limits.minKb
            maxKb := limits.maxKb }
  | token => match token.name with
    | "image" => .ok { isImage := true }
    | "mimes" => .ok { extensions := (token.parameterList.filter (!·.isEmpty)).map Text.lower }
    | "mimetypes" => .ok { mediaTypes := token.parameterList.filter (!·.isEmpty) }
    | "max" => do return { maxKb := ← integerPart? token.parameters }
    | "min" => do return { minKb := ← integerPart? token.parameters }
    | "size" | "between" => match token.parameterList with
      | [] => .error .missingParameter
      | first :: rest => do
          let minKb ← integerPart? first
          let maxKb ← integerPart? (rest.getLast?.getD first)
          return { minKb, maxKb }
    | "dimensions" => do return { dimensions := some (← Dimensions.ofText? token.parameters) }
    | _ => .ok {}

namespace Reading

def take (r : Reading) (stated : Statement) : Reading where
  isImage := r.isImage || stated.isImage
  extensions := r.extensions ++ stated.extensions
  mediaTypes := r.mediaTypes ++ stated.mediaTypes
  minKb := stated.minKb.or r.minKb
  maxKb := stated.maxKb.or r.maxKb
  dimensions := stated.dimensions.getD r.dimensions

def ofStatements (stated : List Statement) : Reading where
  isImage := stated.any Statement.isImage
  extensions := stated.flatMap Statement.extensions
  mediaTypes := stated.flatMap Statement.mediaTypes
  minKb := stated.findSomeRev? Statement.minKb
  maxKb := stated.findSomeRev? Statement.maxKb
  dimensions := (stated.findSomeRev? Statement.dimensions).getD none

theorem foldl_take (stated : List Statement) : stated.foldl take {} = ofStatements stated := by
  have isImage := foldl_any isImage take (fun _ _ => rfl) {} stated
  have extensions := foldl_collected extensions take (fun _ _ => rfl) {} stated
  have mediaTypes := foldl_collected mediaTypes take (fun _ _ => rfl) {} stated
  have minKb := foldl_latest minKb take (fun _ _ => rfl) {} stated
  have maxKb := foldl_latest maxKb take (fun _ _ => rfl) {} stated
  have replaced (r : Reading) (e : Statement) :
      some (take r e).dimensions = e.dimensions.or (some r.dimensions) := by
    rcases e with ⟨_, _, _, _, _, _ | _⟩ <;> rfl
  have dimensions := foldl_latest (fun r => some r.dimensions) take replaced {} stated
  have last : (stated.foldl take {}).dimensions =
      (stated.findSomeRev? Statement.dimensions).getD none := by
    refine Option.some.inj (dimensions.trans ?_)
    cases stated.findSomeRev? Statement.dimensions <;> rfl
  simp only [Bool.false_or, List.nil_append] at isImage extensions mediaTypes
  simp only [Option.or_none] at minKb maxKb
  rw [ofStatements, ← isImage, ← extensions, ← mediaTypes, ← minKb, ← maxKb, ← last]

/-- The sizes that the parameters of a rule state: the first one and the last one. -/
theorem sizes_eq_take (r : Reading) (parameters : List String) :
    (match parameters with
      | [] => .error .missingParameter
      | first :: rest => do
          let minKb ← kilobytes first r.minKb
          let maxKb ← kilobytes (rest.getLast?.getD first) r.maxKb
          return { r with minKb, maxKb } : Except Fault Reading) =
      r.take <$> match parameters with
        | [] => .error .missingParameter
        | first :: rest => do
            let minKb ← integerPart? first
            let maxKb ← integerPart? (rest.getLast?.getD first)
            return { minKb, maxKb } := by
  have takes (minKb maxKb : Option Int) :
      r.take { minKb, maxKb } = { r with minKb := minKb.or r.minKb, maxKb := maxKb.or r.maxKb } := by
    simp [take]
  cases parameters with
  | nil => rfl
  | cons first rest =>
    simp only [kilobytes]
    cases integerPart? first with
    | error fault => rfl
    | ok n =>
      cases integerPart? (rest.getLast?.getD first) with
      | error fault => rfl
      | ok m => exact congrArg Except.ok (takes n m).symm

/-- A token adds what it states by itself. -/
theorem add_eq_take (r : Reading) (token : Token) :
    r.add token = r.take <$> Statement.ofToken token := by
  have map_ok (e : Statement) : r.take <$> (.ok e : Except Fault Statement) = .ok (r.take e) := rfl
  cases token with
  | upload limits => simp [add, Statement.ofToken, take, map_ok]
  | source s | enumClass name => simp [add, Statement.ofToken, Token.name, take, map_ok]
  | rule s =>
    unfold add
    simp only
    split
    · simp [Statement.ofToken, take, *]
    · simp [Statement.ofToken, take, *]
    · simp [Statement.ofToken, take, *]
    · simp [Statement.ofToken, take, kilobytes, *]
    · simp [Statement.ofToken, take, kilobytes, *]
    · simp only [Statement.ofToken, *]
      exact sizes_eq_take r _
    · simp only [Statement.ofToken, *]
      exact sizes_eq_take r _
    · simp [Statement.ofToken, take, *]
    · simp [Statement.ofToken, take, *]

end Reading

/-- Of a reading the sizes and the dimensions are the last that are stated; types are
collected. -/
theorem reading_eq (tokens : List Token) :
    tokens.foldlM Reading.add ({} : Reading) =
      Reading.ofStatements <$> tokens.mapM Statement.ofToken := by
  rw [foldlM_eq_statements _ _ Reading.add_eq_take]
  simp only [Reading.foldl_take]

end Upload
end RequestSchema
