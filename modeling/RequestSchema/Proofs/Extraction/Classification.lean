import RequestSchema.Extraction.Classify
import RequestSchema.Proofs.Source.Literal
import RequestSchema.Proofs.Text.Recognition

/-!
# What tests ask about

A grammar of the tests that are recognised: those that ask an object for the verb of a request
(`AsksVerb`), and those that ask a predicate of a user (`AsksUser`). `StandsFor` says which
condition a test stands for when only some objects count as the request.

* `classify_standsFor`: tests are classified by the grammar, where any object counts as the request;
  so a test is classified as if only `$this` and `request()` counted exactly when it does not ask
  another object for its verb;
* `orderMethod_misread`: the method of an order is taken for the verb of the request.
-/
namespace RequestSchema.Extraction

open RequestSchema.Text RequestSchema.Source

/-! ## A grammar of tests -/

/-- An expression is the request: the object of the method itself, or what the helper gives. -/
inductive IsRequest : Expr → Prop
  | this : IsRequest (.var "$this")
  | helper (text : String) : IsRequest (.call text "request" [])
  | parens {text : String} {inner : Expr} : IsRequest inner → IsRequest (.parens text inner)

/-- A literal names a verb. -/
def NamesVerb (e : Expr) (verb : String) : Prop := Denotes e verb ∧ verb ≠ ""

/-- An expression calls a method of an object, where `named` are the names of the method. -/
inductive Calls (named : String → Prop) (object : Expr) : Expr → Prop
  | call {text name : String} {arguments : List Expr} :
      named name → Calls named object (.method text object name arguments)
  | parens {text : String} {inner : Expr} :
      Calls named object inner → Calls named object (.parens text inner)

/-- An expression calls the method of an object that tells the verb. -/
def TellsVerb (object : Expr) : Expr → Prop :=
  Calls (fun name => lower name = "method" ∨ lower name = "getmethod") object

/-- A test asks an object whether a verb is used. -/
inductive AsksVerb (object : Expr) (verb : String) : Expr → Prop
  | call {text name : String} {first : Expr} {rest : List Expr} :
      lower name = "ismethod" → NamesVerb first verb →
      AsksVerb object verb (.method text object name (first :: rest))
  | left {text operator : String} {left right : Expr} :
      operator = "==" ∨ operator = "===" → TellsVerb object left → NamesVerb right verb →
      AsksVerb object verb (.binary text operator left right)
  | right {text operator : String} {left right : Expr} :
      operator = "==" ∨ operator = "===" → TellsVerb object right → NamesVerb left verb →
      AsksVerb object verb (.binary text operator left right)

/-- An expression calls for the user, whatever object has one. -/
def IsUser (e : Expr) : Prop := ∃ object, Calls (· = "user") object e

/-- A name is a word by itself, or a word with a capital letter behind it. -/
def NamesPredicate (words : List String) (name : String) : Prop :=
  ∃ word ∈ words, name = word ∨
    ∃ c rest, name.toList = word.toList ++ c :: rest ∧ isUppercase c = true

/-- A test asks the user a predicate. The name that asks for a verb is none. -/
inductive AsksUser (words : List String) (name : String) : Expr → Prop
  | call {text : String} {receiver : Expr} {arguments : List Expr} :
      IsUser receiver → NamesPredicate words name → lower name ≠ "ismethod" →
      AsksUser words name (.method text receiver name arguments)

/-- The condition that a test stands for, where `asked` are the objects that count as the
request. -/
inductive StandsFor (asked : Expr → Prop) (words : List String) (e : Expr) : Condition → Prop
  | verb {object : Expr} {verb : String} : AsksVerb object verb e → asked object →
      StandsFor asked words e ⟨.httpMethod, compact e.text, .text (upper verb)⟩
  | user {name : String} : AsksUser words name e →
      StandsFor asked words e ⟨.userMethod, compact e.text, .text name⟩
  | custom : (∀ object verb, AsksVerb object verb e → ¬ asked object) →
      (∀ name, ¬ AsksUser words name e) →
      StandsFor asked words e ⟨.custom, compact e.text, .null⟩

/-! ## The grammar is unambiguous -/

theorem NamesVerb.unique {e : Expr} {v w : String} (first : NamesVerb e v)
    (second : NamesVerb e w) : v = w := by
  have same := first.1.value?.symm.trans second.1.value?
  rw [Option.some.injEq, Value.text.injEq] at same
  exact same

theorem Calls.unique {named : String → Prop} {object object' e : Expr}
    (first : Calls named object e) (second : Calls named object' e) : object = object' := by
  induction first with
  | call => cases second; rfl
  | parens _ ih =>
    cases second with
    | parens inner => exact ih inner

/-- A literal calls no method. -/
theorem Calls.not_namesVerb {named : String → Prop} {object e : Expr} {v : String}
    (calls : Calls named object e) : ¬ NamesVerb e v := by
  induction calls with
  | call named =>
    rintro ⟨denotes, -⟩
    cases denotes
  | parens _ ih =>
    rintro ⟨denotes, filled⟩
    cases denotes with
    | parens inner => exact ih ⟨inner, filled⟩

theorem AsksVerb.unique {object object' e : Expr} {v w : String} (first : AsksVerb object v e)
    (second : AsksVerb object' w e) : object = object' ∧ v = w := by
  cases first with
  | call named verb =>
    cases second with
    | call named' verb' => exact ⟨rfl, verb.unique verb'⟩
  | left operator tells verb =>
    cases second with
    | left operator' tells' verb' => exact ⟨tells.unique tells', verb.unique verb'⟩
    | right operator' tells' verb' => exact absurd verb' tells.not_namesVerb
  | right operator tells verb =>
    cases second with
    | left operator' tells' verb' => exact absurd verb' tells.not_namesVerb
    | right operator' tells' verb' => exact ⟨tells.unique tells', verb.unique verb'⟩

/-- No test asks both for a verb and for a predicate. -/
theorem AsksVerb.not_asksUser {object e : Expr} {v name : String} {words : List String}
    (asks : AsksVerb object v e) : ¬ AsksUser words name e := by
  intro user
  cases user with
  | call receiver predicate other =>
    cases asks with
    | call named verb => exact other named

/-- A test stands for one condition. -/
theorem StandsFor.unique {asked : Expr → Prop} {words : List String} {e : Expr} {c c' : Condition}
    (first : StandsFor asked words e c) (second : StandsFor asked words e c') : c = c' := by
  cases first with
  | verb asks counts =>
    cases second with
    | verb asks' _ => rw [(asks.unique asks').2]
    | user user => exact absurd user asks.not_asksUser
    | custom unasked _ => exact absurd counts (unasked _ _ asks)
  | user user =>
    cases second with
    | verb asks' _ => exact absurd user asks'.not_asksUser
    | user user' =>
      cases user
      cases user'
      rfl
    | custom _ unasked => exact absurd user (unasked _)
  | custom unasked silent =>
    cases second with
    | verb asks' counts' => exact absurd counts' (unasked _ _ asks')
    | user user' => exact absurd user' (silent _)
    | custom _ _ => rfl

/-! ## Recognising the grammar -/

theorem verbOf?_eq_some_iff {e : Expr} {v : String} : verbOf? e = some v ↔ NamesVerb e v := by
  rw [verbOf?, Option.filter_eq_some_iff, stringValue?_eq_some_iff, NamesVerb]
  simp

/-- Inside its parentheses an expression that calls a method is the call. -/
theorem exists_calls_iff {named : String → Prop} {e : Expr} :
    (∃ object, Calls named object e) ↔
      ∃ text object name arguments, e.unwrap = .method text object name arguments ∧ named name := by
  fun_induction Expr.unwrap e with
  | case1 text inner ih =>
    rw [← ih]
    constructor
    · rintro ⟨object, calls⟩
      cases calls with
      | parens inside => exact ⟨object, inside⟩
    · rintro ⟨object, inside⟩
      exact ⟨object, .parens inside⟩
  | case2 e bare =>
    constructor
    · rintro ⟨object, calls⟩
      cases calls with
      | call known => exact ⟨_, object, _, _, rfl, known⟩
      | parens inside => exact absurd rfl (bare _ _)
    · rintro ⟨text, object, name, arguments, rfl, known⟩
      exact ⟨object, .call known⟩

theorem asksVerb_unwrap {e : Expr} : asksVerb e.unwrap = true ↔ ∃ object, TellsVerb object e := by
  simp only [TellsVerb, exists_calls_iff]
  cases e.unwrap <;> simp [asksVerb, callsMethod, and_assoc]

theorem isUser_iff {e : Expr} : isUser e = true ↔ IsUser e := by
  rw [IsUser, exists_calls_iff, isUser]
  cases e.unwrap <;> simp

/-- A capital letter stands behind a word exactly when it does so in what the word leaves. -/
theorem capitalBehind_iff {word name : List Char} :
    ((dropStart? word name).bind List.head?).any isUppercase = true ↔
      ∃ c rest, name = word ++ c :: rest ∧ isUppercase c = true := by
  constructor
  · intro found
    cases behind : dropStart? word name with
    | none => simp [behind] at found
    | some rest =>
      have parts := eq_append_of_dropStart? behind
      cases rest with
      | nil => simp [behind] at found
      | cons c rest => exact ⟨c, rest, parts, by simpa [behind] using found⟩
  · rintro ⟨c, rest, rfl, capital⟩
    rw [dropStart?_append]
    exact capital

theorem isPredicate_iff {words : List String} {name : String} :
    isPredicate words name = true ↔ NamesPredicate words name := by
  simp only [isPredicate, NamesPredicate, List.any_eq_true, Bool.or_eq_true, decide_eq_true_eq,
    capitalBehind_iff]

theorem comparedVerb?_eq_some_iff {left right : Expr} {v : String} :
    comparedVerb? left right = some v ↔
      ∃ object, TellsVerb object left ∧ NamesVerb right v ∨
        TellsVerb object right ∧ NamesVerb left v := by
  rw [comparedVerb?]
  -- The left side is asked first. Where it calls it is no literal, so nothing is lost by not asking
  -- the right side any more.
  by_cases first : asksVerb left.unwrap = true
  · obtain ⟨object, tells⟩ := asksVerb_unwrap.mp first
    rw [if_pos first, verbOf?_eq_some_iff]
    constructor
    · exact fun names => ⟨object, .inl ⟨tells, names⟩⟩
    · rintro ⟨_, ⟨-, names⟩ | ⟨-, names⟩⟩
      · exact names
      · exact absurd names tells.not_namesVerb
  · have silent (object : Expr) : ¬ TellsVerb object left :=
      fun tells => first (asksVerb_unwrap.mpr ⟨object, tells⟩)
    rw [if_neg first]
    by_cases second : asksVerb right.unwrap = true
    · obtain ⟨object, tells⟩ := asksVerb_unwrap.mp second
      rw [if_pos second, verbOf?_eq_some_iff]
      constructor
      · exact fun names => ⟨object, .inr ⟨tells, names⟩⟩
      · rintro ⟨other, ⟨tells', -⟩ | ⟨-, names⟩⟩
        · exact absurd tells' (silent other)
        · exact names
    · rw [if_neg second]
      constructor
      · exact nofun
      · rintro ⟨object, ⟨tells, -⟩ | ⟨tells, -⟩⟩
        · exact absurd tells (silent object)
        · exact absurd (asksVerb_unwrap.mpr ⟨object, tells⟩) second

/-! ## The condition of a test -/

/-- What a call stands for. The name that asks for a verb never asks for a predicate, also when no
verb is named. -/
theorem standsFor_call (words : List String) (text name : String) (receiver : Expr)
    (arguments : List Expr) :
    StandsFor (fun _ => True) words (.method text receiver name arguments)
      (classify words (.method text receiver name arguments)) := by
  by_cases verbName : lower name = "ismethod"
  · cases given : arguments.head?.bind verbOf? with
    | some verb =>
      obtain ⟨first, leads, names⟩ := Option.bind_eq_some_iff.mp given
      obtain ⟨rest, rfl⟩ := List.head?_eq_some_iff.mp leads
      simp only [classify, Expr.unwrap, verbName, if_true, given]
      exact .verb (.call verbName (verbOf?_eq_some_iff.mp names)) trivial
    | none =>
      simp only [classify, Expr.unwrap, verbName, if_true, given]
      refine .custom (fun object verb asks _ => ?_) (fun name asks => ?_)
      · cases asks with
        | call _ names => exact absurd given (by simp [verbOf?_eq_some_iff.mpr names])
      · cases asks with
        | call _ _ other => exact other verbName
  · have unasked (object : Expr) (verb : String) :
        ¬ AsksVerb object verb (.method text receiver name arguments) := by
      intro asks
      cases asks with
      | call named => exact verbName named
    by_cases predicate : (isUser receiver && isPredicate words name) = true
    · simp only [classify, Expr.unwrap, verbName, if_false, predicate, if_true]
      rw [Bool.and_eq_true, isUser_iff, isPredicate_iff] at predicate
      exact .user (.call predicate.1 predicate.2 verbName)
    · simp only [classify, Expr.unwrap, verbName, if_false, predicate]
      rw [Bool.and_eq_true, isUser_iff, isPredicate_iff] at predicate
      refine .custom (fun object verb asks _ => unasked object verb asks) (fun name asks => ?_)
      cases asks with
      | call user named => exact predicate ⟨user, named⟩

/-- What a comparison stands for. -/
theorem standsFor_comparison (words : List String) (text operator : String) (left right : Expr) :
    StandsFor (fun _ => True) words (.binary text operator left right)
      (classify words (.binary text operator left right)) := by
  have silent (name : String) : ¬ AsksUser words name (.binary text operator left right) := by
    intro asks
    cases asks
  by_cases compares : operator = "==" ∨ operator = "==="
  · cases asked : comparedVerb? left right with
    | some verb =>
      obtain ⟨object, ⟨tells, names⟩ | ⟨tells, names⟩⟩ := comparedVerb?_eq_some_iff.mp asked
      all_goals
        simp only [classify, Expr.unwrap, Bool.or_eq_true, decide_eq_true_eq, compares, if_true,
          asked]
      · exact .verb (.left compares tells names) trivial
      · exact .verb (.right compares tells names) trivial
    | none =>
      simp only [classify, Expr.unwrap, ite_self, asked]
      refine .custom (fun object verb asks _ => ?_) silent
      have : comparedVerb? left right = some verb := by
        rw [comparedVerb?_eq_some_iff]
        cases asks with
        | left _ tells names => exact ⟨object, .inl ⟨tells, names⟩⟩
        | right _ tells names => exact ⟨object, .inr ⟨tells, names⟩⟩
      simp [asked] at this
  · simp only [classify, Expr.unwrap, Bool.or_eq_true, decide_eq_true_eq, compares, if_false]
    refine .custom (fun object verb asks _ => ?_) silent
    cases asks with
    | left compared => exact compares compared
    | right compared => exact compares compared

theorem standsFor_classify (words : List String) (test : Expr) :
    StandsFor (fun _ => True) words test.unwrap (classify words test) := by
  fun_induction Expr.unwrap test with
  | case1 text inner ih => exact ih
  | case2 e bare =>
    cases e with
    | method text receiver name arguments => exact standsFor_call words text name receiver arguments
    | binary text operator left right => exact standsFor_comparison words text operator left right
    | parens text inner => exact absurd rfl (bare text inner)
    | _ =>
      refine .custom (fun object verb asks => ?_) (fun name asks => ?_)
      · cases asks
      · cases asks

/-- A condition stands when all objects that are asked count. -/
theorem StandsFor.restrict {asked : Expr → Prop} {words : List String} {e : Expr} {c : Condition}
    (stands : StandsFor (fun _ => True) words e c)
    (count : ∀ object verb, AsksVerb object verb e → asked object) :
    StandsFor asked words e c := by
  cases stands with
  | verb asks _ => exact .verb asks (count _ _ asks)
  | user asks => exact .user asks
  | custom unasked silent =>
    exact .custom (fun _ _ asks => absurd trivial (unasked _ _ asks)) silent

/-- Tests are classified by the grammar, with any object for the request: only those that ask
something else than the request for its verb are misread. -/
theorem classify_standsFor (words : List String) (test : Expr) :
    (∀ c, classify words test = c ↔ StandsFor (fun _ => True) words test.unwrap c) ∧
      (StandsFor IsRequest words test.unwrap (classify words test) ↔
        ∀ object verb, AsksVerb object verb test.unwrap → IsRequest object) := by
  have stands := standsFor_classify words test
  refine ⟨fun c => ⟨?_, stands.unique⟩, fun strict object verb asks => ?_, stands.restrict⟩
  · rintro rfl
    exact stands
  · -- The test asks some object, so its condition is about the verb, and only the request counts.
    have read := StandsFor.unique (.verb asks trivial) stands
    generalize classify words test = c at strict read
    cases strict with
    | verb asks' request =>
      rw [(asks.unique asks').1]
      exact request
    | user => cases congrArg Condition.kind read
    | custom => cases congrArg Condition.kind read

/-- An order is asked for its own method, which is taken for the verb of the request. -/
theorem orderMethod_misread :
    let test : Expr :=
      .method "$order->isMethod('post')" (.var "$order") "isMethod" [.string "'post'"]
    classify ["is", "has", "can"] test = ⟨.httpMethod, "$order->isMethod('post')", .text "POST"⟩ ∧
    StandsFor IsRequest ["is", "has", "can"] test ⟨.custom, "$order->isMethod('post')", .null⟩ := by
  intro test
  have other : ¬ IsRequest (.var "$order") := by
    generalize named : Expr.var "$order" = order
    intro request
    cases request <;> simp at named
  have names : NamesVerb (.string "'post'") "post" := ⟨.quoted "'post'", by decide⟩
  have asks : AsksVerb (.var "$order") "post" test := .call (by decide) names
  have line : compact test.unwrap.text = "$order->isMethod('post')" := by decide
  have capitals : upper "post" = "POST" := by decide
  constructor
  · rw [StandsFor.unique (standsFor_classify _ test) (.verb asks trivial), line, capitals]
  · rw [← line]
    refine .custom (fun object verb asks' request => ?_) (fun name => asks.not_asksUser)
    rw [(asks'.unique asks).1] at request
    exact other request

end RequestSchema.Extraction
