import RequestSchema.Extraction.Method
import RequestSchema.Proofs.OrderedMap.Writes
import RequestSchema.Proofs.Source.LiteralReader

/-!
# Straight code evaluates to arrays

An evaluator of array expressions that knows nothing of rule sets: an array is the list
of its elements, every operation joins the elements of its operands, and either the
later or the earlier ones win. Variables hold arrays as values, so that a write to one
of them leaves all others alone.

* `methodRules_eq_array`: a method that consists of assignments and one return has the
  rules that its array is, in the order of its elements, if no key escapes a code point;
* `escapedKey_apart`: a key that escapes one is kept as it is written, beside the key
  that it is.

Keys are read by the evaluator's own reader of literals. Only code whose keys and rule
values can be read is evaluated. An array has integers for keys that are written like
one, which rule sets do not tell apart, so those are left out, too.
-/
namespace RequestSchema.Extraction

open RequestSchema.Source RequestSchema.Text
open RequestSchema.OrderedMap (laterWins earlierWins entries_insertAll entries_insertAllNew)

abbrev Elements := List (Key × Value)

abbrev Arrays := String → Option Elements

/-- The arrays after a variable is assigned one. -/
def Arrays.assign (arrays : Arrays) (name : String) (array : Elements) : Arrays :=
  fun other => if other = name then some array else arrays other

/-- The name of a variable that is not itself named by a variable. -/
def plainName? (text : String) : Option String :=
  match text.toList with
  | '$' :: name => if name.head? = some '$' then none else some (String.ofList name)
  | _ => none

/-- Whether a key is the decimal form of an integer. -/
def isDecimal (key : String) : Bool :=
  match key.toList with
  | ['0'] => true
  | '-' :: digit :: digits => digit != '0' && (digit :: digits).all Char.isDigit
  | digit :: digits => digit != '0' && (digit :: digits).all Char.isDigit
  | [] => false

/-- The key that a literal is; the empty one and integers are left out. -/
def arrayKey? : Expr → Option Key
  | .string text => do
      let (_, letters) ← Quotation.literal? text.toList
      let key := String.ofList letters
      if key.isEmpty || isDecimal key then none else some (.text key)
  | _ => none

/-- Whether a key escapes no code point. -/
def isPlainKey : Expr → Bool
  | .string text => (Quotation.literal? text.toList).all fun literal => literal.1.isEmpty
  | _ => true

def arrayValue? (e : Expr) : Option Value :=
  match ruleValue? e with
  | .ok value => value
  | .error _ => none

/-- The function that a call names: capital letters and the sign of the outermost
namespace do not count. -/
def calledFunction (callee : String) : String := lower (trimChar '\\' callee)

mutual

/-- The array that an expression evaluates to. -/
def arrayOf? (arrays : Arrays) : Expr → Option Elements
  | .parens _ inner => arrayOf? arrays inner
  | .var text => (plainName? text).bind arrays
  | .array _ entries => (elementsOf? arrays entries).map laterWins
  | .call _ callee arguments =>
      if calledFunction callee = "array_merge" then
        (joinedElements? arrays arguments).map laterWins
      else if calledFunction callee = "array_replace" && !arguments.isEmpty then
        (joinedElements? arrays arguments).map laterWins
      else none
  | .binary _ operator left right =>
      if operator = "+" then do
        let a ← arrayOf? arrays left
        let b ← arrayOf? arrays right
        return earlierWins (a ++ b)
      else none
  | _ => none

/-- The elements that the entries of an array literal write, one after another. -/
def elementsOf? (arrays : Arrays) : List Entry → Option Elements
  | [] => some []
  | .item _ :: _ => none
  | .spread value :: rest => do
      let elements ← arrayOf? arrays value
      return elements ++ (← elementsOf? arrays rest)
  | .pair key value :: rest => do
      let k ← arrayKey? key
      let v ← arrayValue? value
      return (k, v) :: (← elementsOf? arrays rest)

/-- The elements of several arrays, one after another. -/
def joinedElements? (arrays : Arrays) : List Expr → Option Elements
  | [] => some []
  | e :: rest => do
      let elements ← arrayOf? arrays e
      return elements ++ (← joinedElements? arrays rest)

end

/-- The array that assignments and a return behind them evaluate to. Elements are written
and arrays added only to variables that have been assigned. -/
def bodyArray? : Arrays → List Stmt → Option Elements
  | arrays, [.result _ (some e)] => arrayOf? arrays e
  | arrays, .expression (.assign _ (.var text) value) :: rest => do
      let name ← plainName? text
      let array ← arrayOf? arrays value
      bodyArray? (arrays.assign name array) rest
  | arrays, .expression (.assign _ (.index _ (.var text) (some key)) value) :: rest => do
      let name ← plainName? text
      let array ← arrays name
      let k ← arrayKey? key
      let v ← arrayValue? value
      bodyArray? (arrays.assign name (laterWins (array ++ [(k, v)]))) rest
  | arrays, .expression (.augment _ operator (.var text) value) :: rest => do
      let name ← plainName? text
      let array ← arrays name
      let added ← arrayOf? arrays value
      if operator = "+=" then
        bodyArray? (arrays.assign name (earlierWins (array ++ added))) rest
      else none
  | _, _ => none

mutual

def keysOf : Expr → List Expr
  | .parens _ inner => keysOf inner
  | .array _ entries => entryKeys entries
  | .call _ _ arguments => argumentKeys arguments
  | .binary _ _ left right => keysOf left ++ keysOf right
  | _ => []

def entryKeys : List Entry → List Expr
  | [] => []
  | .item _ :: rest => entryKeys rest
  | .spread value :: rest => keysOf value ++ entryKeys rest
  | .pair key _ :: rest => key :: entryKeys rest

def argumentKeys : List Expr → List Expr
  | [] => []
  | e :: rest => keysOf e ++ argumentKeys rest

end

/-- The keys that are written in assignments and returns. -/
def bodyKeys : List Stmt → List Expr
  | [] => []
  | .result _ (some e) :: rest => keysOf e ++ bodyKeys rest
  | .expression (.assign _ (.index _ _ (some key)) _) :: rest => key :: bodyKeys rest
  | .expression (.assign _ _ value) :: rest => keysOf value ++ bodyKeys rest
  | .expression (.augment _ _ _ value) :: rest => keysOf value ++ bodyKeys rest
  | _ :: rest => bodyKeys rest

/-- Keys none of which escapes a code point. -/
def PlainKeys (keys : List Expr) : Prop := ∀ key ∈ keys, isPlainKey key = true

/-! ## Rule sets are arrays -/

/-- Every variable that holds an array has the rule set with its elements. -/
def Holds (scope : Scope) (arrays : Arrays) : Prop :=
  ∀ name array, arrays name = some array →
    ∃ rules, scope.get? name = some rules ∧ rules.entries = array

theorem variableName_of_plain {text name : String} (plain : plainName? text = some name) :
    variableName text = name := by
  unfold plainName? at plain
  unfold variableName
  split at plain
  · rename_i rest sign
    split at plain
    · cases plain
    · rename_i unsigned
      cases plain
      rw [sign]
      cases rest with
      | nil => rfl
      | cons letter others =>
        have other : letter ≠ '$' := by simpa using unsigned
        simp [other]
  · cases plain

theorem PlainKeys.of_append {front behind : List Expr} (plain : PlainKeys (front ++ behind)) :
    PlainKeys front ∧ PlainKeys behind :=
  List.forall_mem_append.mp plain

theorem PlainKeys.of_cons {key : Expr} {rest : List Expr} (plain : PlainKeys (key :: rest)) :
    isPlainKey key = true ∧ PlainKeys rest :=
  List.forall_mem_cons.mp plain

theorem fieldName?_of_key {key : Expr} {k : Key} (read : arrayKey? key = some k)
    (plain : isPlainKey key = true) :
    ∃ s, k = .text s ∧ fieldName? key = .ok (some s) ∧ s.isEmpty = false := by
  unfold arrayKey? at read
  split at read
  · rename_i text
    obtain ⟨⟨points, letters⟩, literal, read⟩ := Option.bind_eq_some_iff.mp read
    have unescaped : points = [] := by simpa [isPlainKey, literal] using plain
    subst unescaped
    have decoded : Quotation.decodeText text = .ofList letters :=
      congrArg String.ofList (Quotation.decode_of_literal? literal)
    simp only at read
    split at read
    · cases read
    · rename_i usable
      cases read
      refine ⟨_, rfl, congrArg (fun s => Except.ok (some s)) decoded, ?_⟩
      simpa using fun empty => usable (by simp [empty])
  · cases read

theorem ruleValue?_of_value {e : Expr} {v : Value} (read : arrayValue? e = some v) :
    ruleValue? e = .ok (some v) := by
  unfold arrayValue? at read
  split at read
  · rename_i value ends
    rw [ends, read]
  · cases read

theorem entries_union (a b : RuleSet) :
    (a.union b).entries = earlierWins (a.entries ++ b.entries) :=
  entries_insertAllNew a b.entries

theorem insertAll_append (rules : RuleSet) (first second : Elements) :
    rules.insertAll (first ++ second) = (rules.insertAll first).insertAll second :=
  List.foldl_append

theorem entries_insertAll_empty (writes : Elements) :
    (OrderedMap.empty.insertAll writes : RuleSet).entries = laterWins writes :=
  entries_insertAll .empty writes

mutual

/-- The rule set of an expression has the elements of its array. -/
theorem ruleSet?_of_array (helpers : Helpers) {scope : Scope} {arrays : Arrays}
    (holds : Holds scope arrays) :
    ∀ (e : Expr) (array : Elements), arrayOf? arrays e = some array → PlainKeys (keysOf e) →
      ∃ rules, ruleSet? helpers scope e = pure (some rules) ∧ rules.entries = array
  | .parens _ inner => by
    intro array read plain
    rw [arrayOf?] at read
    rw [ruleSet?]
    exact ruleSet?_of_array helpers holds inner array read plain
  | .var text => by
    intro array read plain
    obtain ⟨name, named, held⟩ := Option.bind_eq_some_iff.mp read
    obtain ⟨rules, found, same⟩ := holds name array held
    exact ⟨rules, by rw [ruleSet?, variableName_of_plain named, found], same⟩
  | .array _ entries => by
    intro array read plain
    obtain ⟨writes, listed, rfl⟩ := Option.map_eq_some_iff.mp read
    refine ⟨OrderedMap.empty.insertAll writes, ?_, entries_insertAll_empty writes⟩
    rw [ruleSet?, entryRules_of_elements helpers holds entries writes listed plain, map_pure]
  | .call _ callee arguments => by
    intro array read plain
    have joined : mergingFunctions.contains (calledFunction callee) ∧
        (joinedElements? arrays arguments).map laterWins = some array := by
      rw [arrayOf?] at read
      split at read
      · rename_i called
        exact ⟨by rw [called]; rfl, read⟩
      · split at read
        · rename_i called
          rw [Bool.and_eq_true, decide_eq_true_iff] at called
          exact ⟨by rw [called.1]; rfl, read⟩
        · cases read
    obtain ⟨writes, listed, rfl⟩ := Option.map_eq_some_iff.mp joined.2
    refine ⟨OrderedMap.empty.insertAll writes, ?_, entries_insertAll_empty writes⟩
    rw [ruleSet?, ← calledFunction, if_pos joined.1,
      mergedRules_of_elements helpers holds arguments writes listed plain, map_pure]
  | .binary _ operator left right => by
    intro array read plain
    rw [arrayOf?] at read
    split at read
    · rename_i sum
      obtain ⟨a, readLeft, read⟩ := Option.bind_eq_some_iff.mp read
      obtain ⟨b, readRight, joined⟩ := Option.bind_eq_some_iff.mp read
      obtain ⟨rules, evaluated, rfl⟩ :=
        ruleSet?_of_array helpers holds left a readLeft plain.of_append.1
      obtain ⟨rules', evaluated', rfl⟩ :=
        ruleSet?_of_array helpers holds right b readRight plain.of_append.2
      cases joined
      refine ⟨rules.union rules', ?_, entries_union rules rules'⟩
      rw [ruleSet?, if_pos sum, evaluated, evaluated', pure_bind, pure_bind]
      rfl
    · cases read
  | .string _ | .template _ | .heredoc _ | .integer _ | .float _ | .constant _ | .null _
  | .unary _ _ | .ternary _ | .select _ _ | .method _ _ _ _ | .static _ _ _ _
  | .construct _ _ _ | .classConstant _ | .member _ | .index _ _ _ | .assign _ _ _
  | .augment _ _ _ _ | .other _ => by
    intro array read plain
    simp [arrayOf?] at read

/-- Entries are written to a rule set one element after another. -/
theorem entryRules_of_elements (helpers : Helpers) {scope : Scope} {arrays : Arrays}
    (holds : Holds scope arrays) :
    ∀ (entries : List Entry) (writes : Elements), elementsOf? arrays entries = some writes →
      PlainKeys (entryKeys entries) → ∀ rules,
        entryRules helpers scope entries rules = pure (rules.insertAll writes)
  | [] => by
    intro writes listed plain rules
    cases listed
    rfl
  | .item _ :: _ => by
    intro writes listed plain rules
    cases listed
  | .spread value :: rest => by
    intro writes listed plain rules
    obtain ⟨elements, read, listed⟩ := Option.bind_eq_some_iff.mp listed
    obtain ⟨others, more, joined⟩ := Option.bind_eq_some_iff.mp listed
    cases joined
    obtain ⟨spread, evaluated, rfl⟩ :=
      ruleSet?_of_array helpers holds value elements read plain.of_append.1
    rw [entryRules, evaluated, pure_bind,
      entryRules_of_elements helpers holds rest others more plain.of_append.2, insertAll_append]
    rfl
  | .pair key value :: rest => by
    intro writes listed plain rules
    obtain ⟨k, named, listed⟩ := Option.bind_eq_some_iff.mp listed
    obtain ⟨v, valued, listed⟩ := Option.bind_eq_some_iff.mp listed
    obtain ⟨others, more, joined⟩ := Option.bind_eq_some_iff.mp listed
    cases joined
    obtain ⟨field, rfl, read, usable⟩ := fieldName?_of_key named plain.of_cons.1
    have filtered : (some field).filter (!·.isEmpty) = some field := by simp [usable]
    simp only [entryRules, read, Emit.liftM_ok, pure_bind, filtered, ruleValue?_of_value valued]
    exact entryRules_of_elements helpers holds rest others more plain.of_cons.2
      (rules.insert (.text field) v)

/-- Rule sets are merged by writing the elements of one after another. -/
theorem mergedRules_of_elements (helpers : Helpers) {scope : Scope} {arrays : Arrays}
    (holds : Holds scope arrays) :
    ∀ (arguments : List Expr) (writes : Elements),
      joinedElements? arrays arguments = some writes → PlainKeys (argumentKeys arguments) →
      ∀ rules, mergedRules helpers scope arguments rules = pure (rules.insertAll writes)
  | [] => by
    intro writes listed plain rules
    cases listed
    rfl
  | e :: rest => by
    intro writes listed plain rules
    obtain ⟨elements, read, listed⟩ := Option.bind_eq_some_iff.mp listed
    obtain ⟨others, more, joined⟩ := Option.bind_eq_some_iff.mp listed
    cases joined
    obtain ⟨merged, evaluated, rfl⟩ :=
      ruleSet?_of_array helpers holds e elements read plain.of_append.1
    rw [mergedRules, evaluated, pure_bind,
      mergedRules_of_elements helpers holds rest others more plain.of_append.2, insertAll_append]
    rfl

end

/-- Assigning an array to a variable assigns a rule set with its elements. -/
theorem Holds.insert {scope : Scope} {arrays : Arrays} (holds : Holds scope arrays)
    (name : String) (rules : RuleSet) :
    Holds (scope.insert name rules) (arrays.assign name rules.entries) := by
  intro other array held
  rw [OrderedMap.get?_insert]
  unfold Arrays.assign at held
  split at held
  · rename_i same
    cases held
    exact ⟨rules, if_pos same.symm, rfl⟩
  · rename_i different
    rw [if_neg (Ne.symm different)]
    exact holds other array held

theorem arrayOf?_unwrap (arrays : Arrays) :
    ∀ e : Expr, arrayOf? arrays e.unwrap = arrayOf? arrays e
  | .parens _ inner => arrayOf?_unwrap arrays inner
  | .var _ | .string _ | .template _ | .heredoc _ | .integer _ | .float _ | .constant _ | .null _
  | .array _ _ | .unary _ _ | .binary _ _ _ _ | .ternary _ | .select _ _ | .call _ _ _
  | .method _ _ _ _ | .static _ _ _ _ | .construct _ _ _ | .classConstant _ | .member _
  | .index _ _ _ | .assign _ _ _ | .augment _ _ _ _ | .other _ => rfl

theorem keysOf_unwrap : ∀ e : Expr, keysOf e.unwrap = keysOf e
  | .parens _ inner => keysOf_unwrap inner
  | .var _ | .string _ | .template _ | .heredoc _ | .integer _ | .float _ | .constant _ | .null _
  | .array _ _ | .unary _ _ | .binary _ _ _ _ | .ternary _ | .select _ _ | .call _ _ _
  | .method _ _ _ _ | .static _ _ _ _ | .construct _ _ _ | .classConstant _ | .member _
  | .index _ _ _ | .assign _ _ _ | .augment _ _ _ _ | .other _ => rfl

/-- A return of an array that can be read is not reported. -/
theorem returnedRules_of_array (label : String) (helpers : Helpers) (line : Nat) {scope : Scope}
    {arrays : Arrays} (holds : Holds scope arrays) (e : Expr) (array : Elements)
    (read : arrayOf? arrays e = some array) (plain : PlainKeys (keysOf e)) :
    ∃ rules, returnedRules label helpers line (some e) scope = pure rules ∧
      rules.entries = array := by
  rw [← arrayOf?_unwrap] at read
  rw [← keysOf_unwrap] at plain
  obtain ⟨rules, evaluated, same⟩ := ruleSet?_of_array helpers holds e.unwrap array read plain
  refine ⟨rules, ?_, same⟩
  simp only [returnedRules, evaluated, pure_bind]
  split
  · rename_i ternary
    simp [ternary, arrayOf?] at read
  · rename_i none _
    cases none
  · rfl

/-! ## Statements -/

variable (label : String) (helpers : Helpers) {scope : Scope} {arrays : Arrays}

theorem assign_variable (holds : Holds scope arrays) (source text name : String) (value : Expr)
    (array : Elements) (named : plainName? text = some name)
    (read : arrayOf? arrays value = some array) (plain : PlainKeys (keysOf value)) :
    ∃ scope', assign helpers (.assign source (.var text) value) scope = pure scope' ∧
      Holds scope' (arrays.assign name array) := by
  obtain ⟨rules, evaluated, rfl⟩ := ruleSet?_of_array helpers holds value array read plain
  refine ⟨scope.insert name rules, ?_, holds.insert name rules⟩
  simp only [assign, evaluated, pure_bind, variableName_of_plain named]

theorem modifyAt_of_get? {name : String} {rules : RuleSet} (found : scope.get? name = some rules)
    (f : RuleSet → RuleSet) : scope.modifyAt name .empty f = scope.insert name (f rules) := by
  rw [OrderedMap.modifyAt, found, Option.getD_some]

theorem assign_element (holds : Holds scope arrays) (source base text name : String)
    (key value : Expr) (array : Elements) (k : Key) (v : Value)
    (named : plainName? text = some name) (held : arrays name = some array)
    (keyed : arrayKey? key = some k) (valued : arrayValue? value = some v)
    (plain : isPlainKey key = true) :
    ∃ scope',
      assign helpers (.assign source (.index base (.var text) (some key)) value) scope =
        pure scope' ∧
      Holds scope' (arrays.assign name (laterWins (array ++ [(k, v)]))) := by
  obtain ⟨rules, found, rfl⟩ := holds name array held
  obtain ⟨field, rfl, read, -⟩ := fieldName?_of_key keyed plain
  refine ⟨scope.insert name (rules.insertAll [(.text field, v)]), ?_, ?_⟩
  · simp only [assign, read, Emit.liftM_ok, pure_bind, ruleValue?_of_value valued,
      variableName_of_plain named, modifyAt_of_get? found]
    rfl
  · rw [← entries_insertAll]
    exact holds.insert name _

theorem assign_added (holds : Holds scope arrays) (source text name : String) (value : Expr)
    (array added : Elements) (named : plainName? text = some name)
    (held : arrays name = some array) (read : arrayOf? arrays value = some added)
    (plain : PlainKeys (keysOf value)) :
    ∃ scope', assign helpers (.augment source "+=" (.var text) value) scope = pure scope' ∧
      Holds scope' (arrays.assign name (earlierWins (array ++ added))) := by
  obtain ⟨rules, found, rfl⟩ := holds name array held
  obtain ⟨more, evaluated, rfl⟩ := ruleSet?_of_array helpers holds value added read plain
  refine ⟨scope.insert name (rules.union more), ?_, ?_⟩
  · simp only [assign, evaluated, pure_bind, variableName_of_plain named,
      modifyAt_of_get? found, if_true]
  · rw [← entries_union]
    exact holds.insert name _

theorem followSteps_expression {scope' : Scope} {e : Expr} (rest : List Stmt) (rules : RuleSet)
    (assigned : assign helpers e scope = pure scope') :
    followSteps label helpers (allSteps false (.expression e :: rest)) scope rules =
      followSteps label helpers (allSteps false rest) scope' rules := by
  simp only [allSteps, stepsOf, List.singleton_append, followSteps, assigned, pure_bind]

/-- Following statements evaluates them like arrays, whatever rules were known before. -/
theorem followSteps_of_array (body : List Stmt) (array : Elements)
    (read : bodyArray? arrays body = some array) (plain : PlainKeys (bodyKeys body))
    (holds : Holds scope arrays) (rules : RuleSet) :
    ∃ result, followSteps label helpers (allSteps false body) scope rules = pure result ∧
      result.entries = array := by
  fun_induction bodyArray? arrays body generalizing scope with
  | case1 arrays line e =>
    obtain ⟨result, returned, same⟩ :=
      returnedRules_of_array label helpers line holds e array read plain.of_append.1
    exact ⟨result, by simp [allSteps, stepsOf, followSteps, returned], same⟩
  | case2 arrays source text value rest ih =>
    obtain ⟨name, named, read⟩ := Option.bind_eq_some_iff.mp read
    obtain ⟨own, evaluated, read⟩ := Option.bind_eq_some_iff.mp read
    obtain ⟨scope', assigned, holds'⟩ :=
      assign_variable helpers holds source text name value own named evaluated plain.of_append.1
    rw [followSteps_expression label helpers rest rules assigned]
    exact ih name own read plain.of_append.2 holds'
  | case3 arrays source base text key value rest ih =>
    obtain ⟨name, named, read⟩ := Option.bind_eq_some_iff.mp read
    obtain ⟨own, held, read⟩ := Option.bind_eq_some_iff.mp read
    obtain ⟨k, keyed, read⟩ := Option.bind_eq_some_iff.mp read
    obtain ⟨v, valued, read⟩ := Option.bind_eq_some_iff.mp read
    obtain ⟨scope', assigned, holds'⟩ :=
      assign_element helpers holds source base text name key value own k v named held keyed valued
        plain.of_cons.1
    rw [followSteps_expression label helpers rest rules assigned]
    exact ih name own k v read plain.of_cons.2 holds'
  | case4 arrays source operator text value rest ih =>
    obtain ⟨name, named, read⟩ := Option.bind_eq_some_iff.mp read
    obtain ⟨own, held, read⟩ := Option.bind_eq_some_iff.mp read
    obtain ⟨added, evaluated, remaining⟩ := Option.bind_eq_some_iff.mp read
    split at remaining
    · rename_i union
      subst union
      obtain ⟨scope', assigned, holds'⟩ :=
        assign_added helpers holds source text name value own added named held evaluated
          plain.of_append.1
      rw [followSteps_expression label helpers rest rules assigned]
      exact ih name own added remaining plain.of_append.2 holds'
    · cases remaining
  | case5 => cases read

/-- A method of assignments and one return has the elements of its array for rules, in
the order of the array and without a diagnostic, if no key escapes a code point. -/
theorem methodRules_eq_array (label : String) (c : ClassBody) (depth : Int) (m : Method)
    (body : List Stmt) (array : Elements) (present : m.body = some body)
    (read : bodyArray? (fun _ => none) body = some array) (plain : PlainKeys (bodyKeys body)) :
    ∃ rules, methodRules label c depth m = pure rules ∧ rules.entries = array := by
  rw [methodRules, present]
  have nothing : Holds .empty fun _ => none := fun _ _ held => nomatch held
  exact followSteps_of_array label (helpersFor label c depth m) body array read plain nothing .empty

/-- A method that copies a variable, writes to both variables and puts them together. -/
def copiedVariable : List Stmt := [
  .expression (.assign "" (.var "$a") (.array "" [.pair (.string "'x'") (.string "'int'")])),
  .expression (.assign "" (.var "$b") (.var "$a")),
  .expression (.assign "" (.index "" (.var "$a") (some (.string "'y'"))) (.string "'url'")),
  .expression (.augment "" "+=" (.var "$b")
    (.array "" [.pair (.string "'z'") (.string "'date'"), .pair (.string "'x'") (.string "'url'"),
      .spread (.var "$a")])),
  .result 6 (some (.array "" [.spread (.var "$b"), .spread (.var "$a")]))]

theorem copiedVariable_rules :
    ∃ rules, methodRules "" ⟨1, []⟩ 3 ⟨"rules", 1, "", some copiedVariable⟩ = pure rules ∧
      rules.entries =
        [(.text "x", .text "int"), (.text "z", .text "date"), (.text "y", .text "url")] := by
  have keyX : arrayKey? (.string "'x'") = some (.text "x") := by decide
  have keyY : arrayKey? (.string "'y'") = some (.text "y") := by decide
  have keyZ : arrayKey? (.string "'z'") = some (.text "z") := by decide
  have valueInt : arrayValue? (.string "'int'") = some (.text "int") := rfl
  have valueDate : arrayValue? (.string "'date'") = some (.text "date") := rfl
  have valueUrl : arrayValue? (.string "'url'") = some (.text "url") := rfl
  refine methodRules_eq_array "" ⟨1, []⟩ 3 ⟨"rules", 1, "", some copiedVariable⟩ copiedVariable _
    rfl ?_ ?_
  · simp [copiedVariable, bodyArray?, plainName?, arrayOf?, elementsOf?, keyX, keyY, keyZ, valueInt,
      valueDate, valueUrl, Arrays.assign, laterWins, earlierWins, List.eraseDups_cons,
      OrderedMap.find?]
  · exact List.all_eq_true.mp (by decide)

/-- A key that escapes the code point of the letter A, and that letter as a key. -/
def escapedKey : List Stmt := [
  .result 1 (some (.array "" [.pair (.string "\"\\u\x7b41\x7d\"") (.string "'int'"),
    .pair (.string "'A'") (.string "'url'")]))]

/-- A key that escapes a code point is kept beside the key that it is. -/
theorem escapedKey_apart :
    ¬ ∀ label c depth m body array, m.body = some body →
      bodyArray? (fun _ => none) body = some array →
      ∃ rules, methodRules label c depth m = pure rules ∧ rules.entries = array := by
  intro evaluates
  have escaped : arrayKey? (.string "\"\\u\x7b41\x7d\"") = some (.text "A") := by decide
  have plain : arrayKey? (.string "'A'") = some (.text "A") := by decide
  have valueInt : arrayValue? (.string "'int'") = some (.text "int") := rfl
  have valueUrl : arrayValue? (.string "'url'") = some (.text "url") := rfl
  have array : bodyArray? (fun _ => none) escapedKey = some [(.text "A", .text "url")] := by
    simp [escapedKey, bodyArray?, arrayOf?, elementsOf?, escaped, plain, valueInt, valueUrl,
      laterWins, List.eraseDups_cons, OrderedMap.find?]
  obtain ⟨rules, read, same⟩ :=
    evaluates "" ⟨1, []⟩ 3 ⟨"rules", 1, "", some escapedKey⟩ escapedKey _ rfl array
  have written : methodRules "" ⟨1, []⟩ 3 ⟨"rules", 1, "", some escapedKey⟩ =
      pure (OrderedMap.empty.insertAll
        [(.text "\\u\x7b41\x7d", .text "int"), (.text "A", .text "url")]) := rfl
  obtain rfl := Except.ok.inj (congrArg Emit.outcome (written.symm.trans read))
  exact absurd (congrArg List.length same) (by decide)

end RequestSchema.Extraction
