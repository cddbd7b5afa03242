import RequestSchema.Proofs.Analysis.Leaves
import RequestSchema.Proofs.Enumeration.Lookup
import RequestSchema.Proofs.Parameter.Conditional
import RequestSchema.Proofs.Parameter.Reading
import RequestSchema.Session

/-!
# Calls after other calls

The calls of a session share its registry of enumerations. A call changes only what is known
under the names of the enumerations that its own source declares
(`Session.agreeOn_answer`), and its answer depends only on what is known under the names
that its rules may stand for (`Session.answer_eq_of_agreeOn`). So a call is answered after
other calls as it is before them, unless one of them declares an enumeration that the rules
of the call may stand for and that its own source does not declare
(`Session.answer_after`).

The exception is real: a class can get a field of another type after a call on another
source (`statusField_after_statusCodes`). Sessions with directories to search, in which
looking for a class makes others known, are left out.
-/
namespace RequestSchema

open RequestSchema.Source RequestSchema.Extraction Analysis

/-! ## Parameters -/

section

variable {parse : Parser} {names : String → Prop}

def FieldRules.consulted (space : Option String) (aliases : OrderedMap String String)
    (field : FieldRules) : List String :=
  field.tokens.flatMap (EnumReference.consulted space aliases)

theorem Origin.leaves_enumeration? (origin : Origin) (tokens : List Token) :
    Leaves parse names (origin.enumeration? tokens) :=
  (EnumReference.first?_settles tokens).leaves

theorem FieldRules.leaves_describe (field : FieldRules) (origin : Origin) (type : FieldType) :
    Leaves parse names (field.describe origin type) := by
  unfold describe
  cases origin.label? field.name with
  | some label => exact leaves_pure label
  | none => exact (origin.leaves_enumeration? field.tokens).bind fun _ => leaves_pure _

theorem FieldRules.leaves_parameter (field : FieldRules) (origin : Origin) :
    Leaves parse names (field.parameter origin) := by
  unfold parameter
  refine (origin.leaves_enumeration? field.tokens).bind fun enumeration => ?_
  refine (leaves_except _).bind fun upload => ?_
  cases upload with
  | some upload => exact leaves_except _
  | none =>
    refine (leaves_except _).bind fun bounds => ?_
    refine (field.leaves_describe origin _).bind fun description => ?_
    exact (leaves_except _).bind fun sample => leaves_pure _

/-- Building parameters makes nothing known. -/
theorem Parameter.leaves_ofEntries (origin : Origin)
    (entries : List (Except Fault (Option FieldRules))) :
    Leaves parse names (ofEntries origin entries) := by
  induction entries with
  | nil => exact leaves_pure []
  | cons entry rest ih =>
    refine (leaves_except entry).bind fun field? => ?_
    cases field? with
    | none => exact ih
    | some field =>
      exact (field.leaves_parameter origin).bind fun p => ih.bind fun ps => leaves_pure _

theorem Parameter.leaves_ofConditionalRules (rules : ConditionalRules) (origin : Origin) :
    Leaves parse names (ofConditionalRules rules origin) :=
  (leaves_except _).bind fun _ => leaves_ofEntries origin _

theorem Origin.alike_enumeration? {origin : Origin} {field : FieldRules}
    (listed : ∀ name ∈ field.consulted origin.space origin.aliases, names name) :
    Alike (Registry.AgreeOn parse names) (Registry.AgreeOn parse names) Eq
      (origin.enumeration? field.tokens) (origin.enumeration? field.tokens) := by
  have settles : (origin.enumeration? field.tokens).Settles fun known =>
      field.tokens.findSome? (EnumReference.referent? origin.space origin.aliases known) :=
    EnumReference.first?_settles field.tokens
  refine settles.alike settles fun r r' agree => ?_
  refine EnumReference.findSome?_referent_congr fun token member name consulted => ?_
  exact agree.known name (listed name (List.mem_flatMap.mpr ⟨token, member, consulted⟩))

theorem FieldRules.alike_parameter {origin : Origin} {field : FieldRules}
    (listed : ∀ name ∈ field.consulted origin.space origin.aliases, names name) :
    Alike (Registry.AgreeOn parse names) (Registry.AgreeOn parse names) Eq
      (field.parameter origin) (field.parameter origin) := by
  refine (parameter_alike field field rfl (.refl field.tokens)
    (Origin.alike_enumeration? listed)).imp ?_
  rintro p p' ⟨q, -, rfl, rfl⟩
  rfl

/-- Parameters depend only on the enumerations that the rules of the fields may stand for. -/
theorem Parameter.alike_ofEntries {origin : Origin}
    {entries : List (Except Fault (Option FieldRules))}
    (listed : ∀ field, .ok (some field) ∈ entries →
      ∀ name ∈ field.consulted origin.space origin.aliases, names name) :
    Alike (Registry.AgreeOn parse names) (Registry.AgreeOn parse names) Eq
      (ofEntries origin entries) (ofEntries origin entries) := by
  induction entries with
  | nil => exact alike_pure rfl
  | cons entry rest ih =>
    have others := ih fun field member => listed field (List.mem_cons_of_mem entry member)
    cases entry with
    | error fault => exact fun _ _ _ _ => .stop
    | ok field? =>
      cases field? with
      | none => exact others
      | some field =>
        have own := listed field List.mem_cons_self
        refine (FieldRules.alike_parameter own).bind fun p p' same => ?_
        subst same
        refine others.bind fun ps ps' same => ?_
        subst same
        exact alike_pure rfl

theorem Parameter.alike_ofRuleSet {rules : RuleSet} {origin : Origin}
    (listed : ∀ name ∈ (flatFields rules).flatMap
      (FieldRules.consulted origin.space origin.aliases), names name) :
    Alike (Registry.AgreeOn parse names) (Registry.AgreeOn parse names) Eq
      (ofRuleSet rules origin) (ofRuleSet rules origin) := by
  refine alike_ofEntries fun field member name consulted => listed name ?_
  obtain ⟨entry, own, read⟩ := List.mem_map.mp member
  exact List.mem_flatMap.mpr ⟨field, List.mem_filterMap.mpr
    ⟨entry, own, FieldRules.flat_of_ofPair? read⟩, consulted⟩

theorem Parameter.alike_ofConditionalRules {rules : ConditionalRules} {origin : Origin}
    (listed : ∀ name ∈ (conditionalFields rules).flatMap
      (FieldRules.consulted origin.space origin.aliases), names name) :
    Alike (Registry.AgreeOn parse names) (Registry.AgreeOn parse names) Eq
      (ofConditionalRules rules origin) (ofConditionalRules rules origin) := by
  refine (alike_except _).yielding.bind ?_
  rintro branches _ ⟨rfl, yields, -⟩
  obtain ⟨-, -, rfl⟩ := written_of_tokens (yields_except yields)
  rw [ConditionalSource.rules_ofRules]
  refine alike_ofEntries fun field member name consulted => listed name ?_
  obtain ⟨entry, own, read⟩ := List.mem_map.mp member
  exact List.mem_flatMap.mpr ⟨field, List.mem_filterMap.mpr
    ⟨entry, own, FieldRules.joint_of_ofBranches? read⟩, consulted⟩

end

/-! ## Analyses of a class -/

namespace SourceUnit

/-- The names of the enumerations that become known when a class is found. -/
def declared (parse : Parser) (u : SourceUnit) (name : String) : List String :=
  match parse u.text with
  | .error _ => []
  | .ok tree => if (tree.class? name).isSome then (Registry.writes tree).map Prod.fst else []

/-- The class that is found, whatever is known before. -/
def located? (parse : Parser) (u : SourceUnit) (name : String) : Option Located :=
  match parse u.text with
  | .error _ => none
  | .ok tree => (tree.class? name).map fun body =>
      ⟨body, (u.space.filter (!·.isEmpty)).or tree.namespace?, tree.aliases.update u.aliases⟩

def fields (settings : Settings) (u : SourceUnit) (body : ClassBody) (m : Method)
    (conditional : Bool) : List FieldRules :=
  if conditional then
    match (methodBranches u.label body settings.helperDepth settings.predicateWords m).outcome with
    | .ok found => conditionalFields found
    | .error _ => []
  else
    match (methodRules u.label body settings.helperDepth m).outcome with
    | .ok rules => flatFields rules
    | .error _ => []

/-- The names of the enumerations that the rules of a class may stand for. -/
def consulted (parse : Parser) (settings : Settings) (u : SourceUnit) (name : String)
    (conditional : Bool) : List String :=
  match u.located? parse name with
  | none => []
  | some found => match found.body.method? settings.rulesMethod with
    | none => []
    | some m => (u.fields settings found.body m conditional).flatMap
        (FieldRules.consulted found.space found.aliases)

/-- An analysis of the method that returns the rules of a class, where there is one. -/
def onMethod {α : Type} (settings : Settings) (u : SourceUnit) (name : String) (otherwise : α)
    (rest : Located → Method → Analysis α) : Analysis α := do
  match ← u.locate name with
  | none => return otherwise
  | some found => match found.body.method? settings.rulesMethod with
    | none => return otherwise
    | some m => rest found m

/-- The parameters of a class that has been found, from the method that returns its rules. -/
def parametersOf (settings : Settings) (u : SourceUnit) (conditional : Bool) (found : Located)
    (m : Method) : Analysis (List Parameter) := do
  let origin : Origin :=
    { space := found.space
      aliases := found.aliases
      labels := Anonymous.textsOf found.body "attributes"
      room := settings.room }
  if conditional then
    let branches ←
      (methodBranches u.label found.body settings.helperDepth settings.predicateWords m :
        Logged ConditionalRules)
    Parameter.ofConditionalRules branches origin
  else
    let rules ← (methodRules u.label found.body settings.helperDepth m : Logged RuleSet)
    Parameter.ofRuleSet rules origin

section

variable {parse : Parser} (settings : Settings) (u : SourceUnit) (name : String)
  {names : String → Prop}

theorem rules_eq_onMethod :
    u.rules settings name = u.onMethod settings name .empty fun found m =>
      liftM (methodRules u.label found.body settings.helperDepth m) := rfl

theorem branches_eq_onMethod :
    u.branches settings name = u.onMethod settings name {} fun found m =>
      liftM (methodBranches u.label found.body settings.helperDepth settings.predicateWords m) :=
  rfl

theorem parameters_eq_onMethod (conditional : Bool) :
    u.parameters settings name conditional =
      u.onMethod settings name [] (u.parametersOf settings conditional) := rfl

/-- Either no class is found, which is reported, or the enumerations of its source are
registered. -/
theorem locate_cases :
    (∃ d, RunsAs parse (u.locate name) ((fun _ => none) <$> emit d) ∧
      u.declared parse name = [] ∧ u.located? parse name = none) ∨
    ∃ tree found, RunsAs parse (u.locate name) ((fun _ => some found) <$> registerTree tree) ∧
      u.declared parse name = (Registry.writes tree).map Prod.fst ∧
      u.located? parse name = some found := by
  unfold locate declared located?
  cases read : parse u.text with
  | error problem =>
    obtain ⟨d, reports⟩ := parse_runsAs_report (some u.label) read
    exact .inl ⟨d, reports.bind _, rfl, rfl⟩
  | ok tree =>
    have parsed := parse_runsAs_tree (some u.label) read
    cases found : tree.class? name with
    | none =>
      refine .inl ⟨⟨.warning, context, "Class " ++ name ++ " not found",
        .ofList [("error_type", .text "class_node_not_found"), ("class_name", .text name),
          ("file_path", .text u.label)]⟩, fun strict r parses => ?_, ?_, ?_⟩
      · rw [parsed.bind _ strict r parses, pure_bind]
        simp only [found]
        rfl
      · simp only [found, Option.isSome_none, Bool.false_eq_true, if_false]
      · simp only [found, Option.map_none]
    | some body =>
      refine .inr ⟨tree, ⟨body, (u.space.filter (!·.isEmpty)).or tree.namespace?,
        tree.aliases.update u.aliases⟩, fun strict r parses => ?_, ?_, ?_⟩
      · rw [parsed.bind _ strict r parses, pure_bind]
        simp only [found]
        rfl
      · simp only [found, Option.isSome_some, if_true]
      · simp only [found, Option.map_some]

theorem leaves_locate : Leaves parse (· ∉ u.declared parse name) (u.locate name) := by
  rcases locate_cases u name with ⟨d, same, -, -⟩ | ⟨tree, found, same, declares, -⟩
  · exact same.leaves ((leaves_emit d).map _)
  · rw [declares]
    exact same.leaves ((leaves_registerTree tree).map _)

/-- Registries that agree do so on the enumerations of the source as well once the class is
found. -/
theorem alike_locate :
    Alike (Registry.AgreeOn parse names)
      (Registry.AgreeOn parse fun name' => names name' ∨ name' ∈ u.declared parse name)
      (fun found found' => found = u.located? parse name ∧ found' = u.located? parse name)
      (u.locate name) (u.locate name) := by
  rcases locate_cases u name with ⟨d, same, declares, place⟩ | ⟨tree, found, same, declares, place⟩
  · rw [declares, place]
    have agreement : (fun name' => names name' ∨ name' ∈ ([] : List String)) = names := by
      simp only [List.not_mem_nil, or_false]
    rw [agreement]
    exact same.alike ((alike_emit d).map fun _ _ _ => ⟨rfl, rfl⟩)
  · rw [declares, place]
    exact same.alike ((alike_registerTree names tree).map fun _ _ _ => ⟨rfl, rfl⟩)

variable {settings u name}

theorem leaves_onMethod {α : Type} {otherwise : α} {rest : Located → Method → Analysis α}
    (each : ∀ found m, Leaves parse (· ∉ u.declared parse name) (rest found m)) :
    Leaves parse (· ∉ u.declared parse name) (u.onMethod settings name otherwise rest) := by
  refine (leaves_locate u name).bind fun found => ?_
  cases found with
  | none => exact leaves_pure otherwise
  | some found =>
    simp only
    cases found.body.method? settings.rulesMethod with
    | none => exact leaves_pure otherwise
    | some m => exact each found m

theorem alike_onMethod {α : Type} {otherwise : α} {rest : Located → Method → Analysis α}
    (each : ∀ found m, u.located? parse name = some found →
      found.body.method? settings.rulesMethod = some m →
      Alike (Registry.AgreeOn parse fun name' => names name' ∨ name' ∈ u.declared parse name)
        (Registry.AgreeOn parse fun name' => names name' ∨ name' ∈ u.declared parse name) Eq
        (rest found m) (rest found m)) :
    Alike (Registry.AgreeOn parse names)
      (Registry.AgreeOn parse fun name' => names name' ∨ name' ∈ u.declared parse name) Eq
      (u.onMethod settings name otherwise rest) (u.onMethod settings name otherwise rest) := by
  refine (alike_locate u name).bind fun found found' same => ?_
  rw [same.1, same.2]
  cases place : u.located? parse name with
  | none => exact alike_pure rfl
  | some found =>
    simp only
    cases method : found.body.method? settings.rulesMethod with
    | none => exact alike_pure rfl
    | some m => exact each found m place method

theorem leaves_rules : Leaves parse (· ∉ u.declared parse name) (u.rules settings name) := by
  rw [rules_eq_onMethod]
  exact leaves_onMethod fun _ _ => leaves_logged _

theorem leaves_branches : Leaves parse (· ∉ u.declared parse name) (u.branches settings name) := by
  rw [branches_eq_onMethod]
  exact leaves_onMethod fun _ _ => leaves_logged _

theorem leaves_parameters (conditional : Bool) :
    Leaves parse (· ∉ u.declared parse name) (u.parameters settings name conditional) := by
  rw [parameters_eq_onMethod]
  refine leaves_onMethod fun found m => ?_
  cases conditional with
  | true => exact (leaves_logged _).bind fun branches => Parameter.leaves_ofConditionalRules _ _
  | false => exact (leaves_logged _).bind fun rules => Parameter.leaves_ofEntries _ _

variable (settings u name) in
/-- Rules do not depend on what is known, nor do branches. -/
theorem alike_rules :
    Alike (Registry.AgreeOn parse names)
      (Registry.AgreeOn parse fun name' => names name' ∨ name' ∈ u.declared parse name) Eq
      (u.rules settings name) (u.rules settings name) := by
  rw [rules_eq_onMethod]
  exact alike_onMethod fun _ _ _ _ => alike_logged _

variable (settings u name) in
theorem alike_branches :
    Alike (Registry.AgreeOn parse names)
      (Registry.AgreeOn parse fun name' => names name' ∨ name' ∈ u.declared parse name) Eq
      (u.branches settings name) (u.branches settings name) := by
  rw [branches_eq_onMethod]
  exact alike_onMethod fun _ _ _ _ => alike_logged _

/-- Parameters depend only on the enumerations that the rules of the class may stand for,
and on none that its source declares. -/
theorem alike_parameters {conditional : Bool}
    (listed : ∀ name' ∈ u.consulted parse settings name conditional,
      names name' ∨ name' ∈ u.declared parse name) :
    Alike (Registry.AgreeOn parse names)
      (Registry.AgreeOn parse fun name' => names name' ∨ name' ∈ u.declared parse name) Eq
      (u.parameters settings name conditional) (u.parameters settings name conditional) := by
  rw [parameters_eq_onMethod]
  refine alike_onMethod fun found m place method => ?_
  simp only [consulted, place, method] at listed
  cases conditional with
  | true =>
    refine (alike_logged _).yielding.bind ?_
    rintro branches _ ⟨rfl, yields, -⟩
    simp only [fields, yields_logged yields] at listed
    exact Parameter.alike_ofConditionalRules listed
  | false =>
    refine (alike_logged _).yielding.bind ?_
    rintro rules _ ⟨rfl, yields, -⟩
    simp only [fields, yields_logged yields] at listed
    exact Parameter.alike_ofRuleSet listed

end

end SourceUnit

/-! ## Calls -/

/-- A call on a session: for the rules of a class, for their branches, or for its
parameters. -/
inductive Call where
  | rules (u : SourceUnit) (name : String)
  | branches (u : SourceUnit) (name : String)
  | parameters (u : SourceUnit) (name : String) (conditional : Bool)

/-- What a call returns. -/
inductive Answer where
  | rules (rules : RuleSet)
  | branches (branches : ConditionalRules)
  | parameters (parameters : List Parameter)

namespace Call

/-- The names of the enumerations that the source of a call declares, if its class is found
there. -/
def declared (parse : Parser) : Call → List String
  | rules u name => u.declared parse name
  | branches u name => u.declared parse name
  | parameters u name _ => u.declared parse name

/-- The names of the enumerations that the answer to a call may depend on. -/
def consulted (parse : Parser) (settings : Settings) : Call → List String
  | rules _ _ => []
  | branches _ _ => []
  | parameters u name conditional => u.consulted parse settings name conditional

end Call

namespace Session

/-- The answer to a call, and the session behind it. -/
def answer (s : Session) : Call → Except Stop Answer × Session
  | .rules u name => (s.perform (u.rules s.settings name)).map (Except.map .rules) id
  | .branches u name => (s.perform (u.branches s.settings name)).map (Except.map .branches) id
  | .parameters u name conditional =>
      (s.perform (u.parameters s.settings name conditional)).map (Except.map .parameters) id

def after (s : Session) (history : List Call) : Session :=
  history.foldl (fun s call => (s.answer call).2) s

variable {s t : Session} {parse : Parser}

theorem settings_answer (s : Session) (call : Call) : (s.answer call).2.settings = s.settings := by
  cases call <;> rfl

theorem settings_after (s : Session) (history : List Call) :
    (s.after history).settings = s.settings := by
  induction history generalizing s with
  | nil => rfl
  | cons call rest ih => exact (ih (s.answer call).2).trans (settings_answer s call)

/-- A call changes only what is known under the names of the enumerations that its source
declares, also when it fails. -/
theorem agreeOn_answer (rootless : s.registry.roots = .empty) (parses : s.registry.parse = parse)
    (call : Call) :
    Registry.AgreeOn parse (· ∉ call.declared parse) s.registry (s.answer call).2.registry := by
  cases call with
  | rules u name => exact SourceUnit.leaves_rules s.settings.strict s.registry rootless parses
  | branches u name => exact SourceUnit.leaves_branches s.settings.strict s.registry rootless parses
  | parameters u name conditional =>
    exact SourceUnit.leaves_parameters conditional s.settings.strict s.registry rootless parses

theorem agreeOn_after (rootless : s.registry.roots = .empty) (parses : s.registry.parse = parse)
    (history : List Call) :
    Registry.AgreeOn parse (· ∉ history.flatMap (Call.declared parse)) s.registry
      (s.after history).registry := by
  induction history generalizing s with
  | nil => exact .refl rootless parses
  | cons call rest ih =>
    have first : Registry.AgreeOn parse (· ∉ (call :: rest).flatMap (Call.declared parse))
        s.registry (s.answer call).2.registry :=
      (agreeOn_answer rootless parses call).mono fun name absent declared =>
        absent (List.mem_flatMap.mpr ⟨call, List.mem_cons_self, declared⟩)
    refine first.trans ((ih first.rootless' first.parses').mono fun name absent declared =>
      absent ?_)
    rw [List.flatMap_cons]
    exact List.mem_append_right _ declared

/-- Sessions with the same settings give a call the same answer when the same enumerations
are known among those that it consults and its source does not declare. -/
theorem answer_eq_of_agreeOn (same : s.settings = t.settings) {names : String → Prop}
    (agree : Registry.AgreeOn parse names s.registry t.registry) {call : Call}
    (listed : ∀ name ∈ call.consulted parse s.settings, names name ∨ name ∈ call.declared parse) :
    (s.answer call).1 = (t.answer call).1 := by
  cases call with
  | rules u name =>
    have ends := SourceUnit.alike_rules s.settings u name s.settings.strict _ _ agree
    simp only [answer, perform, Prod.map_fst, ← same]
    exact ends.result_map fun _ _ => congrArg Answer.rules
  | branches u name =>
    have ends := SourceUnit.alike_branches s.settings u name s.settings.strict _ _ agree
    simp only [answer, perform, Prod.map_fst, ← same]
    exact ends.result_map fun _ _ => congrArg Answer.branches
  | parameters u name conditional =>
    have ends := SourceUnit.alike_parameters listed s.settings.strict _ _ agree
    simp only [answer, perform, Prod.map_fst, ← same]
    exact ends.result_map fun _ _ => congrArg Answer.parameters

/-- Without directories to search, a call is answered after other calls as it is before
them, unless they make an enumeration known that the call consults and its own source does
not declare. -/
theorem answer_after (rootless : s.registry.roots = .empty) {history : List Call} {call : Call}
    (own : ∀ name ∈ call.consulted s.registry.parse s.settings,
      name ∈ history.flatMap (Call.declared s.registry.parse) →
        name ∈ call.declared s.registry.parse) :
    ((s.after history).answer call).1 = (s.answer call).1 := by
  refine (answer_eq_of_agreeOn (settings_after s history).symm
    (agreeOn_after rootless rfl history) fun name consulted => ?_).symm
  by_cases made : name ∈ history.flatMap (Call.declared s.registry.parse)
  · exact .inr (own name consulted made)
  · exact .inl made

/-- A source that declares an enumeration of codes. -/
def statusCodes : Call :=
  .parameters
    { text := "<?php enum Status:int\x7bcase Y=1;\x7d" ++
        "class A\x7bfunction rules()\x7breturn[];\x7d\x7d" } "A" false

def statusField (space : String) : Call :=
  .parameters
    { text := "<?php " ++ space ++ "enum Status:string\x7bcase X='x';\x7d" ++
        "class B\x7bfunction rules()\x7breturn['s'=>[Rule::enum(Status::class)]];\x7d\x7d" }
    "B" false

theorem statusField_unaffected :
    "Status" ∈ (statusField "").consulted SourceTree.ofText {} ∧
      "Status" ∈ statusCodes.declared SourceTree.ofText ∧
      ((({} : Session).after [statusCodes]).answer (statusField "")).1 =
        (({} : Session).answer (statusField "")).1 := by
  obtain ⟨consulted, declared, own⟩ :
      "Status" ∈ (statusField "").consulted SourceTree.ofText {} ∧
        "Status" ∈ statusCodes.declared SourceTree.ofText ∧
        ∀ name ∈ (statusField "").consulted SourceTree.ofText {},
          name ∈ [statusCodes].flatMap (Call.declared SourceTree.ofText) →
            name ∈ (statusField "").declared SourceTree.ofText := by
    decide +kernel
  exact ⟨consulted, declared, answer_after rfl own⟩

def fieldTypes : Except Stop Answer → List FieldType
  | .ok (.parameters ps) => ps.map Parameter.type
  | _ => []

/-- In a namespace, the name of the field's enumeration may stand for one without a
namespace, which a call on another source has made known. -/
theorem statusField_after_statusCodes :
    ((({} : Session).after [statusCodes]).answer (statusField "namespace App; ")).1 ≠
      (({} : Session).answer (statusField "namespace App; ")).1 := by
  intro same
  have types : fieldTypes ((({} : Session).after [statusCodes]).answer
        (statusField "namespace App; ")).1 =
      fieldTypes (({} : Session).answer (statusField "namespace App; ")).1 := by rw [same]
  revert types
  decide +kernel

end Session

end RequestSchema
