import RequestSchema.Proofs.Enumeration.Search
import RequestSchema.Proofs.Parameter.Reading
import RequestSchema.Proofs.Parameter.Totality

/-!
# Fields one by one

Building the parameter of a field looks enumerations up, which changes the registry that the next
field meets. In a coherent registry no field notices: an analysis that only looks enumerations up
ends behind other look-ups as it does at the start (`Analysis.Steady`), so each field has the
parameters that it has by itself.

* `Registry.independent_iff_coherent`: fields are built independently of each other exactly in
  coherent registries;
* `sharedFile_dependent`: a file with two enumerations makes the order of two fields matter.
-/
namespace RequestSchema

open RequestSchema.Text

namespace Analysis

variable {α β : Type} {strict : Bool} {r₀ : Registry}

/-! ## Steady analyses -/

/-- Behind look-ups, the analysis ends as it does at the start, and is one of them. -/
def Steady (strict : Bool) (r₀ : Registry) (a : Analysis α) : Prop :=
  ∀ r, Registry.Follows strict r₀ r → (a.run strict r).result = (a.run strict r₀).result ∧
    ∀ x, (a.run strict r).result = .ok x → Registry.Follows strict r₀ (a.run strict r).registry

theorem steady_pure (x : α) : Steady strict r₀ (pure x : Analysis α) :=
  fun _ follows => ⟨rfl, fun _ _ => follows⟩

theorem steady_except (m : Except Fault α) : Steady strict r₀ (liftM m : Analysis α) := by
  cases m with
  | ok x => exact steady_pure x
  | error fault => exact fun _ _ => ⟨rfl, fun _ returned => nomatch returned⟩

/-- Each part of a steady sequence is told what it would be told at the start. -/
theorem Steady.result_bind {a : Analysis α} {f : α → Analysis β} (first : Steady strict r₀ a)
    (second : ∀ x, Steady strict r₀ (f x)) {r : Registry} (follows : Registry.Follows strict r₀ r) :
    ((a >>= f).run strict r).result =
      (a.run strict r₀).result >>= fun x => ((f x).run strict r₀).result := by
  obtain ⟨same, kept⟩ := first r follows
  cases ended : (a.run strict r₀).result with
  | error e =>
    rw [ended] at same
    exact (run_sequence_error f same).1
  | ok x =>
    rw [ended] at same
    rw [(run_sequence_ok f same).1]
    exact (second x _ (kept x same)).1

theorem Steady.bind {a : Analysis α} {f : α → Analysis β} (first : Steady strict r₀ a)
    (second : ∀ x, Steady strict r₀ (f x)) : Steady strict r₀ (a >>= f) := by
  intro r follows
  refine ⟨?_, fun y returned => ?_⟩
  · rw [first.result_bind second follows, first.result_bind second (.refl strict r₀)]
  · cases ended : (a.run strict r).result with
    | error e =>
      rw [(run_sequence_error f ended).1] at returned
      cases returned
    | ok x =>
      obtain ⟨result, registry⟩ := run_sequence_ok f ended
      rw [registry]
      exact (second x _ ((first r follows).2 x ended)).2 y (result ▸ returned)

theorem steady_enumeration? (coherent : r₀.Coherent) (name : String) :
    Steady strict r₀ (enumeration? name) := by
  intro r follows
  have trimmed := trimChar_trimChar '\\' name
  obtain ⟨result, registry⟩ := run_enumeration? strict r name
  rw [result, registry, (run_enumeration? strict r₀ name).1]
  exact ⟨follows.answer _, fun found ends => follows.after coherent trimmed ends⟩

end Analysis

/-! ## Fields -/

section

open Analysis

variable {strict : Bool} {r₀ : Registry} (coherent : r₀.Coherent)

include coherent

namespace EnumReference

variable (space : Option String) (aliases : OrderedMap String String)

theorem resolve_steady (name : String) : Steady strict r₀ (resolve name space aliases) := by
  unfold resolve
  simp only
  split
  · exact steady_pure _
  · split
    · split
      · exact steady_pure _
      · exact steady_pure _
    · refine (steady_enumeration? coherent _).bind fun found => ?_
      split
      · exact steady_pure _
      · split
        · exact steady_pure _
        · split
          · exact steady_pure _
          · refine (steady_enumeration? coherent _).bind fun found => ?_
            split
            · exact steady_pure _
            · exact steady_pure _

theorem lookUp_steady (token : Token) : Steady strict r₀ (lookUp space aliases token) := by
  unfold lookUp
  split
  · exact steady_pure _
  · exact (resolve_steady coherent space aliases _).bind fun name =>
      steady_enumeration? coherent name

theorem first?_steady (tokens : List Token) : Steady strict r₀ (first? space aliases tokens) := by
  induction tokens with
  | nil => exact steady_pure _
  | cons token rest ih =>
    refine (lookUp_steady coherent space aliases token).bind fun found => ?_
    cases found with
    | some e => exact steady_pure _
    | none => exact ih

end EnumReference

theorem FieldRules.describe_steady (field : FieldRules) (origin : Origin) (type : FieldType) :
    Steady strict r₀ (field.describe origin type) := by
  unfold describe
  split
  · exact steady_pure _
  · exact (EnumReference.first?_steady coherent _ _ _).bind fun enumeration => steady_pure _

theorem FieldRules.parameter_steady (field : FieldRules) (origin : Origin) :
    Steady strict r₀ (field.parameter origin) := by
  unfold parameter
  refine (EnumReference.first?_steady coherent _ _ _).bind fun enumeration => ?_
  refine (steady_except _).bind fun upload? => ?_
  cases upload? with
  | some upload => exact steady_except _
  | none =>
    refine (steady_except _).bind fun bounds => ?_
    refine (field.describe_steady coherent origin _).bind fun description => ?_
    exact (steady_except _).bind fun sample => steady_pure _

end

/-! ## Fields by themselves -/

/-- The parameters that a field has when it comes alone. -/
def FieldRules.alone (strict : Bool) (r : Registry) (origin : Origin) (field : FieldRules) :
    List Parameter :=
  match ((field.parameter origin).run strict r).result with
  | .ok p => p.withConfirmation
  | .error _ => []

section

open Analysis

variable {strict : Bool} {r₀ : Registry} (coherent : r₀.Coherent) {origin : Origin}

include coherent

theorem ofFields_steady (fields : List FieldRules) :
    Steady strict r₀ (Parameter.ofFields fields origin) := by
  induction fields with
  | nil => exact steady_pure _
  | cons field rest ih =>
    rw [Parameter.ofFields_cons]
    exact (field.parameter_steady coherent origin).bind fun p => ih.bind fun ps => steady_pure _

/-- The parameters of some fields are made of those of the first one and those of the others, each
from the start. -/
theorem result_ofFields_cons (field : FieldRules) (rest : List FieldRules) :
    ((Parameter.ofFields (field :: rest) origin).run strict r₀).result = do
      let p ← ((field.parameter origin).run strict r₀).result
      let ps ← ((Parameter.ofFields rest origin).run strict r₀).result
      return p.withConfirmation ++ ps := by
  have others : Steady strict r₀ (Parameter.ofFields rest origin) := ofFields_steady coherent rest
  rw [Parameter.ofFields_cons, Steady.result_bind (field.parameter_steady coherent origin)
    (fun p => others.bind fun ps => steady_pure _) (.refl strict r₀)]
  refine bind_congr fun p => ?_
  rw [others.result_bind (fun ps => steady_pure _) (.refl strict r₀)]
  rfl

/-- Where the parameters of some fields are built, each field has its own alone. -/
theorem each_of_ofFields {fields : List FieldRules} {ps : List Parameter}
    (built : ((Parameter.ofFields fields origin).run strict r₀).result = .ok ps) :
    ∀ field ∈ fields, ∃ p, ((field.parameter origin).run strict r₀).result = .ok p := by
  induction fields generalizing ps with
  | nil => exact fun field member => absurd member List.not_mem_nil
  | cons field rest ih =>
    rw [result_ofFields_cons coherent] at built
    obtain ⟨p, own, built⟩ := exists_of_bind_ok built
    obtain ⟨others, later, -⟩ := exists_of_bind_ok built
    exact List.forall_mem_cons.mpr ⟨⟨p, own⟩, ih later⟩

/-- Fields that have parameters alone have them together. -/
theorem ofFields_of_each {fields : List FieldRules}
    (each : ∀ field ∈ fields, ∃ p, ((field.parameter origin).run strict r₀).result = .ok p) :
    ((Parameter.ofFields fields origin).run strict r₀).result =
      .ok (fields.flatMap (FieldRules.alone strict r₀ origin)) := by
  induction fields with
  | nil => rfl
  | cons field rest ih =>
    obtain ⟨⟨p, own⟩, others⟩ := List.forall_mem_cons.mp each
    have alone : field.alone strict r₀ origin = p.withConfirmation := by
      rw [FieldRules.alone, own]
    rw [result_ofFields_cons coherent, own, ih others, List.flatMap_cons, alone]
    rfl

end

/-- Fields are built independently of each other: where the parameters of a rule set are built, each
field has parameters of its own, which it keeps beside any of the others and in any order. -/
def Registry.Independent (r : Registry) : Prop :=
  ∀ strict rules origin ps, ((Parameter.ofRuleSet rules origin).run strict r).result = .ok ps →
    ∃ parametersOf : Key → List Parameter, ∀ rules' : RuleSet, rules'.entries ⊆ rules.entries →
      ((Parameter.ofRuleSet rules' origin).run strict r).result =
        .ok (rules'.keys.flatMap parametersOf)

namespace Registry

variable {r : Registry}

/-- The parameters that the entry of a rule set under a key has alone. -/
def parametersUnder (strict : Bool) (r : Registry) (rules : RuleSet) (origin : Origin) (key : Key) :
    List Parameter :=
  (((rules.get? key).bind (FieldRules.flat? key)).map (FieldRules.alone strict r origin)).getD []

theorem flatMap_alone {strict : Bool} {rules : RuleSet} {origin : Origin}
    {entries : List (Key × Value)} (subset : entries ⊆ rules.entries) :
    (entries.filterMap fun (key, value) => FieldRules.flat? key value).flatMap
        (FieldRules.alone strict r origin) =
      (entries.map Prod.fst).flatMap (parametersUnder strict r rules origin) := by
  induction entries with
  | nil => rfl
  | cons entry rest ih =>
    obtain ⟨key, value⟩ := entry
    have here : rules.get? key = some value := OrderedMap.get?_of_mem (subset List.mem_cons_self)
    have under : parametersUnder strict r rules origin key =
        ((FieldRules.flat? key value).map (FieldRules.alone strict r origin)).getD [] := by
      rw [parametersUnder, here, Option.bind_some]
    rw [List.map_cons, List.flatMap_cons, under,
      ← ih fun entry member => subset (List.mem_cons_of_mem _ member), List.filterMap_cons]
    cases found : FieldRules.flat? key value with
    | none => simp only [found, Option.map_none, Option.getD_none, List.nil_append]
    | some field =>
      simp only [found, List.flatMap_cons, Option.map_some, Option.getD_some]

/-- In a coherent registry, fields are built independently of each other. -/
theorem independent_of_coherent (coherent : r.Coherent) : r.Independent := by
  intro strict rules origin ps built
  have written := Parameter.written_of_ofRuleSet (Analysis.yields_of_run built)
  rw [Parameter.ofRuleSet_of_written written] at built
  have each := each_of_ofFields coherent built
  refine ⟨parametersUnder strict r rules origin, fun rules' subset => ?_⟩
  have written' : rules'.Written := fun entry member => written entry (subset member)
  rw [Parameter.ofRuleSet_of_written written', ofFields_of_each coherent, flatFields,
    flatMap_alone subset, OrderedMap.keys]
  intro field member
  obtain ⟨entry, there, found⟩ := List.mem_filterMap.mp member
  exact each field (List.mem_filterMap.mpr ⟨entry, subset there, found⟩)

end Registry

/-! ## Dependent fields

Where fields are independent, two of them can be used to compare look-ups. The first one looks for a
class whose file may declare others, the second one for one of those. Aliases name the classes,
since a class with an odd name cannot be written in the rules.
-/

section

open Analysis

/-- An upload field and another one, whose rules name classes. The upload looks for its class once,
and has no use for what it finds. -/
def referringRules : RuleSet :=
  .ofList [(.text "a", .list [.enumClass "A", .text "file"]), (.text "b", .enumClass "B")]

def referringRule : RuleSet := .ofList [(.text "b", .enumClass "B")]

def referringUpload : FieldRules := .bare "a" [.enumClass "A", .rule "file"]

def referringField : FieldRules := .bare "b" [.enumClass "B"]

/-- The classes that the two names stand for. -/
def referents (first second : String) : Origin :=
  { aliases := .ofList [("A", first), ("B", second)] }

variable (first second : String)

theorem lookUp_of_resolved {space : Option String} {aliases : OrderedMap String String}
    {name full : String} (resolved : EnumReference.resolve name space aliases = pure full) :
    EnumReference.lookUp space aliases (.enumClass name) = enumeration? full := by
  change EnumReference.resolve name space aliases >>= enumeration? = _
  rw [resolved, pure_bind]

/-- The first name that is found decides; when the others stand for nothing, it is all that is
looked up. -/
theorem first?_of_silent {space : Option String} {aliases : OrderedMap String String}
    {name : String} {tokens : List Token} {full : String}
    (resolved : EnumReference.resolve name space aliases = pure full)
    (silent : EnumReference.first? space aliases tokens = pure none) :
    EnumReference.first? space aliases (.enumClass name :: tokens) = enumeration? full := by
  rw [EnumReference.first?, lookUp_of_resolved resolved]
  refine (bind_congr fun found => ?_).trans (bind_pure _)
  cases found with
  | some e => rfl
  | none => exact silent

theorem enumeration?_of_upload :
    (referents first second).enumeration? referringUpload.tokens = enumeration? first :=
  first?_of_silent rfl rfl

theorem enumeration?_of_field :
    (referents first second).enumeration? referringField.tokens = enumeration? second :=
  first?_of_silent rfl rfl

/-- The enumeration of a field that is no upload is the one that is looked up first. -/
theorem enumeration_of_run {field : FieldRules} {origin : Origin} {strict : Bool} {r : Registry}
    {p : Parameter} (plain : Upload.ofTokens? field.name field.tokens = .ok none)
    (built : ((field.parameter origin).run strict r).result = .ok p) :
    ((origin.enumeration? field.tokens).run strict r).result = .ok p.enumeration := by
  unfold FieldRules.parameter at built
  obtain ⟨enumeration, r', looked, built⟩ := run_bind r built
  have yields := yields_of_run built
  obtain ⟨upload, read, yields⟩ := yields_bind yields
  rw [plain] at read
  cases yields_except read
  obtain ⟨bounds, -, yields⟩ := yields_bind yields
  obtain ⟨description, -, yields⟩ := yields_bind yields
  obtain ⟨sample, -, yields⟩ := yields_bind yields
  rw [yields_pure yields]
  exact looked

/-- Behind the upload, its class has been looked for. -/
theorem registry_of_upload {r : Registry} {p : Parameter}
    (built : ((referringUpload.parameter (referents first second)).run false r).result = .ok p) :
    ((referringUpload.parameter (referents first second)).run false r).registry =
      r.after (trimChar '\\' first) := by
  obtain ⟨upload, read⟩ : ∃ upload,
      Upload.ofTokens? referringUpload.name referringUpload.tokens = .ok (some upload) :=
    ⟨_, rfl⟩
  have steps : referringUpload.parameter (referents first second) =
      enumeration? first >>= fun _ =>
        liftM (referringUpload.uploadParameter (referents first second) upload) := by
    unfold FieldRules.parameter
    rw [enumeration?_of_upload, read]
    rfl
  rw [steps] at built ⊢
  obtain ⟨found, r', looked, -⟩ := run_bind r built
  rw [(run_sequence_ok _ looked).2, registry_except, (run_enumeration? false r first).2]

theorem withConfirmation_of_field {r : Registry} {p : Parameter}
    (built : ((referringField.parameter (referents first second)).run false r).result = .ok p) :
    p.withConfirmation = [p] := by
  have tokens := (describes_of_parameter (yields_of_run built)).tokens
  rw [Parameter.withConfirmation, tokens]
  rfl

/-- The second field alone has one parameter, with the enumeration that its look-up is answered. -/
theorem parameter_of_field {r : Registry} {ps : List Parameter}
    (built : ((Parameter.ofFields [referringField] (referents first second)).run false r).result =
      .ok ps) :
    ∃ p, ps = [p] ∧ r.answer false (trimChar '\\' second) = .ok p.enumeration := by
  rw [Parameter.ofFields_cons] at built
  obtain ⟨p, r', own, built⟩ := run_bind r built
  obtain ⟨others, r'', none, built⟩ := run_bind r' built
  cases none
  cases built
  have looked := enumeration_of_run rfl own
  rw [enumeration?_of_field, (run_enumeration? false r second).1] at looked
  refine ⟨p, ?_, looked⟩
  rw [withConfirmation_of_field first second own]
  rfl

/-- Behind the upload, the second field has one parameter more. -/
theorem parameters_of_both {r : Registry} {ps : List Parameter}
    (built : ((Parameter.ofFields [referringUpload, referringField] (referents first second)).run
      false r).result = .ok ps) :
    ∃ qs p, ps = qs ++ [p] ∧
      (r.after (trimChar '\\' first)).answer false (trimChar '\\' second) = .ok p.enumeration := by
  rw [Parameter.ofFields_cons] at built
  obtain ⟨q, -, own, -⟩ := run_bind r built
  rw [(run_sequence_ok _ own).1, registry_of_upload first second own] at built
  obtain ⟨rest, r', others, built⟩ := run_bind _ built
  obtain ⟨p, rfl, answered⟩ := parameter_of_field first second others
  cases built
  exact ⟨q.withConfirmation, p, rfl, answered⟩

/-- A class that is known stays known when it is looked up. -/
theorem enumeration?_returns_known {name : String} {e : Enumeration} :
    Returns (fun r => r.known.get? (trimChar '\\' name) = some e) (fun _ => True)
      (enumeration? name) := by
  intro r known
  obtain ⟨result, registry⟩ := run_enumeration? false r name
  have unchanged : r.after (trimChar '\\' name) = r := by
    unfold Registry.after
    simp only [known, Option.isSome_some, Bool.true_or, if_true]
  refine ⟨some e, ?_, trivial, ?_⟩
  · rw [result, Registry.answer, known]
  · rw [registry, unchanged]
    exact known

/-- The upload is built if its class is reached. -/
theorem upload_returns {r : Registry} (reached : r.reaches (trimChar '\\' first) = true) :
    ∃ q, ((referringUpload.parameter (referents first second)).run false r).result = .ok q := by
  have named : EnumReference.lookUp none (referents first second).aliases (.enumClass "A") =
      enumeration? first := lookUp_of_resolved rfl
  have unnamed : EnumReference.lookUp none (referents first second).aliases (.rule "file") =
      pure none := rfl
  have looked : ∀ token ∈ referringUpload.tokens, Returns r.SameFiles (fun _ => True)
      (EnumReference.lookUp none (referents first second).aliases token) := by
    intro token member
    rcases List.mem_pair.mp member with rfl | rfl
    · rw [named]
      exact enumeration?_returns reached
    · rw [unnamed]
      exact returns_pure trivial
  have readable : referringUpload.Readable Example.longestText := by decide +kernel
  have returns : Returns r.SameFiles (Describes referringUpload)
      (referringUpload.parameter (referents first second)) :=
    FieldRules.parameter_returns looked readable
  obtain ⟨q, built, -⟩ := returns r ⟨rfl, rfl⟩
  exact ⟨q, built⟩

/-- The other field is built if its class is known. -/
theorem field_returns {r : Registry} {e : Enumeration}
    (known : r.known.get? (trimChar '\\' second) = some e) :
    ∃ p, ((referringField.parameter (referents first second)).run false r).result = .ok p := by
  have named : EnumReference.lookUp none (referents first second).aliases (.enumClass "B") =
      enumeration? second := lookUp_of_resolved rfl
  have looked : ∀ token ∈ referringField.tokens,
      Returns (fun r => r.known.get? (trimChar '\\' second) = some e) (fun _ => True)
        (EnumReference.lookUp none (referents first second).aliases token) := by
    intro token member
    rw [List.mem_singleton.mp member, named]
    exact enumeration?_returns_known
  have readable : referringField.Readable Example.longestText := by decide +kernel
  have returns : Returns (fun r => r.known.get? (trimChar '\\' second) = some e)
      (Describes referringField) (referringField.parameter (referents first second)) :=
    FieldRules.parameter_returns looked readable
  obtain ⟨p, built, -⟩ := returns r known
  exact ⟨p, built⟩

/-- Both fields are built if the class of the upload is reached and the other one is known behind
it. -/
theorem both_return {r : Registry} {e : Enumeration}
    (reached : r.reaches (trimChar '\\' first) = true)
    (known : (r.after (trimChar '\\' first)).known.get? (trimChar '\\' second) = some e) :
    ∃ ps, ((Parameter.ofFields [referringUpload, referringField] (referents first second)).run
      false r).result = .ok ps := by
  obtain ⟨q, own⟩ := upload_returns first second reached
  obtain ⟨p, other⟩ := field_returns first second known
  refine ⟨q.withConfirmation ++ (p.withConfirmation ++ []), ?_⟩
  rw [Parameter.ofFields_cons, (run_sequence_ok _ own).1, registry_of_upload first second own,
    Parameter.ofFields_cons]
  simp only [bind_assoc]
  rw [(run_sequence_ok _ other).1]
  rfl

end

/-- Where fields are built independently, an enumeration that a look-up can make known is found when
it is looked for alone. -/
theorem Registry.coherent_of_independent {r : Registry} (independent : r.Independent) :
    r.Coherent := by
  intro name tree reads other e declared
  have learned : (r.after name).known.get? other = some e := by
    unfold Registry.after
    simp only [reads.unknown, reads.unsearched, reads.source, Option.isSome_none, Bool.or_self,
      Bool.false_eq_true, if_false]
    rw [Registry.get?_registerTree, declared, Option.some_or]
  have trimmed := Registry.trimmed_of_written declared
  have reached : r.reaches name = true := by
    obtain ⟨file, found, -⟩ := Option.bind_eq_some_iff.mp reads.source
    rw [Registry.reaches, Registry.declaringFile?_of_fileOf? found]
    rfl
  have written : referringRules.Written ∧ referringRule.Written := by decide +kernel
  obtain ⟨ps, returned⟩ := both_return name other (r := r) (e := e)
    (by rwa [reads.trimmed]) (by rwa [reads.trimmed, trimmed])
  obtain ⟨parametersOf, each⟩ := independent false referringRules (referents name other) ps
    (by rw [Parameter.ofRuleSet_of_written written.1]; exact returned)
  have subset : referringRule.entries ⊆ referringRules.entries := by
    change [(Key.text "b", Value.enumClass "B")] ⊆ [_, (Key.text "b", Value.enumClass "B")]
    simp
  have both := each referringRules (List.Subset.refl _)
  have one := each referringRule subset
  rw [Parameter.ofRuleSet_of_written written.1] at both
  rw [Parameter.ofRuleSet_of_written written.2] at one
  obtain ⟨qs, p, both, later⟩ := parameters_of_both name other both
  obtain ⟨p', one, alone⟩ := parameter_of_field name other one
  have same : p = p' := by
    have lists : parametersOf (.text "a") ++ (parametersOf (.text "b") ++ []) = qs ++ [p] := both
    have last : parametersOf (.text "b") ++ [] = [p'] := one
    rw [last] at lists
    exact (List.append_singleton_inj.mp lists).2.symm
  have answered : (r.after name).answer false other = .ok (some e) := by
    rw [Registry.answer, learned]
  rw [trimmed] at later alone
  rw [reads.trimmed, answered, same] at later
  rw [alone, ← later]

/-- Fields are built independently of each other exactly when whatever a look-up can make known is
found when it is looked for alone. -/
theorem Registry.independent_iff_coherent (r : Registry) : r.Independent ↔ r.Coherent :=
  ⟨coherent_of_independent, independent_of_coherent⟩

/-- A directory with two files, each of which declares the enumeration that it is named for. -/
def ownFiles : Registry :=
  { roots := .ofList [("App\\", "app")]
    files := .ofList
      [("app/Size.php", "<?php namespace App; enum Size: string \x7b case S = 's'; \x7d"),
        ("app/Color.php", "<?php namespace App; enum Color: string \x7b case R = 'r'; \x7d")] }

example : ownFiles.Independent :=
  Registry.independent_of_coherent (Registry.coherent_of_conforming rfl rfl (by decide +kernel))

def sharedFile : Registry :=
  { roots := .ofList [("App\\", "app")]
    files := .ofList [("app/Size.php", "<?php namespace App; " ++
      "enum Size: string \x7b case S = 's'; \x7d enum Color: string \x7b case R = 'r'; \x7d")] }

/-- A field for the enumeration with the name of the file, and one for the other. -/
def sizeEntry : Key × Value := (.text "s", .enumClass "App\\Size")

def colorEntry : Key × Value := (.text "c", .enumClass "App\\Color")

/-- The names of parameters and those of their enumerations. -/
def enumerationsOf (ps : List Parameter) : List (String × Option String) :=
  ps.map fun p => (p.name, p.enumeration.map Enumeration.name)

/-- The second enumeration of a file is found only behind the first one, so the order of the fields
matters. -/
theorem sharedFile_dependent :
    (∃ ps, ((Parameter.ofRuleSet (.ofList [sizeEntry, colorEntry]) {}).run false
        sharedFile).result = .ok ps ∧
      enumerationsOf ps = [("s", some "App\\Size"), ("c", some "App\\Color")]) ∧
    (∃ ps, ((Parameter.ofRuleSet (.ofList [colorEntry, sizeEntry]) {}).run false
        sharedFile).result = .ok ps ∧
      enumerationsOf ps = [("c", none), ("s", some "App\\Size")]) ∧
    ¬ sharedFile.Independent := by
  obtain ⟨ps, built, sizeFirst⟩ := exists_ok_of_any
    (show (((Parameter.ofRuleSet (.ofList [sizeEntry, colorEntry]) {}).run false
      sharedFile).result.toOption.any fun ps =>
        enumerationsOf ps = [("s", some "App\\Size"), ("c", some "App\\Color")]) = true
      by decide +kernel)
  obtain ⟨qs, built', colorFirst⟩ := exists_ok_of_any
    (show (((Parameter.ofRuleSet (.ofList [colorEntry, sizeEntry]) {}).run false
      sharedFile).result.toOption.any fun ps =>
        enumerationsOf ps = [("c", none), ("s", some "App\\Size")]) = true by decide +kernel)
  have sizeFirst := of_decide_eq_true sizeFirst
  have colorFirst := of_decide_eq_true colorFirst
  refine ⟨⟨ps, built, sizeFirst⟩, ⟨qs, built', colorFirst⟩, fun independent => ?_⟩
  obtain ⟨parametersOf, each⟩ := independent false _ {} ps built
  have there : ps = [Key.text "s", Key.text "c"].flatMap parametersOf :=
    Except.ok.inj (built.symm.trans (each _ (List.Subset.refl _)))
  have back : qs = [Key.text "c", Key.text "s"].flatMap parametersOf :=
    Except.ok.inj (built'.symm.trans (each (.ofList [colorEntry, sizeEntry])
      (by change [colorEntry, sizeEntry] ⊆ [sizeEntry, colorEntry]; simp)))
  have reordered : ps.Perm qs := by
    rw [there, back]
    exact List.Perm.flatMap_right _ (.swap _ _ _)
  have named := reordered.map fun p => (p.name, p.enumeration.map Enumeration.name)
  change (enumerationsOf ps).Perm (enumerationsOf qs) at named
  rw [sizeFirst, colorFirst] at named
  revert named
  decide

end RequestSchema
