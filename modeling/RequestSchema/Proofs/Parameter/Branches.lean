import Mathlib.Data.List.Nodup
import RequestSchema.Operation
import RequestSchema.Proofs.Analysis.Alike
import RequestSchema.Proofs.Parameter.Exclusion

/-!
# No token is lost between the branches and the parameters

* `parameters_tell_branches`: the parameters of a class, leaving confirmations aside, are
  told by its branches: which fields they are about and in which order, on which paths
  their rules apply, and all of their tokens.

The branches and the parameters may come from different sessions with equal settings.
What a session has learnt before shows in types and descriptions, but not in the rules.
-/
namespace RequestSchema

open RequestSchema.Source RequestSchema.Extraction

/-- The fields that branches mention, in the order in which they do so first. -/
def firstMentions (branches : List Branch) : List String :=
  (branches.flatMap fun b => b.rules.keys).eraseDups.filterMap Key.name?

/-- Parameters that are told by branches. The tokens of the branches can be written, so
`Value.tokenList` lists them all. -/
structure ToldBy (branches : List Branch) (mains : List Parameter) : Prop where
  written : ∀ b ∈ branches, ∀ entry ∈ b.rules.entries, entry.2.tokens = .ok entry.2.tokenList
  distinct : (mains.map Parameter.name).Nodup
  ordered : (mains.map Parameter.name).Sublist (firstMentions branches)
  /-- a field of the request has a parameter unless some branch excludes it -/
  complete : ∀ field : String,
    (∃ b ∈ branches, ∃ value, b.rules.get? (.text field) = some value) →
    field ≠ "" → field.toList.head? ≠ some '_' →
    (∀ b ∈ branches, ∀ value, b.rules.get? (.text field) = some value →
      ∀ t ∈ value.tokenList, t.name ≠ "exclude") →
    field ∈ mains.map Parameter.name
  /-- every branch that mentions the field, with its conditions and its own tokens -/
  conditionalRules : ∀ p ∈ mains, p.conditionalRules = branches.filterMap fun b =>
    (b.rules.get? (.text p.name)).map fun value => .path b.conditions value.tokenList
  /-- the tokens of these branches one after another -/
  tokens : ∀ p ∈ mains, p.tokens = branches.flatMap fun b =>
    ((b.rules.get? (.text p.name)).map Value.tokenList).getD []

theorem filterMap_name?_nodup {keys : List Key} (distinct : keys.Nodup) :
    (keys.filterMap Key.name?).Nodup :=
  List.Nodup.filterMap (fun _ _ _ first second =>
    (name?_eq_some first).trans (name?_eq_some second).symm) distinct

theorem firstMentions_joint (branches : List Branch) :
    (Branch.joint branches).keys.filterMap Key.name? = firstMentions branches := by
  rw [Branch.keys_joint, firstMentions]

theorem filterMap_sublist {α β : Type} {f g : α → Option β}
    (less : ∀ a b, f a = some b → g a = some b) (xs : List α) :
    (xs.filterMap f).Sublist (xs.filterMap g) := by
  induction xs with
  | nil => exact .slnil
  | cons x rest ih =>
    rw [List.filterMap_cons, List.filterMap_cons]
    cases first : f x with
    | some y =>
      rw [less x y first]
      exact ih.cons_cons y
    | none =>
      cases g x with
      | none => exact ih
      | some y => exact ih.cons y

/-- The fields of a joint rule set come in the order of its keys. -/
theorem names_sublist (rules : ConditionalRules) :
    ((conditionalFields rules).map FieldRules.name).Sublist
      (rules.merged.keys.filterMap Key.name?) := by
  rw [conditionalFields, OrderedMap.keys, List.map_filterMap, List.filterMap_map]
  refine filterMap_sublist (fun entry name built => ?_) _
  obtain ⟨field, found, rfl⟩ := Option.map_eq_some_iff.mp built
  rw [Function.comp_apply, (joint?_builtFrom found).key_eq]
  rfl

theorem mentions_map (branches : List Branch) (key : Key) :
    ((Branch.mentions branches key).map fun mention => ConditionalRule.path mention.1 mention.2) =
      branches.filterMap fun b =>
        (b.rules.get? key).map fun value => .path b.conditions value.tokenList := by
  rw [Branch.mentions, List.map_filterMap]
  simp only [Option.map_map, Function.comp_def]

/-- The parameters of branches and the rule set that joins them. -/
theorem toldBy_of_conditionalRules {branches : List Branch} {found : ConditionalRules}
    {origin : Origin} {ps : List Parameter}
    (joined : ConditionalRules.ofBranches branches = .ok found)
    (yields : (Parameter.ofConditionalRules found origin).Yields ps) :
    ∃ mains, ps = mains.flatMap Parameter.withConfirmation ∧ ToldBy branches mains := by
  obtain ⟨writable, rfl⟩ := Branch.eq_of_ofBranches joined
  obtain ⟨mains, published, related⟩ := fields_of_conditionalRules yields
  have names := names_of_fields related
  have ordered : (mains.map Parameter.name).Sublist (firstMentions branches) := by
    rw [names, ← firstMentions_joint]
    exact names_sublist ⟨branches, Branch.joint branches⟩
  refine ⟨mains, published, ⟨?_, ?_, ordered, ?_, ?_, ?_⟩⟩
  · exact fun b member entry own => Value.tokens_of_writable (writable b member entry own)
  · refine List.Nodup.sublist ordered ?_
    rw [← firstMentions_joint]
    exact filterMap_name?_nodup (Branch.joint branches).distinct
  · intro field mentioned filled plain kept
    rw [names]
    refine name_mem_iff.mpr ⟨filled, plain, mentioned, ?_⟩
    rintro b there ⟨value, found, tokens, read, t, member, named⟩
    exact kept b there value found t (Value.mem_tokenList.mpr ⟨tokens, read, member⟩) named
  · intro p member
    obtain ⟨field, there, describes⟩ := exists_left_of_mem related p member
    obtain ⟨value, -, built⟩ := builtFrom_of_mem there
    rw [describes.conditionalRules, built.conditionalRules, describes.name, mentions_map]
  · intro p member
    obtain ⟨field, there, describes⟩ := exists_left_of_mem related p member
    obtain ⟨value, joint, built⟩ := builtFrom_of_mem there
    rw [describes.tokens, built.tokens, describes.name,
      Value.tokenList_of_tokens (Branch.tokens_of_get?_joint joint)]
    rfl

theorem toldBy_nil : ToldBy [] [] where
  written := fun _ member => absurd member List.not_mem_nil
  distinct := .nil
  ordered := List.nil_sublist _
  complete := by
    rintro field ⟨b, member, -⟩
    cases member
  conditionalRules := fun _ member => nomatch member
  tokens := fun _ member => nomatch member

/-! ## From the source -/

/-- The joint rule set of a method is that of its branches. -/
theorem ofBranches_of_method {label : String} {c : ClassBody} {depth : Int}
    {words : List String} {m : Method} {found : ConditionalRules}
    (ends : (methodBranches label c depth words m).outcome = .ok found) :
    ConditionalRules.ofBranches found.branches = .ok found := by
  obtain ⟨_, -, ends⟩ := exists_of_bind_ok ends
  obtain ⟨merged, joined, built⟩ := exists_of_bind_ok ends
  cases built
  rw [ConditionalRules.ofBranches, joined]
  rfl

namespace SourceUnit

/-- The class with a name in a source that is parsed somehow, and the method that returns its
rules. -/
def rulesMethod? (parse : Parser) (settings : Settings)
    (u : SourceUnit) (name : String) : Option (ClassBody × Method) :=
  match parse u.text with
  | .error _ => none
  | .ok tree => (tree.class? name).bind fun body =>
      (body.method? settings.rulesMethod).map fun m => (body, m)

section

variable {settings : Settings} {u : SourceUnit} {name : String} {strict : Bool} {r : Registry}

theorem run_parse {text : String} {label : Option String} {parsed : Option SourceTree}
    (returned : ((Analysis.parse text label).run strict r).result = .ok parsed) :
    parsed = (r.parse text).toOption := by
  unfold Analysis.parse at returned
  rw [Analysis.run_registry] at returned
  cases read : r.parse text with
  | ok tree =>
    rw [read] at returned
    exact Analysis.yields_pure (Analysis.yields_of_run returned)
  | error problem =>
    rw [read] at returned
    obtain ⟨_, -, yields⟩ := Analysis.yields_bind (Analysis.yields_of_run returned)
    exact Analysis.yields_pure yields

/-- Whatever is known before, the same class is found in a source. -/
theorem run_locate {located : Option Located} (settings : Settings)
    (returned : ((u.locate name).run strict r).result = .ok located) :
    (located.bind fun l => (l.body.method? settings.rulesMethod).map fun m => (l.body, m)) =
      rulesMethod? r.parse settings u name := by
  unfold locate at returned
  obtain ⟨parsed, r', parses, returned⟩ := Analysis.run_bind r returned
  have trees := run_parse parses
  have yields := Analysis.yields_of_run returned
  unfold rulesMethod?
  cases read : r.parse u.text with
  | error problem =>
    rw [read] at trees
    subst trees
    rw [Analysis.yields_pure yields]
    rfl
  | ok tree =>
    rw [read] at trees
    subst trees
    simp only [Except.toOption] at yields ⊢
    cases found : tree.class? name with
    | none =>
      rw [found] at yields
      obtain ⟨_, -, yields⟩ := Analysis.yields_bind yields
      rw [Analysis.yields_pure yields]
      rfl
    | some body =>
      rw [found] at yields
      obtain ⟨_, -, yields⟩ := Analysis.yields_bind yields
      rw [Analysis.yields_pure yields]
      rfl

theorem run_branches {found : ConditionalRules}
    (returned : ((u.branches settings name).run strict r).result = .ok found) :
    match rulesMethod? r.parse settings u name with
    | none => found = {}
    | some (c, m) =>
        (methodBranches u.label c settings.helperDepth settings.predicateWords m).outcome =
          .ok found := by
  obtain ⟨located, r', place, returned⟩ := Analysis.run_bind r returned
  have yields := Analysis.yields_of_run returned
  rw [← run_locate settings place]
  cases located with
  | none => exact Analysis.yields_pure yields
  | some l =>
    simp only [Option.bind_some] at yields ⊢
    cases present : l.body.method? settings.rulesMethod with
    | none =>
      rw [present] at yields
      exact Analysis.yields_pure yields
    | some m =>
      rw [present] at yields
      exact Analysis.yields_logged yields

theorem run_parameters {ps : List Parameter}
    (returned : ((u.parameters settings name true).run strict r).result = .ok ps) :
    match rulesMethod? r.parse settings u name with
    | none => ps = []
    | some (c, m) => ∃ found origin,
        (methodBranches u.label c settings.helperDepth settings.predicateWords m).outcome =
          .ok found ∧
        (Parameter.ofConditionalRules found origin).Yields ps := by
  obtain ⟨located, r', place, returned⟩ := Analysis.run_bind r returned
  have yields := Analysis.yields_of_run returned
  rw [← run_locate settings place]
  cases located with
  | none => exact Analysis.yields_pure yields
  | some l =>
    simp only [Option.bind_some] at yields ⊢
    cases present : l.body.method? settings.rulesMethod with
    | none =>
      rw [present] at yields
      exact Analysis.yields_pure yields
    | some m =>
      rw [present] at yields
      obtain ⟨found, ends, yields⟩ := Analysis.yields_bind yields
      exact ⟨found, _, Analysis.yields_logged ends, yields⟩

end

end SourceUnit

/-- Where the branches of a class and its parameters are both returned, in sessions with equal
settings and one parser, the parameters are told by the branches. -/
theorem parameters_tell_branches {s t : Session} (same : s.settings = t.settings)
    (parser : s.registry.parse = t.registry.parse) (u : SourceUnit) (name : String)
    {found : ConditionalRules} {ps : List Parameter}
    (branched : (s.operate (.branches u name)).1 = .ok found)
    (published : (t.operate (.parameters none u name true)).1 = .ok ps) :
    ∃ mains, ps = mains.flatMap Parameter.withConfirmation ∧ ToldBy found.branches mains := by
  have branches := SourceUnit.run_branches branched
  have parameters := SourceUnit.run_parameters published
  rw [same, parser] at branches
  cases method : SourceUnit.rulesMethod? t.registry.parse t.settings u name with
  | none =>
    rw [method] at branches parameters
    obtain rfl : found = {} := branches
    obtain rfl : ps = [] := parameters
    exact ⟨[], rfl, toldBy_nil⟩
  | some place =>
    obtain ⟨c, m⟩ := place
    rw [method] at branches parameters
    obtain ⟨found', origin, ends, yields⟩ := parameters
    cases branches.symm.trans ends
    exact toldBy_of_conditionalRules (ofBranches_of_method ends) yields

/-- A class with a rule that holds under a condition only. -/
def guardedClass : SourceUnit where
  text := "<?php class A\x7bfunction rules()\x7b" ++
    "if($x)return['a'=>'int'];return['b'=>'int'];\x7d\x7d"

theorem guardedClass_told :
    ∃ found ps, (({} : Session).operate (.branches guardedClass "A")).1 = .ok found ∧
      (({} : Session).operate (.parameters none guardedClass "A" true)).1 = .ok ps ∧
      found.branches.length = 2 ∧ ps.length = 2 ∧
      ∃ mains, ps = mains.flatMap Parameter.withConfirmation ∧ ToldBy found.branches mains := by
  obtain ⟨found, branched, two⟩ := exists_ok_of_any
    (show ((({} : Session).operate (.branches guardedClass "A")).1.toOption.any
      fun found : ConditionalRules => found.branches.length = 2) = true by decide +kernel)
  obtain ⟨ps, published, two'⟩ := exists_ok_of_any
    (show ((({} : Session).operate (.parameters none guardedClass "A" true)).1.toOption.any
      fun ps : List Parameter => ps.length = 2) = true by decide +kernel)
  exact ⟨found, ps, branched, published, of_decide_eq_true two, of_decide_eq_true two',
    parameters_tell_branches rfl rfl guardedClass "A" branched published⟩

end RequestSchema
