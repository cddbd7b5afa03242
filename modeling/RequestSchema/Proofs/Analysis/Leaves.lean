import RequestSchema.Enumeration.Reference
import RequestSchema.Proofs.Analysis.Alike
import RequestSchema.Proofs.OrderedMap.Writes

/-!
# What analyses leave of the registry

However a run ends, it leaves the known enumerations with some names as they were
(`Analysis.Leaves`). Only registering a source changes anything without directories to
search, and it changes what is known under the names of its enumerations
(`get?_registerTree`).
-/
namespace RequestSchema

open RequestSchema.Text

namespace Registry.AgreeOn

variable {parse : Source.Parser} {names names' : String → Prop} {r r' r'' : Registry}

theorem refl (rootless : r.roots = .empty) (parses : r.parse = parse) : AgreeOn parse names r r :=
  ⟨rootless, rootless, parses, parses, fun _ _ => rfl⟩

theorem symm (agree : AgreeOn parse names r r') : AgreeOn parse names r' r :=
  ⟨agree.rootless', agree.rootless, agree.parses', agree.parses,
    fun name listed => (agree.known name listed).symm⟩

theorem trans (first : AgreeOn parse names r r') (second : AgreeOn parse names r' r'') :
    AgreeOn parse names r r'' :=
  ⟨first.rootless, second.rootless', first.parses, second.parses', fun name listed =>
    (first.known name listed).trans (second.known name listed)⟩

theorem mono (agree : AgreeOn parse names r r') (fewer : ∀ name, names' name → names name) :
    AgreeOn parse names' r r' :=
  ⟨agree.rootless, agree.rootless', agree.parses, agree.parses',
    fun name listed => agree.known name (fewer name listed)⟩

end Registry.AgreeOn

namespace Analysis

variable {α β : Type} {parse : Source.Parser} {names : String → Prop}

/-- Run without directories to search and with some parser, the analysis brings in neither, and
however it ends it leaves the enumerations with some names as they were. -/
def Leaves (parse : Source.Parser) (names : String → Prop) (a : Analysis α) : Prop :=
  ∀ strict r, r.roots = .empty → r.parse = parse →
    Registry.AgreeOn parse names r (a.run strict r).registry

theorem leaves_pure (x : α) : Leaves parse names (pure x : Analysis α) :=
  fun _ _ rootless parses => .refl rootless parses

theorem leaves_fault (fault : Fault) : Leaves parse names (.fault fault : Analysis α) :=
  fun _ _ rootless parses => .refl rootless parses

theorem Leaves.report {a : Analysis α} (leaves : Leaves parse names a) (d : Diagnostic) :
    Leaves parse names (.report d a) := by
  intro strict r rootless parses
  rw [run]
  split
  · exact .refl rootless parses
  · exact leaves strict r rootless parses

theorem Leaves.bind {a : Analysis α} {f : α → Analysis β} (first : Leaves parse names a)
    (second : ∀ x, Leaves parse names (f x)) : Leaves parse names (a >>= f) := by
  intro strict r rootless parses
  have before := first strict r rootless parses
  cases ended : (a.run strict r).result with
  | error e =>
    rw [(run_sequence_error f ended).2]
    exact before
  | ok x =>
    rw [(run_sequence_ok f ended).2]
    exact before.trans
      (second x strict (a.run strict r).registry before.rootless' before.parses')

theorem Leaves.map {a : Analysis α} (leaves : Leaves parse names a) (f : α → β) :
    Leaves parse names (f <$> a) := by
  rw [map_eq_pure_bind]
  exact leaves.bind fun x => leaves_pure (f x)

theorem Leaves.mapM {f : α → Analysis β} {xs : List α}
    (each : ∀ x ∈ xs, Leaves parse names (f x)) : Leaves parse names (xs.mapM f) := by
  induction xs with
  | nil => exact leaves_pure []
  | cons x rest ih =>
    rw [List.mapM_cons]
    refine (each x List.mem_cons_self).bind fun y => ?_
    refine (ih fun x' member => each x' (List.mem_cons_of_mem x member)).bind fun ys => ?_
    exact leaves_pure (y :: ys)

theorem leaves_except (outcome : Except Fault α) :
    Leaves parse names (liftM outcome : Analysis α) := by
  cases outcome with
  | ok x => exact leaves_pure x
  | error fault => exact leaves_fault fault

theorem leaves_logged (m : Logged α) : Leaves parse names (liftM m : Analysis α) := by
  change Leaves parse names (m.events.foldr .report _)
  induction m.events with
  | nil =>
    cases m.outcome with
    | ok x => exact leaves_pure x
    | error fault => exact leaves_fault fault
  | cons d rest ih => exact ih.report d

theorem leaves_emit (d : Diagnostic) : Leaves parse names (emit d) := leaves_logged (.event d)

/-- A settled analysis learns nothing. -/
theorem Settles.leaves {a : Analysis α} {value : OrderedMap String Enumeration → α}
    (settles : Settles a value) : Leaves parse names a := by
  intro strict r rootless parses
  obtain ⟨searched, reported, ran⟩ := settles strict r rootless
  rw [ran]
  exact ⟨rootless, rootless, parses, parses, fun _ _ => rfl⟩

/-- With some parser, the analyses run alike. -/
def RunsAs (parse : Source.Parser) (a b : Analysis α) : Prop :=
  ∀ strict r, r.parse = parse → a.run strict r = b.run strict r

theorem RunsAs.bind {a b : Analysis α} (same : RunsAs parse a b) (f : α → Analysis β) :
    RunsAs parse (a >>= f) (b >>= f) := by
  intro strict r parses
  rw [run_sequence, run_sequence, same strict r parses]

theorem RunsAs.leaves {a b : Analysis α} (same : RunsAs parse a b)
    (leaves : Leaves parse names b) : Leaves parse names a := by
  intro strict r rootless parses
  rw [same strict r parses]
  exact leaves strict r rootless parses

theorem RunsAs.alike {a b : Analysis α} {J : Registry → Registry → Prop} {R : α → α → Prop}
    (same : RunsAs parse a b) (alike : Alike (Registry.AgreeOn parse names) J R b b) :
    Alike (Registry.AgreeOn parse names) J R a a := by
  intro strict r r' agree
  rw [same strict r agree.parses, same strict r' agree.parses']
  exact alike strict r r' agree

theorem parse_runsAs_tree {text : String} {tree : Source.SourceTree} (label : Option String)
    (read : parse text = .ok tree) :
    RunsAs parse (Analysis.parse text label) (pure (some tree)) := by
  intro strict r parses
  unfold Analysis.parse
  rw [run_sequence]
  simp only [registry, run, parses, read]
  rfl

/-- A source that cannot be parsed is reported. -/
theorem parse_runsAs_report {text : String} {problem : Source.SyntaxFault} (label : Option String)
    (read : parse text = .error problem) :
    ∃ d, RunsAs parse (Analysis.parse text label) ((fun _ => none) <$> emit d) := by
  refine ⟨⟨.error, Source.context, "Failed to parse PHP source: " ++ problem.message,
    .ofList [("error_type", .text "parse_error"),
      ("file_path", .text (label.getD Source.noLabel))]⟩, fun strict r parses => ?_⟩
  unfold Analysis.parse
  rw [run_sequence]
  simp only [registry, run, parses, read]
  rfl

/-- A computation without a registry, with its diagnostics, is alike to itself. -/
theorem alike_logged {J : Registry → Registry → Prop} (m : Logged α) :
    Alike J J Eq (liftM m : Analysis α) (liftM m) := by
  change Alike J J Eq (m.events.foldr .report _) (m.events.foldr .report _)
  induction m.events with
  | nil => exact alike_except m.outcome
  | cons d rest ih =>
    intro strict r r' registries
    rw [List.foldr_cons, run, run]
    split
    · exact .stop
    · exact (ih strict r r' registries).after [d] [d]

theorem alike_emit {J : Registry → Registry → Prop} (d : Diagnostic) :
    Alike J J Eq (emit d) (emit d) :=
  alike_logged (.event d)

end Analysis

/-! ## Registering a source -/

namespace Registry

/-- What a source makes known, one enumeration after another. -/
def writes (tree : Source.SourceTree) : List (String × Enumeration) :=
  tree.enumerations.map fun e => (trimChar '\\' e.name, { e with name := trimChar '\\' e.name })

theorem registerTree_eq (r : Registry) (tree : Source.SourceTree) :
    r.registerTree tree = { r with known := r.known.insertAll (writes tree) } := by
  rw [registerTree, writes]
  induction tree.enumerations generalizing r with
  | nil => rfl
  | cons e rest ih =>
    rw [List.foldl_cons, ih]
    rfl

/-- A source decides what is known under the names of its enumerations, and nothing else. -/
theorem get?_registerTree (r : Registry) (tree : Source.SourceTree) (name : String) :
    (r.registerTree tree).known.get? name =
      (OrderedMap.find? name (writes tree).reverse).or (r.known.get? name) := by
  rw [registerTree_eq]
  exact OrderedMap.get?_insertAll r.known (writes tree) name

theorem isSome_find?_writes {tree : Source.SourceTree} {name : String}
    (declared : name ∈ (writes tree).map Prod.fst) :
    (OrderedMap.find? name (writes tree).reverse).isSome = true := by
  rw [OrderedMap.isSome_find?, List.map_reverse, List.mem_reverse]
  exact declared

theorem find?_writes_of_absent {tree : Source.SourceTree} {name : String}
    (absent : name ∉ (writes tree).map Prod.fst) :
    OrderedMap.find? name (writes tree).reverse = none := by
  rw [← Option.not_isSome_iff_eq_none, OrderedMap.isSome_find?, List.map_reverse,
    List.mem_reverse]
  exact absent

/-- Registering a source in two registries makes them agree on its enumerations as well. -/
theorem AgreeOn.registerTree {parse : Source.Parser} {names : String → Prop} {r r' : Registry}
    (agree : AgreeOn parse names r r') (tree : Source.SourceTree) :
    AgreeOn parse (fun name => names name ∨ name ∈ (writes tree).map Prod.fst)
      (r.registerTree tree) (r'.registerTree tree) := by
  refine ⟨?_, ?_, ?_, ?_, fun name listed => ?_⟩
  · rw [registerTree_eq]
    exact agree.rootless
  · rw [registerTree_eq]
    exact agree.rootless'
  · rw [registerTree_eq]
    exact agree.parses
  · rw [registerTree_eq]
    exact agree.parses'
  · rw [get?_registerTree, get?_registerTree]
    by_cases declared : name ∈ (writes tree).map Prod.fst
    · obtain ⟨e, found⟩ := Option.isSome_iff_exists.mp (isSome_find?_writes declared)
      rw [found, Option.some_or, Option.some_or]
    · rw [agree.known name (listed.resolve_right declared)]

end Registry

namespace Analysis

variable {parse : Source.Parser}

/-- Registering a source leaves what is known under other names. -/
theorem leaves_registerTree (tree : Source.SourceTree) :
    Leaves parse (· ∉ (Registry.writes tree).map Prod.fst) (registerTree tree) := by
  intro strict r rootless parses
  change Registry.AgreeOn parse _ r (r.registerTree tree)
  refine ⟨rootless, ?_, parses, ?_, fun name absent => ?_⟩
  · rw [Registry.registerTree_eq]
    exact rootless
  · rw [Registry.registerTree_eq]
    exact parses
  · rw [Registry.get?_registerTree, Registry.find?_writes_of_absent absent, Option.none_or]

theorem alike_registerTree (names : String → Prop) (tree : Source.SourceTree) :
    Alike (Registry.AgreeOn parse names)
      (Registry.AgreeOn parse fun name => names name ∨ name ∈ (Registry.writes tree).map Prod.fst)
      Eq (registerTree tree) (registerTree tree) :=
  fun _ _ _ agree => .ok (agree.registerTree tree) rfl

end Analysis

end RequestSchema
