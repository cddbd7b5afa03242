import RequestSchema.Operation
import RequestSchema.Proofs.Anonymous.ClassFile
import RequestSchema.Proofs.Extraction.Lines
import RequestSchema.Proofs.Session.History

/-!
# A class with and without a name

The class of a file can be written with a name, as a declaration, or without one, as an expression
that is assigned. The file in which it has a name is read as a whole; without a name, its lines are
cut out and read alone, and only the namespace and the imports are taken from the rest of the file.
How a source is parsed does not matter, as long as the class is the same one in each of these texts.

* `anonymousParameters_eq`: the class has the same parameters without its name once the enumerations
  of its file are registered; in a new session, unless its rules may stand for one of them;
* `fileEnumeration_unread`: the exception is real: the enumerations of the file are known to the
  named class alone.
-/
namespace RequestSchema

open RequestSchema.Source RequestSchema.Extraction Analysis

variable {parse : Parser}

/-- A class that is found in some lines is found without a report. -/
theorem Anonymous.locateIn_runsAs {text : String} {first last : Int} {c : ClassBody}
    (found : classIn? parse text first last = some c) (metadata : Metadata) :
    RunsAs parse (locateIn text first last metadata) (pure (some c)) := by
  rintro strict r rfl
  unfold classIn? at found
  unfold locateIn
  rw [run_registry]
  cases read : r.parse (fragment (Text.unifyLineEnds text) first last) with
  | error problem =>
    rw [read] at found
    cases found
  | ok tree =>
    simp only [read] at found
    cases empty : tree.isEmpty with
    | true =>
      rw [empty] at found
      cases found
    | false =>
      simp only [empty, Bool.false_eq_true, if_false] at found ⊢
      rw [found]

/-- The texts of a class do not tell where it stands. -/
theorem textsOf_of_unlined {c c' : ClassBody} (same : c.unlined = c'.unlined) (name : String) :
    Anonymous.textsOf c name = Anonymous.textsOf c' name := by
  have texts (c : ClassBody) : Anonymous.textsOf c.unlined name = Anonymous.textsOf c name := by
    rw [Anonymous.textsOf, Anonymous.textsOf, ClassBody.method?_unlined, Option.map_map]
    congr 2
    funext m
    rw [Function.comp_apply, methodTexts_unlined]
  rw [← texts c, ← texts c', same]

/-- Classes that differ in their lines at most have the same methods, up to these lines. -/
theorem methods_of_unlined {c c' : ClassBody} (same : c.unlined = c'.unlined) (name : String) :
    c.method? name = none ∧ c'.method? name = none ∨
      ∃ m m', c.method? name = some m ∧ c'.method? name = some m' ∧ m.unlined = m'.unlined := by
  have methods := congrArg (fun c => c.method? name) same
  simp only [ClassBody.method?_unlined] at methods
  cases own : c.method? name with
  | none =>
    rw [own] at methods
    exact .inl ⟨rfl, Option.map_eq_none_iff.mp methods.symm⟩
  | some m =>
    rw [own] at methods
    obtain ⟨m', own', same⟩ := Option.map_eq_some_iff.mp methods.symm
    exact .inr ⟨m, m', rfl, own', same.symm⟩

namespace Anonymous

/-- What is found out about a class that has been found in its source. -/
def resolutionOf (settings : Settings) (label : String) (c : ClassBody) (conditional : Bool) :
    Analysis Resolution :=
  match c.method? settings.rulesMethod with
  | none => return readFrom c .empty
  | some m =>
      if conditional then do
        let branches ←
          (methodBranches label c settings.helperDepth settings.predicateWords m :
            Logged ConditionalRules)
        return { readFrom c branches.merged with conditional := some branches }
      else do
        let rules ← (methodRules label c settings.helperDepth m : Logged RuleSet)
        return readFrom c rules

theorem run_resolve_of_found {settings : Settings} {factory : RequestFactory} {h : Handle}
    {conditional strict : Bool} {r : Registry} {label : String} {c : ClassBody}
    (found : (locate h).run strict r = ⟨r, [], .ok (some (label, c))⟩) :
    (resolve settings factory h conditional).run strict r =
      (resolutionOf settings label c conditional).run strict r := by
  unfold resolve fromSource
  rw [bind_assoc, run_sequence, found]
  simp only [List.nil_append]
  unfold resolutionOf
  cases c.method? settings.rulesMethod with
  | none => rfl
  | some m =>
    cases conditional with
    | true => simp only [if_true, bind_assoc, pure_bind]; rfl
    | false => simp only [Bool.false_eq_true, if_false, bind_assoc, pure_bind]; rfl

end Anonymous

namespace ClassFile

/-! ## Analyses -/

section

variable {f : ClassFile} {name path : String} {t t' u : SourceTree} {b b' : ClassBody}
  {settings : Settings} {strict : Bool} {r : Registry}

/-- The file of the class without a name is found under a path. -/
structure Present (parse : Parser) (f : ClassFile) (path : String) (r : Registry) : Prop where
  find : r.files.find (Path.ofText path) = .file f.anonymous
  parses : r.parse = parse

theorem Present.named (present : f.Present parse path r) :
    (f.handle path).file.filter (!·.isEmpty) = some path := by
  have filled : path.isEmpty = false := by
    cases empty : path.isEmpty with
    | false => rfl
    | true =>
      rw [String.isEmpty_iff] at empty
      subst empty
      have there := present.find
      have here : Path.ofText "" = ⟨false, []⟩ := by decide
      rw [here, Files.find] at there
      split at there
      · cases there
      · split at there <;> cases there
  simp [handle, filled]

/-- The lines of the class are found without a report. -/
theorem run_locate (readings : f.Readings parse name t t' u b b') (own : f.OwnLines)
    (present : f.Present parse path r) :
    (Anonymous.locate (f.handle path)).run strict r = ⟨r, [], .ok (some (path, b'))⟩ := by
  have start : (f.handle path).startLine.getD 0 = f.first := rfl
  have stop : (f.handle path).endLine.getD 0 = f.last := rfl
  have positive : f.first = Text.lineEnds f.front + 1 := rfl
  have ordered : f.last = f.first + Text.lineEnds f.rest := rfl
  have known : (decide ((f.first : Int) = 0) || decide ((f.last : Int) = 0) ||
      decide ((f.last : Int) < f.first)) = false := by
    simp only [Bool.or_eq_false_iff, decide_eq_false_iff_not]
    omega
  unfold Anonymous.locate
  simp only [present.named, start, stop, known, Bool.false_eq_true, if_false]
  rw [run_registry, present.find]
  exact (Anonymous.locateIn_runsAs (readings.fragment own) _).bind _ strict r present.parses

theorem run_sourceNames (readings : f.Readings parse name t t' u b b')
    (present : f.Present parse path r) :
    (Anonymous.sourceNames (f.handle path)).run strict r =
      ⟨r, [], .ok (t'.namespace?, t'.aliases)⟩ := by
  unfold Anonymous.sourceNames
  simp only [present.named]
  rw [run_registry, present.find]
  exact (parse_runsAs_tree _ readings.anonymous).bind _ strict r present.parses

/-- The class with a name is found, and the enumerations of its file become known. -/
theorem run_locateNamed (readings : f.Readings parse name t t' u b b') (parses : r.parse = parse) :
    ((f.unit name).locate name).run strict r =
      ⟨r.registerTree t, [], .ok (some ⟨b, t.namespace?, t.aliases⟩)⟩ := by
  have read : parse (f.unit name).text = .ok t := readings.named
  rw [SourceUnit.locate, (parse_runsAs_tree _ read).bind _ strict r parses, pure_bind]
  simp only [readings.found]
  rfl

theorem located?_of_readings (readings : f.Readings parse name t t' u b b') :
    (f.unit name).located? parse name = some ⟨b, t.namespace?, t.aliases⟩ := by
  have read : parse (f.unit name).text = .ok t := readings.named
  simp only [SourceUnit.located?, read, readings.found]
  rfl

/-- What is known in both registries, and where the file is. -/
structure Meet (parse : Parser) (f : ClassFile) (path : String) (names : String → Prop)
    (r r' : Registry) : Prop where
  agree : Registry.AgreeOn parse names r r'
  present : f.Present parse path r'

variable {names : String → Prop} {conditional : Bool}

/-- What is built in the scope of the class with a name is built alike in that of the class without
one. -/
theorem alike_inScope (readings : f.Readings parse name t t' u b b')
    {build : Origin → Analysis (List Parameter)} {labels : OrderedMap Key Value} {room : Int}
    (built : ∀ origin : Origin, origin.space = t.namespace? → origin.aliases = t.aliases →
      Alike (Registry.AgreeOn parse names) (Registry.AgreeOn parse names) Eq (build origin)
        (build origin)) :
    Alike (f.Meet parse path names) (Registry.AgreeOn parse names) Eq
      (build { space := t.namespace?, aliases := t.aliases, labels, room })
      (do
        let (space, aliases) ← Anonymous.sourceNames (f.handle path)
        build { space, aliases, labels, room }) := by
  refine Alike.behind (fun strict r r' meet => run_sourceNames readings meet.present) ?_
  dsimp only
  rw [← readings.space, ← readings.aliases]
  intro strict r r' meet
  exact built _ rfl rfl strict r r' meet.agree

theorem alike_behind (readings : f.Readings parse name t t' u b b')
    (own : ∀ n ∈ (f.unit name).consulted parse settings name conditional, names n) :
    Alike (f.Meet parse path names) (Registry.AgreeOn parse names) Eq
      (match b.method? settings.rulesMethod with
        | none => return []
        | some m => (f.unit name).parametersOf settings conditional
            ⟨b, t.namespace?, t.aliases⟩ m)
      (do
        let resolution ← Anonymous.resolutionOf settings path b' conditional
        let (space, aliases) ← Anonymous.sourceNames (f.handle path)
        let origin : Origin :=
          { space, aliases, labels := resolution.labels, room := settings.room }
        if conditional then
          Parameter.ofConditionalRules (← (resolution.branches : Except Fault ConditionalRules))
            origin
        else Parameter.ofRuleSet resolution.rules origin) := by
  have labels := textsOf_of_unlined readings.body "attributes"
  simp only [SourceUnit.consulted, located?_of_readings readings] at own
  unfold Anonymous.resolutionOf
  rcases methods_of_unlined readings.body settings.rulesMethod with
    ⟨method, method'⟩ | ⟨m, m', method, method', same⟩
  · rw [method, method']
    simp only [pure_bind]
    refine .behind (fun strict r r' meet => run_sourceNames readings meet.present) ?_
    cases conditional with
    | true => exact fun strict r r' meet => .ok meet.agree rfl
    | false => exact fun strict r r' meet => .ok meet.agree rfl
  · rw [method, method']
    simp only [method] at own
    cases conditional with
    | true =>
      simp only [SourceUnit.parametersOf, if_true, bind_assoc, pure_bind]
      have branches := methodBranches_same readings.body same (f.unit name).label path
        settings.helperDepth settings.predicateWords
      refine (alike_sameErrors branches).yielding.bind ?_
      rintro branches _ ⟨rfl, yields, -⟩
      simp only [SourceUnit.fields, if_true, yields_logged yields] at own
      rw [labels]
      refine alike_inScope readings fun origin space aliases => ?_
      exact Parameter.alike_ofConditionalRules (by rwa [space, aliases])
    | false =>
      simp only [SourceUnit.parametersOf, Bool.false_eq_true, if_false, bind_assoc, pure_bind]
      have rules := methodRules_same readings.body same (f.unit name).label path
        settings.helperDepth
      refine (alike_sameErrors rules).yielding.bind ?_
      rintro rules _ ⟨rfl, yields, -⟩
      simp only [SourceUnit.fields, Bool.false_eq_true, if_false, yields_logged yields] at own
      rw [labels]
      refine alike_inScope readings fun origin space aliases => ?_
      exact Parameter.alike_ofRuleSet (by rwa [space, aliases])

/-- Both classes have the same parameters where the same enumerations are known among those that
their rules may stand for. -/
theorem result_parameters (readings : f.Readings parse name t t' u b b') (whole : f.OwnLines)
    {factory : Anonymous.RequestFactory} (parses : r.parse = parse)
    (own : ∀ n ∈ (f.unit name).consulted parse settings name conditional, names n) {r' : Registry}
    (meet : f.Meet parse path names (r.registerTree t) r') :
    ((Anonymous.parameters settings factory (f.handle path) conditional).run strict r').result =
      (((f.unit name).parameters settings name conditional).run strict r).result := by
  have named : (((f.unit name).locate name).run strict r).result =
      .ok (some ⟨b, t.namespace?, t.aliases⟩) := by rw [run_locateNamed readings parses]
  have resolved : (Anonymous.resolve settings factory (f.handle path) conditional).run strict r' =
      (Anonymous.resolutionOf settings path b' conditional).run strict r' :=
    Anonymous.run_resolve_of_found (run_locate readings whole meet.present)
  rw [SourceUnit.parameters_eq_onMethod, SourceUnit.onMethod, (run_sequence_ok _ named).1,
    run_locateNamed readings parses, Anonymous.parameters, run_sequence, resolved, ← run_sequence]
  have ends := alike_behind readings own strict _ _ meet
  exact ends.result_eq.symm

end

/-! ## Sessions -/

def session (parse : Parser) (settings : Settings) (files : Files) : Session :=
  { settings, factory := .ok .null, registry := { roots := settings.roots, files, parse } }

/-- The parameters of the class with a name, in a new session without files. -/
def namedParameters (parse : Parser) (f : ClassFile) (settings : Settings) (name : String)
    (conditional : Bool) : Except Stop (List Parameter) :=
  ((session parse settings {}).operate
    (.parameters none { text := f.named name } name conditional)).1

/-- The parameters of the class without a name, in a new session with its file. -/
def anonymousParameters (parse : Parser) (f : ClassFile) (settings : Settings) (path : String)
    (conditional : Bool) : Except Stop (List Parameter) :=
  ((session parse settings (.ofList [(path, f.anonymous)])).operate
    (.anonymousParameters (f.handle path) conditional)).1

/-- The same in a session in which the enumerations of its file have been registered. -/
def registeredParameters (parse : Parser) (f : ClassFile) (settings : Settings) (path : String)
    (conditional : Bool) : Except Stop (List Parameter) :=
  (((session parse settings (.ofList [(path, f.anonymous)])).operate
    (.registerFile (Path.ofText path))).2.operate
      (.anonymousParameters (f.handle path) conditional)).1

theorem namedParameters_eq_run (f : ClassFile) (settings : Settings) (name : String)
    (conditional : Bool) :
    f.namedParameters parse settings name conditional =
      (((f.unit name).parameters settings name conditional).run settings.strict
        { roots := settings.roots, parse }).result := by
  have same : ({ text := f.named name } : SourceUnit) = f.unit name := rfl
  rw [namedParameters, same]
  -- the text of the source need not be read
  generalize f.unit name = u
  rfl

theorem anonymousParameters_eq_run (f : ClassFile) (settings : Settings) (path : String)
    (conditional : Bool) :
    f.anonymousParameters parse settings path conditional =
      ((Anonymous.parameters settings (.ok .null) (f.handle path) conditional).run
        settings.strict
        { roots := settings.roots, files := .ofList [(path, f.anonymous)], parse }).result := by
  rw [anonymousParameters]
  rfl

section

variable {f : ClassFile} {name path : String} {t t' u : SourceTree} {b b' : ClassBody}

theorem run_registerFile (readings : f.Readings parse name t t' u b b') (strict : Bool)
    {r : Registry} (present : f.Present parse path r) :
    ((Operation.registerParsed (parseFile (Path.ofText path))).run strict r).registry =
      r.registerTree t' := by
  unfold Operation.registerParsed parseFile
  rw [bind_assoc, run_registry, present.find,
    (parse_runsAs_tree _ readings.anonymous).bind _ strict r present.parses]
  rfl

/-- The run in a session in which the file of the class without a name has been registered. -/
theorem registeredParameters_eq_run (readings : f.Readings parse name t t' u b b')
    (settings : Settings)
    (present : f.Present parse path
      { roots := settings.roots, files := .ofList [(path, f.anonymous)], parse })
    (conditional : Bool) :
    f.registeredParameters parse settings path conditional =
      ((Anonymous.parameters settings (.ok .null) (f.handle path) conditional).run
        settings.strict (Registry.registerTree
          { roots := settings.roots, files := .ofList [(path, f.anonymous)], parse } t')).result := by
  rw [← run_registerFile readings settings.strict present]
  rfl

/-- A class without a name has the parameters that it has with a name once the enumerations of
its file are registered. In a new session they are not; there it has the same parameters unless its
rules may stand for one of these enumerations. -/
theorem anonymousParameters_eq {settings : Settings} (own : f.OwnLines)
    (readings : f.Readings parse name t t' u b b') (rootless : settings.roots = .empty)
    (present : (Files.ofList [(path, f.anonymous)]).find (Path.ofText path) = .file f.anonymous)
    (conditional : Bool) :
    f.registeredParameters parse settings path conditional =
        f.namedParameters parse settings name conditional ∧
      ((∀ n ∈ (f.unit name).consulted parse settings name conditional,
          n ∉ (f.unit name).declared parse name) →
        f.anonymousParameters parse settings path conditional =
          f.namedParameters parse settings name conditional) := by
  have there : f.Present parse path
      { roots := settings.roots, files := .ofList [(path, f.anonymous)], parse } := ⟨present, rfl⟩
  have agree : Registry.AgreeOn parse (fun _ => True) { roots := settings.roots, parse }
      { roots := settings.roots, files := .ofList [(path, f.anonymous)], parse } :=
    ⟨rootless, rootless, rfl, rfl, fun _ _ => rfl⟩
  rw [namedParameters_eq_run]
  constructor
  · rw [registeredParameters_eq_run readings settings there]
    have same : Registry.writes t' = Registry.writes t := by
      rw [Registry.writes, Registry.writes, readings.enumerations]
    refine result_parameters readings own rfl (fun _ _ => trivial) ⟨?_, ⟨?_, ?_⟩⟩
    · have both := agree.registerTree t
      rw [Registry.registerTree_eq, Registry.registerTree_eq] at both ⊢
      rw [same]
      exact both.mono fun _ _ => .inl trivial
    · rw [Registry.registerTree_eq]
      exact present
    · rw [Registry.registerTree_eq]
  · intro unread
    rw [anonymousParameters_eq_run]
    have declared : (f.unit name).declared parse name = (Registry.writes t).map Prod.fst := by
      have read : parse (f.unit name).text = .ok t := readings.named
      simp only [SourceUnit.declared, read, readings.found, Option.isSome_some, if_true]
    rw [declared] at unread
    refine result_parameters readings own rfl unread ⟨?_, there⟩
    have left := leaves_registerTree t settings.strict { roots := settings.roots, parse } rootless
      rfl
    exact left.symm.trans (agree.mono fun _ _ => trivial)

end

/-- A class with a field for an enumeration that its file imports, behind one that it declares. -/
def levelFile : ClassFile :=
  { front := "<?php\nnamespace App;\nuse Other\\Level;\n" ++
      "enum Status: string \x7b case A = 'x'; \x7d\n"
    rest := "Base \x7b\n  function rules() \x7b return ['l' => [Rule::enum(Level::class)]]; \x7d\n" ++
      "\x7d" }

theorem ownLines_levelFile : levelFile.OwnLines where
  front := by decide +kernel
  rest := by decide +kernel
  before := by decide
  brace := by decide
  behind := by decide

theorem separable_levelFile : levelFile.Separable "N" := by
  have front : (SourceTree.ofText levelFile.front).toOption.any
      (fun tree => (tree.class? "N").isNone) = true := by decide +kernel
  obtain ⟨tree, read, absent⟩ := exists_ok_of_any front
  have rest : ((Parse.namedClass (Grammar.ofDepth (classLexemes "N" levelFile.rest).length)
      (classLexemes "N" levelFile.rest)).run
        { rest := classLexemes "N" levelFile.rest }).toOption.any
        (fun out : (String × ClassBody) × Cursor => out.1.1 = "N" ∧ out.2.rest.length = 1) =
          true := by decide +kernel
  obtain ⟨out, taken, whole⟩ := exists_ok_of_any rest
  obtain ⟨⟨name, body⟩, d⟩ := out
  obtain ⟨rfl, left⟩ := of_decide_eq_true whole
  refine ⟨by decide +kernel, ⟨tree, ⟨by decide +kernel, by decide +kernel, read, ?_, ?_⟩,
    Option.isNone_iff_eq_none.mp absent⟩, ⟨body, d.declarations, by decide, by decide +kernel,
    ?_, ?_, ?_, d, taken, left, rfl⟩, rfl⟩
  · decide +kernel
  · decide +kernel
  · decide +kernel
  · decide +kernel
  · decide +kernel

theorem levelFile_same :
    "App\\Status" ∈ (levelFile.unit "N").declared SourceTree.ofText "N" ∧
      "Other\\Level" ∈ (levelFile.unit "N").consulted SourceTree.ofText {} "N" false ∧
      levelFile.anonymousParameters SourceTree.ofText {} "a.php" false =
        levelFile.namedParameters SourceTree.ofText {} "N" false := by
  have declared : (levelFile.unit "N").declared SourceTree.ofText "N" = ["App\\Status"] := by
    decide +kernel
  have consulted : (levelFile.unit "N").consulted SourceTree.ofText {} "N" false =
      ["Other\\Level"] := by decide +kernel
  obtain ⟨t, t', u, b, b', readings⟩ := separable_levelFile.readings
  refine ⟨by rw [declared]; decide, by rw [consulted]; decide, ?_⟩
  refine (anonymousParameters_eq ownLines_levelFile readings rfl (by decide +kernel) false).2 ?_
  rw [declared, consulted]
  decide

/-- A class with a field for an enumeration that the same file declares. -/
def statusFile : ClassFile :=
  { front := "<?php\nenum Status: string \x7b case A = 'x'; \x7d\n"
    rest := "Base \x7b function rules() \x7b " ++
      "return ['s' => [Rule::enum(Status::class)]]; \x7d \x7d" }

/-- Whether some parameters tell an enumeration. -/
def tellsEnumeration : Except Stop (List Parameter) → Bool
  | .ok ps => ps.any fun p => p.enumeration.isSome
  | .error _ => false

/-- The enumerations of a file are not known where its class without a name is read. -/
theorem fileEnumeration_unread :
    statusFile.anonymousParameters SourceTree.ofText {} "a.php" false ≠
      statusFile.namedParameters SourceTree.ofText {} "N" false := by
  intro same
  have told : tellsEnumeration (statusFile.namedParameters SourceTree.ofText {} "N" false) =
      true := by decide +kernel
  have untold : tellsEnumeration (statusFile.anonymousParameters SourceTree.ofText {} "a.php"
      false) = false := by decide +kernel
  rw [same, told] at untold
  cases untold

end ClassFile

end RequestSchema
