import RequestSchema.Anonymous.Resolution
import RequestSchema.Proofs.Analysis.Returns
import RequestSchema.Proofs.Extraction.Faults
import RequestSchema.Proofs.OrderedMap.Writes

/-!
# Failures of anonymous classes

An anonymous class is resolved in two stages, and a failure stays in its stage
(`resolve_isolates`). A class that is found in its source is read from there, and an object of
it is neither made nor asked: the outcome is the same for every behaviour of the class.
Otherwise one failure of the source is reported (`locate_finds`) and an object is asked
(`byReflection_gives`): what its methods return is kept, and each failure costs one diagnostic
and what the method would have contributed, or everything if it is a failure of the rules.

Some things are not caught. A path with a null character is no path, and a number in the source that
no integer or no text can be made of stops the resolution of a class that is found
(`resolve_of_unreadable`, `endlessSize_unresolved`). An object that is asked must behave
(`Handle.Contained`): what is meant to end the program ends it, and since only the keys of a
dictionary are copied, a later call can change the values that an earlier one has returned.
-/
namespace RequestSchema

open RequestSchema.Source RequestSchema.Extraction Analysis

/-- The diagnostic has a severity and a kind. -/
def Diagnostic.Is (severity : Severity) (kind : String) (d : Diagnostic) : Prop :=
  d.severity = severity ∧ d.hasKind kind = true

namespace Anonymous

/-- A kind that is written behind all other metadata is read back. -/
theorem hasKind_of_written (severity : Severity) (context message kind : String)
    (metadata : Metadata) :
    Diagnostic.Is severity kind
      ⟨severity, context, message, .ofList (metadata ++ [("error_type", .text kind)])⟩ := by
  refine ⟨rfl, ?_⟩
  have written : (OrderedMap.ofList (metadata ++ [("error_type", Value.text kind)])).get?
      "error_type" = some (.text kind) := by
    rw [OrderedMap.ofList, OrderedMap.get?_insertAll, List.reverse_concat]
    rfl
  simp only [Diagnostic.hasKind, Diagnostic.kind, written]
  simp [Value.text?]

variable {r : Registry}

theorem warnOf_gives (kind message : String) (metadata : Metadata) :
    ∃ d, d.Is .warning kind ∧ (warnOf kind message metadata).Gives r [d] () :=
  ⟨_, hasKind_of_written .warning _ message kind metadata, gives_emit _⟩

theorem errorOf_gives (kind message : String) (metadata : Metadata) :
    ∃ d, d.Is .error kind ∧ (errorOf kind message metadata).Gives r [d] () :=
  ⟨_, hasKind_of_written .error _ message kind metadata, gives_emit _⟩

/-! ## The source -/

/-- The lines where a class was written, if they are known. -/
def Handle.lines? (h : Handle) : Option (Int × Int) :=
  let first := h.startLine.getD 0
  let last := h.endLine.getD 0
  if first = 0 || last = 0 || last < first then none else some (first, last)

/-- The class in the fragment that some lines of a text make, if there is one. -/
def classIn? (parse : Parser) (text : String) (first last : Int) : Option ClassBody :=
  match parse (fragment (Text.unifyLineEnds text) first last) with
  | .error _ => none
  | .ok tree => if tree.isEmpty then none else tree.anonymousClass?

/-- The label of the source of a class, and the class in its lines, if the files have it
there. -/
def Handle.located? (r : Registry) (h : Handle) : Option (String × ClassBody) := do
  let file ← h.file.filter (!·.isEmpty)
  let (first, last) ← h.lines?
  match r.files.find (Path.ofText file) with
  | .file text => (classIn? r.parse text first last).map fun c => (file, c)
  | _ => none

def sourceFailures : List (Severity × String) :=
  [(.warning, "anonymous_line_info_unavailable"), (.warning, "file_not_found"),
    (.error, "anonymous_ast_parse_error"), (.warning, "anonymous_ast_null_result"),
    (.warning, "anonymous_class_node_not_found")]

/-- The diagnostic says what prevents a class from being read from its source. -/
def IsSourceFailure (d : Diagnostic) : Prop :=
  ∃ failure ∈ sourceFailures, d.Is failure.1 failure.2

/-- An analysis finds what is there without a report, or reports one failure of the source. -/
def Finds {α : Type} (a : Analysis (Option α)) (r : Registry) (there : Option α) : Prop :=
  (there.isSome = true ∧ a.Gives r [] there) ∨
    (there = none ∧ ∃ d, IsSourceFailure d ∧ a.Gives r [d] none)

theorem finds_failure {α : Type} {a : Analysis Unit} {d : Diagnostic} (source : IsSourceFailure d)
    (reports : a.Gives r [d] ()) : Finds (do a; return (none : Option α)) r none :=
  .inr ⟨rfl, d, source, reports.bind (gives_pure none)⟩

theorem finds_warning {α : Type} {kind : String}
    (listed : (Severity.warning, kind) ∈ sourceFailures) (message : String) (metadata : Metadata) :
    Finds (do warnOf kind message metadata; return (none : Option α)) r none := by
  obtain ⟨d, warning, reports⟩ := warnOf_gives kind message metadata
  exact finds_failure ⟨_, listed, warning⟩ reports

theorem Finds.map {α β : Type} {a : Analysis (Option α)} {there : Option α}
    (finds : Finds a r there) (f : α → β) : Finds (do return (← a).map f) r (there.map f) := by
  rcases finds with ⟨found, gives⟩ | ⟨rfl, d, source, gives⟩
  · refine .inl ⟨by rwa [Option.isSome_map], ?_⟩
    exact gives.bind (gives_pure (there.map f))
  · exact .inr ⟨rfl, d, source, gives.bind (gives_pure none)⟩

theorem finds_registry {α : Type} {f : Registry → Analysis (Option α)} {there : Option α}
    (finds : Finds (f r) r there) : Finds (registry >>= f) r there :=
  finds

theorem locateIn_finds (text : String) (first last : Int) (metadata : Metadata) :
    Finds (locateIn text first last metadata) r (classIn? r.parse text first last) := by
  unfold locateIn classIn?
  refine finds_registry ?_
  cases r.parse (fragment (Text.unifyLineEnds text) first last) with
  | error problem =>
    obtain ⟨d, error, reports⟩ := errorOf_gives (r := r) "anonymous_ast_parse_error"
      ("Failed to parse anonymous class source: " ++ problem.message) metadata
    exact finds_failure ⟨(.error, "anonymous_ast_parse_error"), by decide, error⟩ reports
  | ok tree =>
    simp only
    by_cases empty : tree.isEmpty = true
    · rw [if_pos empty, if_pos empty]
      exact finds_warning (by decide) _ _
    · rw [if_neg empty, if_neg empty]
      cases tree.anonymousClass? with
      | some c => exact .inl ⟨rfl, gives_pure (some c)⟩
      | none => exact finds_warning (by decide) _ _

theorem locate_finds {h : Handle} (usable : ∀ file, h.file = some file → '\x00' ∉ file.toList) :
    Finds (locate h) r (h.located? r) := by
  unfold locate Handle.located? Handle.lines?
  cases named : h.file.filter (!·.isEmpty) with
  | none => exact finds_warning (by decide) _ _
  | some file =>
    have plain : file.toList.contains '\x00' = false := by
      simpa using usable file (Option.eq_some_of_filter_eq_some named)
    simp only [Option.bind_eq_bind, Option.bind_some]
    split
    · exact finds_warning (by decide) _ _
    · simp only [Option.bind_some]
      refine finds_registry ?_
      cases r.files.find (Path.ofText file) with
      | file text => exact (locateIn_finds text _ _ _).map fun c => (file, c)
      | _ =>
        simp only [plain, Bool.false_eq_true, if_false]
        exact finds_warning (by decide) _ _

/-! ## The object -/

/-- Why the request of an object is not set, although its class has a property for it. -/
def populationFailure? (factory : RequestFactory) (h : Handle) : Option Raised :=
  if h.behaviour.hasRequest [.create] then
    match factory with
    | .error e => some e
    | .ok request => match h.behaviour.populate request with
      | .error e => some e
      | .ok _ => none
  else none

namespace Handle

def filled (factory : RequestFactory) (h : Handle) : History :=
  if h.behaviour.hasRequest [.create] then
    match factory with
    | .error _ => [.create]
    | .ok request => [.create, .populate request]
  else [.create]

def ruled (settings : Settings) (factory : RequestFactory) (h : Handle) : History :=
  h.behind (h.filled factory) settings.rulesMethod

def labelled (settings : Settings) (factory : RequestFactory) (h : Handle) : History :=
  h.behind (h.ruled settings factory) "attributes"

/-- All that has been asked of an object in the end. -/
def exhausted (settings : Settings) (factory : RequestFactory) (h : Handle) : History :=
  h.behind (h.labelled settings factory) "messages"

/-- The calls of methods of an object, each with what has been asked before it. -/
def calls (settings : Settings) (factory : RequestFactory) (h : Handle) : List (History × String) :=
  [(h.filled factory, settings.rulesMethod), (h.ruled settings factory, "attributes"),
    (h.labelled settings factory, "messages")]

theorem forall_calls {settings : Settings} {factory : RequestFactory} {h : Handle}
    {P : History × String → Prop} :
    (∀ call ∈ h.calls settings factory, P call) ↔
      P (h.filled factory, settings.rulesMethod) ∧ P (h.ruled settings factory, "attributes") ∧
        P (h.labelled settings factory, "messages") := by
  simp only [calls, List.forall_mem_cons, List.not_mem_nil, false_imp_iff, implies_true, and_true]

/-- What a call of a method raises; a class without the method raises nothing. -/
def failure? (h : Handle) (before : History) (name : String) : Option Raised :=
  match h.invoke before name with
  | .error e => some e
  | .ok _ => none

/-- The entries of the dictionary that a method returns, if it returns one. -/
def entries (h : Handle) (before : History) (name : String) : Entries :=
  match h.invoke before name with
  | .ok (.dictionary entries) => entries
  | _ => []

/-- What a call of a method contributes: the dictionary that it returns, as it is then; nothing if
it fails or returns something else, be it another kind of mapping, or if there is no such method. -/
def contribution (h : Handle) (before : History) (name : String) : OrderedMap Key Value :=
  (h.entries before name).valuesAt (h.behind before name)

/-- An object that does nothing beyond failing: exceptions are such as are caught, what methods
return can be copied, and its values are in the end what they were when it was returned. -/
structure Contained (settings : Settings) (factory : RequestFactory) (h : Handle) : Prop where
  made : ∀ e, h.behaviour.create = .error e → e.ordinary = true
  populated : ∀ e, populationFailure? factory h = some e → e.ordinary = true
  raised : ∀ call ∈ h.calls settings factory, ∀ e, h.invoke call.1 call.2 = .error e →
    e.ordinary = true
  copied : ∀ call ∈ h.calls settings factory, ∀ e, h.invoke call.1 call.2 ≠ .ok (.uncopyable e)
  kept : ∀ call ∈ h.calls settings factory, ∀ entry ∈ h.entries call.1 call.2,
    entry.2 (h.exhausted settings factory) = entry.2 (h.behind call.1 call.2)

end Handle

theorem Entries.valuesAt_congr {entries : Entries} {calls calls' : History}
    (kept : ∀ entry ∈ entries, entry.2 calls = entry.2 calls') :
    entries.valuesAt calls = entries.valuesAt calls' := by
  unfold Entries.valuesAt
  congr 1
  refine List.map_congr_left fun (key, value) member => ?_
  exact congrArg (key, ·) (kept (key, value) member)

/-- What is copied of a dictionary. -/
theorem copy_of_returned {h : Handle} {before : History} {name : String} {returned : Returned}
    (returns : h.invoke before name = .ok returned)
    (copied : ∀ e, h.invoke before name ≠ .ok (.uncopyable e)) :
    returned.copy = .ok (h.entries before name) := by
  unfold Handle.entries
  rw [returns]
  cases returned with
  | uncopyable e => exact absurd returns (copied e)
  | dictionary entries | mapping | other => rfl

/-- Nothing is contributed by a method that raises something. -/
theorem entries_of_raised {h : Handle} {before : History} {name : String} {e : Raised}
    (raises : h.invoke before name = .error e) : h.entries before name = [] := by
  rw [Handle.entries, raises]

theorem caught_of_ordinary {α : Type} {e : Raised} (ordinary : e.ordinary = true)
    (rest : Analysis α) : e.caught rest = rest := by
  rw [Raised.caught, if_pos ordinary]

/-- There is one warning of a kind for a failure, and none without. -/
inductive WarnedOf (kind : String) : Option Raised → List Diagnostic → Prop
  | nothing : WarnedOf kind none []
  | failure {e d} (warning : d.Is .warning kind) : WarnedOf kind (some e) [d]

theorem populate_gives {factory : RequestFactory} {h : Handle}
    (ordinary : ∀ e, populationFailure? factory h = some e → e.ordinary = true)
    (metadata : Metadata) :
    ∃ reported,
      WarnedOf "anonymous_request_property_error" (populationFailure? factory h) reported ∧
      (populate h factory metadata).Gives r reported (h.filled factory) := by
  have fails {e : Raised} (ordinary : e.ordinary = true) (calls : History) :
      ∃ d, d.Is .warning "anonymous_request_property_error" ∧
        Gives (e.caught (do
          warnOf "anonymous_request_property_error"
            ("Could not populate request property: " ++ e.text)
            (metadata ++ [("exception_class", .text e.kind)])
          return calls : Analysis History)) r [d] calls := by
    obtain ⟨d, warning, reports⟩ := warnOf_gives (r := r) "anonymous_request_property_error"
      ("Could not populate request property: " ++ e.text)
      (metadata ++ [("exception_class", .text e.kind)])
    rw [caught_of_ordinary ordinary]
    exact ⟨d, warning, reports.bind (gives_pure calls)⟩
  unfold populationFailure? at ordinary
  unfold populate populationFailure? Handle.filled
  cases has : h.behaviour.hasRequest [.create] with
  | false =>
    simp only [has, Bool.not_false, Bool.false_eq_true, if_false, if_true]
    exact ⟨[], .nothing, gives_pure _⟩
  | true =>
    simp only [has, Bool.not_true, Bool.false_eq_true, if_false, if_true] at ordinary ⊢
    cases factory with
    | error e =>
      obtain ⟨d, warning, gives⟩ := fails (ordinary e rfl) [.create]
      exact ⟨[d], .failure warning, gives⟩
    | ok request =>
      simp only at ordinary ⊢
      cases filled : h.behaviour.populate request with
      | ok _ => exact ⟨[], .nothing, gives_pure _⟩
      | error e =>
        rw [filled] at ordinary
        obtain ⟨d, warning, gives⟩ := fails (ordinary e rfl) [.create, .populate request]
        exact ⟨[d], .failure warning, gives⟩

theorem optionalEntries_gives {h : Handle} {before : History} {name : String}
    (ordinary : ∀ e, h.invoke before name = .error e → e.ordinary = true)
    (copied : ∀ e, h.invoke before name ≠ .ok (.uncopyable e)) (metadata : Metadata) :
    ∃ reported,
      WarnedOf "anonymous_non_critical_method_failure" (h.failure? before name) reported ∧
      (optionalEntries h before name metadata).Gives r reported (h.entries before name) := by
  unfold optionalEntries Handle.failure?
  cases ended : h.invoke before name with
  | ok returned =>
    refine ⟨[], .nothing, ?_⟩
    simp only [copy_of_returned ended copied]
    exact gives_pure _
  | error e =>
    obtain ⟨d, warning, reports⟩ := warnOf_gives (r := r) "anonymous_non_critical_method_failure"
      (name ++ "() raised: " ++ e.text) (metadata ++ failureOf name e)
    rw [entries_of_raised ended]
    simp only [caught_of_ordinary (ordinary e ended)]
    exact ⟨[d], .failure warning, reports.bind (gives_pure [])⟩

def Handle.metadata (h : Handle) : Metadata :=
  [("class_name", .text h.name),
    ("file_path", .text ((h.file.filter (!·.isEmpty)).getD "unknown"))]

variable {settings : Settings} {factory : RequestFactory} {h : Handle}

/-- Two classes behave alike until the rules of an object have been asked. -/
structure Behaviour.SameUntilRules (settings : Settings) (b' b : Behaviour) : Prop where
  create : b'.create = b.create
  hasRequest : b'.hasRequest = b.hasRequest
  populate : b'.populate = b.populate
  hasRules : ∀ before, b'.hasMethod before settings.rulesMethod =
    b.hasMethod before settings.rulesMethod
  rules : ∀ before, b'.invoke before settings.rulesMethod = b.invoke before settings.rulesMethod

/-- What resolving a class by an object of it gives and reports. -/
inductive ByObject (settings : Settings) (factory : RequestFactory) (h : Handle) (r : Registry) :
    Option Resolution → List Diagnostic → Prop
  /-- no object can be made -/
  | unmade {e d} (raised : h.behaviour.create = .error e)
      (error : d.Is .error "anonymous_instantiation_error") :
      ByObject settings factory h r none [d]
  /-- the rules fail, and then no other method is called -/
  | voided {e population d} (made : h.behaviour.create = .ok ())
      (populated : WarnedOf "anonymous_request_property_error" (populationFailure? factory h)
        population)
      (raised : h.failure? (h.filled factory) settings.rulesMethod = some e)
      (error : d.Is .error "anonymous_method_invocation_error")
      (uncalled : ∀ behaviour : Behaviour, behaviour.SameUntilRules settings h.behaviour →
        (byReflection settings factory { h with behaviour }).Gives r (population ++ [d])
          (some { strategy := .reflection })) :
      ByObject settings factory h r (some { strategy := .reflection }) (population ++ [d])
  /-- the rules are there, and every method contributes what it can -/
  | gathered {population labels messages} (made : h.behaviour.create = .ok ())
      (populated : WarnedOf "anonymous_request_property_error" (populationFailure? factory h)
        population)
      (returned : h.failure? (h.filled factory) settings.rulesMethod = none)
      (labelled : WarnedOf "anonymous_non_critical_method_failure"
        (h.failure? (h.ruled settings factory) "attributes") labels)
      (worded : WarnedOf "anonymous_non_critical_method_failure"
        (h.failure? (h.labelled settings factory) "messages") messages) :
      ByObject settings factory h r
        (some { strategy := .reflection
                rules := h.contribution (h.filled factory) settings.rulesMethod
                labels := h.contribution (h.ruled settings factory) "attributes"
                messages := h.contribution (h.labelled settings factory) "messages" })
        (population ++ (labels ++ messages))

theorem byReflection_of_unmade {e : Raised} (made : h.behaviour.create = .error e)
    (ordinary : e.ordinary = true) :
    ∃ d, d.Is .error "anonymous_instantiation_error" ∧
      (byReflection settings factory h).Gives r [d] none := by
  obtain ⟨d, error, reports⟩ := errorOf_gives (r := r) "anonymous_instantiation_error"
    ("Failed to create instance: " ++ e.text)
    (h.metadata ++ [("exception_class", .text e.kind)])
  refine ⟨d, error, ?_⟩
  unfold byReflection
  simp only [made, caught_of_ordinary ordinary]
  exact reports.bind (gives_pure none)

/-- Behind its rules, which fail, nothing of an object matters. -/
theorem byReflection_of_raised {e : Raised} (made : h.behaviour.create = .ok ())
    (populated : ∀ e, populationFailure? factory h = some e → e.ordinary = true)
    (raised : h.invoke (h.filled factory) settings.rulesMethod = .error e)
    (ordinary : e.ordinary = true) :
    ∃ population d,
      WarnedOf "anonymous_request_property_error" (populationFailure? factory h) population ∧
      d.Is .error "anonymous_method_invocation_error" ∧
      ∀ behaviour : Behaviour, behaviour.SameUntilRules settings h.behaviour →
        (byReflection settings factory { h with behaviour }).Gives r (population ++ [d])
          (some { strategy := .reflection }) := by
  obtain ⟨population, warned, fills⟩ := populate_gives (r := r) populated h.metadata
  obtain ⟨d, error, reports⟩ := errorOf_gives (r := r) "anonymous_method_invocation_error"
    (settings.rulesMethod ++ "() raised: " ++ e.text)
    (h.metadata ++ failureOf settings.rulesMethod e)
  refine ⟨population, d, warned, error, fun behaviour same => ?_⟩
  have fills' : (populate { h with behaviour } factory h.metadata).Gives r population
      (h.filled factory) := by
    unfold populate at fills ⊢
    simpa only [same.hasRequest, same.populate] using fills
  have raised' : ({ h with behaviour } : Handle).invoke (h.filled factory) settings.rulesMethod =
      .error e := by
    unfold Handle.invoke at raised ⊢
    simpa only [same.hasRules, same.rules] using raised
  unfold byReflection
  simp only [same.create, made]
  refine fills'.bind ?_
  simp only [raised', caught_of_ordinary ordinary]
  exact reports.bind (gives_pure _)

theorem byReflection_of_returned {returned : Returned} (made : h.behaviour.create = .ok ())
    (returns : h.invoke (h.filled factory) settings.rulesMethod = .ok returned)
    (contained : h.Contained settings factory) :
    ∃ population labels messages,
      WarnedOf "anonymous_request_property_error" (populationFailure? factory h) population ∧
      WarnedOf "anonymous_non_critical_method_failure"
        (h.failure? (h.ruled settings factory) "attributes") labels ∧
      WarnedOf "anonymous_non_critical_method_failure"
        (h.failure? (h.labelled settings factory) "messages") messages ∧
      (byReflection settings factory h).Gives r (population ++ (labels ++ messages))
        (some { strategy := .reflection
                rules := h.contribution (h.filled factory) settings.rulesMethod
                labels := h.contribution (h.ruled settings factory) "attributes"
                messages := h.contribution (h.labelled settings factory) "messages" }) := by
  have rulesCall : (h.filled factory, settings.rulesMethod) ∈ h.calls settings factory :=
    .head _
  have labelsCall : (h.ruled settings factory, "attributes") ∈ h.calls settings factory :=
    .tail _ (.head _)
  have messagesCall : (h.labelled settings factory, "messages") ∈ h.calls settings factory :=
    .tail _ (.tail _ (.head _))
  have kept {call} (asked : call ∈ h.calls settings factory) :
      (h.entries call.1 call.2).valuesAt (h.exhausted settings factory) =
        h.contribution call.1 call.2 :=
    Entries.valuesAt_congr (contained.kept call asked)
  obtain ⟨population, warned, fills⟩ := populate_gives (r := r) contained.populated h.metadata
  obtain ⟨labels, labelled, labels_given⟩ := optionalEntries_gives (r := r)
    (contained.raised _ labelsCall) (contained.copied _ labelsCall) h.metadata
  obtain ⟨messages, worded, messages_given⟩ := optionalEntries_gives (r := r)
    (contained.raised _ messagesCall) (contained.copied _ messagesCall) h.metadata
  refine ⟨population, labels, messages, warned, labelled, worded, ?_⟩
  rw [← kept rulesCall, ← kept labelsCall, ← kept messagesCall, ← List.append_nil messages]
  unfold byReflection
  simp only [made]
  refine fills.bind ?_
  simp only [returns, copy_of_returned returns (contained.copied _ rulesCall)]
  exact labels_given.bind (messages_given.bind (gives_pure _))

theorem byReflection_gives (r : Registry) (contained : h.Contained settings factory) :
    ∃ resolution reported, ByObject settings factory h r resolution reported ∧
      (byReflection settings factory h).Gives r reported resolution := by
  cases made : h.behaviour.create with
  | error e =>
    obtain ⟨d, error, gives⟩ : ∃ d, d.Is .error "anonymous_instantiation_error" ∧
        (byReflection settings factory h).Gives r [d] none :=
      byReflection_of_unmade made (contained.made e made)
    exact ⟨none, [d], .unmade made error, gives⟩
  | ok _ =>
    have rules : (h.filled factory, settings.rulesMethod) ∈ h.calls settings factory :=
      List.mem_cons_self
    cases ended : h.invoke (h.filled factory) settings.rulesMethod with
    | error e =>
      have raised : h.failure? (h.filled factory) settings.rulesMethod = some e := by
        rw [Handle.failure?, ended]
      obtain ⟨population, d, populated, error, gives⟩ := byReflection_of_raised (r := r) made
        contained.populated ended (contained.raised _ rules e ended)
      exact ⟨_, _, .voided made populated raised error gives,
        gives h.behaviour ⟨rfl, rfl, rfl, fun _ => rfl, fun _ => rfl⟩⟩
    | ok returned =>
      have unraised : h.failure? (h.filled factory) settings.rulesMethod = none := by
        rw [Handle.failure?, ended]
      obtain ⟨population, labels, messages, populated, labelled, worded, gives⟩ :=
        byReflection_of_returned (r := r) made ended contained
      exact ⟨_, _, .gathered made populated unraised labelled worded, gives⟩

/-! ## Both stages -/

/-- Two handles name the same class and the same lines. -/
structure Handle.SamePlace (h' h : Handle) : Prop where
  name : h'.name = h.name
  file : h'.file = h.file
  startLine : h'.startLine = h.startLine
  endLine : h'.endLine = h.endLine

/-- Reading the source of a class needs nothing else of its handle. -/
theorem fromSource_of_samePlace {h' : Handle} (same : h'.SamePlace h) (conditional : Bool) :
    fromSource settings h' conditional = fromSource settings h conditional := by
  unfold fromSource locate
  rw [same.name, same.file, same.startLine, same.endLine]

/-- The rules that the source of a class states; a class without the method states none. -/
def statedRules (settings : Settings) (label : String) (c : ClassBody) : Logged RuleSet :=
  match c.method? settings.rulesMethod with
  | none => return .empty
  | some m => methodRules label c settings.helperDepth m

theorem statedRules_stopsAtNumber (settings : Settings) (label : String) (c : ClassBody) :
    StopsAtNumber (statedRules settings label c).outcome := by
  unfold statedRules
  split
  · exact stopsAtNumber_ok _
  · exact methodRules_stopsAtNumber label c _ _

def readFrom (c : ClassBody) (rules : RuleSet) : Resolution :=
  { strategy := .source
    rules
    labels := textsOf c "attributes"
    messages := textsOf c "messages" }

section

variable {label : String} {c : ClassBody}

/-- The source of a class that is found is read as far as its rules. -/
theorem run_fromSource_of_found (found : (locate h).Gives r [] (some (label, c))) :
    (fromSource settings h false).run false r =
      (do return some (readFrom c (← statedRules settings label c)) :
        Analysis (Option Resolution)).run false r := by
  unfold Gives at found
  unfold fromSource statedRules
  rw [run_sequence, found]
  simp only [List.nil_append]
  cases c.method? settings.rulesMethod with
  | none => rfl
  | some m => rfl

theorem fromSource_gives {rules : RuleSet} (found : (locate h).Gives r [] (some (label, c)))
    (read : (statedRules settings label c).outcome = .ok rules) :
    (fromSource settings h false).Gives r (statedRules settings label c).events
      (some (readFrom c rules)) := by
  have answer := (gives_logged (r := r) read).map fun rules => some (readFrom c rules)
  exact (run_fromSource_of_found found).trans answer

/-- What is read from the source is all that there is to do. -/
theorem resolve_of_source {resolution : Resolution} {reported : List Diagnostic}
    (read : (fromSource settings h false).Gives r reported (some resolution)) :
    (resolve settings factory h false).Gives r reported resolution := by
  unfold Gives at read ⊢
  unfold resolve
  rw [run_sequence, read]
  simp only [pure, Pure.pure, run, List.append_nil]

/-- Where nothing is read from the source, an object is asked. -/
theorem resolve_of_object {object : Option Resolution} {before behind : List Diagnostic}
    (nothing : (fromSource settings h false).Gives r before none)
    (answers : (byReflection settings factory h).Gives r behind object) :
    (resolve settings factory h false).Gives r (before ++ behind)
      (object.getD { strategy := .none }) := by
  unfold resolve
  refine nothing.bind ?_
  rw [← List.append_nil behind]
  refine answers.bind ?_
  cases object with
  | none => exact gives_pure _
  | some resolution => exact gives_pure resolution

end

/-- What resolving a class gives and reports. -/
inductive Resolved (settings : Settings) (factory : RequestFactory) (h : Handle) (r : Registry) :
    Resolution → List Diagnostic → Prop
  /-- the class is found in its source, and nothing is asked of an object -/
  | bySource {label c rules} (found : h.located? r = some (label, c))
      (read : (statedRules settings label c).outcome = .ok rules)
      (unasked : ∀ factory' h', h'.SamePlace h →
        (resolve settings factory' h' false).Gives r (statedRules settings label c).events
          (readFrom c rules)) :
      Resolved settings factory h r (readFrom c rules) (statedRules settings label c).events
  /-- one failure of the source is reported, and an object is asked -/
  | byObject {d object rest} (absent : h.located? r = none) (failure : IsSourceFailure d)
      (asked : ByObject settings factory h r object rest) :
      Resolved settings factory h r (object.getD { strategy := .none }) (d :: rest)

/-- A class whose source is there can be resolved only if its rules can be read: a fault of them
is the end. -/
theorem resolve_of_unreadable {label : String} {c : ClassBody} {fault : Fault}
    (usable : ∀ file, h.file = some file → '\x00' ∉ file.toList)
    (found : h.located? r = some (label, c))
    (unreadable : (statedRules settings label c).outcome = .error fault) :
    ((resolve settings factory h false).run false r).result = .error (.fault fault) := by
  rcases locate_finds (r := r) usable with ⟨-, gives⟩ | ⟨absent, -⟩
  · rw [found] at gives
    have faults : (fromSource settings h false).run false r =
        ⟨r, (statedRules settings label c).events, .error (.fault fault)⟩ := by
      rw [run_fromSource_of_found gives, run_sequence, run_logged, unreadable]
      rfl
    unfold resolve
    rw [run_sequence, faults]
  · rw [found] at absent
    cases absent

/-- Whatever fails, a class is resolved, unless a number in its source cannot be converted or an
object that is asked does more than fail. What is given and reported is told by the class and the
place where it fails. -/
theorem resolve_isolates (settings : Settings) (factory : RequestFactory) {h : Handle}
    {r : Registry} (usable : ∀ file, h.file = some file → '\x00' ∉ file.toList)
    (bounded : ∀ label c fault, h.located? r = some (label, c) →
      (statedRules settings label c).outcome = .error fault → fault.ofNumber = false)
    (contained : h.located? r = none → h.Contained settings factory) :
    ∃ resolution reported, Resolved settings factory h r resolution reported ∧
      (resolve settings factory h false).Gives r reported resolution := by
  rcases locate_finds (r := r) usable with ⟨found, gives⟩ | ⟨absent, d, failure, gives⟩
  · obtain ⟨⟨label, c⟩, place⟩ := Option.isSome_iff_exists.mp found
    obtain ⟨rules, read⟩ : ∃ rules, (statedRules settings label c).outcome = .ok rules := by
      cases read : (statedRules settings label c).outcome with
      | ok rules => exact ⟨rules, rfl⟩
      | error fault =>
        have number := statedRules_stopsAtNumber settings label c fault read
        rw [bounded label c fault place read] at number
        cases number
    rw [place] at gives
    have source := fromSource_gives gives read
    refine ⟨_, _, .bySource place read fun factory' h' same => ?_, resolve_of_source source⟩
    refine resolve_of_source ?_
    rw [fromSource_of_samePlace same]
    exact source
  · obtain ⟨object, rest, asked, answers⟩ := byReflection_gives r (contained absent)
    refine ⟨_, _, .byObject absent failure asked, ?_⟩
    exact resolve_of_object (gives.bind (gives_pure none)) answers

def classFile (rules : String) : Registry :=
  { files := .ofList [("c.php",
      "new class\x7bfunction rules()\x7breturn['f'=>" ++ rules ++ "];\x7d\x7d\n")] }

def brokenObject : Handle :=
  { name := "C", file := some "c.php", startLine := some 1, endLine := some 1
    behaviour := { create := .error ⟨"RuntimeError", "closed", true⟩ } }

def noisyMethod : String → Except Raised Returned
  | "rules" => .ok (.dictionary [(.text "f", fun _ => .text "required")])
  | "attributes" => .error ⟨"RuntimeError", "labels", true⟩
  | _ => .ok .other

/-- A class without a file, whose rules are there although its request cannot be set and its
labels fail. -/
def noisyObject : Handle :=
  { name := "C"
    behaviour :=
      { hasMethod := fun _ _ => true
        hasRequest := fun _ => true
        populate := fun _ => .error ⟨"RuntimeError", "locked", true⟩
        invoke := fun _ => noisyMethod } }

theorem contained_noisyObject : noisyObject.Contained {} (.ok .null) where
  made := fun e raised => by cases raised
  populated := fun e raised => by cases raised; rfl
  raised := by
    refine Handle.forall_calls.mpr ⟨fun e raised => ?_, fun e raised => ?_, fun e raised => ?_⟩ <;>
      cases raised
    rfl
  copied := by
    refine Handle.forall_calls.mpr ⟨fun e gone => ?_, fun e gone => ?_, fun e gone => ?_⟩ <;>
      cases gone
  kept := by
    refine Handle.forall_calls.mpr ⟨List.forall_mem_singleton.mpr rfl, ?_, ?_⟩ <;>
      exact fun entry member => absurd member List.not_mem_nil

/-- The first class is read from its source, and an object of the second one is asked. -/
theorem noisyObject_isolated :
    (∃ resolution reported,
      Resolved {} (.ok .null) brokenObject (classFile "'min:1'") resolution reported ∧
        resolution.strategy = .source ∧ resolution.rules.keys = [.text "f"] ∧
        reported.map (·.isError) = []) ∧
    ∃ resolution reported,
      Resolved {} (.ok .null) noisyObject {} resolution reported ∧
        resolution.strategy = .reflection ∧ resolution.rules.keys = [.text "f"] ∧
        reported.map (·.isError) = [false, false, false] := by
  have placed : (brokenObject.located? (classFile "'min:1'")).any (fun place =>
      (statedRules {} place.1 place.2).outcome.toOption.isSome) = true := by decide +kernel
  have unplaced : noisyObject.located? {} = none := rfl
  constructor
  · obtain ⟨resolution, reported, resolved, gives⟩ :=
      resolve_isolates {} (.ok .null) (h := brokenObject) (r := classFile "'min:1'")
        (fun file named => by cases named; decide)
        (fun label c fault found read => by
          rw [found] at placed
          simp [read, Except.toOption] at placed)
        (fun absent => by
          rw [absent] at placed
          cases placed)
    have answer := gives.checked (p := fun resolution =>
      resolution.strategy = .source ∧ resolution.rules.keys = [.text "f"]) (by decide +kernel)
    have quiet : ((resolve {} (.ok .null) brokenObject false).run false
        (classFile "'min:1'")).reported.map (·.isError) = [] := by decide +kernel
    rw [gives] at quiet
    exact ⟨resolution, reported, resolved, answer.1, answer.2, quiet⟩
  · obtain ⟨resolution, reported, resolved, gives⟩ :=
      resolve_isolates {} (.ok .null) (h := noisyObject) (r := {})
        (fun file named => by cases named)
        (fun label c fault found => by
          rw [unplaced] at found
          cases found)
        (fun _ => contained_noisyObject)
    have answer := gives.checked (p := fun resolution =>
      resolution.strategy = .reflection ∧ resolution.rules.keys = [.text "f"]) (by decide +kernel)
    have warned : ((resolve {} (.ok .null) noisyObject false).run false {}).reported.map
        (·.isError) = [false, false, false] := by decide +kernel
    rw [gives] at warned
    exact ⟨resolution, reported, resolved, answer.1, answer.2, warned⟩

def endsWith {α : Type} (fault : Fault) : Except Fault α → Bool
  | .error e => e = fault
  | .ok _ => false

/-- A size without end in the rules of a class stops the whole resolution, although an object
of the class could be asked. -/
theorem endlessSize_unresolved :
    ((resolve {} (.ok .null) { brokenObject with behaviour := {} } false).run false
      (classFile "File::image()->max(1e999)")).result = .error (.fault .infiniteInteger) := by
  have placed : (Handle.located? (classFile "File::image()->max(1e999)")
      { brokenObject with behaviour := {} }).any (fun place =>
        endsWith .infiniteInteger (statedRules {} place.1 place.2).outcome) = true := by
    decide +kernel
  obtain ⟨⟨label, c⟩, found, ends⟩ := (Option.any_eq_true _ _).mp placed
  refine resolve_of_unreadable (fun file named => by cases named; decide) found ?_
  unfold endsWith at ends
  split at ends
  · rename_i fault unreadable
    rw [unreadable, of_decide_eq_true ends]
  · cases ends

end Anonymous

end RequestSchema
