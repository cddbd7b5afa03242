import RequestSchema.Proofs.Analysis.Leaves
import RequestSchema.Proofs.Outcome
import RequestSchema.Proofs.Text.Trim

/-!
# Searching for classes

A look-up of a class that is neither known nor searched for yet reads the file of the class, and
everything that the file declares becomes known. What a look-up is answered and what it leaves is
told by the registry (`Registry.answer`, `Registry.after`, `run_enumeration?`).

A registry is coherent when whatever such a file declares is what a look-up of it is answered
anyway. Then no look-up changes the answer to another one (`Registry.Follows.after`).
-/
namespace RequestSchema

open RequestSchema.Source RequestSchema.Text

namespace Registry

/-! ## What a look-up is answered -/

/-- The file of a class, if the search for it finds one. -/
def fileOf? (r : Registry) (name : String) : Option (Path × String) :=
  (r.declaringFile? name).toOption.join

def source? (r : Registry) (name : String) : Option SourceTree :=
  (r.fileOf? name).bind fun file => (r.parse file.2).toOption

/-- The report on a file that cannot be parsed. -/
def unreadable (path : Path) (problem : SyntaxFault) : Diagnostic :=
  ⟨.error, Source.context, "Failed to parse PHP source: " ++ problem.message,
    .ofList [("error_type", .text "parse_error"), ("file_path", .text path.text)]⟩

/-- The answer to a look-up of a class that is not known, from its file. -/
def search (strict : Bool) (r : Registry) (name : String) : Except Stop (Option Enumeration) :=
  match r.declaringFile? name with
  | .error fault => .error (.fault fault)
  | .ok none => .ok none
  | .ok (some (path, text)) => match r.parse text with
    | .error problem => if strict then .error (.halted (unreadable path problem)) else .ok none
    | .ok tree => .ok (OrderedMap.find? name (writes tree).reverse)

/-- The answer to a look-up of a class. -/
def answer (strict : Bool) (r : Registry) (name : String) : Except Stop (Option Enumeration) :=
  match r.known.get? name with
  | some e => .ok (some e)
  | none => if r.searched.contains name then .ok none else r.search strict name

/-- The directories and the files decide in which file a class is declared. -/
theorem declaringFile?_congr {r r' : Registry} (roots : r.roots = r'.roots)
    (files : r.files = r'.files) (name : String) :
    r.declaringFile? name = r'.declaringFile? name := by
  have each : ∀ entries, r.firstFile? name entries = r'.firstFile? name entries := fun entries => by
    induction entries with
    | nil => rfl
    | cons root rest ih => rw [firstFile?, firstFile?, ih, fileIn?, fileIn?, files]
  rw [declaringFile?, declaringFile?, roots, each]

/-- With the parser they decide what a search finds. -/
theorem search_congr (r r' : Registry) (roots : r.roots = r'.roots) (files : r.files = r'.files)
    (parse : r.parse = r'.parse) (strict : Bool) (name : String) :
    r.search strict name = r'.search strict name := by
  unfold search
  rw [declaringFile?_congr roots files, parse]

/-- The registry in which a class has been searched for. -/
def seek (r : Registry) (name : String) : Registry := { r with searched := name :: r.searched }

/-- The registry behind a look-up of a class. -/
def after (r : Registry) (name : String) : Registry :=
  if (r.known.get? name).isSome || r.searched.contains name then r
  else match r.source? name with
    | none => r.seek name
    | some tree => (r.seek name).registerTree tree

end Registry

/-- What a look-up does with the file of a class that is not known: it takes the file in, unless
that cannot be parsed. -/
theorem run_readFile (strict : Bool) (r : Registry) (path : Path) (text name : String)
    (unknown : r.known.get? name = none) :
    let a : Analysis (Option Enumeration) := do
      match ← Analysis.parse text (some path.text) with
      | none => return (← Analysis.registry).known.get? name
      | some tree =>
          let _ ← Analysis.registerTree tree
          return (← Analysis.registry).known.get? name
    (a.run strict r).result = (match r.parse text with
        | .error problem =>
            if strict then .error (.halted (Registry.unreadable path problem)) else .ok none
        | .ok tree => .ok (OrderedMap.find? name (Registry.writes tree).reverse)) ∧
      (a.run strict r).registry = match r.parse text with
        | .error _ => r
        | .ok tree => r.registerTree tree := by
  simp only
  unfold Analysis.parse
  rw [Analysis.run_sequence, Analysis.run_sequence]
  simp only [Analysis.registry, Analysis.run]
  cases r.parse text with
  | error problem =>
    cases strict with
    | true => exact ⟨rfl, rfl⟩
    | false => exact ⟨congrArg Except.ok unknown, rfl⟩
  | ok tree =>
    have learned : (r.registerTree tree).known.get? name =
        OrderedMap.find? name (Registry.writes tree).reverse := by
      rw [Registry.get?_registerTree, unknown, Option.or_none]
    exact ⟨congrArg Except.ok learned, rfl⟩

/-- A look-up is answered by the registry, and leaves the registry behind it. -/
theorem run_enumeration? (strict : Bool) (r : Registry) (name : String) :
    ((Analysis.enumeration? name).run strict r).result = r.answer strict (trimChar '\\' name) ∧
      ((Analysis.enumeration? name).run strict r).registry = r.after (trimChar '\\' name) := by
  unfold Analysis.enumeration?
  generalize trimChar '\\' name = name
  rw [Analysis.run_sequence]
  simp only [Analysis.registry, Analysis.run]
  unfold Registry.answer Registry.after Registry.search Registry.source? Registry.fileOf?
  cases unknown : r.known.get? name with
  | some e => exact ⟨rfl, rfl⟩
  | none =>
    simp only
    split
    · rename_i searched
      simp only [searched]
      exact ⟨rfl, rfl⟩
    · rename_i unsearched
      simp only [unsearched, Option.isSome_none, Bool.or_self, Bool.false_eq_true, if_false]
      cases r.declaringFile? name with
      | error fault => exact ⟨rfl, rfl⟩
      | ok file? =>
        cases file? with
        | none => exact ⟨rfl, rfl⟩
        | some found =>
          obtain ⟨path, text⟩ := found
          obtain ⟨result, registry⟩ := run_readFile strict (r.seek name) path text name unknown
          refine ⟨result, registry.trans ?_⟩
          change (match r.parse text with
            | .error _ => r.seek name
            | .ok tree => (r.seek name).registerTree tree) = match (r.parse text).toOption with
            | none => r.seek name
            | some tree => (r.seek name).registerTree tree
          cases r.parse text <;> rfl

namespace Registry

variable {strict : Bool} {r r₀ : Registry} {name other : String} {e : Enumeration}

/-! ## What a source declares -/

theorem mem_keys_of_written {tree : SourceTree}
    (declared : OrderedMap.find? name (writes tree).reverse = some e) :
    name ∈ (writes tree).map Prod.fst := by
  rw [← List.mem_reverse, ← List.map_reverse, ← OrderedMap.isSome_find?, declared]
  rfl

/-- Enumerations become known under trimmed names. -/
theorem trimmed_of_written {tree : SourceTree}
    (declared : OrderedMap.find? name (writes tree).reverse = some e) :
    trimChar '\\' name = name := by
  have key := mem_keys_of_written declared
  rw [writes, List.map_map] at key
  obtain ⟨declaration, -, rfl⟩ := List.mem_map.mp key
  exact trimChar_trimChar '\\' declaration.name

/-! ## Coherent registries -/

/-- A look-up of a class takes in a source. -/
structure Reads (r : Registry) (name : String) (tree : SourceTree) : Prop where
  trimmed : trimChar '\\' name = name
  unknown : r.known.get? name = none
  unsearched : r.searched.contains name = false
  source : r.source? name = some tree

/-- What a look-up can make known is what a look-up of it is answered anyway. -/
def Coherent (r : Registry) : Prop :=
  ∀ name tree, r.Reads name tree →
    ∀ other e, OrderedMap.find? other (writes tree).reverse = some e →
      r.answer false other = .ok (some e)

theorem declaringFile?_of_fileOf? {file : Path × String} (found : r.fileOf? name = some file) :
    r.declaringFile? name = .ok (some file) := by
  unfold fileOf? at found
  cases searched : r.declaringFile? name with
  | error fault =>
    rw [searched] at found
    cases found
  | ok file? =>
    rw [searched] at found
    exact congrArg Except.ok found

/-- The file of a class decides what a look-up of it is answered. -/
theorem search_of_source {tree : SourceTree} (source : r.source? name = some tree) :
    r.search strict name = .ok (OrderedMap.find? name (writes tree).reverse) := by
  obtain ⟨⟨path, text⟩, file, parsed⟩ := Option.bind_eq_some_iff.mp source
  unfold search
  cases ended : r.parse text with
  | error problem =>
    simp only [ended] at parsed
    cases parsed
  | ok tree' =>
    simp only [ended] at parsed
    cases parsed
    simp only [declaringFile?_of_fileOf? file, ended]

/-- A class that is neither known nor searched for is searched for. -/
theorem answer_of_new (unknown : r.known.get? name = none)
    (unsearched : r.searched.contains name = false) :
    r.answer strict name = r.search strict name := by
  unfold answer
  simp only [unknown, unsearched, Bool.false_eq_true, if_false]

theorem answer_of_reads {tree : SourceTree} (reads : r.Reads name tree) :
    r.answer strict name = .ok (OrderedMap.find? name (writes tree).reverse) := by
  rw [answer_of_new reads.unknown reads.unsearched, search_of_source reads.source]

/-- Without a file that can be parsed, a search finds nothing, or stops a strict run. -/
theorem search_of_sourceless (sourceless : r.source? name = none) {found : Option Enumeration}
    (ends : r.search strict name = .ok found) : found = none := by
  unfold search at ends
  unfold source? fileOf? at sourceless
  cases searched : r.declaringFile? name with
  | error fault =>
    rw [searched] at ends
    cases ends
  | ok file? =>
    rw [searched] at ends sourceless
    cases file? with
    | none =>
      cases ends
      rfl
    | some located =>
      obtain ⟨path, text⟩ := located
      change (r.parse text).toOption = none at sourceless
      simp only at ends
      cases ended : r.parse text with
      | ok tree =>
        rw [ended] at sourceless
        cases sourceless
      | error problem =>
        rw [ended] at ends
        cases strict with
        | true => cases ends
        | false =>
          cases ends
          rfl

/-- An enumeration that is found leniently is found strictly. -/
theorem answer_strict (found : r.answer false name = .ok (some e)) :
    r.answer strict name = .ok (some e) := by
  unfold answer at found ⊢
  cases known : r.known.get? name with
  | some e' =>
    rw [known] at found
    exact found
  | none =>
    simp only [known] at found ⊢
    split at found
    · cases found
    · rename_i unsearched
      rw [if_neg unsearched]
      cases source : r.source? name with
      | none => cases search_of_sourceless source found
      | some tree =>
        rw [search_of_source source] at found ⊢
        exact found

/-- A search alone makes no other class known. -/
theorem answer_seek (r : Registry) (name other : String) :
    (r.seek name).answer strict other =
      if r.known.get? other = none ∧ other = name then .ok none else r.answer strict other := by
  have searches : (r.seek name).search strict other = r.search strict other :=
    search_congr (r.seek name) r rfl rfl rfl strict other
  unfold answer
  rw [searches]
  unfold seek
  cases known : r.known.get? other with
  | some e => simp
  | none =>
    by_cases same : other = name
    · simp [same]
    · have others : (name :: r.searched).contains other = r.searched.contains other := by
        simp [same]
      simp only [others, same, and_false, if_false]

/-- A source that is taken in answers for what it declares. -/
theorem answer_registerTree (r : Registry) (tree : SourceTree) (other : String) :
    (r.registerTree tree).answer strict other =
      match OrderedMap.find? other (writes tree).reverse with
      | some e => .ok (some e)
      | none => r.answer strict other := by
  have searches : (r.registerTree tree).search strict other = r.search strict other :=
    search_congr _ _ (by rw [registerTree_eq]) (by rw [registerTree_eq]) (by rw [registerTree_eq])
      strict other
  unfold answer
  rw [searches, get?_registerTree, registerTree_eq]
  cases OrderedMap.find? other (writes tree).reverse with
  | some e => rfl
  | none => rfl

/-! ## Where registries are coherent -/

/-- Without directories to search, no source is taken in. -/
theorem coherent_of_rootless (rootless : r.roots = .empty) : r.Coherent := by
  intro name tree reads
  have source := reads.source
  rw [source?, fileOf?, declaringFile?, rootless] at source
  cases source

/-- Whether every enumeration that one of the files declares is declared by the file of its own
name. -/
def conforming (r : Registry) : Bool :=
  r.files.entries.all fun (_, text) => match r.parse text with
    | .error _ => true
    | .ok tree => (writes tree).all fun (name, _) =>
        (r.fileOf? name).any fun file => file.2 = text

theorem mem_entries_of_findFrom {files : Files} {directory path : List String} {text : String}
    (found : files.findFrom directory path = .file text) : ∃ p, (p, text) ∈ files.entries := by
  induction path generalizing directory with
  | nil => cases found
  | cons segment rest ih =>
    unfold Files.findFrom at found
    simp only at found
    split at found
    · split at found
      · split at found <;> cases found
      · exact ih found
    · split at found
      · cases found
      · split at found
        · rename_i entry first
          split at found
          · cases found
            exact ⟨entry.1, List.mem_of_find?_eq_some first⟩
          · cases found
        · split at found
          · exact ih found
          · cases found

theorem mem_entries_of_find {files : Files} {path : Path} {text : String}
    (found : files.find path = .file text) : ∃ p, (p, text) ∈ files.entries := by
  unfold Files.find at found
  split at found
  · cases found
  · split at found
    · cases found
    · split at found
      · cases segments : path.segments with
        | nil =>
          rw [segments] at found
          cases found
        | cons segment rest =>
          rw [segments] at found
          simp only at found
          split at found <;> cases found
      · exact mem_entries_of_findFrom found

theorem mem_entries_of_fileIn? {space directory : String} {file : Path × String}
    (found : r.fileIn? name space directory = .ok (some file)) :
    ∃ p, (p, file.2) ∈ r.files.entries := by
  unfold fileIn? at found
  split at found
  · cases found
  · split at found
    · rename_i there
      cases found
      exact mem_entries_of_find there
    · cases found
    · cases found

theorem mem_entries_of_firstFile? {roots : List (String × String)} {file : Path × String}
    (found : r.firstFile? name roots = .ok (some file)) : ∃ p, (p, file.2) ∈ r.files.entries := by
  induction roots with
  | nil => cases found
  | cons root rest ih =>
    rw [firstFile?] at found
    obtain ⟨file?, here, found⟩ := exists_of_bind_ok found
    cases file? with
    | none => exact ih found
    | some own =>
      cases found
      exact mem_entries_of_fileIn? here

/-- A registry that knows nothing yet is coherent when its files conform. -/
theorem coherent_of_conforming (fresh : r.known = .empty) (unsearched : r.searched = [])
    (conforming : r.conforming = true) : r.Coherent := by
  intro name tree reads other e declared
  obtain ⟨⟨path, text⟩, file, parsed⟩ := Option.bind_eq_some_iff.mp reads.source
  obtain ⟨p, member⟩ := mem_entries_of_firstFile? (declaringFile?_of_fileOf? file)
  have own := List.all_eq_true.mp conforming (p, text) member
  cases ended : r.parse text with
  | error problem =>
    simp only [ended] at parsed
    cases parsed
  | ok tree' =>
    simp only [ended] at parsed own
    cases parsed
    obtain ⟨entry, written, rfl⟩ := List.mem_map.mp (mem_keys_of_written declared)
    have located := List.all_eq_true.mp own entry written
    rw [Option.any_eq_true] at located
    obtain ⟨file', there, same⟩ := located
    have source : r.source? entry.1 = some tree := by
      rw [source?, there, Option.bind_some, of_decide_eq_true same, ended]
      rfl
    have unknown : r.known.get? entry.1 = none := by
      rw [fresh]
      rfl
    have unasked : r.searched.contains entry.1 = false := by rw [unsearched, List.contains_nil]
    rw [answer_of_new unknown unasked, search_of_source source, declared]

/-! ## Registries behind look-ups -/

/-- A registry that look-ups have left: no look-up is answered otherwise than at the start. -/
structure Follows (strict : Bool) (r₀ r : Registry) : Prop where
  roots : r.roots = r₀.roots
  files : r.files = r₀.files
  parse : r.parse = r₀.parse
  known : ∀ name, r.known.get? name = none → r₀.known.get? name = none
  searched : ∀ name, r.searched.contains name = false → r₀.searched.contains name = false
  answer : ∀ name, r.answer strict name = r₀.answer strict name

theorem Follows.refl (strict : Bool) (r : Registry) : Follows strict r r :=
  ⟨rfl, rfl, rfl, fun _ => id, fun _ => id, fun _ => rfl⟩

/-- A source that is taken in later would have been taken in at the start. -/
theorem Follows.reads {tree : SourceTree} (follows : Follows strict r₀ r)
    (reads : r.Reads name tree) : r₀.Reads name tree where
  trimmed := reads.trimmed
  unknown := follows.known name reads.unknown
  unsearched := follows.searched name reads.unsearched
  source := by
    rw [← reads.source]
    unfold source? fileOf?
    rw [declaringFile?_congr follows.roots follows.files, follows.parse]

theorem Follows.seek (follows : Follows strict r₀ r) (found : r.answer strict name = .ok none) :
    Follows strict r₀ (r.seek name) where
  roots := follows.roots
  files := follows.files
  parse := follows.parse
  known := follows.known
  searched other absent := follows.searched other (by
    simp only [Registry.seek, List.contains_cons, Bool.or_eq_false_iff] at absent
    exact absent.2)
  answer other := by
    rw [answer_seek]
    split
    · rename_i same
      rw [same.2, ← follows.answer, found]
    · exact follows.answer other

/-- Taking in a source, nothing is learned that was not to be found at the start. -/
theorem Follows.read {tree : SourceTree} (coherent : r₀.Coherent) (follows : Follows strict r₀ r)
    (reads : r.Reads name tree) : Follows strict r₀ ((r.seek name).registerTree tree) where
  roots := by
    rw [registerTree_eq]
    exact follows.roots
  files := by
    rw [registerTree_eq]
    exact follows.files
  parse := by
    rw [registerTree_eq]
    exact follows.parse
  known other unknown := by
    rw [get?_registerTree, Option.or_eq_none_iff] at unknown
    exact follows.known other unknown.2
  searched other absent := by
    rw [registerTree_eq] at absent
    simp only [Registry.seek, List.contains_cons, Bool.or_eq_false_iff] at absent
    exact follows.searched other absent.2
  answer other := by
    rw [answer_registerTree]
    cases declared : OrderedMap.find? other (writes tree).reverse with
    | some e =>
      have found := coherent name tree (follows.reads reads) other e declared
      exact (answer_strict found).symm
    | none =>
      simp only
      rw [answer_seek]
      split
      · rename_i same
        rw [same.2, ← follows.answer, answer_of_reads reads, ← same.2, declared]
      · exact follows.answer other

/-- In a coherent registry, a look-up changes the answer to no other one. -/
theorem Follows.after {found : Option Enumeration} (coherent : r₀.Coherent)
    (follows : Follows strict r₀ r) (trimmed : trimChar '\\' name = name)
    (ends : r.answer strict name = .ok found) : Follows strict r₀ (r.after name) := by
  unfold Registry.after
  split
  · exact follows
  · rename_i new
    simp only [Bool.or_eq_true, not_or, Bool.not_eq_true, Option.isSome_eq_false_iff,
      Option.isNone_iff_eq_none] at new
    cases source : r.source? name with
    | none =>
      have searches : r.search strict name = .ok found := answer_of_new new.1 new.2 ▸ ends
      exact follows.seek (search_of_sourceless source searches ▸ ends)
    | some tree => exact follows.read coherent ⟨trimmed, new.1, new.2, source⟩

end Registry

end RequestSchema
