import RequestSchema.Enumeration.Reference
import RequestSchema.Proofs.Analysis.Alike

/-!
# Looking enumerations up

Without directories to search, the enumeration that a token stands for is told by the
known enumerations (`referent?`, `lookUp_settles`), and only by those with a few names,
which the token and the names in scope determine (`EnumReference.consulted`,
`referent?_congr`).
-/
namespace RequestSchema

open RequestSchema.Text

/-- A search finds no file, so nothing becomes known by it. -/
theorem enumeration?_settles (name : String) :
    (Analysis.enumeration? name).Settles fun known => known.get? (trimChar '\\' name) := by
  intro strict r rootless
  have nowhere : r.declaringFile? (trimChar '\\' name) = .ok none := by
    rw [Registry.declaringFile?, rootless]
    rfl
  unfold Analysis.enumeration?
  rw [Analysis.run_sequence]
  simp only [Analysis.registry, Analysis.run]
  cases found : r.known.get? (trimChar '\\' name) with
  | some e => exact ⟨_, _, rfl⟩
  | none =>
    simp only
    split
    · exact ⟨_, _, rfl⟩
    · rw [nowhere]
      exact ⟨_, _, rfl⟩

namespace EnumReference

variable (space : Option String) (aliases : OrderedMap String String)

/-- The class behind a name when nothing has to be looked for: the name itself if it is
qualified or an alias leads to it. -/
def qualified? (name : String) : Option String :=
  if name.toList.head? = some '\\' then some (trimChar '\\' name)
  else
    let parts := (cut? '\\' name).getD (name, "")
    (aliases.get? parts.1).map fun full => if parts.2.isEmpty then full else full ++ "\\" ++ parts.2

def local? (name : String) : Option String :=
  (space.filter (!·.isEmpty)).map fun space => trimChar '\\' space ++ "\\" ++ name

/-- The class that a name stands for when some enumerations are known. -/
def classOf (known : OrderedMap String Enumeration) (name : String) : String :=
  let name := bareName name
  match qualified? aliases name with
  | some full => full
  | none =>
      if (known.get? (trimChar '\\' name)).isSome then name
      else match local? space name with
        | none => name
        | some candidate =>
            if !name.toList.contains '\\' || (known.get? (trimChar '\\' candidate)).isSome then
              candidate
            else name

def referent? (known : OrderedMap String Enumeration) (token : Token) : Option Enumeration :=
  (ofToken? token).bind fun name =>
    known.get? (trimChar '\\' (classOf space aliases known name))

/-- The classes that a name may stand for. -/
def candidates (name : String) : List String :=
  match qualified? aliases (bareName name) with
  | some full => [full]
  | none => bareName name :: (local? space (bareName name)).toList

/-- The names of the enumerations that a token may stand for. -/
def consulted (token : Token) : List String :=
  match ofToken? token with
  | none => []
  | some name => (candidates space aliases name).map (trimChar '\\')

variable {space aliases}

/-- A name that is no known enumeration belongs to the namespace if it has one segment or is
known there. -/
theorem resolve_settles (name : String) :
    (resolve name space aliases).Settles fun known => classOf space aliases known name := by
  unfold resolve classOf qualified? local?
  simp only
  generalize bareName name = name
  split
  · exact Analysis.settles_pure _
  · cases aliases.get? ((cut? '\\' name).getD (name, "")).1 with
    | some full =>
      simp only [Option.map_some]
      split
      · exact Analysis.settles_pure _
      · exact Analysis.settles_pure _
    | none =>
      simp only [Option.map_none]
      refine (enumeration?_settles name).bind (fun e known => if e.isSome then name else
        match (space.filter (!·.isEmpty)).map fun space =>
            trimChar '\\' space ++ "\\" ++ name with
          | none => name
          | some candidate =>
              if !name.toList.contains '\\' || (known.get? (trimChar '\\' candidate)).isSome then
                candidate
              else name) fun e => ?_
      cases e with
      | some e => exact Analysis.settles_pure name
      | none =>
        cases space.filter (!·.isEmpty) with
        | none => exact Analysis.settles_pure name
        | some space =>
          simp only [Option.isSome_none, Bool.false_eq_true, if_false, Option.map_some]
          split
          · rename_i simple
            simp only [simple, Bool.true_or, if_true]
            exact Analysis.settles_pure _
          · rename_i segmented
            simp only [segmented, Bool.false_or]
            refine (enumeration?_settles _).bind (fun e _ => if e.isSome then
              trimChar '\\' space ++ "\\" ++ name else name) fun e => ?_
            cases e with
            | some e => exact Analysis.settles_pure _
            | none => exact Analysis.settles_pure _

theorem lookUp_settles (token : Token) :
    (lookUp space aliases token).Settles fun known => referent? space aliases known token := by
  unfold lookUp referent?
  cases ofToken? token with
  | none => exact Analysis.settles_pure none
  | some name => exact (resolve_settles name).bind _ fun full => enumeration?_settles full

/-- The first token that stands for an enumeration decides. -/
theorem first?_settles (tokens : List Token) :
    (first? space aliases tokens).Settles fun known =>
      tokens.findSome? (referent? space aliases known) := by
  induction tokens with
  | nil => exact Analysis.settles_pure none
  | cons token rest ih =>
    have looked : (lookUp space aliases token).Settles fun known =>
        referent? space aliases known token := lookUp_settles token
    rw [first?]
    refine (looked.bind (fun found known => found.or (rest.findSome?
      (referent? space aliases known))) fun found => ?_).of_eq fun known => ?_
    · cases found with
      | some e => exact Analysis.settles_pure (some e)
      | none => exact ih
    · rw [List.findSome?_cons]
      cases referent? space aliases known token with
      | some e => rw [Option.some_or]
      | none => rw [Option.none_or]

/-! ## The names that matter -/

/-- Where the enumerations that a token may stand for are the same, it stands for the same
one. -/
theorem referent?_congr {known known' : OrderedMap String Enumeration} {token : Token}
    (same : ∀ name ∈ consulted space aliases token, known.get? name = known'.get? name) :
    referent? space aliases known token = referent? space aliases known' token := by
  unfold referent? classOf
  unfold consulted candidates at same
  cases named : ofToken? token with
  | none => rw [Option.bind_none, Option.bind_none]
  | some name =>
    rw [named] at same
    simp only [Option.bind_some] at same ⊢
    cases direct : qualified? aliases (bareName name) with
    | some full =>
      rw [direct] at same
      exact same _ List.mem_cons_self
    | none =>
      rw [direct] at same
      have bare := same (trimChar '\\' (bareName name)) List.mem_cons_self
      simp only [bare]
      split
      · exact bare
      · cases inside : local? space (bareName name) with
        | none => exact bare
        | some candidate =>
          have own := same (trimChar '\\' candidate) (by simp [inside])
          simp only [own]
          split
          · exact own
          · exact bare

/-- The first enumeration of some tokens is the same where those that each of them may
stand for are the same. -/
theorem findSome?_referent_congr {known known' : OrderedMap String Enumeration}
    {tokens : List Token} (same : ∀ token ∈ tokens, ∀ name ∈ consulted space aliases token,
      known.get? name = known'.get? name) :
    tokens.findSome? (referent? space aliases known) =
      tokens.findSome? (referent? space aliases known') := by
  induction tokens with
  | nil => rw [List.findSome?_nil, List.findSome?_nil]
  | cons token rest ih =>
    rw [List.findSome?_cons, List.findSome?_cons,
      referent?_congr (same token List.mem_cons_self),
      ih fun t member => same t (List.mem_cons_of_mem token member)]

end EnumReference

end RequestSchema
