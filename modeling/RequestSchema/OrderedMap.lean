
/-!
Maps that keep their keys in the order of first insertion. Writing to a key that is present changes
its value and not its place. The keys are distinct by construction, so a map is determined by the
order of its keys and the value at each of them.
-/
namespace RequestSchema

/-- A list of entries with distinct keys. -/
structure OrderedMap (κ α : Type) where
  entries : List (κ × α)
  distinct : (entries.map Prod.fst).Nodup
  deriving DecidableEq, Repr

namespace OrderedMap

variable {κ α β : Type} [DecidableEq κ]

def empty : OrderedMap κ α := ⟨[], .nil⟩

instance : Inhabited (OrderedMap κ α) := ⟨empty⟩

def keys (m : OrderedMap κ α) : List κ := m.entries.map Prod.fst

/-- The value at a key of a list of entries: the first one. -/
def find? (k : κ) : List (κ × α) → Option α
  | [] => none
  | (k', v) :: rest => if k' = k then some v else find? k rest

def get? (m : OrderedMap κ α) (k : κ) : Option α := find? k m.entries

def contains (m : OrderedMap κ α) (k : κ) : Bool := (m.get? k).isSome

/-- Replace the value at the first place of a key, or add the entry at the end. -/
def put (k : κ) (v : α) : List (κ × α) → List (κ × α)
  | [] => [(k, v)]
  | (k', v') :: rest => if k' = k then (k', v) :: rest else (k', v') :: put k v rest

theorem find?_put (k k' : κ) (v : α) (entries : List (κ × α)) :
    find? k' (put k v entries) = if k = k' then some v else find? k' entries := by
  induction entries with
  | nil => simp [put, find?]
  | cons entry rest ih =>
    obtain ⟨k₀, v₀⟩ := entry
    by_cases h : k₀ = k
    · subst h
      by_cases h' : k₀ = k' <;> simp [put, find?, h']
    · rw [put, if_neg h]
      by_cases h' : k₀ = k'
      · have other : k ≠ k' := fun equal => h (h'.trans equal.symm)
        simp [find?, h', other]
      · simp [find?, h', ih]

theorem keys_put (k : κ) (v : α) (entries : List (κ × α)) :
    (put k v entries).map Prod.fst =
      if k ∈ entries.map Prod.fst then entries.map Prod.fst else entries.map Prod.fst ++ [k] := by
  induction entries with
  | nil => simp [put]
  | cons entry rest ih =>
    obtain ⟨k₀, v₀⟩ := entry
    by_cases h : k₀ = k
    · simp [put, h]
    · simp only [put, if_neg h, List.map_cons, ih, List.mem_cons, Ne.symm h, false_or]
      split <;> simp_all

theorem isSome_find? (k : κ) (entries : List (κ × α)) :
    (find? k entries).isSome ↔ k ∈ entries.map Prod.fst := by
  induction entries with
  | nil => simp [find?]
  | cons entry rest ih =>
    obtain ⟨k₀, v₀⟩ := entry
    by_cases h : k₀ = k
    · simp [find?, h]
    · simp only [find?, if_neg h, ih, List.map_cons, List.mem_cons, Ne.symm h, false_or]

omit [DecidableEq κ] in
/-- Distinct keys stay distinct when a new one is added behind them. -/
theorem nodup_concat {keys : List κ} {k : κ} (distinct : keys.Nodup) (new : k ∉ keys) :
    (keys ++ [k]).Nodup := by
  refine List.nodup_append.mpr ⟨distinct, by simp, ?_⟩
  intro a member b single
  rw [List.mem_singleton.mp single]
  exact fun equal => new (equal ▸ member)

theorem distinct_put (k : κ) (v : α) (entries : List (κ × α))
    (distinct : (entries.map Prod.fst).Nodup) : ((put k v entries).map Prod.fst).Nodup := by
  rw [keys_put]
  split
  · exact distinct
  · exact nodup_concat distinct (by assumption)

def insert (m : OrderedMap κ α) (k : κ) (v : α) : OrderedMap κ α :=
  ⟨put k v m.entries, distinct_put k v m.entries m.distinct⟩

theorem contains_iff (m : OrderedMap κ α) (k : κ) : m.contains k ↔ k ∈ m.keys :=
  isSome_find? k m.entries

/-- The map with a value written to a key unless the key is present. -/
def insertNew (m : OrderedMap κ α) (k : κ) (v : α) : OrderedMap κ α :=
  if present : m.contains k then m
  else ⟨m.entries ++ [(k, v)], by
    rw [List.map_append]
    exact nodup_concat m.distinct fun member => present ((m.contains_iff k).mpr member)⟩

def erase (m : OrderedMap κ α) (k : κ) : OrderedMap κ α :=
  ⟨m.entries.filter fun entry => entry.1 ≠ k, m.distinct.sublist (List.filter_sublist.map _)⟩

def insertAll (m : OrderedMap κ α) (writes : List (κ × α)) : OrderedMap κ α :=
  writes.foldl (fun m entry => m.insert entry.1 entry.2) m

/-- The map after entries are written to it in order, each unless its key is present. -/
def insertAllNew (m : OrderedMap κ α) (writes : List (κ × α)) : OrderedMap κ α :=
  writes.foldl (fun m entry => m.insertNew entry.1 entry.2) m

/-- The map that results from writing the entries in order. -/
def ofList (entries : List (κ × α)) : OrderedMap κ α := empty.insertAll entries

/-- The map after all entries of another are written to it: the other's values win. -/
def update (m other : OrderedMap κ α) : OrderedMap κ α := m.insertAll other.entries

/-- The map with the entries of another whose keys it lacks: its own values win. -/
def union (m other : OrderedMap κ α) : OrderedMap κ α := m.insertAllNew other.entries

def mapValues (f : α → β) (m : OrderedMap κ α) : OrderedMap κ β :=
  ⟨m.entries.map fun entry => (entry.1, f entry.2), by simpa [Function.comp_def] using m.distinct⟩

/-- The map with a function applied to the value of a key; an absent key counts as `default`. -/
def modifyAt (m : OrderedMap κ α) (k : κ) (default : α) (f : α → α) : OrderedMap κ α :=
  m.insert k (f ((m.get? k).getD default))

/-- Reading after a write gives the written value at its key and the old one elsewhere. -/
theorem get?_insert (m : OrderedMap κ α) (k k' : κ) (v : α) :
    (m.insert k v).get? k' = if k = k' then some v else m.get? k' :=
  find?_put k k' v m.entries

/-- A write keeps the order of the keys and adds a new key at the end. -/
theorem keys_insert (m : OrderedMap κ α) (k : κ) (v : α) :
    (m.insert k v).keys = if k ∈ m.keys then m.keys else m.keys ++ [k] :=
  keys_put k v m.entries

end OrderedMap

end RequestSchema
