import Mathlib.Data.List.Basic
import RequestSchema.OrderedMap

/-!
# What writing to a map gives

The entries of a map after a series of writes are told by the writes alone: every key
stands where it is written first. Which of its values stays depends on the kind of
write.

* `entries_insertAll`: plain writes keep the value that is written last (`laterWins`);
* `entries_insertAllNew`: writes that spare present keys keep the first one
  (`earlierWins`);
* `keepKeys_insertAll`: writes to keys that are left out afterwards leave nothing.
-/
namespace RequestSchema.OrderedMap

variable {κ α : Type} [DecidableEq κ]

theorem find?_append (k : κ) (first second : List (κ × α)) :
    find? k (first ++ second) = (find? k first).or (find? k second) := by
  induction first with
  | nil => rfl
  | cons entry rest ih =>
    obtain ⟨k₀, v₀⟩ := entry
    by_cases h : k₀ = k
    · simp [find?, h]
    · simp [find?, h, ih]

theorem mem_of_find? {k : κ} {v : α} {entries : List (κ × α)} (found : find? k entries = some v) :
    (k, v) ∈ entries := by
  induction entries with
  | nil => cases found
  | cons entry rest ih =>
    rw [find?] at found
    split at found
    · rename_i same
      cases found
      rw [← same]
      exact List.mem_cons_self
    · exact List.mem_cons_of_mem entry (ih found)

/-- With distinct keys it does not matter from which end a value is looked up. -/
theorem find?_reverse (k : κ) {entries : List (κ × α)}
    (distinct : (entries.map Prod.fst).Nodup) : find? k entries.reverse = find? k entries := by
  induction entries with
  | nil => rfl
  | cons entry rest ih =>
    obtain ⟨k₀, v₀⟩ := entry
    obtain ⟨new, others⟩ := List.nodup_cons.mp distinct
    rw [List.reverse_cons, find?_append, ih others]
    by_cases h : k₀ = k
    · subst h
      have absent : find? k₀ rest = none :=
        Option.not_isSome_iff_eq_none.mp (mt (isSome_find? k₀ rest).mp new)
      simp [find?, absent]
    · simp [find?, h]

/-- Entries with distinct keys are told by the keys and the value at each of them. -/
theorem entries_eq_filterMap (entries : List (κ × α)) (distinct : (entries.map Prod.fst).Nodup) :
    entries = (entries.map Prod.fst).filterMap fun k => (find? k entries).map (k, ·) := by
  induction entries with
  | nil => rfl
  | cons entry rest ih =>
    obtain ⟨k, v⟩ := entry
    obtain ⟨new, others⟩ := List.nodup_cons.mp distinct
    have later : ∀ k' ∈ rest.map Prod.fst,
        ((find? k' ((k, v) :: rest)).map (k', ·)) = (find? k' rest).map (k', ·) := by
      intro k' member
      have other : k ≠ k' := fun equal => new (equal ▸ member)
      rw [find?, if_neg other]
    rw [List.map_cons, List.filterMap_cons, List.filterMap_congr later, ← ih others]
    simp [find?]

theorem filter_key_of_absent {k : κ} {entries : List (κ × α)}
    (absent : k ∉ entries.map Prod.fst) : (entries.filter fun entry => entry.1 = k) = [] :=
  List.filter_eq_nil_iff.mpr fun entry member same =>
    absent (List.mem_map.mpr ⟨entry, member, of_decide_eq_true same⟩)

/-- Among distinct keys at most one entry has a given one. -/
theorem filter_key (k : κ) {entries : List (κ × α)} (distinct : (entries.map Prod.fst).Nodup) :
    (entries.filter fun entry => entry.1 = k) = ((find? k entries).map (k, ·)).toList := by
  induction entries with
  | nil => rfl
  | cons entry rest ih =>
    obtain ⟨k₀, v₀⟩ := entry
    obtain ⟨new, others⟩ := List.nodup_cons.mp distinct
    by_cases h : k₀ = k
    · subst h
      simp [find?, filter_key_of_absent new]
    · simp [find?, h, ih others]

/-- A map is told by the order of its keys and the value at each of them. -/
theorem entries_eq (m : OrderedMap κ α) :
    m.entries = m.keys.filterMap fun k => (m.get? k).map (k, ·) :=
  entries_eq_filterMap m.entries m.distinct

/-- The value at a key is that of the one entry with the key. -/
theorem get?_of_mem {m : OrderedMap κ α} {k : κ} {v : α} (member : (k, v) ∈ m.entries) :
    m.get? k = some v := by
  have only : (k, v) ∈ m.entries.filter fun entry => entry.1 = k :=
    List.mem_filter.mpr ⟨member, decide_eq_true rfl⟩
  rw [filter_key k m.distinct, Option.mem_toList, Option.map_eq_some_iff] at only
  obtain ⟨v', found, same⟩ := only
  cases same
  exact found

theorem mem_of_get? {m : OrderedMap κ α} {k : κ} {v : α} (found : m.get? k = some v) :
    (k, v) ∈ m.entries :=
  mem_of_find? found

theorem get?_insertNew (m : OrderedMap κ α) (k k' : κ) (v : α) :
    (m.insertNew k v).get? k' = (m.get? k').or (if k = k' then some v else none) := by
  unfold insertNew
  split
  · rename_i present
    by_cases same : k = k'
    · subst same
      obtain ⟨old, found⟩ := Option.isSome_iff_exists.mp present
      rw [found, Option.some_or]
    · rw [if_neg same, Option.or_none]
  · exact find?_append k' m.entries [(k, v)]

/-- A key that is present keeps its place, a new one comes at the end. -/
theorem keys_insertNew (m : OrderedMap κ α) (k : κ) (v : α) :
    (m.insertNew k v).keys = if k ∈ m.keys then m.keys else m.keys ++ [k] := by
  unfold insertNew
  split
  · rename_i present
    rw [if_pos ((m.contains_iff k).mp present)]
  · rename_i absent
    rw [if_neg (mt (m.contains_iff k).mpr absent)]
    exact List.map_append

/-! ## Series of writes -/

/-- The entries that stay of some writes when later ones win: every key stands where it
is written first and has its last value. -/
def laterWins (writes : List (κ × α)) : List (κ × α) :=
  (writes.map Prod.fst).eraseDups.filterMap fun k => (find? k writes.reverse).map (k, ·)

/-- The entries that stay of some writes when earlier ones win: every key stands where it
is written first and has its first value. -/
def earlierWins (writes : List (κ × α)) : List (κ × α) :=
  (writes.map Prod.fst).eraseDups.filterMap fun k => (find? k writes).map (k, ·)

omit [DecidableEq κ] in
theorem eraseDups_of_nodup [BEq κ] [LawfulBEq κ] {keys : List κ} (distinct : keys.Nodup) :
    keys.eraseDups = keys := by
  induction keys with
  | nil => rfl
  | cons k rest ih =>
    obtain ⟨new, others⟩ := List.nodup_cons.mp distinct
    have apart : rest.filter (fun k' => !k' == k) = rest := by
      refine List.filter_eq_self.mpr fun k' member => ?_
      have other : k' ≠ k := fun equal => new (equal ▸ member)
      simp [other]
    rw [List.eraseDups_cons, apart, ih others]

omit [DecidableEq κ] in
/-- A key behind itself does not count. -/
theorem eraseDups_append_cons_of_mem [BEq κ] [LawfulBEq κ] {k : κ} {before : List κ}
    (present : k ∈ before) (behind : List κ) :
    (before ++ k :: behind).eraseDups = (before ++ behind).eraseDups := by
  rw [List.eraseDups_append, List.eraseDups_append, List.cons_removeAll]
  simp [present]

/-- One more key behind the distinct keys of a map, as a write leaves them. -/
theorem eraseDups_write (keys : List κ) (k : κ) (behind : List κ) :
    ((if k ∈ keys then keys else keys ++ [k]) ++ behind).eraseDups =
      (keys ++ k :: behind).eraseDups := by
  split
  · exact (eraseDups_append_cons_of_mem (by assumption) behind).symm
  · rw [List.append_assoc, List.singleton_append]

theorem keys_insertAll (m : OrderedMap κ α) (writes : List (κ × α)) :
    (m.insertAll writes).keys = (m.keys ++ writes.map Prod.fst).eraseDups := by
  induction writes generalizing m with
  | nil =>
    rw [List.map_nil, List.append_nil]
    exact (eraseDups_of_nodup m.distinct).symm
  | cons entry rest ih =>
    rw [insertAll, List.foldl_cons, ← insertAll, ih, keys_insert, eraseDups_write, List.map_cons]

theorem get?_insertAll (m : OrderedMap κ α) (writes : List (κ × α)) (k : κ) :
    (m.insertAll writes).get? k = (find? k writes.reverse).or (m.get? k) := by
  induction writes generalizing m with
  | nil => rfl
  | cons entry rest ih =>
    rw [insertAll, List.foldl_cons, ← insertAll, ih, get?_insert, List.reverse_cons, find?_append,
      Option.or_assoc]
    congr 1
    by_cases same : entry.1 = k <;> simp [find?, same]

/-- Every entry of a map has been written to it. -/
theorem mem_of_mem_ofList {writes : List (κ × α)} {entry : κ × α}
    (member : entry ∈ (ofList writes).entries) : entry ∈ writes := by
  have found : (ofList writes).get? entry.1 = some entry.2 := get?_of_mem member
  rw [ofList, get?_insertAll] at found
  have absent : (empty : OrderedMap κ α).get? entry.1 = none := rfl
  rw [absent, Option.or_none] at found
  exact List.mem_reverse.mp (mem_of_find? found)

/-- Writing to a map leaves the entries that stay when the later of all writes win. -/
theorem entries_insertAll (m : OrderedMap κ α) (writes : List (κ × α)) :
    (m.insertAll writes).entries = laterWins (m.entries ++ writes) := by
  rw [entries_eq, keys_insertAll, laterWins, List.map_append]
  congr 1
  funext k
  rw [get?_insertAll, List.reverse_append, find?_append, find?_reverse k m.distinct]
  rfl

theorem keys_insertAllNew (m : OrderedMap κ α) (writes : List (κ × α)) :
    (m.insertAllNew writes).keys = (m.keys ++ writes.map Prod.fst).eraseDups := by
  induction writes generalizing m with
  | nil =>
    rw [List.map_nil, List.append_nil]
    exact (eraseDups_of_nodup m.distinct).symm
  | cons entry rest ih =>
    rw [insertAllNew, List.foldl_cons, ← insertAllNew, ih, keys_insertNew, eraseDups_write,
      List.map_cons]

theorem get?_insertAllNew (m : OrderedMap κ α) (writes : List (κ × α)) (k : κ) :
    (m.insertAllNew writes).get? k = (m.get? k).or (find? k writes) := by
  induction writes generalizing m with
  | nil => exact (Option.or_none).symm
  | cons entry rest ih =>
    rw [insertAllNew, List.foldl_cons, ← insertAllNew, ih, get?_insertNew, Option.or_assoc]
    congr 1
    by_cases same : entry.1 = k <;> simp [find?, same]

/-- Writing to a map without touching present keys leaves the entries that stay when the
earlier of all writes win. -/
theorem entries_insertAllNew (m : OrderedMap κ α) (writes : List (κ × α)) :
    (m.insertAllNew writes).entries = earlierWins (m.entries ++ writes) := by
  rw [entries_eq, keys_insertAllNew, earlierWins, List.map_append]
  congr 1
  funext k
  rw [get?_insertAllNew, find?_append]
  rfl

omit [DecidableEq κ] in
theorem eq_of_entries {m m' : OrderedMap κ α} (same : m.entries = m'.entries) : m = m' := by
  cases m
  cases m'
  cases same
  rfl

/-- Writing the entries of a map one after another gives the map. -/
theorem ofList_entries (m : OrderedMap κ α) : ofList m.entries = m := by
  refine eq_of_entries ((entries_insertAll empty m.entries).trans ?_)
  change laterWins m.entries = m.entries
  rw [laterWins, eraseDups_of_nodup m.distinct]
  simp only [find?_reverse _ m.distinct]
  exact (entries_eq_filterMap m.entries m.distinct).symm

theorem get?_mapValues {β : Type} (f : α → β) (m : OrderedMap κ α) (k : κ) :
    (m.mapValues f).get? k = (m.get? k).map f := by
  change find? k (m.entries.map fun entry => (entry.1, f entry.2)) = (find? k m.entries).map f
  induction m.entries with
  | nil => rfl
  | cons entry rest ih =>
    obtain ⟨k', v⟩ := entry
    by_cases same : k' = k <;> simp [find?, same, ih]

/-! ## Some of the keys -/

def keepKeys (keep : κ → Bool) (m : OrderedMap κ α) : OrderedMap κ α :=
  ⟨m.entries.filter fun entry => keep entry.1, m.distinct.sublist (List.filter_sublist.map _)⟩

theorem put_filter (keep : κ → Bool) (k : κ) (v : α) (entries : List (κ × α)) :
    (put k v entries).filter (fun entry => keep entry.1) =
      if keep k then put k v (entries.filter fun entry => keep entry.1)
      else entries.filter fun entry => keep entry.1 := by
  induction entries with
  | nil => cases kept : keep k <;> simp [put, kept]
  | cons entry rest ih =>
    obtain ⟨k₀, v₀⟩ := entry
    by_cases same : k₀ = k
    · subst same
      cases kept : keep k₀ <;> simp [put, kept]
    · simp only [put, if_neg same, List.filter_cons, ih]
      cases keep k₀ <;> cases keep k <;> simp [put, same]

/-- Writes to keys that are not kept leave nothing. -/
theorem keepKeys_insertAll (keep : κ → Bool) (m : OrderedMap κ α) (writes : List (κ × α)) :
    (m.insertAll writes).keepKeys keep =
      (m.keepKeys keep).insertAll (writes.filter fun entry => keep entry.1) := by
  induction writes generalizing m with
  | nil => rfl
  | cons entry rest ih =>
    obtain ⟨k, v⟩ := entry
    have first : (m.insert k v).keepKeys keep =
        if keep k then (m.keepKeys keep).insert k v else m.keepKeys keep := by
      refine eq_of_entries ((put_filter keep k v m.entries).trans ?_)
      split <;> rfl
    rw [insertAll, List.foldl_cons, ← insertAll, ih, first, List.filter_cons]
    split <;> rfl

theorem ofList_filter (keep : κ → Bool) (entries : List (κ × α)) :
    ofList (entries.filter fun entry => keep entry.1) = (ofList entries).keepKeys keep :=
  (keepKeys_insertAll keep empty entries).symm

/-- Values may change while they are looked up, as long as that depends on their keys only. -/
theorem find?_map (f : κ → α → α) (k : κ) (entries : List (κ × α)) :
    find? k (entries.map fun entry => (entry.1, f entry.1 entry.2)) =
      (find? k entries).map (f k) := by
  induction entries with
  | nil => rfl
  | cons entry rest ih =>
    obtain ⟨k₀, v₀⟩ := entry
    by_cases same : k₀ = k
    · subst same
      simp [find?]
    · simp [find?, same, ih]

theorem get?_ofList_map (f : κ → α → α) (entries : List (κ × α)) (k : κ) :
    (ofList (entries.map fun entry => (entry.1, f entry.1 entry.2))).get? k =
      ((ofList entries).get? k).map (f k) := by
  have absent : (empty : OrderedMap κ α).get? k = none := rfl
  rw [ofList, ofList, get?_insertAll, get?_insertAll, absent, Option.or_none, Option.or_none,
    ← List.map_reverse, find?_map]

end RequestSchema.OrderedMap
