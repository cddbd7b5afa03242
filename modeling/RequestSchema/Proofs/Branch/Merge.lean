import RequestSchema.Branch
import RequestSchema.Proofs.OrderedMap.Writes
import RequestSchema.Proofs.Rule.Normalization
import RequestSchema.Proofs.Rule.Writable

/-!
# The joint rule set of branches

Branches have a joint rule set exactly when their tokens can be written (`merge_of_writable`,
`writable_of_merge`).

* `keys_joint`: the fields of a joint rule set are those that a branch mentions, in the
  order in which they are mentioned first;
* `tokens_of_get?_joint`: the tokens of such a field are the tokens of all branches that
  mention it, one branch after another.
-/
namespace RequestSchema.Branch

/-- The tokens that branches give a field, one branch after another. -/
def tokensAt (branches : List Branch) (key : Key) : List Token :=
  branches.flatMap fun b => ((b.rules.get? key).map Value.tokenList).getD []

/-- A merged rule set with the tokens of some more entries at the ends of their fields. -/
def addEntries (merged : RuleSet) (entries : List (Key × Value)) : RuleSet :=
  entries.foldl (fun merged entry => addTokens merged entry.1 entry.2.tokenList) merged

/-- The tokens that entries give a field, one entry after another. -/
def entryTokens (entries : List (Key × Value)) (key : Key) : List Token :=
  (entries.filter fun entry => entry.1 = key).flatMap fun entry => entry.2.tokenList

def listed (merged : RuleSet) (key : Key) : List Value :=
  ((merged.get? key).getD (.list [])).items?.getD []

theorem get?_addTokens (merged : RuleSet) (field key : Key) (tokens : List Token) :
    (addTokens merged field tokens).get? key =
      if field = key then some (.list (listed merged key ++ tokens.map Token.toValue))
      else merged.get? key := by
  rw [addTokens, OrderedMap.modifyAt, OrderedMap.get?_insert]
  split
  · rename_i same
    subst same
    rfl
  · rfl

theorem listed_addTokens (merged : RuleSet) (key : Key) (tokens : List Token) :
    listed (addTokens merged key tokens) key = listed merged key ++ tokens.map Token.toValue := by
  rw [listed, get?_addTokens, if_pos rfl]
  rfl

theorem keys_addEntries (merged : RuleSet) (entries : List (Key × Value)) :
    (addEntries merged entries).keys = (merged.keys ++ entries.map Prod.fst).eraseDups := by
  induction entries generalizing merged with
  | nil =>
    rw [List.map_nil, List.append_nil]
    exact (OrderedMap.eraseDups_of_nodup merged.distinct).symm
  | cons entry rest ih =>
    have written : (addTokens merged entry.1 entry.2.tokenList).keys =
        if entry.1 ∈ merged.keys then merged.keys else merged.keys ++ [entry.1] :=
      OrderedMap.keys_insert ..
    rw [addEntries, List.foldl_cons, ← addEntries, ih, written, OrderedMap.eraseDups_write,
      List.map_cons]

theorem entryTokens_of_absent {entries : List (Key × Value)} {key : Key}
    (absent : key ∉ entries.map Prod.fst) : entryTokens entries key = [] := by
  rw [entryTokens, OrderedMap.filter_key_of_absent absent, List.flatMap_nil]

/-- Every entry adds its tokens behind those that are listed for its field. -/
theorem get?_addEntries (merged : RuleSet) (entries : List (Key × Value)) (key : Key) :
    (addEntries merged entries).get? key =
      if key ∈ entries.map Prod.fst then
        some (.list (listed merged key ++ (entryTokens entries key).map Token.toValue))
      else merged.get? key := by
  induction entries generalizing merged with
  | nil => rfl
  | cons entry rest ih =>
    obtain ⟨field, value⟩ := entry
    rw [addEntries, List.foldl_cons, ← addEntries, ih, List.map_cons]
    by_cases same : field = key
    · subst same
      have tokens : entryTokens ((field, value) :: rest) field =
          value.tokenList ++ entryTokens rest field := by
        simp [entryTokens]
      rw [listed_addTokens, get?_addTokens, if_pos rfl, if_pos List.mem_cons_self, tokens,
        List.map_append, ← List.append_assoc]
      split
      · rfl
      · rename_i absent
        rw [entryTokens_of_absent absent, List.map_nil, List.append_nil]
    · have tokens : entryTokens ((field, value) :: rest) key = entryTokens rest key := by
        simp [entryTokens, same]
      have elsewhere : listed (addTokens merged field value.tokenList) key = listed merged key := by
        rw [listed, get?_addTokens, if_neg same, listed]
      simp only [get?_addTokens, if_neg same, tokens, elsewhere, List.mem_cons,
        or_iff_right (Ne.symm same)]

/-- The tokens of a branch can be written. -/
def Writable (b : Branch) : Prop := ∀ entry ∈ b.rules.entries, entry.2.writable = true

instance (b : Branch) : Decidable b.Writable := inferInstanceAs (Decidable (∀ _ ∈ _, _))

def joint (branches : List Branch) : RuleSet :=
  addEntries .empty (branches.flatMap fun b => b.rules.entries)

theorem merge_of_writable {branches : List Branch} (writable : ∀ b ∈ branches, b.Writable) :
    merge branches = .ok (joint branches) := by
  rw [joint, addEntries, List.foldl_flatMap]
  refine foldlM_eq_ok fun b member merged => ?_
  refine foldlM_eq_ok fun entry own merged => ?_
  rw [Value.tokens_of_writable (writable b member entry own)]
  rfl

/-- Branches with a joint rule set can be written. -/
theorem writable_of_merge {branches : List Branch} {merged : RuleSet}
    (joined : merge branches = .ok merged) :
    (∀ b ∈ branches, b.Writable) ∧ merged = joint branches := by
  have writable : ∀ b ∈ branches, b.Writable := fun b member entry own => by
    obtain ⟨before, behind, added⟩ := ok_of_foldlM joined b member
    obtain ⟨before, behind, added⟩ := ok_of_foldlM added entry own
    obtain ⟨tokens, read, -⟩ := exists_of_bind_ok added
    exact Value.writable_of_tokens read
  rw [merge_of_writable writable] at joined
  exact ⟨writable, (Except.ok.inj joined).symm⟩

theorem eq_of_ofBranches {branches : List Branch} {found : ConditionalRules}
    (joined : ConditionalRules.ofBranches branches = .ok found) :
    (∀ b ∈ branches, b.Writable) ∧ found = ⟨branches, joint branches⟩ := by
  obtain ⟨merged, merges, built⟩ := exists_of_bind_ok joined
  cases built
  obtain ⟨writable, rfl⟩ := writable_of_merge merges
  exact ⟨writable, rfl⟩

theorem ofBranches_of_writable {branches : List Branch} (writable : ∀ b ∈ branches, b.Writable) :
    ConditionalRules.ofBranches branches = .ok ⟨branches, joint branches⟩ := by
  rw [ConditionalRules.ofBranches, merge_of_writable writable]
  rfl

/-- The fields of a joint rule set in the order in which branches mention them first. -/
theorem keys_joint (branches : List Branch) :
    (joint branches).keys = (branches.flatMap fun b => b.rules.keys).eraseDups := by
  rw [joint, keys_addEntries, List.map_flatMap]
  rfl

theorem mem_keys_joint (branches : List Branch) (key : Key) :
    key ∈ (joint branches).keys ↔ ∃ b ∈ branches, key ∈ b.rules.keys := by
  rw [keys_joint, List.mem_eraseDups, List.mem_flatMap]

theorem entryTokens_entries (rules : RuleSet) (key : Key) :
    entryTokens rules.entries key = ((rules.get? key).map Value.tokenList).getD [] := by
  rw [entryTokens, OrderedMap.filter_key key rules.distinct, OrderedMap.get?]
  cases OrderedMap.find? key rules.entries with
  | none => rfl
  | some value => exact List.append_nil _

theorem entryTokens_flatMap (branches : List Branch) (key : Key) :
    entryTokens (branches.flatMap fun b => b.rules.entries) key = tokensAt branches key := by
  rw [entryTokens, List.filter_flatMap, List.flatMap_assoc]
  exact congrArg (List.flatMap · branches) (funext fun b => entryTokens_entries b.rules key)

/-- Tokens of a value that has some are settled, and there are no others. -/
theorem settled_of_mem_tokenList {v : Value} : ∀ t ∈ v.tokenList, t.Settled := by
  unfold Value.tokenList
  cases read : v.tokens with
  | ok tokens => exact v.settled_of_tokens tokens read
  | error fault => exact fun t member => absurd member List.not_mem_nil

/-- A field of a joint rule set has the tokens of all branches that mention it. -/
theorem tokens_of_get?_joint {branches : List Branch} {key : Key} {value : Value}
    (found : (joint branches).get? key = some value) :
    value.tokens = .ok (tokensAt branches key) := by
  rw [joint, get?_addEntries, entryTokens_flatMap] at found
  split at found
  · cases found
    refine Value.tokens_toValue _ fun t member => ?_
    obtain ⟨b, -, own⟩ := List.mem_flatMap.mp member
    cases present : b.rules.get? key with
    | none =>
      rw [present] at own
      cases own
    | some value =>
      rw [present] at own
      exact settled_of_mem_tokenList t own
  · cases found

end RequestSchema.Branch
