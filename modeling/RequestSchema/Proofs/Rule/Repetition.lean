import Mathlib.Data.List.Nodup
import RequestSchema.Field.Description
import RequestSchema.Parameter.Build
import RequestSchema.Proofs.OrderedMap.Writes
import RequestSchema.Proofs.Rule.Statements
import RequestSchema.Rule.Pattern

/-!
# Rules stated several times over

Whatever is read from the rules of a field is read from several copies of them in a row as
well. Some readings look for the first rule of a kind, some for the last one, some ask
whether there is one and some collect; none of them counts. For each of them there is a
lemma about lists, and one about the reading.
-/
namespace RequestSchema

/-- Copies of a list, one behind the other. -/
def repeated {α : Type} (n : Nat) (xs : List α) : List α := (List.replicate n xs).flatten

/-! ## Lists -/

section

variable {α β : Type} {n : Nat}

theorem repeated_succ (n : Nat) (xs : List α) : repeated (n + 1) xs = xs ++ repeated n xs := by
  rw [repeated, List.replicate_succ, List.flatten_cons, repeated]

theorem flatMap_const (ys : List β) (xs : List α) :
    (ys.flatMap fun _ => xs) = repeated ys.length xs := by
  induction ys with
  | nil => rfl
  | cons y rest ih => rw [List.flatMap_cons, ih, List.length_cons, repeated_succ]

theorem map_repeated (f : α → β) (n : Nat) (xs : List α) :
    (repeated n xs).map f = repeated n (xs.map f) := by
  rw [repeated, List.map_flatten, List.map_replicate, repeated]

theorem filterMap_repeated (f : α → Option β) (n : Nat) (xs : List α) :
    (repeated n xs).filterMap f = repeated n (xs.filterMap f) := by
  rw [repeated, List.filterMap_flatten, List.map_replicate, repeated]

theorem flatMap_repeated (f : α → List β) (n : Nat) (xs : List α) :
    (repeated n xs).flatMap f = repeated n (xs.flatMap f) := by
  induction n with
  | zero => rfl
  | succ n ih => rw [repeated_succ, List.flatMap_append, ih, repeated_succ]

theorem reverse_repeated (n : Nat) (xs : List α) :
    (repeated n xs).reverse = repeated n xs.reverse := by
  rw [repeated, List.reverse_flatten, List.map_replicate, List.reverse_replicate, repeated]

theorem repeated_one (xs : List α) : repeated 1 xs = xs := by
  rw [repeated, List.replicate_one, List.flatten_singleton]

theorem mem_repeated {x : α} {xs : List α} : x ∈ repeated (n + 1) xs ↔ x ∈ xs := by
  rw [repeated, List.mem_flatten]
  constructor
  · rintro ⟨copy, one, own⟩
    rwa [List.eq_of_mem_replicate one] at own
  · intro member
    exact ⟨xs, List.mem_replicate.mpr ⟨n.succ_ne_zero, rfl⟩, member⟩

theorem any_repeated (p : α → Bool) (xs : List α) : (repeated (n + 1) xs).any p = xs.any p := by
  rw [repeated, List.any_flatten, List.any_replicate, if_neg n.succ_ne_zero]

theorem find?_repeated (p : α → Bool) (xs : List α) :
    (repeated (n + 1) xs).find? p = xs.find? p := by
  rw [repeated, List.find?_flatten, List.findSome?_replicate_of_pos n.succ_pos]

theorem findSome?_repeated (f : α → Option β) (xs : List α) :
    (repeated (n + 1) xs).findSome? f = xs.findSome? f := by
  induction n with
  | zero => rw [repeated_one]
  | succ n ih => rw [repeated_succ, List.findSome?_append, ih, Option.or_self]

theorem findSomeRev?_repeated (f : α → Option β) (xs : List α) :
    (repeated (n + 1) xs).findSomeRev? f = xs.findSomeRev? f := by
  simp only [List.findSomeRev?_eq_findSome?_reverse, reverse_repeated, findSome?_repeated]

/-- When the first copy succeeds, so do the others. -/
theorem mapM_repeated (f : α → Except Fault β) (xs : List α) :
    (repeated (n + 1) xs).mapM f = repeated (n + 1) <$> xs.mapM f := by
  induction n with
  | zero =>
    rw [repeated_one]
    cases xs.mapM f with
    | error fault => rfl
    | ok ys => exact congrArg Except.ok (repeated_one ys).symm
  | succ n ih =>
    rw [repeated_succ, List.mapM_append, ih]
    cases xs.mapM f with
    | error fault => rfl
    | ok ys => exact congrArg Except.ok (repeated_succ (n + 1) ys).symm

/-- What stands before already does not count. -/
theorem eraseDups_append_of_subset [BEq α] [LawfulBEq α] {xs ys : List α}
    (subset : ∀ y ∈ ys, y ∈ xs) : (xs ++ ys).eraseDups = xs.eraseDups := by
  have nothing : ys.removeAll xs = [] := by
    rw [List.removeAll, List.filter_eq_nil_iff]
    intro y member
    simpa using subset y member
  rw [List.eraseDups_append, nothing, List.eraseDups_nil, List.append_nil]

theorem eraseDups_repeated [BEq α] [LawfulBEq α] (xs : List α) :
    (repeated (n + 1) xs).eraseDups = xs.eraseDups := by
  cases n with
  | zero => rw [repeated_one]
  | succ n => rw [repeated_succ, eraseDups_append_of_subset fun _ => mem_repeated.mp]

end

/-! ## Readings -/

section

variable (n : Nat) (tokens : List Token)

namespace Token

theorem has_repeated (names : List String) :
    has names (repeated (n + 1) tokens) = has names tokens :=
  any_repeated _ tokens

theorem findNamed_repeated (names : List String) :
    find? names (repeated (n + 1) tokens) = find? names tokens :=
  find?_repeated _ tokens

theorem isExcluded_repeated : isExcluded (repeated (n + 1) tokens) = isExcluded tokens :=
  has_repeated n tokens _

theorem isConditionallyRequired_repeated :
    isConditionallyRequired (repeated (n + 1) tokens) = isConditionallyRequired tokens :=
  any_repeated _ tokens

end Token

theorem FieldType.ofTokens_repeated (fallback : FieldType) :
    FieldType.ofTokens (repeated (n + 1) tokens) fallback = FieldType.ofTokens tokens fallback := by
  simp only [FieldType.ofTokens, Token.has_repeated]

theorem Format.ofTokens?_repeated :
    Format.ofTokens? (repeated (n + 1) tokens) = Format.ofTokens? tokens := by
  simp only [Format.ofTokens?, Format.ofDateTokens?, Token.has_repeated,
    any_repeated, findSome?_repeated]

theorem Pattern.ofTokens?_repeated :
    Pattern.ofTokens? (repeated (n + 1) tokens) = Pattern.ofTokens? tokens := by
  simp only [Pattern.ofTokens?, Token.findNamed_repeated]

/-! The last limit of each kind stands in the last copy. -/

theorem Limits.latest_repeated {α : Type} (stated : List (Limits α)) :
    Limits.latest (repeated (n + 1) stated) = Limits.latest stated := by
  simp only [Limits.latest, findSomeRev?_repeated]

theorem Limits.ofValues_repeated :
    Limits.ofValues (repeated (n + 1) tokens) = Limits.ofValues tokens := by
  rw [Limits.ofValues_eq, Limits.ofValues_eq, map_repeated, Limits.latest_repeated]

theorem Limits.ofCounts_repeated :
    Limits.ofCounts (repeated (n + 1) tokens) = Limits.ofCounts tokens := by
  rw [Limits.ofCounts_eq, Limits.ofCounts_eq, mapM_repeated]
  simp only [Functor.map_map, Limits.latest_repeated]

theorem boundsOf_repeated (type : FieldType) :
    FieldRules.boundsOf type (repeated (n + 1) tokens) = FieldRules.boundsOf type tokens := by
  have passwords : PasswordRequirements.ofTokens? (repeated (n + 1) tokens) =
      PasswordRequirements.ofTokens? tokens := by
    simp only [PasswordRequirements.ofTokens?, find?_repeated]
  simp only [FieldRules.boundsOf, Bounds.ofTokens, Limits.ofValues_repeated,
    Limits.ofCounts_repeated, passwords]

/-! So does the last bound of an example, while a count of decimal places and a choice are
those of the first copy. -/

namespace Example

theorem Interval.latest_repeated (stated : List Interval) :
    latest (repeated (n + 1) stated) = latest stated := by
  simp only [latest, findSomeRev?_repeated]

theorem interval_repeated (integer : Bool) :
    Interval.ofTokens integer (repeated (n + 1) tokens) = Interval.ofTokens integer tokens := by
  rw [Interval.ofTokens_eq, Interval.ofTokens_eq, mapM_repeated]
  simp only [Functor.map_map, Interval.latest_repeated]

theorem ofField_repeated (room : Int) (field : String) (type : FieldType) (format : Option Format)
    (enumeration : Option Enumeration) :
    ofField room field (repeated (n + 1) tokens) type format enumeration =
      ofField room field tokens type format enumeration := by
  simp only [ofField, integer, number, decimalPlaces?, text, Token.has_repeated,
    Token.findNamed_repeated, interval_repeated]

end Example

/-! Types of uploads are collected and then named once. -/

namespace Upload

/-- Adding what has not been seen yet keeps the first of each. -/
theorem foldl_unseen (texts : List String) {seen : List String} (different : seen.Nodup) :
    texts.foldl (fun seen text => if seen.contains text then seen else seen ++ [text]) seen =
      (seen ++ texts).eraseDups := by
  induction texts generalizing seen with
  | nil => rw [List.append_nil, OrderedMap.eraseDups_of_nodup different, List.foldl_nil]
  | cons text rest ih =>
    have step : (if seen.contains text then seen else seen ++ [text]) =
        if text ∈ seen then seen else seen ++ [text] := by simp only [List.contains_iff_mem]
    rw [List.foldl_cons, step, ← OrderedMap.eraseDups_write]
    refine ih ?_
    split
    · exact different
    · rename_i new
      rw [← List.concat_eq_append]
      exact List.Nodup.concat new different

theorem distinct_eq_eraseDups (texts : List String) : distinct texts = texts.eraseDups :=
  foldl_unseen texts .nil

theorem ofReading_repeated (field : String) (stated : List Statement) :
    ofReading field (.ofStatements (repeated (n + 1) stated)) =
      ofReading field (.ofStatements stated) := by
  have types (named : List String) (extensions : List String) :
      (repeated (n + 1) named ++ extensions).eraseDups = (named ++ extensions).eraseDups := by
    rw [List.eraseDups_append, List.eraseDups_append, eraseDups_repeated]
    congr 2
    refine List.filter_congr fun text _ => ?_
    simp only [List.elem_eq_contains, List.contains_eq_mem, mem_repeated]
  simp only [ofReading, Reading.ofStatements, any_repeated, flatMap_repeated,
    findSomeRev?_repeated, distinct_eq_eraseDups, eraseDups_repeated, types]

theorem ofTokens?_repeated (field : String) :
    ofTokens? field (repeated (n + 1) tokens) = ofTokens? field tokens := by
  simp only [ofTokens?, isUpload, Token.has_repeated, reading_eq, mapM_repeated]
  split
  · cases tokens.mapM Statement.ofToken with
    | error fault => rfl
    | ok stated => exact congrArg (Except.ok ∘ some) (ofReading_repeated n field stated)
  · rfl

end Upload

/-! A description names the first rule about each end of a length, and no clause twice. -/

namespace Description

omit n in
theorem firstNamed_of_unnamed {names : List String} {tokens : List Token}
    (unnamed : ∀ t ∈ tokens, t.name ∉ names) : firstNamed names tokens = [] := by
  induction tokens with
  | nil => rfl
  | cons t rest ih =>
    have other : ¬ names.contains t.name = true := by
      simpa using unnamed t List.mem_cons_self
    rw [firstNamed, if_neg other]
    exact ih fun u member => unnamed u (List.mem_cons_of_mem t member)

/-- Tokens behind others do not count when each of their names is taken already. -/
theorem firstNamed_append {names : List String} {tokens behind : List Token}
    (different : names.Nodup)
    (taken : ∀ u ∈ behind, u.name ∈ names → ∃ t ∈ tokens, t.name = u.name) :
    firstNamed names (tokens ++ behind) = firstNamed names tokens := by
  induction tokens generalizing names with
  | nil =>
    refine firstNamed_of_unnamed fun u member named => ?_
    obtain ⟨t, none, -⟩ := taken u member named
    cases none
  | cons t rest ih =>
    rw [List.cons_append, firstNamed, firstNamed]
    split
    · congr 1
      refine ih (different.erase _) fun u member named => ?_
      obtain ⟨other, listed⟩ := (different.mem_erase_iff).mp named
      obtain ⟨t', there, same⟩ := taken u member listed
      rcases List.mem_cons.mp there with rfl | later
      · exact absurd same.symm other
      · exact ⟨t', later, same⟩
    · rename_i unnamed
      refine ih different fun u member named => ?_
      obtain ⟨t', there, same⟩ := taken u member named
      rcases List.mem_cons.mp there with rfl | later
      · exact absurd (same ▸ named) (by simpa using unnamed)
      · exact ⟨t', later, same⟩

theorem lengthNotes_repeated : lengthNotes (repeated (n + 1) tokens) = lengthNotes tokens := by
  unfold lengthNotes
  rw [repeated_succ, firstNamed_append (by decide)]
  intro u member named
  cases n with
  | zero => cases member
  | succ n => exact ⟨u, mem_repeated.mp member, rfl⟩

theorem ofField_repeated (field : String) (type : FieldType) (enumeration : Option Enumeration) :
    ofField field (repeated (n + 1) tokens) type enumeration =
      ofField field tokens type enumeration := by
  simp only [ofField, clauses, lengthNotes_repeated, filterMap_repeated,
    Upload.distinct_eq_eraseDups, eraseDups_repeated]

end Description

end

end RequestSchema
