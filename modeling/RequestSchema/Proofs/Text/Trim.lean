import Mathlib.Data.List.DropRight
import RequestSchema.Text.Split

/-!
# Trimmed texts

A trimmed text has no white space left at its ends, so trimming it once more changes
nothing (`trim_trim`). A text is trimmed as it stands exactly when there is none
(`trim_eq_self_iff`), such as a text without any white space (`trim_of_unblank`).
-/
namespace RequestSchema.Text

theorem trimBy_eq_rdropWhile (p : Char → Bool) (cs : List Char) :
    trimBy p cs = (cs.dropWhile p).rdropWhile p := rfl

theorem trimBy_trimBy (p : Char → Bool) (cs : List Char) :
    trimBy p (trimBy p cs) = trimBy p cs := by
  simp only [trimBy_eq_rdropWhile]
  generalize shortened : cs.dropWhile p = front
  have headed : front.dropWhile p = front := by rw [← shortened, List.dropWhile_idempotent]
  have start : (front.rdropWhile p).dropWhile p = front.rdropWhile p := by
    rw [List.dropWhile_eq_self_iff] at headed ⊢
    intro positive
    have begins := List.rdropWhile_prefix p front
    rw [begins.getElem positive]
    exact headed (Nat.lt_of_lt_of_le positive begins.length_le)
  rw [start, List.rdropWhile_idempotent]

/-- Trimming a trimmed text changes nothing. -/
theorem trim_trim (s : String) : trim (trim s) = trim s := by
  rw [trim, trim, String.toList_ofList, trimBy_trimBy]

theorem trimChar_trimChar (c : Char) (s : String) : trimChar c (trimChar c s) = trimChar c s := by
  rw [trimChar, trimChar, String.toList_ofList, trimBy_trimBy]

/-- A text is trimmed when it neither begins nor ends with what is trimmed. -/
theorem trimBy_eq_self_iff {p : Char → Bool} {cs : List Char} :
    trimBy p cs = cs ↔ (∀ c ∈ cs.head?, p c = false) ∧ ∀ c ∈ cs.getLast?, p c = false := by
  have front : cs.dropWhile p = cs ↔ ∀ c ∈ cs.head?, p c = false := by
    cases cs with
    | nil => simp
    | cons c rest => simp [List.dropWhile_eq_self_iff]
  have back : cs.rdropWhile p = cs ↔ ∀ c ∈ cs.getLast?, p c = false := by
    rcases cs.eq_nil_or_concat with rfl | ⟨rest, c, rfl⟩
    · simp
    · simp [List.rdropWhile_eq_self_iff]
  rw [← front, ← back, trimBy_eq_rdropWhile]
  constructor
  · intro trimmed
    have whole : cs.dropWhile p = cs := by
      refine (List.dropWhile_suffix p).eq_of_length_le ?_
      calc cs.length = ((cs.dropWhile p).rdropWhile p).length := by rw [trimmed]
        _ ≤ (cs.dropWhile p).length := (List.rdropWhile_prefix p _).length_le
    rw [whole] at trimmed
    exact ⟨whole, trimmed⟩
  · rintro ⟨unled, unended⟩
    rw [unled, unended]

theorem trim_eq_self_iff {s : String} : trim s = s ↔
    (∀ c ∈ s.toList.head?, isBlank c = false) ∧ ∀ c ∈ s.toList.getLast?, isBlank c = false := by
  rw [← trimBy_eq_self_iff, ← String.toList_inj, trim, String.toList_ofList]

/-- Trimmed texts in a row are trimmed. -/
theorem trim_append {front back : String} (first : trim front = front) (last : trim back = back) :
    trim (front ++ back) = front ++ back := by
  rw [trim_eq_self_iff] at first last ⊢
  rw [String.toList_append, List.head?_append, List.getLast?_append]
  constructor
  · intro c head
    rcases Option.or_eq_some_iff.mp head with own | ⟨-, behind⟩
    · exact first.1 c own
    · exact last.1 c behind
  · intro c ending
    rcases Option.or_eq_some_iff.mp ending with own | ⟨-, before⟩
    · exact last.2 c own
    · exact first.2 c before

theorem trim_intercalate {sep : String} {pieces : List String} (between : trim sep = sep)
    (trimmed : ∀ piece ∈ pieces, trim piece = piece) :
    trim (sep.intercalate pieces) = sep.intercalate pieces := by
  induction pieces with
  | nil => rfl
  | cons piece rest ih =>
    have own := trimmed piece List.mem_cons_self
    cases rest with
    | nil => rwa [String.intercalate_singleton]
    | cons next rest =>
      rw [String.intercalate_cons_cons]
      exact trim_append (trim_append own between)
        (ih fun piece' member => trimmed piece' (List.mem_cons_of_mem piece member))

/-- Up to a character that is kept, only the head of a text can be trimmed. -/
theorem trimBy_append_cons {p : Char → Bool} {front : List Char} {c : Char}
    (unled : ∀ a ∈ front.head?, p a = false) (kept : p c = false) (back : List Char) :
    trimBy p (front ++ c :: back) = front ++ c :: back.rdropWhile p := by
  have stays {a : Char} (kept : p a = false) (cs : List Char) : (a :: cs).dropWhile p = a :: cs :=
    List.dropWhile_cons_of_neg (by rw [kept]; exact Bool.false_ne_true)
  have start : (front ++ c :: back).dropWhile p = front ++ c :: back := by
    cases front with
    | nil => exact stays kept back
    | cons a front => exact stays (unled a rfl) (front ++ c :: back)
  have reversed : (front ++ c :: back).reverse = back.reverse ++ c :: front.reverse := by simp
  rw [trimBy_eq_rdropWhile, start, List.rdropWhile, List.rdropWhile, reversed,
    List.dropWhile_append, stays kept]
  cases gone : back.reverse.dropWhile p with
  | nil => simp
  | cons a rest => simp

/-- What is trimmed away stands in front and behind. -/
theorem trimBy_between {p : Char → Bool} {front core back : List Char}
    (before : ∀ c ∈ front, p c = true) (behind : ∀ c ∈ back, p c = true)
    (first : ∀ c ∈ core.head?, p c = false) (last : ∀ c ∈ core.getLast?, p c = false) :
    trimBy p (front ++ core ++ back) = core := by
  have whole : trimBy p core = core := trimBy_eq_self_iff.mpr ⟨first, last⟩
  have start : (core ++ back).dropWhile p = core.dropWhile p ++ back ∨ core = [] := by
    cases core with
    | nil => exact .inr rfl
    | cons c core => simp [first c rfl]
  rw [List.append_assoc, trimBy, List.dropWhile_append_of_pos before]
  rcases start with start | rfl
  · rw [start, List.reverse_append,
      List.dropWhile_append_of_pos fun c member => behind c (List.mem_reverse.mp member)]
    exact whole
  · rw [List.nil_append, List.dropWhile_eq_nil_iff.mpr behind]
    rfl

theorem trimBy_of_none {p : Char → Bool} {cs : List Char} (none : ∀ c ∈ cs, p c = false) :
    trimBy p cs = cs := by
  have front : ∀ cs : List Char, (∀ c ∈ cs, p c = false) → cs.dropWhile p = cs := by
    intro cs none
    rw [List.dropWhile_eq_self_iff]
    intro positive holds
    rw [none _ (List.getElem_mem positive)] at holds
    cases holds
  rw [trimBy, front cs none, front cs.reverse fun c member => none c (List.mem_reverse.mp member),
    List.reverse_reverse]

/-- Trimming loses only what it trims. -/
theorem mem_trimBy {p : Char → Bool} {c : Char} {cs : List Char} (kept : p c = false)
    (member : c ∈ cs) : c ∈ trimBy p cs := by
  have front {cs : List Char} (member : c ∈ cs) : c ∈ cs.dropWhile p := by
    rw [← List.takeWhile_append_dropWhile (p := p) (l := cs)] at member
    rcases List.mem_append.mp member with taken | left
    · rw [List.mem_takeWhile_imp taken] at kept
      cases kept
    · exact left
  exact List.mem_reverse.mpr (front (List.mem_reverse.mpr (front member)))

/-- A text without white space is trimmed. -/
theorem trim_of_unblank {s : String} (unblank : ∀ c ∈ s.toList, isBlank c = false) :
    trim s = s := by
  rw [trim, trimBy_of_none unblank, String.ofList_toList]

/-- Trimming adds nothing. -/
theorem mem_of_mem_trimBy {p : Char → Bool} {c : Char} {cs : List Char} (member : c ∈ trimBy p cs) :
    c ∈ cs := by
  rw [trimBy_eq_rdropWhile] at member
  exact (List.dropWhile_suffix p).subset ((List.rdropWhile_prefix p _).subset member)

end RequestSchema.Text
