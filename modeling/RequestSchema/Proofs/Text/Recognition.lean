import RequestSchema.Text.Char
import RequestSchema.Text.Split

/-!
# Recognising the parts of a text

What the cuts and recognisers of `Text/Split` make of a text that was put together from known
parts: a separator that does not occur does not cut (`split_of_absent`), the first one does
(`cutChars_append`), a beginning is dropped (`dropStart?_append`), and a recogniser that fails at
each end of a text finds nothing in it (`firstMatch_eq_none`).
-/
namespace RequestSchema.Text

/-! ## Cuts -/

theorem splitChars_of_absent {sep : Char} {cs : List Char} (absent : sep ∉ cs) :
    splitChars sep cs = [cs] := by
  induction cs with
  | nil => rfl
  | cons c rest ih =>
    obtain ⟨other, later⟩ := not_or.mp (mt List.mem_cons.mpr absent)
    rw [splitChars, if_neg (Ne.symm other), ih later]

/-- A text without the separator is one piece. -/
theorem split_of_absent {sep : Char} {s : String} (absent : sep ∉ s.toList) :
    split sep s = [s] := by
  rw [split, splitChars_of_absent absent, List.map_singleton, String.ofList_toList]

/-- A separator cuts: the pieces before it and those behind it are told apart. -/
theorem splitChars_append_cons (sep : Char) (before behind : List Char) :
    splitChars sep (before ++ sep :: behind) = splitChars sep before ++ splitChars sep behind := by
  have filled (cs : List Char) : splitChars sep cs ≠ [] := by
    cases cs with
    | nil => simp [splitChars]
    | cons c cs =>
      rw [splitChars]
      split
      · simp
      · split <;> simp
  induction before with
  | nil => simp [splitChars]
  | cons c before ih =>
    rw [List.cons_append, splitChars, splitChars, ih]
    split
    · rfl
    · cases cut : splitChars sep before with
      | nil => exact absurd cut (filled before)
      | cons piece pieces => rfl

theorem splitChars_eq_splitOn (sep : Char) (cs : List Char) :
    splitChars sep cs = cs.splitOn sep := by
  induction cs with
  | nil => rfl
  | cons c rest ih =>
    rw [List.splitOn_eq_splitOnP] at ih
    rw [splitChars, List.splitOn_eq_splitOnP, List.splitOnP_cons_eq_if_modifyHead, ← ih]
    by_cases same : c = sep
    · rw [if_pos same, if_pos (beq_iff_eq.mpr same)]
    · rw [if_neg same, if_neg (mt beq_iff_eq.mp same)]
      cases cut : splitChars sep rest with
      | nil => exact absurd (ih.symm.trans cut) (List.splitOnP_ne_nil _ rest)
      | cons piece pieces => rfl

/-- What is joined comes from the pieces and from what stands between them. -/
theorem mem_intercalate {sep : List Char} {pieces : List (List Char)} {c : Char}
    (member : c ∈ sep.intercalate pieces) : c ∈ sep ∨ ∃ piece ∈ pieces, c ∈ piece := by
  induction pieces with
  | nil => cases member
  | cons piece rest ih =>
    cases rest with
    | nil => exact .inr ⟨piece, List.mem_cons_self, by simpa using member⟩
    | cons next rest =>
      rw [List.intercalate_cons_cons, List.append_assoc, List.mem_append, List.mem_append] at member
      rcases member with own | separator | later
      · exact .inr ⟨piece, List.mem_cons_self, own⟩
      · exact .inl separator
      · rcases ih later with separator | ⟨piece', there, own⟩
        · exact .inl separator
        · exact .inr ⟨piece', List.mem_cons_of_mem piece there, own⟩

/-- Pieces without the separator are told apart again when they are joined by it. -/
theorem split_intercalate {sep : Char} {pieces : List String}
    (absent : ∀ piece ∈ pieces, sep ∉ piece.toList) (filled : pieces ≠ []) :
    split sep ((String.singleton sep).intercalate pieces) = pieces := by
  have absent' : ∀ piece ∈ pieces.map String.toList, sep ∉ piece := by
    intro piece member
    obtain ⟨s, listed, rfl⟩ := List.mem_map.mp member
    exact absent s listed
  rw [split, splitChars_eq_splitOn, String.toList_intercalate, String.toList_singleton,
    List.splitOn_intercalate sep absent' (mt List.map_eq_nil_iff.mp filled), List.map_map]
  simp [Function.comp_def]

/-- The pieces of a text are joined to it again. -/
theorem intercalate_split (sep : Char) (s : String) :
    (String.singleton sep).intercalate (split sep s) = s := by
  rw [← String.toList_inj, String.toList_intercalate, String.toList_singleton, split,
    List.map_map, splitChars_eq_splitOn]
  simp [Function.comp_def, List.intercalate_splitOn]

/-- No piece holds the separator. -/
theorem not_mem_of_mem_splitChars {sep : Char} {cs piece : List Char}
    (member : piece ∈ splitChars sep cs) : sep ∉ piece := by
  induction cs generalizing piece with
  | nil =>
    rw [List.mem_singleton.mp member]
    exact List.not_mem_nil
  | cons c rest ih =>
    rw [splitChars] at member
    split at member
    · rcases List.mem_cons.mp member with rfl | later
      · exact List.not_mem_nil
      · exact ih later
    · rename_i other
      have headed {cs : List Char} (absent : sep ∉ cs) : sep ∉ c :: cs := by
        rw [List.mem_cons, not_or]
        exact ⟨Ne.symm other, absent⟩
      split at member
      · rw [List.mem_singleton.mp member]
        exact headed List.not_mem_nil
      · rename_i cut
        rw [cut] at ih
        rcases List.mem_cons.mp member with rfl | later
        · exact headed (ih List.mem_cons_self)
        · exact ih (List.mem_cons_of_mem _ later)

theorem not_mem_of_mem_split {sep : Char} {s piece : String} (member : piece ∈ split sep s) :
    sep ∉ piece.toList := by
  obtain ⟨cs, cut, rfl⟩ := List.mem_map.mp member
  rw [String.toList_ofList]
  exact not_mem_of_mem_splitChars cut

theorem cutChars_append {sep : Char} {before : List Char} (absent : sep ∉ before)
    (behind : List Char) : cutChars sep (before ++ sep :: behind) = some (before, behind) := by
  induction before with
  | nil => simp [cutChars]
  | cons c rest ih =>
    obtain ⟨other, later⟩ := not_or.mp (mt List.mem_cons.mpr absent)
    rw [List.cons_append, cutChars, if_neg (Ne.symm other), ih later]
    rfl

theorem cutChars_of_absent {sep : Char} {cs : List Char} (absent : sep ∉ cs) :
    cutChars sep cs = none := by
  induction cs with
  | nil => rfl
  | cons c rest ih =>
    obtain ⟨other, later⟩ := not_or.mp (mt List.mem_cons.mpr absent)
    rw [cutChars, if_neg (Ne.symm other), ih later, Option.map_none]

theorem cut?_append {sep : Char} {before : String} (absent : sep ∉ before.toList)
    (behind : String) : cut? sep (before ++ String.singleton sep ++ behind) =
      some (before, behind) := by
  have parts : (before ++ String.singleton sep ++ behind).toList =
      before.toList ++ sep :: behind.toList := by simp
  rw [cut?, parts, cutChars_append absent]
  simp

/-- Behind the last separator there is none. -/
theorem cutLast?_append {sep : Char} {behind : String} (absent : sep ∉ behind.toList)
    (before : String) : cutLast? sep (before ++ String.singleton sep ++ behind) =
      some (before, behind) := by
  have reversed : (before ++ String.singleton sep ++ behind).toList.reverse =
      behind.toList.reverse ++ sep :: before.toList.reverse := by simp
  have absent' : sep ∉ behind.toList.reverse := mt List.mem_reverse.mp absent
  rw [cutLast?, reversed, cutChars_append absent']
  simp

/-! ## Beginnings -/

theorem dropStart?_append (start rest : List Char) :
    dropStart? start (start ++ rest) = some rest := by
  induction start with
  | nil => rfl
  | cons a start ih => simp [dropStart?, ih]

theorem eq_append_of_dropStart? {start cs rest : List Char}
    (found : dropStart? start cs = some rest) : cs = start ++ rest := by
  induction start generalizing cs with
  | nil =>
    cases found
    rfl
  | cons a start ih =>
    cases cs with
    | nil => cases found
    | cons c cs =>
      rw [dropStart?] at found
      split at found
      · rename_i same
        rw [same, ih found, List.cons_append]
      · cases found

theorem dropStart?_of_ne {a c : Char} (other : a ≠ c) (start cs : List Char) :
    dropStart? (a :: start) (c :: cs) = none := if_neg other

theorem suffix_of_dropStart? {start cs rest : List Char} (found : dropStart? start cs = some rest) :
    rest <:+ cs := ⟨start, (eq_append_of_dropStart? found).symm⟩

/-- What is left when a beginning is dropped where it stands. -/
theorem getD_dropStart?_suffix (start cs : List Char) : (dropStart? start cs).getD cs <:+ cs := by
  cases found : dropStart? start cs with
  | none => exact List.suffix_refl cs
  | some rest => exact suffix_of_dropStart? found

/-- A beginning with a character that a text lacks is no beginning of it. -/
theorem dropStart?_of_absent {start cs : List Char} {c : Char} (needed : c ∈ start)
    (absent : c ∉ cs) : dropStart? start cs = none := by
  cases found : dropStart? start cs with
  | none => rfl
  | some rest =>
    rw [eq_append_of_dropStart? found] at absent
    exact absurd (List.mem_append_left rest needed) absent

/-! ## Recognisers -/

variable {α : Type} {recognise : List Char → Option α} {cs : List Char}

/-- What is found at the head of a text is found in it. -/
theorem firstMatch_of_head {x : α} (found : recognise cs = some x) :
    firstMatch recognise cs = some x := by
  cases cs with
  | nil => exact found
  | cons c rest => rw [firstMatch, found]

theorem firstMatch_eq_none (fails : ∀ rest, rest <:+ cs → recognise rest = none) :
    firstMatch recognise cs = none := by
  induction cs with
  | nil => exact fails [] (List.suffix_refl [])
  | cons c rest ih =>
    rw [firstMatch, fails (c :: rest) (List.suffix_refl _)]
    exact ih fun rest' shorter => fails rest' (shorter.trans (List.suffix_cons c rest))

/-- A part in front counts for nothing when none of its characters begins what is looked for. -/
theorem firstMatch_append_of_none {front : List Char}
    (fails : ∀ c ∈ front, ∀ rest, recognise (c :: rest) = none) :
    firstMatch recognise (front ++ cs) = firstMatch recognise cs := by
  induction front with
  | nil => rfl
  | cons c front ih =>
    rw [List.cons_append, firstMatch, fails c List.mem_cons_self]
    exact ih fun c' member => fails c' (List.mem_cons_of_mem c member)

/-- A part in front counts for nothing when what is looked for begins nowhere in it. -/
theorem firstMatch_append {front : List Char}
    (fails : ∀ n < front.length, recognise ((front ++ cs).drop n) = none) :
    firstMatch recognise (front ++ cs) = firstMatch recognise cs := by
  induction front with
  | nil => rfl
  | cons c front ih =>
    have here : recognise (c :: (front ++ cs)) = none := fails 0 (Nat.succ_pos _)
    rw [List.cons_append, firstMatch, here]
    exact ih fun n before => fails (n + 1) (Nat.succ_lt_succ before)

/-! ## Words and white space -/

def blankCodes : List Nat :=
  [9, 10, 11, 12, 13, 28, 29, 30, 31, 32, 0x85, 0xA0, 0x1680, 0x2000, 0x2001, 0x2002, 0x2003,
    0x2004, 0x2005, 0x2006, 0x2007, 0x2008, 0x2009, 0x200A, 0x2028, 0x2029, 0x202F, 0x205F, 0x3000]

theorem mem_blankCodes {c : Char} (blank : isBlank c = true) : c.toNat ∈ blankCodes := by
  simp only [isBlank, Bool.or_eq_true, Bool.and_eq_true, decide_eq_true_eq] at blank
  simp only [blankCodes, List.mem_cons, List.not_mem_nil, or_false]
  omega

/-- The letters of the Latin alphabet are letters. -/
theorem isAlphanumeric_of_isAsciiLetter {c : Char} (letter : isAsciiLetter c = true) :
    isAlphanumeric c = true := by
  have small : c.toNat < 128 := by
    simp only [isAsciiLetter, isAsciiLower, isAsciiUpper, Bool.or_eq_true, Bool.and_eq_true,
      decide_eq_true_eq] at letter
    have bound : 'z'.toNat < 128 ∧ 'Z'.toNat < 128 := by decide
    rcases letter with lower | upper
    · exact Nat.lt_of_le_of_lt lower.2 bound.1
    · exact Nat.lt_of_le_of_lt upper.2 bound.2
  rw [isAlphanumeric, if_pos small, letter, Bool.true_or]

/-- White space stands in no word. -/
theorem isBlank_of_isWord {c : Char} (word : isWord c = true) : isBlank c = false := by
  have apart : ∀ n ∈ blankCodes, isWord (Char.ofNat n) = false := by decide +kernel
  rw [Bool.eq_false_iff]
  intro blank
  have separate := apart c.toNat (mem_blankCodes blank)
  rw [Char.ofNat_toNat, word] at separate
  cases separate

end RequestSchema.Text
