import Mathlib.Data.List.Find
import RequestSchema.Proofs.Source.Span

/-!
# Spans in front of other text

How far a lexeme reaches is decided within a text that ends with a character at which spans stop:
the end of a line, or the brace that closes a body. What follows that character does not matter,
unless a mark that closes the lexeme is still missing.
-/
namespace RequestSchema.Source

open RequestSchema.Text

/-! ## What stands behind a text -/

/-- A text between quotes ends at the quote that closes it. -/
theorem plainLength_append {cs : List Char} {n : Nat} (closed : plainLength cs = some n)
    (X : List Char) : plainLength (cs ++ X) = some n := by
  induction cs using plainLength.induct generalizing n with
  | case1 => cases closed
  | case2 =>
    cases closed
    cases X <;> rfl
  | case3 c other =>
    rw [plainLength, if_neg other] at closed
    cases closed
  | case4 d cs =>
    cases closed
    rfl
  | case5 d cs quote ih =>
    obtain ⟨m, inner, rfl⟩ := Option.map_eq_some_iff.mp closed
    exact congrArg (Option.map (· + 2)) (ih inner)
  | case6 c d cs quote slash ih =>
    rw [plainLength, if_neg quote, if_neg slash] at closed
    obtain ⟨m, inner, rfl⟩ := Option.map_eq_some_iff.mp closed
    change plainLength (c :: d :: (cs ++ X)) = _
    rw [plainLength, if_neg quote, if_neg slash]
    exact congrArg (Option.map (· + 1)) (ih inner)

/-- An interpolated text ends at the mark that closes it. -/
theorem templateLength_append {open' : List Closer} {cs : List Char} {n : Nat}
    (closed : templateLength open' cs = some n) (X : List Char) :
    templateLength open' (cs ++ X) = some n := by
  induction open', cs using templateLength.induct generalizing n with
  | case5 outer mark cs slash ih =>
    have step (cs : List Char) : templateLength (.quote mark :: outer) (mark :: cs) =
        (templateLength outer cs).map (· + 1) := by
      rw [templateLength.eq_def]
      simp [slash]
    rw [step] at closed
    obtain ⟨m, inner, rfl⟩ := Option.map_eq_some_iff.mp closed
    rw [List.cons_append, step, ih inner]
    rfl
  | case8 mark outer c cs slash other opens ih =>
    have step (cs : List Char) (same : ¬ (decide (c = '\x7b') && decide (cs.head? = some '$') ||
          decide (c = '$') && decide (cs.head? = some '\x7b')) = true) :
        templateLength (.quote mark :: outer) (c :: cs) =
          (templateLength (.quote mark :: outer) cs).map (· + 1) := by
      rw [templateLength.eq_def]
      simp only [if_neg slash, if_neg other, if_neg same]
    rw [step cs opens] at closed
    obtain ⟨m, inner, rfl⟩ := Option.map_eq_some_iff.mp closed
    -- where the text ends behind the character, it is not closed
    have filled : cs ≠ [] := by
      rintro rfl
      rw [templateLength.eq_def] at inner
      cases inner
    have next : (cs ++ X).head? = cs.head? := List.head?_append_of_ne_nil cs filled
    rw [List.cons_append, step (cs ++ X) (by rw [next]; exact opens), ih inner]
    rfl
  | case11 outer cs slash ih =>
    have step (cs : List Char) : templateLength (.plain :: outer) ('\'' :: cs) =
        (templateLength outer cs).map (· + 1) := by
      rw [templateLength.eq_def]
      simp [slash]
    rw [step] at closed
    obtain ⟨m, inner, rfl⟩ := Option.map_eq_some_iff.mp closed
    rw [List.cons_append, step, ih inner]
    rfl
  | case12 outer c cs slash other ih =>
    have step (cs : List Char) : templateLength (.plain :: outer) (c :: cs) =
        (templateLength (.plain :: outer) cs).map (· + 1) := by
      rw [templateLength.eq_def]
      simp only [if_neg slash, if_neg other]
    rw [step] at closed
    obtain ⟨m, inner, rfl⟩ := Option.map_eq_some_iff.mp closed
    rw [List.cons_append, step, ih inner]
    rfl
  | _ =>
    simp_all [templateLength]
    try grind

theorem quotedLength_append {marked : Nat} {cs : List Char} (opens : marked < cs.length)
    (closed : (quotedLength marked cs).1 ≠ .bad) (X : List Char) :
    quotedLength marked (cs ++ X) = quotedLength marked cs := by
  have behind : (cs ++ X).drop (marked + 1) = cs.drop (marked + 1) ++ X :=
    List.drop_append_of_le_length opens
  unfold quotedLength at closed ⊢
  rw [behind]
  cases inner : templateLength [.quote '"'] (cs.drop (marked + 1)) with
  | none =>
    rw [inner] at closed
    exact absurd rfl closed
  | some n =>
    have bound := templateLength_le inner
    rw [templateLength_append inner X]
    simp only
    rw [List.take_append_of_le_length (by omega)]

/-- A character at which every span ends that is not closed by a mark: the end of a line, and the
brace that closes a body. -/
def Stops (h : Char) : Prop := h = '\n' ∨ h = '\x7d'

namespace Stops

variable {h : Char} (stops : Stops h) (X : List Char)
include stops

theorem isNamePart : isNamePart h = false := by rcases stops with rfl | rfl <;> rfl

theorem isNameStart : isNameStart h = false := by rcases stops with rfl | rfl <;> rfl

theorem isAsciiDigit : isAsciiDigit h = false := by rcases stops with rfl | rfl <;> rfl

theorem isOctalDigit : isOctalDigit h = false := by rcases stops with rfl | rfl <;> rfl

theorem isHexDigit : isHexDigit h = false := by rcases stops with rfl | rfl <;> rfl

/-- A stop is none of the signs in a span. -/
theorem ne {c : Char} (other : c ≠ '\n' ∧ c ≠ '\x7d') : h ≠ c := by
  rintro rfl
  exact stops.elim other.1 other.2

omit stops in
theorem head? (l : List Char) : (l ++ h :: X).head? = (l ++ [h]).head? := by
  cases l <;> rfl

/-- Another character that is next stands in front of the stop. -/
theorem of_head? {d : Char} (other : d ≠ '\n' ∧ d ≠ '\x7d') {l : List Char}
    (next : (l ++ [h]).head? = some d) : ∃ rest, l = d :: rest := by
  cases l with
  | nil => exact absurd (Option.some.inj next) (stops.ne other)
  | cons e rest =>
    cases next
    exact ⟨rest, rfl⟩

omit stops in
theorem takeWhile {p : Char → Bool} (ends : p h = false) (l : List Char) :
    (l ++ h :: X).takeWhile p = l.takeWhile p := by
  induction l with
  | nil => rw [List.nil_append, List.takeWhile_cons_of_neg (by simp [ends]), List.takeWhile_nil]
  | cons c l ih =>
    cases holds : p c with
    | true =>
      rw [List.cons_append, List.takeWhile_cons_of_pos holds, List.takeWhile_cons_of_pos holds, ih]
    | false =>
      rw [List.cons_append, List.takeWhile_cons_of_neg (by simp [holds]),
        List.takeWhile_cons_of_neg (by simp [holds])]

theorem nameTailLength (l : List Char) :
    nameTailLength (l ++ h :: X) = nameTailLength (l ++ [h]) := by
  have part := stops.isNamePart
  have first := stops.isNameStart
  have slash : h ≠ '\\' := stops.ne (by decide)
  induction l using nameTailLength.induct with
  | case1 => cases X <;> simp [Source.nameTailLength, part, slash]
  | case2 c yes => cases X <;> simp [Source.nameTailLength, part, slash, yes]
  | case3 c no => cases X <;> simp [Source.nameTailLength, no, first]
  | case4 c d cs yes ih => simpa [Source.nameTailLength, yes] using ih
  | case5 c d cs no more ih => simpa [Source.nameTailLength, no, more] using ih
  | case6 c d cs no more => simp [Source.nameTailLength, no, more]

theorem wordTailLength (l : List Char) :
    wordTailLength (l ++ h :: X) = wordTailLength (l ++ [h]) := by
  rw [Source.wordTailLength, Source.wordTailLength, takeWhile X stops.isNamePart,
    takeWhile [] stops.isNamePart]

/-- Digits end in front of a stop. -/
theorem digitTailLength {p : Char → Bool} (ends : p h = false) (l : List Char) :
    digitTailLength p (l ++ h :: X) = digitTailLength p (l ++ [h]) ∧
      digitTailLength p (l ++ [h]) ≤ l.length := by
  have low : h ≠ '_' := stops.ne (by decide)
  induction l using digitTailLength.induct p with
  | case1 => cases X <;> simp [Source.digitTailLength, ends, low]
  | case2 c yes => cases X <;> simp [Source.digitTailLength, ends, low, yes]
  | case3 c no => cases X <;> simp [Source.digitTailLength, no, ends]
  | case4 c d cs yes ih => simpa [Source.digitTailLength, yes] using ih
  | case5 c d cs no more ih =>
    have under : c = '_' ∧ p d = true := by simpa using more
    obtain ⟨rfl, digit⟩ := under
    obtain ⟨same, bound⟩ := ih
    simp only [List.cons_append, Source.digitTailLength, no, digit, same, List.length_cons]
    simp
    omega
  | case6 c d cs no more => simp [Source.digitTailLength, no, more]

theorem digitLength {p : Char → Bool} (ends : p h = false) (l : List Char) :
    digitLength p (l ++ h :: X) = digitLength p (l ++ [h]) ∧
      digitLength p (l ++ [h]) ≤ l.length := by
  cases l with
  | nil => simp [Source.digitLength, ends]
  | cons c l =>
    obtain ⟨same, bound⟩ := stops.digitTailLength X ends l
    simp only [List.cons_append, Source.digitLength, same, List.length_cons]
    split
    · simpa using bound
    · simp

theorem fractionLength (l : List Char) :
    fractionLength (l ++ h :: X) = fractionLength (l ++ [h]) ∧
      fractionLength (l ++ [h]) ≤ l.length := by
  have none {c : Char} (other : c ≠ '.') (cs : List Char) :
      Source.fractionLength (c :: cs) = 0 := by
    unfold Source.fractionLength
    split
    · rename_i point
      cases point
      exact absurd rfl other
    · rfl
  cases l with
  | nil =>
    have other : h ≠ '.' := stops.ne (by decide)
    rw [List.nil_append, List.nil_append, none other, none other]
    exact ⟨rfl, Nat.le_refl 0⟩
  | cons c l =>
    by_cases point : c = '.'
    · subst point
      obtain ⟨same, bound⟩ := stops.digitTailLength X stops.isAsciiDigit l
      rw [List.cons_append, List.cons_append, Source.fractionLength, Source.fractionLength, same,
        List.length_cons]
      exact ⟨rfl, by omega⟩
    · rw [List.cons_append, List.cons_append, none point, none point]
      exact ⟨rfl, Nat.zero_le _⟩

theorem exponentSignLength (l : List Char) :
    exponentSignLength (l ++ h :: X) = exponentSignLength (l ++ [h]) ∧
      exponentSignLength (l ++ [h]) ≤ l.length := by
  cases l with
  | nil =>
    have none (X : List Char) : Source.exponentSignLength (h :: X) = 0 := by
      rcases stops with rfl | rfl <;> rfl
    rw [List.nil_append, List.nil_append, none, none]
    exact ⟨rfl, Nat.le_refl 0⟩
  | cons c l =>
    have first (cs : List Char) :
        Source.exponentSignLength (c :: cs) = if c = '+' || c = '-' then 1 else 0 := by
      unfold Source.exponentSignLength
      split
      · rename_i sign
        cases sign
        rfl
      · rename_i sign
        cases sign
        rfl
      · rename_i plus minus
        have other : ¬ (c = '+' || c = '-') = true := by
          simp only [Bool.or_eq_true, decide_eq_true_eq]
          rintro (rfl | rfl)
          · exact plus cs rfl
          · exact minus cs rfl
        rw [if_neg other]
    rw [List.cons_append, List.cons_append, first, first, List.length_cons]
    refine ⟨rfl, ?_⟩
    split <;> omega

theorem exponentLength (l : List Char) :
    exponentLength (l ++ h :: X) = exponentLength (l ++ [h]) := by
  cases l with
  | nil =>
    have other : ¬ (h = 'e' || h = 'E') = true := by
      simp [@ne h stops 'e' (by decide), @ne h stops 'E' (by decide)]
    simp only [List.nil_append, Source.exponentLength, if_neg other]
  | cons e l =>
    obtain ⟨sign, short⟩ := stops.exponentSignLength X l
    simp only [List.cons_append, Source.exponentLength, sign]
    rw [List.drop_append_of_le_length short, List.drop_append_of_le_length short,
      (stops.digitLength X stops.isAsciiDigit _).1]

theorem markedLength {digit : Char → Bool} (ends : digit h = false) (c d : Char) (l : List Char) :
    markedLength digit (c :: d :: (l ++ h :: X)) = markedLength digit (c :: d :: (l ++ [h])) := by
  unfold Source.markedLength
  simp only [List.drop_succ_cons, List.drop_zero]
  rw [(stops.digitLength X ends l).1]

theorem numberLength (c : Char) (l : List Char) :
    numberLength (c :: (l ++ h :: X)) = numberLength (c :: (l ++ [h])) := by
  have mark : ((c :: (l ++ h :: X)).drop 1).head? = ((c :: (l ++ [h])).drop 1).head? := head? X l
  have whole := (stops.digitLength X stops.isAsciiDigit (c :: l)).1
  have short := (stops.digitLength X stops.isAsciiDigit (c :: l)).2
  have octal := (stops.digitLength X stops.isOctalDigit (c :: l)).1
  rw [List.cons_append, List.cons_append] at whole octal
  rw [List.cons_append] at short
  -- a letter that marks a base stands in front of the stop
  have based {digit : Char → Bool} (ends : digit h = false) {first : Char}
      (other : first ≠ '\n' ∧ first ≠ '\x7d') (marked : (l ++ [h]).head? = some first) :
      Source.markedLength digit (c :: (l ++ h :: X)) =
        Source.markedLength digit (c :: (l ++ [h])) := by
    cases l with
    | nil => exact absurd (Option.some.inj marked) (stops.ne other)
    | cons d l => exact stops.markedLength X ends c d l
  have behind (Y : List Char) {n : Nat} (bound : n ≤ (c :: l).length) :
      (c :: (l ++ h :: Y)).drop n = (c :: l).drop n ++ h :: Y :=
    List.drop_append_of_le_length bound
  obtain ⟨part, partShort⟩ := stops.fractionLength X
    ((c :: l).drop (Source.digitLength Text.isAsciiDigit (c :: (l ++ [h]))))
  rw [← behind X short, ← behind [] short] at part
  rw [← behind [] short, List.length_drop] at partShort
  have power {n : Nat} (bound : n ≤ (c :: l).length) :
      Source.exponentLength ((c :: (l ++ h :: X)).drop n) =
        Source.exponentLength ((c :: (l ++ [h])).drop n) := by
    rw [behind X bound, behind [] bound, stops.exponentLength]
  unfold Source.numberLength
  simp only [mark, whole, part, octal]
  rw [power (by omega)]
  refine ite_congr rfl (fun marked => ?_) fun _ => ite_congr rfl (fun marked => ?_) fun _ =>
    ite_congr rfl (fun marked => ?_) fun _ => rfl
  all_goals
    simp only [List.drop_succ_cons, List.drop_zero, Bool.and_eq_true, Bool.or_eq_true,
      decide_eq_true_eq] at marked
  · exact marked.2.elim (based stops.isHexDigit (by decide)) (based stops.isHexDigit (by decide))
  · have binary : (fun c => c = '0' || c = '1' : Char → Bool) h = false := by
      rcases stops with rfl | rfl <;> rfl
    exact marked.2.elim (based binary (by decide)) (based binary (by decide))
  · exact marked.2.elim (based stops.isOctalDigit (by decide))
      (based stops.isOctalDigit (by decide))

omit stops in
/-- A beginning without the stop stands in front of it. -/
theorem dropStart? {start : List Char} (free : h ∉ start) (l : List Char) :
    dropStart? start (l ++ h :: X) = (dropStart? start l).map (· ++ h :: X) := by
  induction start generalizing l with
  | nil => rfl
  | cons a start ih =>
    have other : a ≠ h := fun same => free (same ▸ List.mem_cons_self)
    cases l with
    | nil => simp [Text.dropStart?, other]
    | cons c l =>
      rw [List.cons_append, Text.dropStart?, Text.dropStart?,
        ih (fun member => free (List.mem_cons_of_mem a member))]
      split <;> rfl

omit stops in
theorem isSome_dropStart? {start : List Char} (free : h ∉ start) (l : List Char) :
    (Text.dropStart? start (l ++ h :: X)).isSome =
      (Text.dropStart? start (l ++ [h])).isSome := by
  rw [dropStart? X free, dropStart? [] free, Option.isSome_map, Option.isSome_map]

omit stops in
theorem dropFolded {word : List Char} (free : ∀ letter ∈ word, foldsTo letter h = false)
    (l : List Char) : dropFolded word (l ++ h :: X) = (dropFolded word l).map (· ++ h :: X) := by
  induction word generalizing l with
  | nil => rfl
  | cons letter word ih =>
    have other := free letter List.mem_cons_self
    cases l with
    | nil => simp [Text.dropFolded, other]
    | cons c l =>
      rw [List.cons_append, Text.dropFolded, Text.dropFolded,
        ih fun letter member => free letter (List.mem_cons_of_mem _ member)]
      split <;> rfl

theorem signLength? (c : Char) (l : List Char) :
    signLength? (c :: (l ++ h :: X)) = signLength? (c :: (l ++ [h])) := by
  have ends : ∀ sign ∈ signs, ('\n' ∉ sign.toList ∧ '\x7d' ∉ sign.toList) ∨ sign = "\x7d" := by
    decide
  have same (sign : String) (listed : sign ∈ signs) :
      (Text.dropStart? sign.toList (c :: (l ++ h :: X))).isSome =
        (Text.dropStart? sign.toList (c :: (l ++ [h]))).isSome := by
    rcases ends sign listed with ⟨line, brace⟩ | rfl
    · have free : h ∉ sign.toList := by
        rcases stops with rfl | rfl
        · exact line
        · exact brace
      exact isSome_dropStart? X free (c :: l)
    · simp only [Text.dropStart?, show "\x7d".toList = ['\x7d'] from rfl]
      split <;> rfl
  unfold Source.signLength?
  congr 1
  exact List.find?_congr fun sign listed => same sign listed

/-! ### Heredocs -/

omit stops in
theorem blanks (stops : Stops h) (l : List Char) :
    (l ++ h :: X).takeWhile (fun c => c = ' ' || c = '\t') =
      l.takeWhile fun c => c = ' ' || c = '\t' :=
  takeWhile X (by rcases stops with rfl | rfl <;> rfl) l

/-- A marker is looked for in front of a stop that is no part of it. -/
theorem closingMarkerLength {marker : List Char} (free : h ∉ marker) (l : List Char) :
    closingMarkerLength marker (l ++ h :: X) = closingMarkerLength marker (l ++ [h]) := by
  have short : (l.takeWhile fun c => c = ' ' || c = '\t').length ≤ l.length :=
    (List.takeWhile_prefix _).length_le
  unfold Source.closingMarkerLength
  simp only [stops.blanks X, stops.blanks []]
  rw [List.drop_append_of_le_length short, List.drop_append_of_le_length short, dropStart? X free,
    dropStart? [] free]
  cases Text.dropStart? marker (l.drop (l.takeWhile fun c => c = ' ' || c = '\t').length) with
  | none => rfl
  | some rest => simp only [Option.map_some, head? X rest]

theorem heredocBodyLength {marker : List Char} (free : h ∉ marker) (named : marker ≠ [])
    {l : List Char} {n : Nat} (closed : heredocBodyLength marker (l ++ [h]) = some n) :
    Source.heredocBodyLength marker (l ++ h :: X) = some n := by
  induction l generalizing n with
  | nil =>
    have missing : Source.closingMarkerLength marker [] = none := by
      cases marker with
      | nil => exact absurd rfl named
      | cons a marker => rfl
    simp [Source.heredocBodyLength, missing] at closed
  | cons c l ih =>
    have inner {n : Nat}
        (closed : (Source.heredocBodyLength marker (l ++ [h])).map (· + 1) = some n) :
        (Source.heredocBodyLength marker (l ++ h :: X)).map (· + 1) = some n := by
      obtain ⟨m, inner, rfl⟩ := Option.map_eq_some_iff.mp closed
      rw [ih inner]
      rfl
    simp only [List.cons_append, Source.heredocBodyLength,
      stops.closingMarkerLength X free] at closed ⊢
    split at closed
    · rename_i line
      rw [if_pos line]
      split at closed
      · exact closed
      · exact inner closed
    · rename_i other
      rw [if_neg other]
      exact inner closed

theorem markerQuote (l : List Char) : markerQuote (l ++ h :: X) = markerQuote l := by
  cases l with
  | nil => rcases stops with rfl | rfl <;> rfl
  | cons c l =>
    unfold Source.markerQuote
    split <;> simp_all

theorem not_mem_markerQuote (l : List Char) : h ∉ Source.markerQuote l := by
  have plain : h ≠ '\'' := stops.ne (by decide)
  have double : h ≠ '"' := stops.ne (by decide)
  unfold Source.markerQuote
  split <;> simp [plain, double]

omit stops in
theorem beforeLineFeed?_cons (c : Char) (cs : List Char) : Source.beforeLineFeed? (c :: cs) =
    if c = '\n' then some 0 else if c = '\r' ∧ cs.head? = some '\n' then some 1 else none := by
  unfold Source.beforeLineFeed?
  split
  · rename_i ends
    cases ends
    rfl
  · rename_i ends
    cases ends
    rfl
  · rename_i carriage feed
    have other : c ≠ '\n' := by
      rintro rfl
      exact feed cs rfl
    have alone : ¬ (c = '\r' ∧ cs.head? = some '\n') := by
      rintro ⟨rfl, next⟩
      obtain ⟨rest, rfl⟩ := List.head?_eq_some_iff.mp next
      exact carriage rest rfl
    rw [if_neg other, if_neg alone]

theorem beforeLineFeed? (l : List Char) :
    beforeLineFeed? (l ++ h :: X) = beforeLineFeed? (l ++ [h]) ∧
      ∀ n, Source.beforeLineFeed? (l ++ [h]) = some n → n ≤ l.length := by
  have follows (l : List Char) : (l ++ h :: X).head? = (l ++ [h]).head? := head? X l
  cases l with
  | nil =>
    have other : h ≠ '\r' := stops.ne (by decide)
    simp only [List.nil_append, beforeLineFeed?_cons, other, false_and, if_false, true_and]
    intro n line
    split at line <;> cases line
    exact Nat.le_refl 0
  | cons c l =>
    simp only [List.cons_append, beforeLineFeed?_cons, follows, List.length_cons, true_and]
    intro n line
    split at line
    · cases line
      omega
    · split at line <;> cases line
      omega

theorem heredocLength {l : List Char} {n : Nat} (closed : heredocLength (l ++ [h]) = some n) :
    Source.heredocLength (l ++ h :: X) = some n := by
  have first := stops.isNameStart
  have part := stops.isNamePart
  have short : (l.takeWhile fun c => c = ' ' || c = '\t').length ≤ l.length :=
    (List.takeWhile_prefix _).length_le
  unfold Source.heredocLength at closed ⊢
  simp only [stops.blanks X, stops.blanks [], List.drop_append_of_le_length short,
    stops.markerQuote] at closed ⊢
  set rest := l.drop (l.takeWhile fun c => c = ' ' || c = '\t').length
  have quoted : (Source.markerQuote rest).length ≤ rest.length := markerQuote_le rest
  rw [List.drop_append_of_le_length quoted] at closed ⊢
  set inner := rest.drop (Source.markerQuote rest).length
  rw [head? X inner]
  simp only [takeWhile X part, takeWhile [] part] at closed ⊢
  set marker := inner.takeWhile Source.isNamePart
  have named : marker.length ≤ inner.length := (List.takeWhile_prefix _).length_le
  have free : h ∉ marker := fun member => by
    have letter := List.all_eq_true.mp List.all_takeWhile h member
    rw [part] at letter
    cases letter
  have unquoted : h ∉ Source.markerQuote rest := stops.not_mem_markerQuote rest
  split at closed
  · rename_i opens
    rw [if_pos opens]
    have some : marker ≠ [] := by
      intro unnamed
      obtain ⟨c, next, letter⟩ := (Option.any_eq_true _ _).mp opens
      obtain ⟨others, split⟩ : ∃ others, inner = c :: others := by
        cases whole : inner with
        | nil =>
          rw [whole] at next
          cases next
          rw [first] at letter
          cases letter
        | cons d others =>
          rw [whole] at next
          cases next
          exact ⟨others, rfl⟩
      have letter : Source.isNamePart c = true := by simp [Source.isNamePart, letter]
      rw [show marker = inner.takeWhile Source.isNamePart from rfl, split,
        List.takeWhile_cons_of_pos letter] at unnamed
      cases unnamed
    rw [List.drop_append_of_le_length named, dropStart? _ unquoted] at closed ⊢
    cases cut : Text.dropStart? (Source.markerQuote rest) (inner.drop marker.length) with
    | none =>
      rw [cut] at closed
      cases closed
    | some body =>
      rw [cut] at closed
      simp only [Option.map_some] at closed ⊢
      rw [(stops.beforeLineFeed? X body).1]
      obtain ⟨lineEnd, line, closed⟩ := Option.bind_eq_some_iff.mp closed
      have within := (stops.beforeLineFeed? X body).2 lineEnd line
      rw [line, Option.bind_some]
      rw [List.drop_append_of_le_length within] at closed ⊢
      obtain ⟨m, ends, rfl⟩ := Option.map_eq_some_iff.mp closed
      rw [stops.heredocBodyLength X free some ends]
      rfl
  · cases closed

/-! ### Pages -/

omit stops in
theorem tagLength_other {c d : Char} (other : ¬ (c = '<' ∧ d = '?')) (cs : List Char) :
    Source.tagLength (c :: d :: cs) = none := by
  unfold Source.tagLength
  split
  · rename_i same
    cases same
    exact absurd ⟨rfl, rfl⟩ other
  · rfl

theorem tagLength (l : List Char) : tagLength (l ++ h :: X) = tagLength (l ++ [h]) ∧
    ∀ n, Source.tagLength (l ++ [h]) = some n → n ≤ l.length := by
  match l with
  | [] =>
    have none (X : List Char) : Source.tagLength (h :: X) = none := by
      rcases stops with rfl | rfl <;> rfl
    rw [List.nil_append, List.nil_append, none, none]
    exact ⟨rfl, fun n tag => absurd tag (Option.some_ne_none n).symm⟩
  | [c] =>
    have other : ¬ (c = '<' ∧ h = '?') := fun same => stops.ne (by decide) same.2
    rw [List.singleton_append, List.singleton_append, tagLength_other other, tagLength_other other]
    exact ⟨rfl, fun n tag => absurd tag (Option.some_ne_none n).symm⟩
  | c :: d :: l =>
    by_cases opens : c = '<' ∧ d = '?'
    · obtain ⟨rfl, rfl⟩ := opens
      have other : "php".toList.all (fun letter => !foldsTo letter h) = true := by
        rcases stops with rfl | rfl <;> decide
      have free : ∀ letter ∈ "php".toList, foldsTo letter h = false := fun letter member => by
        simpa using List.all_eq_true.mp other letter member
      simp only [List.cons_append, Source.tagLength, dropFolded X free, dropFolded [] free,
        Option.isSome_map, head? X l, List.length_cons, true_and]
      intro n tag
      split at tag
      · rename_i php
        obtain ⟨after, cut⟩ := Option.isSome_iff_exists.mp php
        have lengths := dropFolded_length cut
        have three : "php".toList.length = 3 := by decide
        cases tag
        omega
      split at tag
      · rename_i equals
        cases tag
        cases l with
        | nil => exact absurd (Option.some.inj equals) (stops.ne (by decide))
        | cons e l => rw [List.length_cons]; omega
      · cases tag
        omega
    · rw [List.cons_append, List.cons_append, List.cons_append, List.cons_append,
        tagLength_other opens, tagLength_other opens]
      exact ⟨rfl, fun n tag => absurd tag (Option.some_ne_none n).symm⟩

/-- A page that ends in front of a stop ends there in front of any text. -/
theorem pageLength {l : List Char} (ends : pageLength (l ++ [h]) ≤ l.length) :
    Source.pageLength (l ++ h :: X) = Source.pageLength (l ++ [h]) := by
  induction l with
  | nil =>
    have none : Source.tagLength [h] = none := by rcases stops with rfl | rfl <;> rfl
    rw [List.nil_append, Source.pageLength, none] at ends
    exact absurd ends (Nat.not_succ_le_zero _)
  | cons c l ih =>
    have tag := (stops.tagLength X (c :: l)).1
    rw [List.cons_append, List.cons_append] at tag ⊢
    rw [List.cons_append, Source.pageLength] at ends
    rw [Source.pageLength, Source.pageLength, tag]
    cases found : Source.tagLength (c :: (l ++ [h])) with
    | some n => rfl
    | none =>
      rw [found] at ends
      exact congrArg (· + 1) (ih (Nat.le_of_succ_le_succ ends))

/-! ### Gaps and lexemes -/

/-- A gap of `n` characters in a text up to a stop: where it ends in front of the stop, it ends
there in front of any text, and where it takes the end of a line, it goes on behind it. -/
structure GapEnds (h : Char) (X : List Char) (g : Gap) (l : List Char) (n : Nat) : Prop where
  before : n ≤ l.length → Source.gapLength g (l ++ h :: X) = some n
  beyond : n = l.length + 1 → h = '\n' →
    Source.gapLength g (l ++ h :: X) = (Source.gapLength .blank X).map (· + (l.length + 1))

omit stops in
/-- Some characters in front of a gap. -/
theorem GapEnds.step {g g' : Gap} {l l' : List Char} {k n : Nat}
    (ends : ∀ m, Source.gapLength g' (l' ++ [h]) = some m → GapEnds h X g' l' m)
    (gap : (Source.gapLength g' (l' ++ [h])).map (· + k) = some n)
    (length : l.length = l'.length + k)
    (through : Source.gapLength g (l ++ h :: X) =
      (Source.gapLength g' (l' ++ h :: X)).map (· + k)) : GapEnds h X g l n := by
  obtain ⟨m, inner, rfl⟩ := Option.map_eq_some_iff.mp gap
  have ends := ends m inner
  constructor
  · intro short
    rw [through, ends.before (by omega)]
    rfl
  · intro whole line
    rw [through, ends.beyond (by omega) line, Option.map_map, length]
    congr 1
    funext m
    simp only [Function.comp_apply]
    omega

omit stops in
theorem gapEnds_stop {g : Gap} {n : Nat} (nothing : n = 0 → Source.gapLength g (h :: X) = some 0)
    (line : n = 1 → h = '\n' →
      Source.gapLength g (h :: X) = (Source.gapLength .blank X).map (· + 1)) :
    GapEnds h X g [] n := by
  constructor
  · intro short
    obtain rfl := Nat.le_zero.mp short
    exact nothing rfl
  · exact line

omit stops in
theorem gapLength_blank (c : Char) (cs : List Char) : Source.gapLength .blank (c :: cs) =
    if isSpace c then (Source.gapLength .blank cs).map (· + 1)
    else if c = '#' && cs.head? != some '[' then (Source.gapLength .lineComment cs).map (· + 1)
    else if c = '/' && cs.head? = some '/' then (Source.gapLength .lineComment cs).map (· + 1)
    else if c = '/' && cs.head? = some '*' then
      (Source.gapLength .blockComment (cs.drop 1)).map (· + 2)
    else some 0 := by
  cases cs with
  | nil => simp [Source.gapLength]
  | cons d cs => rw [Source.gapLength, List.drop_succ_cons, List.drop_zero]

omit stops in
theorem gapLength_blockComment (c : Char) (cs : List Char) :
    Source.gapLength .blockComment (c :: cs) =
      if c = '*' ∧ cs.head? = some '/' then (Source.gapLength .blank (cs.drop 1)).map (· + 2)
      else (Source.gapLength .blockComment cs).map (· + 1) := by
  by_cases ends : c = '*' ∧ cs.head? = some '/'
  · obtain ⟨rfl, next⟩ := ends
    obtain ⟨rest, rfl⟩ := List.head?_eq_some_iff.mp next
    simp [Source.gapLength]
  · rw [if_neg ends, Source.gapLength]
    rintro rest rfl rfl
    exact ends ⟨rfl, rfl⟩

/-- A gap in front of which nothing but the stop is left. -/
theorem gapEnds_nil {g : Gap} {n : Nat} (gap : gapLength g [h] = some n) : GapEnds h X g [] n := by
  have hash : h ≠ '#' := stops.ne (by decide)
  have slash : h ≠ '/' := stops.ne (by decide)
  have query : h ≠ '?' := stops.ne (by decide)
  have ended (cs : List Char) (space : isSpace h = false) :
      Source.gapLength .blank (h :: cs) = some 0 := by
    simp [gapLength_blank, hash, slash, space]
  cases g with
  | blank =>
    rcases stops with rfl | rfl
    · have space : isSpace '\n' = true := by decide
      rw [gapLength_blank, if_pos space] at gap
      obtain ⟨m, inner, rfl⟩ := Option.map_eq_some_iff.mp gap
      refine gapEnds_stop X (fun none => absurd none (Nat.succ_ne_zero m)) fun _ _ => ?_
      rw [gapLength_blank, if_pos space]
    · refine gapEnds_stop X (fun _ => ended X (by decide)) fun one => ?_
      rw [ended [] (by decide)] at gap
      cases gap
      cases one
  | lineComment =>
    refine gapEnds_stop X (fun none => ?_) fun _ line => ?_
    · subst none
      simp [Source.gapLength, query] at gap
    · rw [Source.gapLength, if_pos (by simp [line])]
  | blockComment =>
    have star : h ≠ '*' := stops.ne (by decide)
    simp [gapLength_blockComment, Source.gapLength, star] at gap

theorem gapEnds {g : Gap} {l : List Char} {n : Nat}
    (gap : gapLength g (l ++ [h]) = some n) : GapEnds h X g l n := by
  have next (l : List Char) : (l ++ h :: X).head? = (l ++ [h]).head? := head? X l
  induction size : l.length using Nat.strong_induction_on generalizing g l n with
  | _ size ih =>
  subst size
  have step {g' : Gap} {l' : List Char} (k : Nat) (length : l.length = l'.length + k)
      (more : 0 < k) (inner : (Source.gapLength g' (l' ++ [h])).map (· + k) = some n)
      (through : Source.gapLength g (l ++ h :: X) =
        (Source.gapLength g' (l' ++ h :: X)).map (· + k)) : GapEnds h X g l n :=
    .step X (fun m gap => ih l'.length (by omega) gap rfl) inner length through
  cases l with
  | nil => exact stops.gapEnds_nil X gap
  | cons c l =>
    rw [List.cons_append] at gap
    cases g with
    | blank =>
      rw [gapLength_blank] at gap
      split at gap
      · rename_i space
        exact step 1 rfl Nat.one_pos gap (by rw [List.cons_append, gapLength_blank, if_pos space])
      rename_i space
      split at gap
      · rename_i sign
        refine step 1 rfl Nat.one_pos gap ?_
        rw [List.cons_append, gapLength_blank, if_neg space, next, if_pos sign]
      rename_i sign
      split at gap
      · rename_i slashes
        refine step 1 rfl Nat.one_pos gap ?_
        rw [List.cons_append, gapLength_blank, if_neg space, next, if_neg sign, if_pos slashes]
      rename_i slashes
      split at gap
      · rename_i star
        have star' := star
        simp only [Bool.and_eq_true, decide_eq_true_eq] at star'
        obtain ⟨rest, rfl⟩ := stops.of_head? (by decide) star'.2
        refine step 2 rfl Nat.two_pos gap ?_
        rw [List.cons_append, gapLength_blank, if_neg space, next, if_neg sign, if_neg slashes,
          if_pos star]
        rfl
      · rename_i star
        cases gap
        refine ⟨fun _ => ?_, fun whole => absurd whole (Nat.succ_ne_zero _).symm⟩
        rw [List.cons_append, gapLength_blank, if_neg space, next, if_neg sign, if_neg slashes,
          if_neg star]
    | lineComment =>
      rw [Source.gapLength] at gap
      split at gap
      · rename_i line
        exact step 1 rfl Nat.one_pos gap (by rw [List.cons_append, Source.gapLength, if_pos line])
      rename_i line
      split at gap
      · rename_i tag
        cases gap
        refine ⟨fun _ => ?_, fun whole => absurd whole (Nat.succ_ne_zero _).symm⟩
        rw [List.cons_append, Source.gapLength, if_neg line, next, if_pos tag]
      · rename_i tag
        refine step 1 rfl Nat.one_pos gap ?_
        rw [List.cons_append, Source.gapLength, if_neg line, next, if_neg tag]
    | blockComment =>
      rw [gapLength_blockComment] at gap
      split at gap
      · rename_i ends
        obtain ⟨rest, rfl⟩ := stops.of_head? (by decide) ends.2
        refine step 2 rfl Nat.two_pos gap ?_
        rw [List.cons_append, gapLength_blockComment, next, if_pos ends]
        rfl
      · rename_i other
        refine step 1 rfl Nat.one_pos gap ?_
        rw [List.cons_append, gapLength_blockComment, next, if_neg other]

end Stops

/-- The span has an end, and it is no page that takes the last character of a text. -/
def Closed (length : Nat) (span : LexemeKind × Nat) : Prop :=
  span.1 ≠ .bad ∧ (span.1 = .page → span.2 < length)

theorem closed_ite {length : Nat} {condition : Prop} [Decidable condition]
    {span span' other other' : LexemeKind × Nat}
    (closed : Closed length (if condition then span else other))
    (yes : condition → Closed length span → span' = span)
    (no : ¬ condition → Closed length other → other' = other) :
    (if condition then span' else other') = if condition then span else other := by
  split at closed
  · rename_i holds
    rw [if_pos holds, if_pos holds, yes holds closed]
  · rename_i fails
    rw [if_neg fails, if_neg fails, no fails closed]

theorem closed_spanOrBad {length before : Nat} {kind : LexemeKind} {n? n?' : Option Nat}
    (closed : Closed length (spanOrBad kind before n?))
    (same : ∀ n, n? = some n → n?' = some n) :
    spanOrBad kind before n?' = spanOrBad kind before n? := by
  cases n? with
  | none => exact absurd rfl closed.1
  | some n => rw [same n rfl]

namespace Stops

variable {h : Char} (stops : Stops h) (X : List Char)
include stops

/-- A lexeme in front of a stop that has an end. -/
theorem lexemeLength {operand : Bool} {c : Char} {l : List Char}
    (closed : Closed (l.length + 2) (lexemeLength operand (c :: (l ++ [h])))) :
    lexemeLength operand (c :: (l ++ h :: X)) = lexemeLength operand (c :: (l ++ [h])) := by
  have follows : (l ++ h :: X).head? = (l ++ [h]).head? := head? X l
  have whole (l : List Char) : l ++ h :: X = l ++ [h] ++ X := by simp
  have plain (l : List Char) (n : Nat) (ends : plainLength (l ++ [h]) = some n) :
      plainLength (l ++ h :: X) = some n := by
    rw [whole]
    exact plainLength_append ends X
  have quoted {marked : Nat} (opens : marked < (c :: (l ++ [h])).length)
      (closed : Closed (l.length + 2) (quotedLength marked (c :: (l ++ [h])))) :
      quotedLength marked (c :: (l ++ h :: X)) = quotedLength marked (c :: (l ++ [h])) := by
    rw [whole, ← List.cons_append]
    exact quotedLength_append opens closed.1 X
  rw [Source.lexemeLength] at closed
  rw [Source.lexemeLength, Source.lexemeLength]
  simp only [follows]
  refine closed_ite closed (fun page closed => ?_) fun _ closed => ?_
  · simp only [Bool.and_eq_true, decide_eq_true_eq] at page
    obtain ⟨rest, rfl⟩ := stops.of_head? (by decide) page.2
    have short := closed.2 rfl
    simp only [List.cons_append, List.drop_succ_cons, List.drop_zero, List.length_cons] at short ⊢
    rw [stops.pageLength X (by omega)]
  refine closed_ite closed (fun opens closed => ?_) fun _ closed => ?_
  · simp only [Bool.and_eq_true, decide_eq_true_eq] at opens
    obtain ⟨rest, rfl⟩ := stops.of_head? (by decide) opens.2
    exact closed_spanOrBad closed (plain rest)
  refine closed_ite closed (fun opens closed => quoted ?_ closed) fun _ closed => ?_
  · rw [List.length_cons, List.length_append, List.length_singleton]
    omega
  refine closed_ite closed (fun _ _ => by rw [stops.nameTailLength]) fun _ closed => ?_
  refine closed_ite closed (fun rooted _ => ?_) fun _ closed => ?_
  · cases l with
    | nil => simp [stops.isNameStart] at rooted
    | cons d l =>
      simp only [List.cons_append, List.drop_succ_cons, List.drop_zero]
      rw [stops.nameTailLength]
  refine closed_ite closed (fun _ _ => by rw [stops.wordTailLength]) fun _ closed => ?_
  refine closed_ite closed (fun _ _ => stops.numberLength X c l) fun _ closed => ?_
  refine closed_ite closed (fun _ _ => ?_) fun _ closed => ?_
  · obtain ⟨same, short⟩ := stops.fractionLength X (c :: l)
    rw [List.cons_append, List.cons_append] at same
    rw [List.cons_append] at short
    have behind (Y : List Char) :
        (c :: (l ++ h :: Y)).drop (Source.fractionLength (c :: (l ++ [h]))) =
          (c :: l).drop (Source.fractionLength (c :: (l ++ [h]))) ++ h :: Y :=
      List.drop_append_of_le_length short
    simp only [same, behind, stops.exponentLength X]
  refine closed_ite closed (fun _ closed => closed_spanOrBad closed (plain l)) fun _ closed => ?_
  refine closed_ite closed (fun _ closed => quoted (Nat.succ_pos _) closed) fun _ closed => ?_
  refine closed_ite closed (fun _ closed => ?_) fun _ closed => ?_
  · refine closed_spanOrBad closed fun n ends => ?_
    rw [whole]
    exact templateLength_append ends X
  have free : h ∉ "<<<".toList := by
    rcases stops with rfl | rfl <;> decide
  have arrows (Y : List Char) := dropStart? Y free (c :: l)
  simp only [List.cons_append] at arrows
  rw [arrows] at closed
  rw [arrows, arrows]
  cases cut : Text.dropStart? "<<<".toList (c :: l) with
  | some rest =>
    rw [cut] at closed
    exact closed_spanOrBad closed fun n => stops.heredocLength X
  | none =>
    simp only [Option.map_none, stops.signLength? X]

end Stops

end RequestSchema.Source
