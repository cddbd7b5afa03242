import Mathlib.Data.List.Basic
import RequestSchema.Source.Lexeme.Scan

/-!
# Spans inside their text

No span is longer than the text at whose head it stands, and a lexeme has at least one character
(`fits_lexemeLength`).
-/
namespace RequestSchema.Source

open RequestSchema.Text

theorem nameTailLength_le (cs : List Char) : nameTailLength cs ≤ cs.length := by
  fun_induction nameTailLength cs <;> simp_all

theorem wordTailLength_le (cs : List Char) : wordTailLength cs ≤ cs.length :=
  (List.takeWhile_prefix isNamePart).length_le

theorem digitTailLength_le (p : Char → Bool) (cs : List Char) :
    digitTailLength p cs ≤ cs.length := by
  fun_induction digitTailLength p cs <;> simp_all

theorem digitLength_le (p : Char → Bool) (cs : List Char) : digitLength p cs ≤ cs.length := by
  unfold digitLength
  split
  · exact Nat.zero_le _
  · rename_i c cs
    have tail := digitTailLength_le p cs
    split
    · rw [List.length_cons]
      omega
    · exact Nat.zero_le _

theorem exponentSignLength_le (cs : List Char) : exponentSignLength cs ≤ cs.length := by
  unfold exponentSignLength
  split <;> simp

theorem exponentLength_le (cs : List Char) : exponentLength cs ≤ cs.length := by
  unfold exponentLength
  split
  · rename_i e cs
    split
    · extract_lets sign n
      have digits := digitLength_le isAsciiDigit (cs.drop sign)
      rw [List.length_drop] at digits
      have signed : sign ≤ cs.length := exponentSignLength_le cs
      split
      · exact Nat.zero_le _
      · rw [List.length_cons]
        omega
    · exact Nat.zero_le _
  · exact Nat.zero_le _

theorem fractionLength_le (cs : List Char) : fractionLength cs ≤ cs.length := by
  unfold fractionLength
  split
  · rename_i cs
    have tail := digitTailLength_le isAsciiDigit cs
    rw [List.length_cons]
    omega
  · exact Nat.zero_le _

theorem plainLength_le {cs : List Char} {n : Nat} (closed : plainLength cs = some n) :
    n ≤ cs.length := by
  fun_induction plainLength cs generalizing n <;> simp_all <;> grind

theorem templateLength_le {open' : List Closer} {cs : List Char} {n : Nat}
    (closed : templateLength open' cs = some n) : n ≤ cs.length := by
  fun_induction templateLength open' cs generalizing n <;> simp_all <;> grind

theorem gapLength_le {g : Gap} {cs : List Char} {n : Nat} (gap : gapLength g cs = some n) :
    n ≤ cs.length := by
  fun_induction gapLength g cs generalizing n <;> simp_all <;> grind

theorem dropStart?_length {start cs rest : List Char} (found : dropStart? start cs = some rest) :
    start.length + rest.length = cs.length := by
  fun_induction dropStart? start cs <;> (simp_all; try omega)

theorem dropFolded_length {word cs rest : List Char} (found : dropFolded word cs = some rest) :
    word.length + rest.length = cs.length := by
  fun_induction dropFolded word cs <;> (simp_all; try omega)

theorem markedLength_le {digit : Char → Bool} {cs : List Char} (some : 0 < cs.length) :
    0 < (markedLength digit cs).2 ∧ (markedLength digit cs).2 ≤ cs.length := by
  have digits := digitLength_le digit (cs.drop 2)
  rw [List.length_drop] at digits
  unfold markedLength
  simp only
  split
  · exact ⟨Nat.one_pos, some⟩
  · exact ⟨by omega, by omega⟩

theorem digitLength_pos {p : Char → Bool} {c : Char} (digit : p c = true) (cs : List Char) :
    0 < digitLength p (c :: cs) := by
  rw [digitLength, if_pos digit]
  exact Nat.succ_pos _

theorem numberLength_le (c : Char) (cs : List Char) (digit : isAsciiDigit c = true) :
    0 < (numberLength (c :: cs)).2 ∧ (numberLength (c :: cs)).2 ≤ cs.length + 1 := by
  unfold numberLength
  extract_lets mark zero whole part power
  split
  · exact markedLength_le (Nat.succ_pos _)
  split
  · exact markedLength_le (Nat.succ_pos _)
  split
  · exact markedLength_le (Nat.succ_pos _)
  have digits : whole ≤ (c :: cs).length := digitLength_le _ _
  have one : 0 < whole := digitLength_pos digit cs
  have fraction : part ≤ ((c :: cs).drop whole).length := fractionLength_le _
  have exponent : power ≤ ((c :: cs).drop (whole + part)).length := exponentLength_le _
  rw [List.length_drop, List.length_cons] at fraction exponent
  rw [List.length_cons] at digits
  split
  · exact ⟨by simp only; omega, by simp only; omega⟩
  split
  · rename_i first
    have same : c = '0' := by simpa [zero] using first
    subst same
    have octal : isOctalDigit '0' = true := rfl
    exact ⟨digitLength_pos octal cs, digitLength_le isOctalDigit ('0' :: cs)⟩
  · exact ⟨one, digits⟩

theorem closingMarkerLength_le {marker cs : List Char} {n : Nat}
    (closes : closingMarkerLength marker cs = some n) : n ≤ cs.length := by
  unfold closingMarkerLength at closes
  simp only at closes
  split at closes
  · rename_i rest found
    have lengths := dropStart?_length found
    have indent := (List.takeWhile_prefix (l := cs) fun c => c = ' ' || c = '\t').length_le
    rw [List.length_drop] at lengths
    split at closes
    · cases closes
    · cases closes
      omega
  · cases closes

theorem heredocBodyLength_le {marker cs : List Char} {n : Nat}
    (closed : heredocBodyLength marker cs = some n) : n ≤ cs.length := by
  fun_induction heredocBodyLength marker cs generalizing n with
  | case1 => cases closed
  | case2 cs m closes =>
    have bound := closingMarkerLength_le closes
    cases closed
    rw [List.length_cons]
    omega
  | case3 cs missing ih =>
    obtain ⟨m, inner, rfl⟩ := Option.map_eq_some_iff.mp closed
    have bound := ih inner
    rw [List.length_cons]
    omega
  | case4 c cs other ih =>
    obtain ⟨m, inner, rfl⟩ := Option.map_eq_some_iff.mp closed
    have bound := ih inner
    rw [List.length_cons]
    omega

theorem markerQuote_le (cs : List Char) : (markerQuote cs).length ≤ cs.length := by
  unfold markerQuote
  split <;> simp

theorem beforeLineFeed?_le {cs : List Char} {n : Nat} (line : beforeLineFeed? cs = some n) :
    n ≤ cs.length := by
  unfold beforeLineFeed? at line
  split at line <;> cases line <;> simp

theorem heredocLength_le {cs : List Char} {n : Nat} (closed : heredocLength cs = some n) :
    n ≤ cs.length := by
  unfold heredocLength at closed
  extract_lets blanks rest quote rest' marker at closed
  have indent : blanks ≤ cs.length :=
    (List.takeWhile_prefix fun c => c = ' ' || c = '\t').length_le
  split at closed
  · split at closed
    · cases closed
    · rename_i body found
      obtain ⟨lineEnd, first, closed⟩ := Option.bind_eq_some_iff.mp closed
      obtain ⟨m, inner, rfl⟩ := Option.map_eq_some_iff.mp closed
      have bound := heredocBodyLength_le inner
      have lengths := dropStart?_length found
      have named : marker.length ≤ rest'.length := (List.takeWhile_prefix isNamePart).length_le
      have quoted : quote.length ≤ rest.length := markerQuote_le rest
      have line : lineEnd ≤ body.length := beforeLineFeed?_le first
      have behind : rest'.length = rest.length - quote.length := List.length_drop
      have whole : rest.length = cs.length - blanks := List.length_drop
      rw [List.length_drop] at bound lengths
      omega
  · cases closed

theorem signLength?_le {cs : List Char} {n : Nat} (found : signLength? cs = some n) :
    0 < n ∧ n ≤ cs.length := by
  obtain ⟨sign, first, rfl⟩ := Option.map_eq_some_iff.mp found
  have begins := List.find?_some first
  have filled : ∀ sign ∈ signs, 0 < sign.length := by decide
  obtain ⟨rest, cut⟩ := Option.isSome_iff_exists.mp begins
  have lengths := dropStart?_length cut
  refine ⟨filled sign (List.mem_of_find?_eq_some first), ?_⟩
  rw [← String.length_toList]
  omega

theorem tagLength_le {cs : List Char} {n : Nat} (tag : tagLength cs = some n) :
    n ≤ cs.length := by
  unfold tagLength at tag
  split at tag
  · rename_i rest
    split at tag
    · rename_i php
      obtain ⟨after, cut⟩ := Option.isSome_iff_exists.mp php
      have lengths := dropFolded_length cut
      cases tag
      simp only [List.length_cons] at *
      have three : "php".toList.length = 3 := rfl
      omega
    split at tag
    · rename_i equals
      cases rest with
      | nil => cases equals
      | cons c rest =>
        cases tag
        simp
    · cases tag
      simp
  · cases tag

theorem pageLength_le (cs : List Char) : pageLength cs ≤ cs.length := by
  fun_induction pageLength cs with
  | case1 => exact Nat.le_refl 0
  | case2 c cs n tag => exact tagLength_le tag
  | case3 c cs page ih => exact Nat.succ_le_succ ih

theorem quotedLength_le {marked : Nat} {cs : List Char} (opens : marked < cs.length) :
    0 < (quotedLength marked cs).2 ∧ (quotedLength marked cs).2 ≤ cs.length := by
  unfold quotedLength
  split
  · exact ⟨Nat.one_pos, by simp only; omega⟩
  · rename_i n closed
    have bound := templateLength_le closed
    rw [List.length_drop] at bound
    refine ⟨by simp only; omega, by simp only; omega⟩

/-- A span fits into a text when it has a character, and no more than the text. -/
def Fits (n : Nat) (span : LexemeKind × Nat) : Prop := 0 < span.2 ∧ span.2 ≤ n

theorem fits_ite {n : Nat} {condition : Prop} [Decidable condition] {span span' : LexemeKind × Nat}
    (yes : condition → Fits n span) (no : ¬ condition → Fits n span') :
    Fits n (if condition then span else span') := by
  split
  · exact yes ‹_›
  · exact no ‹_›

theorem fits_spanOrBad {kind : LexemeKind} {before n : Nat} {length? : Option Nat} (one : 0 < n)
    (closed : ∀ length, length? = some length → 0 < length + before ∧ length + before ≤ n) :
    Fits n (spanOrBad kind before length?) := by
  cases length? with
  | none => exact ⟨Nat.one_pos, one⟩
  | some length => exact closed length rfl

/-- A lexeme has a character, unless the text is over, and no more than the text. -/
theorem fits_lexemeLength (operand : Bool) (c : Char) (cs : List Char) :
    Fits (cs.length + 1) (lexemeLength operand (c :: cs)) := by
  have second {p : Char → Bool} (next : cs.head?.any p = true) : 0 < cs.length := by
    cases cs with
    | nil => cases next
    | cons d cs => exact Nat.succ_pos _
  have following {d : Char} (next : cs.head? = some d) : 0 < cs.length := by
    cases cs with
    | nil => cases next
    | cons d cs => exact Nat.succ_pos _
  have dropped : (cs.drop 1).length = cs.length - 1 := List.length_drop
  rw [lexemeLength]
  refine fits_ite (fun page => ?_) fun _ => ?_
  · rw [Bool.and_eq_true, decide_eq_true_eq, decide_eq_true_eq] at page
    have more := following page.2
    have bound := pageLength_le (cs.drop 1)
    exact ⟨by simp only; omega, by simp only; omega⟩
  refine fits_ite (fun quoted => ?_) fun _ => ?_
  · rw [Bool.and_eq_true, decide_eq_true_eq] at quoted
    have more := following quoted.2
    refine fits_spanOrBad (Nat.succ_pos _) fun n closed => ⟨by omega, ?_⟩
    have bound := plainLength_le closed
    omega
  refine fits_ite (fun quoted => ?_) fun _ => ?_
  · rw [Bool.and_eq_true, decide_eq_true_eq] at quoted
    have more := following quoted.2
    exact quotedLength_le (Nat.succ_lt_succ more)
  refine fits_ite (fun _ => ?_) fun _ => ?_
  · have bound := nameTailLength_le cs
    exact ⟨Nat.succ_pos _, Nat.succ_le_succ bound⟩
  refine fits_ite (fun rooted => ?_) fun _ => ?_
  · rw [Bool.and_eq_true, decide_eq_true_eq] at rooted
    have more := second rooted.2
    have bound := nameTailLength_le (cs.drop 1)
    exact ⟨Nat.succ_pos _, by simp only; omega⟩
  refine fits_ite (fun _ => ?_) fun _ => ?_
  · have bound := wordTailLength_le cs
    exact ⟨Nat.succ_pos _, Nat.succ_le_succ bound⟩
  refine fits_ite (fun digit => numberLength_le c cs digit) fun _ => ?_
  refine fits_ite (fun point => ?_) fun _ => ?_
  · rw [Bool.and_eq_true, Bool.and_eq_true, decide_eq_true_eq] at point
    obtain ⟨⟨rfl, -⟩, -⟩ := point
    have fraction := fractionLength_le ('.' :: cs)
    have exponent := exponentLength_le (('.' :: cs).drop (fractionLength ('.' :: cs)))
    rw [List.length_drop] at exponent
    rw [List.length_cons] at fraction exponent
    have one : 0 < fractionLength ('.' :: cs) := by
      rw [fractionLength]
      omega
    exact ⟨by simp only; omega, by simp only; omega⟩
  refine fits_ite (fun _ => ?_) fun _ => ?_
  · refine fits_spanOrBad (Nat.succ_pos _) fun n closed => ⟨by omega, ?_⟩
    have bound := plainLength_le closed
    omega
  refine fits_ite (fun _ => quotedLength_le (Nat.succ_pos _)) fun _ => ?_
  refine fits_ite (fun _ => ?_) fun _ => ?_
  · refine fits_spanOrBad (Nat.succ_pos _) fun n closed => ⟨by omega, ?_⟩
    have bound := templateLength_le closed
    omega
  cases found : dropStart? "<<<".toList (c :: cs) with
  | some rest =>
    have lengths := dropStart?_length found
    refine fits_spanOrBad (Nat.succ_pos _) fun n closed => ⟨by omega, ?_⟩
    have bound := heredocLength_le closed
    have three : "<<<".toList.length = 3 := rfl
    rw [three, List.length_cons] at lengths
    omega
  | none => exact fits_spanOrBad (Nat.succ_pos _) fun n found => signLength?_le found

end RequestSchema.Source
