import Mathlib.Data.List.Basic
import RequestSchema.Text.Lines

/-!
# Lines that end with line feeds

In a text without other line ends, the lines of a text are those of its parts, where the first part
ends with a line feed, and there are as many as there are line feeds. A text whose lines end with
carriage returns as well is such a text once its line ends are unified.
-/
namespace RequestSchema.Text

def isNewline (c : Char) : Bool := c = '\r' || c = '\n'

/-- Every line end in a text is made of carriage returns and line feeds. -/
def NewlinesOnly (cs : List Char) : Prop := ∀ c ∈ cs, isLineEnd c = true → isNewline c = true

instance (cs : List Char) : Decidable (NewlinesOnly cs) :=
  List.decidableBAll (fun c => isLineEnd c = true → isNewline c = true) cs

/-- Every line end in a text is a line feed. -/
def LineFeedsOnly (cs : List Char) : Prop := ∀ c ∈ cs, isLineEnd c = true → c = '\n'

instance (cs : List Char) : Decidable (LineFeedsOnly cs) :=
  List.decidableBAll (fun c => isLineEnd c = true → c = '\n') cs

theorem LineFeedsOnly.append {cs ds : List Char} (first : LineFeedsOnly cs)
    (second : LineFeedsOnly ds) : LineFeedsOnly (cs ++ ds) := by
  intro c member
  rcases List.mem_append.mp member with inside | inside
  · exact first c inside
  · exact second c inside

/-- A character that ends no line belongs to the first line behind it. -/
theorem splitLines_cons {c : Char} (inner : isLineEnd c = false) (cs : List Char) :
    splitLines (c :: cs) = match splitLines cs with
      | [] => [[c]]
      | line :: lines => (c :: line) :: lines := by
  have other : c ≠ '\r' := by
    rintro rfl
    cases inner
  cases cs with
  | nil => rfl
  | cons d cs =>
    cases split : splitLines (d :: cs) with
    | nil => simp [splitLines, other, inner, split]
    | cons line lines => simp [splitLines, other, inner, split]

theorem splitLines_lineFeed (cs : List Char) :
    splitLines ('\n' :: cs) = ['\n'] :: splitLines cs := by
  have lineEnd : isLineEnd '\n' = true := by decide
  cases cs with
  | nil => rfl
  | cons d cs => simp [splitLines, lineEnd]

theorem splitLines_ne_nil {cs : List Char} (some : cs ≠ []) : splitLines cs ≠ [] := by
  intro none
  have whole := flatten_splitLines cs
  rw [none] at whole
  exact some whole.symm

/-- Lines behind a line feed are lines of their own. -/
theorem splitLines_append {cs : List Char} (plain : LineFeedsOnly cs) (ds : List Char) :
    splitLines (cs ++ '\n' :: ds) = splitLines (cs ++ ['\n']) ++ splitLines ds := by
  induction cs with
  | nil => rw [List.nil_append, List.nil_append, splitLines_lineFeed, splitLines_lineFeed]; rfl
  | cons c cs ih =>
    have ih := ih fun d member => plain d (List.mem_cons_of_mem c member)
    rw [List.cons_append, List.cons_append]
    cases ends : isLineEnd c with
    | true =>
      obtain rfl := plain c List.mem_cons_self ends
      rw [splitLines_lineFeed, splitLines_lineFeed, ih, List.cons_append]
    | false =>
      rw [splitLines_cons ends, splitLines_cons ends, ih]
      obtain ⟨line, lines, some⟩ := List.exists_cons_of_ne_nil
        (@splitLines_ne_nil (cs ++ ['\n']) (by simp))
      rw [some]
      rfl

/-- A text with a single line behind it has a line for every line feed, and that one. -/
theorem length_splitLines {cs w : List Char} (plain : LineFeedsOnly cs)
    (single : splitLines w = [w]) : (splitLines (cs ++ w)).length = cs.count '\n' + 1 := by
  have filled : w ≠ [] := by
    rintro rfl
    cases single
  induction cs with
  | nil => rw [List.nil_append, single]; rfl
  | cons c cs ih =>
    have ih := ih fun d member => plain d (List.mem_cons_of_mem c member)
    rw [List.cons_append]
    cases ends : isLineEnd c with
    | true =>
      obtain rfl := plain c List.mem_cons_self ends
      rw [splitLines_lineFeed, List.length_cons, ih, List.count_cons_self]
    | false =>
      have other : c ≠ '\n' := by
        rintro rfl
        cases ends
      obtain ⟨line, lines, some⟩ := List.exists_cons_of_ne_nil
        (splitLines_ne_nil (List.append_ne_nil_of_right_ne_nil cs filled))
      rw [splitLines_cons ends, List.count_cons_of_ne other]
      rw [some] at ih ⊢
      exact ih

/-- A text without line ends in front of a text belongs to its first line. -/
theorem splitLines_word {w : List Char} (inner : ∀ c ∈ w, isLineEnd c = false) {cs : List Char}
    {line : List Char} {lines : List (List Char)} (split : splitLines cs = line :: lines) :
    splitLines (w ++ cs) = (w ++ line) :: lines := by
  induction w with
  | nil => exact split
  | cons c w ih =>
    rw [List.cons_append, splitLines_cons (inner c List.mem_cons_self),
      ih fun d member => inner d (List.mem_cons_of_mem c member)]
    rfl

/-- A line at the end of a text belongs to its last line. -/
theorem splitLines_last {cs w : List Char} (plain : LineFeedsOnly cs)
    (single : splitLines w = [w]) :
    ∃ others line, splitLines (cs ++ w) = others ++ [line ++ w] := by
  induction cs with
  | nil => exact ⟨[], [], single⟩
  | cons c cs ih =>
    obtain ⟨others, line, last⟩ := ih fun d member => plain d (List.mem_cons_of_mem c member)
    rw [List.cons_append]
    cases ends : isLineEnd c with
    | true =>
      obtain rfl := plain c List.mem_cons_self ends
      exact ⟨['\n'] :: others, line, by rw [splitLines_lineFeed, last]; rfl⟩
    | false =>
      rw [splitLines_cons ends, last]
      cases others with
      | nil => exact ⟨[], c :: line, rfl⟩
      | cons first others => exact ⟨(c :: first) :: others, line, rfl⟩

/-- A text with line feeds only is not changed. -/
theorem unixLines_eq_self {cs : List Char} (plain : LineFeedsOnly cs) : unixLines cs = cs := by
  have other {c : Char} (member : c ∈ cs) : c ≠ '\r' := by
    rintro rfl
    exact absurd (plain _ member (by decide)) (by decide)
  induction cs using unixLines.induct with
  | case1 => rfl
  | case2 c => simp [unixLines, other List.mem_cons_self]
  | case3 c cs => exact absurd rfl (other List.mem_cons_self)
  | case4 c d cs => exact absurd rfl (other List.mem_cons_self)
  | case5 c d cs inner ih =>
    rw [unixLines, if_neg inner, ih (fun e member => plain e (List.mem_cons_of_mem c member))
      fun member => other (List.mem_cons_of_mem c member)]

/-! ## Unified line ends -/

def lineEnds (s : String) : Nat := (unixLines s.toList).count '\n'

/-- The line ends of a text are unified part by part, if no line end goes on from one part to the
next one. -/
theorem unixLines_append {cs ds : List Char}
    (apart : cs.getLast? = some '\r' → ds.head? ≠ some '\n') :
    unixLines (cs ++ ds) = unixLines cs ++ unixLines ds := by
  induction cs using unixLines.induct with
  | case1 => rfl
  | case2 c =>
    cases ds with
    | nil => rw [List.append_nil, unixLines, List.append_nil]
    | cons d ds =>
      by_cases return' : c = '\r'
      · have other : d ≠ '\n' := fun same =>
          apart (congrArg some return') (congrArg some same)
        simp [unixLines, return', other]
      · simp [unixLines, return']
  | case3 cs ih => simpa [unixLines] using ih apart
  | case4 d cs other ih => simpa [unixLines, other] using ih apart
  | case5 c d cs other ih => simpa [unixLines, other] using ih apart

theorem mem_unixLines {cs : List Char} {c : Char} (member : c ∈ unixLines cs) :
    c = '\n' ∨ c ∈ cs ∧ c ≠ '\r' := by
  induction cs using unixLines.induct with
  | case1 => cases member
  | case2 d =>
    rw [unixLines, List.mem_singleton] at member
    split at member
    · exact .inl member
    · rename_i other
      exact .inr ⟨member ▸ List.mem_singleton_self d, member ▸ other⟩
  | case3 cs ih =>
    simp only [unixLines, if_true] at member
    exact (ih member).imp_right fun ⟨inside, other⟩ => ⟨List.mem_cons_of_mem _ inside, other⟩
  | case4 d cs other ih =>
    simp only [unixLines, if_true, if_neg other, List.mem_cons] at member
    rcases member with same | member
    · exact .inl same
    · exact (ih member).imp_right fun ⟨inside, other⟩ => ⟨List.mem_cons_of_mem _ inside, other⟩
  | case5 d e cs other ih =>
    simp only [unixLines, if_neg other, List.mem_cons] at member
    rcases member with rfl | member
    · exact .inr ⟨List.mem_cons_self, other⟩
    · exact (ih member).imp_right fun ⟨inside, other⟩ => ⟨List.mem_cons_of_mem _ inside, other⟩

theorem lineFeedsOnly_unixLines {cs : List Char} (newlines : NewlinesOnly cs) :
    LineFeedsOnly (unixLines cs) := by
  intro c member ends
  rcases mem_unixLines member with same | ⟨inside, other⟩
  · exact same
  · have newline := newlines c inside ends
    simpa [isNewline, other] using newline

/-- A text that ends with a line end does so with unified line ends. -/
theorem getLast?_unixLines {cs : List Char} (newline : cs.getLast?.any isNewline = true) :
    (unixLines cs).getLast? = some '\n' := by
  induction cs using unixLines.induct with
  | case1 => cases newline
  | case2 c =>
    have either : c = '\r' ∨ c = '\n' := by simpa [isNewline] using newline
    rcases either with rfl | rfl <;> rfl
  | case3 cs ih => simpa [unixLines] using ih (by simpa using newline)
  | case4 d cs other ih =>
    have last := ih (by simpa using newline)
    rw [unixLines, if_pos rfl, if_neg other, List.getLast?_cons, last]
    rfl
  | case5 c d cs other ih =>
    have last := ih (by simpa using newline)
    rw [unixLines, if_neg other, List.getLast?_cons, last]
    rfl

/-- A text that is empty or begins with a line end does so with unified line ends. -/
theorem unixLines_eq_nil_or {cs : List Char} (newline : cs.head?.all isNewline = true) :
    unixLines cs = [] ∨ ∃ ds, unixLines cs = '\n' :: ds := by
  induction cs using unixLines.induct with
  | case1 => exact .inl rfl
  | case2 c =>
    have either : c = '\r' ∨ c = '\n' := by simpa [isNewline] using newline
    rcases either with rfl | rfl <;> exact .inr ⟨[], rfl⟩
  | case3 cs ih => simpa [unixLines] using ih rfl
  | case4 d cs other => exact .inr ⟨unixLines (d :: cs), by rw [unixLines, if_pos rfl, if_neg other]⟩
  | case5 c d cs other =>
    have same : c = '\n' := by simpa [isNewline, other] using newline
    exact .inr ⟨unixLines (d :: cs), by rw [unixLines, if_neg other, same]⟩

end RequestSchema.Text
