import RequestSchema.Proofs.Source.Stop
import RequestSchema.Proofs.Source.Tracking

/-!
# Scanning a text in front of others

The lexemes of a text that ends with the end of a line, or with the brace that closes a body, are
found at the head of any longer text (`lexemesFrom_append`), on other lines too
(`lexemesFrom_alike`).
-/
namespace RequestSchema.Source

open RequestSchema.Text

def lexemesFrom (line : Nat) (operand : Bool) (lead cs : List Char) : List Lexeme :=
  scanFrom (cs.length + 1) line operand lead cs

theorem eq_of_concat (xs : List Lexeme) {x ending : Lexeme} {body : List Lexeme}
    (ends : xs ++ [x] = body ++ [ending]) : xs = body ∧ [x] = [ending] :=
  List.append_inj' ends rfl

/-- A lexeme needs a character, so there are enough steps for the text behind it. -/
theorem lexemeLength_pos {operand : Bool} {cs : List Char}
    (more : (lexemeLength operand cs).1 ≠ .done) : 0 < (lexemeLength operand cs).2 := by
  cases cs with
  | nil => exact absurd rfl more
  | cons c cs => exact (fits_lexemeLength operand c cs).1

theorem lexemeLength_le (operand : Bool) (cs : List Char) :
    (lexemeLength operand cs).2 ≤ cs.length := by
  cases cs with
  | nil => exact Nat.le_refl 0
  | cons c cs => exact (fits_lexemeLength operand c cs).2

/-- More steps than needed do not matter. -/
theorem scanFrom_eq_lexemesFrom {steps line : Nat} {operand : Bool} {lead cs : List Char}
    (enough : cs.length < steps) :
    scanFrom steps line operand lead cs = lexemesFrom line operand lead cs := by
  unfold lexemesFrom
  induction steps using Nat.strong_induction_on generalizing line operand lead cs with
  | _ steps ih =>
  obtain ⟨steps, rfl⟩ : ∃ n, steps = n + 1 := Nat.exists_eq_succ_of_ne_zero (by omega)
  rw [scanFrom, scanFrom]
  cases gap : gapLength .blank cs with
  | none => rfl
  | some n =>
    simp only
    split
    · rfl
    · rename_i more
      have short := lexemeLength_pos more
      have within := lexemeLength_le operand (cs.drop n)
      rw [List.length_drop] at within
      congr 1
      have left : ((cs.drop n).drop (lexemeLength operand (cs.drop n)).2).length < cs.length := by
        rw [List.length_drop, List.length_drop]
        omega
      rw [ih steps (Nat.lt_succ_self _) (by omega), ih cs.length (by omega) left]

/-- The first lexeme of a text, if its gap has an end, and the others. -/
theorem lexemesFrom_of_gap {line n : Nat} {operand : Bool} {lead cs : List Char}
    (gap : gapLength .blank cs = some n) :
    lexemesFrom line operand lead cs =
      let front := lead ++ cs.take n
      let span := lexemeLength operand (cs.drop n)
      let lexeme : Lexeme :=
        ⟨span.1, front, (cs.drop n).take span.2, line + lineFeeds front⟩
      if span.1 = .done then [lexeme]
      else lexeme :: lexemesFrom (lexeme.line + lineFeeds lexeme.text) lexeme.endsOperand []
        ((cs.drop n).drop span.2) := by
  rw [lexemesFrom, scanFrom, gap]
  simp only
  split
  · rfl
  · rename_i more
    have short := lexemeLength_pos more
    have within := lexemeLength_le operand (cs.drop n)
    rw [List.length_drop] at within
    rw [scanFrom_eq_lexemesFrom]
    rw [List.length_drop, List.length_drop]
    omega

theorem lexemesFrom_of_unclosed {line : Nat} {operand : Bool} {lead cs : List Char}
    (gap : gapLength .blank cs = none) :
    lexemesFrom line operand lead cs =
      [⟨.bad, lead, cs, line⟩, ⟨.done, [], [], line + lineFeeds cs⟩] := by
  rw [lexemesFrom, scanFrom, gap]

/-- On other lines, the lexemes are the same. -/
theorem lexemesFrom_alike (line line' : Nat) (operand : Bool) (lead cs : List Char) :
    List.Forall₂ Lexeme.Alike (lexemesFrom line operand lead cs)
      (lexemesFrom line' operand lead cs) := by
  induction size : cs.length using Nat.strong_induction_on generalizing line line' operand lead cs
    with
  | _ size ih =>
  subst size
  cases gap : gapLength .blank cs with
  | none =>
    rw [lexemesFrom_of_unclosed gap, lexemesFrom_of_unclosed gap]
    exact .cons rfl (.cons rfl .nil)
  | some n =>
    rw [lexemesFrom_of_gap gap, lexemesFrom_of_gap gap]
    simp only
    split
    · exact .cons rfl .nil
    · rename_i more
      have short := lexemeLength_pos more
      have within := lexemeLength_le operand (cs.drop n)
      rw [List.length_drop] at within
      refine .cons rfl (ih _ ?_ _ _ _ _ _ rfl)
      rw [List.length_drop, List.length_drop]
      omega

/-- The last lexeme marks the end, and only it does. -/
theorem lexemesFrom_ends (line : Nat) (operand : Bool) (lead cs : List Char) :
    ∃ body ending, lexemesFrom line operand lead cs = body ++ [ending] ∧ ending.kind = .done ∧
      ∀ l ∈ body, l.kind ≠ .done := by
  induction size : cs.length using Nat.strong_induction_on generalizing line operand lead cs with
  | _ size ih =>
  subst size
  cases gap : gapLength .blank cs with
  | none =>
    rw [lexemesFrom_of_unclosed gap]
    exact ⟨[_], _, rfl, rfl, by simp⟩
  | some n =>
    rw [lexemesFrom_of_gap gap]
    simp only
    split
    · rename_i done
      exact ⟨[], _, rfl, done, by simp⟩
    · rename_i more
      have short := lexemeLength_pos more
      have within := lexemeLength_le operand (cs.drop n)
      rw [List.length_drop] at within
      have left : ((cs.drop n).drop (lexemeLength operand (cs.drop n)).2).length < cs.length := by
        rw [List.length_drop, List.length_drop]
        omega
      obtain ⟨body, ending, split, done, live⟩ := ih _ left _ _ _ _ rfl
      rw [split]
      refine ⟨_ :: body, ending, rfl, done, ?_⟩
      intro l member
      rcases List.mem_cons.mp member with rfl | member
      · exact more
      · exact live l member

/-- Whether an operand has ended behind some lexemes. -/
def operandBehind (operand : Bool) (ls : List Lexeme) : Bool :=
  (ls.getLast?.map Lexeme.endsOperand).getD operand

theorem operandBehind_cons (operand : Bool) (l : Lexeme) (ls : List Lexeme) :
    operandBehind operand (l :: ls) = operandBehind l.endsOperand ls := by
  cases ls with
  | nil => rfl
  | cons l' ls =>
    obtain ⟨last, final⟩ : ∃ last, (l' :: ls).getLast? = some last :=
      ⟨_, List.getLast?_eq_some_getLast (List.cons_ne_nil l' ls)⟩
    rw [operandBehind, operandBehind, List.getLast?_cons_cons, final]
    rfl

theorem lexemeLength_ne_done (operand : Bool) (c : Char) (cs : List Char) :
    (lexemeLength operand (c :: cs)).1 ≠ .done := by
  have spanned (kind : LexemeKind) (before : Nat) (n? : Option Nat) (live : kind ≠ .done) :
      (spanOrBad kind before n?).1 ≠ .done := by
    cases n? with
    | none => simp [spanOrBad]
    | some n => exact live
  have quoted (marked : Nat) : (quotedLength marked (c :: cs)).1 ≠ .done := by
    unfold quotedLength
    split
    · simp
    · simp only
      split <;> simp
  have number : (numberLength (c :: cs)).1 ≠ .done := by
    unfold numberLength markedLength
    extract_lets
    repeat' split
    all_goals simp
  have choose {condition : Prop} [Decidable condition] {span other : LexemeKind × Nat}
      (yes : span.1 ≠ .done) (no : other.1 ≠ .done) :
      (if condition then span else other).1 ≠ .done := by
    split
    · exact yes
    · exact no
  rw [lexemeLength]
  refine choose (by simp) (choose (spanned _ _ _ (by decide)) (choose (quoted 1) ?_))
  refine choose (by simp) (choose (by simp) (choose (by simp) (choose number ?_)))
  refine choose (by simp) (choose (spanned _ _ _ (by decide)) (choose (quoted 0) ?_))
  refine choose (spanned _ _ _ (by decide)) ?_
  split
  · exact spanned _ _ _ (by decide)
  · exact spanned _ _ _ (by decide)

/-- A sign that begins no longer lexeme. -/
theorem lexemeLength_sign {operand : Bool} {c : Char} {cs : List Char} {n : Nat}
    (plain : c ∉ ['?', '\\', '$', '.', '\'', '"', '\x60', '<'])
    (unnamed : isNameStart c = false) (digitless : isAsciiDigit c = false)
    (sign : signLength? (c :: cs) = some n) : lexemeLength operand (c :: cs) = (.symbol, n) := by
  have letter : ¬ (c = 'b' ∨ c = 'B') := by
    rintro (rfl | rfl) <;> cases unnamed
  simp only [List.mem_cons, List.not_mem_nil, or_false, not_or] at plain letter
  simp [lexemeLength, dropStart?, plain, letter, unnamed, digitless, sign, spanOrBad]
  grind

theorem signLength?_brace (cs : List Char) : signLength? ('\x7d' :: cs) = some 1 := by
  simp [signLength?, signs, dropStart?]
  rfl

/-- Behind the last lexeme there is only the mark of the end. -/
theorem lexemesFrom_nil (line : Nat) (operand : Bool) (lead : List Char) :
    lexemesFrom line operand lead [] = [⟨.done, lead, [], line + lineFeeds lead⟩] := by
  have gap : gapLength .blank [] = some 0 := by simp [gapLength]
  rw [lexemesFrom_of_gap gap]
  simp [lexemeLength]

/-- The lexeme at the head of a text behind a gap. -/
def headLexeme (line : Nat) (operand : Bool) (front cs : List Char) : Lexeme :=
  ⟨(lexemeLength operand cs).1, front, cs.take (lexemeLength operand cs).2, line + lineFeeds front⟩

/-- The lexemes behind one at the head of a text. -/
def lexemesBehind (x : Lexeme) (cs : List Char) : List Lexeme :=
  lexemesFrom (x.line + lineFeeds x.text) x.endsOperand [] cs

/-- A lexeme, and the others behind it. -/
theorem lexemesFrom_of_lexeme {line n : Nat} {operand : Bool} {lead cs rest : List Char} {c : Char}
    (gap : gapLength .blank cs = some n) (text : cs.drop n = c :: rest) :
    lexemesFrom line operand lead cs =
      headLexeme line operand (lead ++ cs.take n) (c :: rest) ::
        lexemesBehind (headLexeme line operand (lead ++ cs.take n) (c :: rest))
          ((c :: rest).drop (lexemeLength operand (c :: rest)).2) := by
  rw [lexemesFrom_of_gap gap]
  simp only [text]
  rw [if_neg (lexemeLength_ne_done operand c rest)]
  rfl

/-! ## A text that ends with a stop -/

section

variable {h : Char} (stops : Stops h) {line n : Nat} {operand : Bool} {lead l l' X : List Char}
  {c : Char} {body : List Lexeme} {ending : Lexeme}

include stops

/-- A gap that takes a whole line is joined with the one behind it. -/
theorem lexemesFrom_append_gap
    (ends : lexemesFrom line operand lead (l ++ [h]) = body ++ [ending])
    (whole : gapLength .blank (l ++ [h]) = some (l.length + 1))
    (closed : h = '\x7d' → ending.lead = []) (gap : gapLength .blank X ≠ none) :
    lexemesFrom line operand lead (l ++ h :: X) =
      body ++ lexemesFrom (ending.line - lineFeeds ending.lead) (operandBehind operand body)
        ending.lead X := by
  have all : (l ++ [h]).take (l.length + 1) = l ++ [h] := List.take_of_length_le (by simp)
  have none : (l ++ [h]).drop (l.length + 1) = [] := List.drop_of_length_le (by simp)
  rw [lexemesFrom_of_gap whole, all, none] at ends
  simp only [lexemeLength, if_true] at ends
  obtain ⟨rfl, ended⟩ := eq_of_concat [] ends
  cases ended
  have joined := stops.gapEnds X whole
  rcases stops with rfl | rfl
  · obtain ⟨m, behind⟩ := Option.ne_none_iff_exists'.mp gap
    have through := joined.beyond rfl rfl
    rw [behind, Option.map_some] at through
    have text : l ++ '\n' :: X = (l ++ ['\n']) ++ X := by simp
    have length : (l ++ ['\n']).length = l.length + 1 := by simp
    have taken : (l ++ '\n' :: X).take (m + (l.length + 1)) = l ++ ['\n'] ++ X.take m := by
      rw [text, Nat.add_comm, ← length, List.take_length_add_append]
    have dropped : (l ++ '\n' :: X).drop (m + (l.length + 1)) = X.drop m := by
      rw [text, Nat.add_comm, ← length, List.drop_length_add_append]
    rw [List.nil_append, lexemesFrom_of_gap through, lexemesFrom_of_gap behind, taken, dropped,
      ← List.append_assoc, operandBehind, List.getLast?_nil]
    simp only [Option.map_none, Option.getD_none, Nat.add_sub_cancel]
  · exact absurd (closed rfl) (by simp)

/-- A stop that is a lexeme of its own is the brace. -/
theorem lexemesFrom_append_stop
    (ends : lexemesFrom line operand lead (l ++ [h]) = body ++ [ending])
    (gap : gapLength .blank (l ++ [h]) = some l.length) (sound : ∀ x ∈ body, x.kind ≠ .bad) :
    lexemesFrom line operand lead (l ++ h :: X) =
      body ++ lexemesFrom (ending.line - lineFeeds ending.lead) (operandBehind operand body)
        ending.lead X := by
  have text (Y : List Char) : (l ++ h :: Y).drop l.length = h :: Y := List.drop_left
  have taken (Y : List Char) : (l ++ h :: Y).take l.length = l := List.take_left
  have before := (stops.gapEnds X gap).before (Nat.le_refl _)
  rw [lexemesFrom_of_lexeme gap (text []), taken] at ends
  rw [lexemesFrom_of_lexeme before (text X), taken]
  rcases stops with rfl | rfl
  · have bad : lexemeLength operand ['\n'] = (.bad, 1) := by cases operand <;> decide
    simp only [bad, headLexeme, lexemesBehind, List.drop_succ_cons, List.drop_zero,
      lexemesFrom_nil] at ends
    obtain ⟨rfl, -⟩ := eq_of_concat [_] ends
    exact absurd rfl (sound _ List.mem_cons_self)
  · have brace (Y : List Char) : lexemeLength operand ('\x7d' :: Y) = (.symbol, 1) :=
      lexemeLength_sign (by decide) rfl rfl (signLength?_brace Y)
    simp only [brace, headLexeme, lexemesBehind, List.take_succ_cons, List.take_zero,
      List.drop_succ_cons, List.drop_zero, lexemesFrom_nil] at ends ⊢
    obtain ⟨rfl, ended⟩ := eq_of_concat [_] ends
    cases ended
    simp [operandBehind, lineFeeds]

/-- A lexeme that begins in front of a stop and has an end is the same in front of any text. -/
theorem lexemesFrom_append_head (gap : gapLength .blank (l ++ [h]) = some n) (short : n ≤ l.length)
    (text : l.drop n = c :: l')
    (closed : Closed (l'.length + 2) (lexemeLength operand (c :: (l' ++ [h])))) :
    let x := headLexeme line operand (lead ++ l.take n) (c :: (l' ++ [h]))
    lexemesFrom line operand lead (l ++ h :: X) = x :: lexemesBehind x
      ((c :: (l' ++ h :: X)).drop (lexemeLength operand (c :: (l' ++ [h]))).2) := by
  have behind : (l ++ h :: X).drop n = c :: (l' ++ h :: X) := by
    rw [List.drop_append_of_le_length short, text]
    rfl
  have taken : (l ++ h :: X).take n = l.take n := List.take_append_of_le_length short
  have before := (stops.gapEnds X gap).before short
  have same := stops.lexemeLength X closed
  have whole : c :: (l' ++ h :: X) = (c :: (l' ++ [h])) ++ X := by simp
  have bound := lexemeLength_le operand (c :: (l' ++ [h]))
  have head : headLexeme line operand (lead ++ l.take n) (c :: (l' ++ h :: X)) =
      headLexeme line operand (lead ++ l.take n) (c :: (l' ++ [h])) := by
    rw [headLexeme, headLexeme, same, whole, List.take_append_of_le_length bound]
  intro x
  rw [lexemesFrom_of_lexeme before behind, taken, head, same]

end

/-- Behind a lexeme that takes the whole text there is only the mark of the end. -/
theorem alone_of_whole {x ending : Lexeme} {more : List Lexeme} {cs : List Char} {n : Nat}
    (others : lexemesBehind x (cs.drop n) = more ++ [ending]) (all : cs.length ≤ n) :
    more = [] ∧ ending = ⟨.done, [], [], x.line + lineFeeds x.text⟩ := by
  rw [List.drop_of_length_le all, lexemesBehind, lexemesFrom_nil] at others
  obtain ⟨rfl, ended⟩ := eq_of_concat [] others
  cases ended
  exact ⟨rfl, rfl⟩

/-- The lexemes of a text up to a stop are those of any text that goes on behind the stop. The
gap in front of its end is joined with the one behind it. -/
theorem lexemesFrom_append {h : Char} (stops : Stops h) {line : Nat} {operand : Bool}
    {lead l X : List Char} {body : List Lexeme} {ending : Lexeme}
    (ends : lexemesFrom line operand lead (l ++ [h]) = body ++ [ending])
    (sound : ∀ x ∈ body, x.kind ≠ .bad)
    (inside : ∀ x, body.getLast? = some x → x.kind = .page → ending.lead ≠ [])
    (closed : h = '\x7d' → ending.lead = []) (gap : gapLength .blank X ≠ none) :
    lexemesFrom line operand lead (l ++ h :: X) =
      body ++ lexemesFrom (ending.line - lineFeeds ending.lead) (operandBehind operand body)
        ending.lead X := by
  induction size : l.length using Nat.strong_induction_on generalizing line operand lead l body
    with
  | _ size ih =>
  subst size
  cases gap' : gapLength .blank (l ++ [h]) with
  | none =>
    rw [lexemesFrom_of_unclosed gap'] at ends
    obtain ⟨rfl, -⟩ := eq_of_concat [_] ends
    exact absurd rfl (sound _ List.mem_cons_self)
  | some n =>
    have within := gapLength_le gap'
    rw [List.length_append, List.length_singleton] at within
    by_cases whole : n = l.length + 1
    · exact lexemesFrom_append_gap stops ends (gap'.trans (congrArg some whole)) closed gap
    have short : n ≤ l.length := by omega
    cases text : l.drop n with
    | nil =>
      have all : n = l.length := Nat.le_antisymm short (List.drop_eq_nil_iff.mp text)
      exact lexemesFrom_append_stop stops ends (gap'.trans (congrArg some all)) sound
    | cons c l' =>
      have behind : (l ++ [h]).drop n = c :: (l' ++ [h]) := by
        rw [List.drop_append_of_le_length short, text]
        rfl
      rw [lexemesFrom_of_lexeme gap' behind, List.take_append_of_le_length short] at ends
      set x := headLexeme line operand (lead ++ l.take n) (c :: (l' ++ [h]))
      obtain ⟨more, last, others, -, -⟩ := lexemesFrom_ends (x.line + lineFeeds x.text)
        x.endsOperand [] ((c :: (l' ++ [h])).drop (lexemeLength operand (c :: (l' ++ [h]))).2)
      change lexemesBehind x _ = more ++ [last] at others
      rw [others] at ends
      obtain ⟨rfl, ended⟩ := eq_of_concat (x :: more) ends
      cases ended
      have length : (c :: (l' ++ [h])).length = l'.length + 2 := by simp
      -- a page that took the whole text would have no gap behind it
      have sealed : Closed (l'.length + 2) (lexemeLength operand (c :: (l' ++ [h]))) := by
        refine ⟨sound x List.mem_cons_self, fun page => ?_⟩
        by_contra long
        obtain ⟨rfl, rfl⟩ := alone_of_whole others (by omega)
        exact inside x rfl page rfl
      rw [lexemesFrom_append_head stops gap' short text sealed, operandBehind_cons,
        List.cons_append]
      congr 1
      by_cases all : (c :: (l' ++ [h])).length ≤ (lexemeLength operand (c :: (l' ++ [h]))).2
      · obtain ⟨rfl, rfl⟩ := alone_of_whole others all
        have split : c :: (l' ++ h :: X) = (c :: (l' ++ [h])) ++ X := by simp
        rw [split, List.drop_append_of_le_length (lexemeLength_le operand _),
          List.drop_of_length_le all, List.nil_append]
        rfl
      · have part : (lexemeLength operand (c :: (l' ++ [h]))).2 ≤ (c :: l').length := by
          rw [List.length_cons]
          omega
        have split (Y : List Char) :
            (c :: (l' ++ h :: Y)).drop (lexemeLength operand (c :: (l' ++ [h]))).2 =
              (c :: l').drop (lexemeLength operand (c :: (l' ++ [h]))).2 ++ h :: Y :=
          List.drop_append_of_le_length part
        rw [split] at others
        rw [split]
        refine ih _ ?_ others (fun y member => sound y (List.mem_cons_of_mem x member)) ?_ rfl
        · have left : l.length - n = l'.length + 1 := by
            rw [← List.length_drop, text, List.length_cons]
          have some : 0 < (lexemeLength operand (c :: (l' ++ [h]))).2 :=
            (fits_lexemeLength operand c (l' ++ [h])).1
          rw [List.length_drop, List.length_cons]
          omega
        · intro y final
          exact inside y (by rw [List.getLast?_cons, final]; rfl)

/-! ## Words -/

/-- The text is a word: a letter with letters and digits behind it. -/
def IsWord (w : List Char) : Prop := w.head?.any isNameStart = true ∧ w.all isNamePart = true

instance (w : List Char) : Decidable (IsWord w) := inferInstanceAs (Decidable (_ ∧ _))

theorem not_isSpace_of_isNameStart {c : Char} (letter : isNameStart c = true) :
    isSpace c = false := by
  unfold isNameStart at letter
  split at letter
  · rename_i ascii
    have high : 65 ≤ c.toNat := by
      rw [Bool.or_eq_true, decide_eq_true_eq] at letter
      rcases letter with rfl | letter
      · decide
      · simp only [isAsciiLetter, isAsciiLower, isAsciiUpper, Bool.or_eq_true, Bool.and_eq_true,
          decide_eq_true_eq] at letter
        rcases letter with ⟨low, -⟩ | ⟨low, -⟩
        · have bound : 97 ≤ c.toNat := low
          omega
        · exact low
    have apart {d : Char} (other : d.toNat < 65 ∨ 128 ≤ d.toNat) : c ≠ d := by
      rintro rfl
      omega
    simp only [isSpace, apart (show (' ' : Char).toNat < 65 ∨ _ from .inl (by decide)),
      apart (show ('\u00A0' : Char).toNat < 65 ∨ _ from .inr (by decide)),
      apart (show ('\u200B' : Char).toNat < 65 ∨ _ from .inr (by decide)),
      apart (show ('\u2060' : Char).toNat < 65 ∨ _ from .inr (by decide)),
      apart (show ('\uFEFF' : Char).toNat < 65 ∨ _ from .inr (by decide)), decide_false,
      Bool.false_or, Bool.or_false, Bool.and_eq_false_iff, decide_eq_false_iff_not]
    omega
  · rename_i wide
    have blank : c ≠ ' ' := by
      rintro rfl
      exact wide (by decide)
    simp only [Bool.not_eq_true', Bool.or_eq_false_iff, decide_eq_false_iff_not] at letter
    simp [isSpace, blank, letter]
    omega

/-- White space in front of a lexeme is its gap. -/
theorem gapLength_blanks {blanks cs : List Char} {c : Char} (spaces : blanks.all isSpace = true)
    (other : isSpace c = false) (hash : c ≠ '#') (slash : c ≠ '/') :
    gapLength .blank (blanks ++ c :: cs) = some blanks.length := by
  induction blanks with
  | nil => simp [Stops.gapLength_blank, other, hash, slash]
  | cons b blanks ih =>
    rw [List.all_cons, Bool.and_eq_true] at spaces
    rw [List.cons_append, Stops.gapLength_blank, if_pos spaces.1, ih spaces.2]
    rfl

theorem nameTailLength_blank {cs : List Char} (parts : cs.all isNamePart = true) (X : List Char) :
    nameTailLength (cs ++ ' ' :: X) = cs.length := by
  induction cs with
  | nil => cases X <;> rfl
  | cons c cs ih =>
    rw [List.all_cons, Bool.and_eq_true] at parts
    have rest := ih parts.2
    cases cs with
    | nil => simpa [nameTailLength, parts.1] using rest
    | cons d cs => simpa [nameTailLength, parts.1] using rest

/-- A word in front of a blank is a lexeme. -/
theorem lexemesFrom_word (line : Nat) (operand : Bool) (lead : List Char) {blanks w : List Char}
    (spaces : blanks.all isSpace = true) (word : IsWord w) (X : List Char) :
    ∃ l, lexemesFrom line operand lead (blanks ++ (w ++ ' ' :: X)) =
      ⟨.name, lead ++ blanks, w, l⟩ :: lexemesBehind ⟨.name, lead ++ blanks, w, l⟩ (' ' :: X) := by
  obtain ⟨c, cs, rfl, letter, parts⟩ : ∃ c cs, w = c :: cs ∧ isNameStart c = true ∧
      cs.all isNamePart = true := by
    cases w with
    | nil => cases word.1
    | cons c cs =>
      have parts := word.2
      rw [List.all_cons, Bool.and_eq_true] at parts
      exact ⟨c, cs, rfl, word.1, parts.2⟩
  have other {d : Char} (sign : isNameStart d = false) : c ≠ d := by
    rintro rfl
    rw [letter] at sign
    cases sign
  have unquoted {d : Char} (sign : isNamePart d = false) (blank : d ≠ ' ') :
      (cs ++ ' ' :: X).head? ≠ some d := by
    intro next
    cases cs with
    | nil => exact blank (Option.some.inj next).symm
    | cons e cs =>
      cases next
      rw [List.all_cons, sign] at parts
      cases parts
  have gap : gapLength .blank (blanks ++ c :: (cs ++ ' ' :: X)) = some blanks.length :=
    gapLength_blanks spaces (not_isSpace_of_isNameStart letter) (other rfl) (other rfl)
  have span : lexemeLength operand (c :: (cs ++ ' ' :: X)) = (.name, (c :: cs).length) := by
    rw [lexemeLength]
    simp only [other (show isNameStart '?' = false from rfl),
      unquoted (show isNamePart '\'' = false from rfl) (by decide),
      unquoted (show isNamePart '"' = false from rfl) (by decide), letter, decide_false,
      Bool.and_false, Bool.false_and, Bool.false_eq_true, if_false, if_true,
      nameTailLength_blank parts, List.length_cons]
  have behind : (blanks ++ c :: (cs ++ ' ' :: X)).drop blanks.length = c :: (cs ++ ' ' :: X) :=
    List.drop_left
  have taken : (blanks ++ c :: (cs ++ ' ' :: X)).take blanks.length = blanks := List.take_left
  have text : c :: (cs ++ ' ' :: X) = (c :: cs) ++ ' ' :: X := rfl
  refine ⟨line + lineFeeds (lead ++ blanks), ?_⟩
  rw [List.cons_append, lexemesFrom_of_lexeme gap behind, taken, headLexeme, span]
  simp only
  rw [text, List.take_left, List.drop_left]

theorem lexemesBehind_word {x : Lexeme} {w : List Char} (word : IsWord w) (X : List Char) :
    ∃ line, lexemesBehind x (' ' :: (w ++ ' ' :: X)) =
      ⟨.name, [' '], w, line⟩ :: lexemesBehind ⟨.name, [' '], w, line⟩ (' ' :: X) := by
  have blank : [' '].all isSpace = true := by decide
  exact lexemesFrom_word _ _ _ blank word X

/-- A variable to which something is assigned. -/
theorem lexemesFrom_assigned (line : Nat) (operand : Bool) (lead X : List Char) :
    ∃ x assigned, lexemesFrom line operand lead ('$' :: 'x' :: ' ' :: '=' :: ' ' :: X) =
      x :: assigned :: lexemesBehind assigned (' ' :: X) ∧ x.kind = .var ∧
        assigned.isSymbol "=" = true := by
  have gap : gapLength .blank ('$' :: 'x' :: ' ' :: '=' :: ' ' :: X) = some 0 :=
    gapLength_blanks (rfl : [].all isSpace = true) rfl (by decide) (by decide)
  have name : lexemeLength operand ('$' :: 'x' :: ' ' :: '=' :: ' ' :: X) = (.var, 2) := by
    rw [lexemeLength]
    rfl
  have gap' : gapLength .blank (' ' :: '=' :: ' ' :: X) = some 1 :=
    gapLength_blanks (rfl : [' '].all isSpace = true) rfl (by decide) (by decide)
  have sign : signLength? ('=' :: ' ' :: X) = some 1 := by
    simp [signLength?, signs, dropStart?]
    rfl
  have equals (operand : Bool) : lexemeLength operand ('=' :: ' ' :: X) = (.symbol, 1) :=
    lexemeLength_sign (by decide) rfl rfl sign
  rw [lexemesFrom_of_lexeme gap rfl, headLexeme, name]
  simp only [lexemesBehind, List.drop_succ_cons, List.drop_zero]
  rw [lexemesFrom_of_lexeme gap' rfl, headLexeme, equals]
  exact ⟨_, _, rfl, rfl, rfl⟩

/-- A semicolon at the end of the last line. -/
theorem lexemesFrom_semicolon (line : Nat) (operand : Bool) (lead : List Char) :
    ∃ semicolon last, lexemesFrom line operand lead [';', '\n'] = [semicolon, last] ∧
      semicolon.isSymbol ";" = true ∧ last.kind = .done := by
  have gap : gapLength .blank [';', '\n'] = some 0 :=
    gapLength_blanks (rfl : [].all isSpace = true) rfl (by decide) (by decide)
  have sign : signLength? [';', '\n'] = some 1 := by decide
  have semicolon : lexemeLength operand [';', '\n'] = (.symbol, 1) :=
    lexemeLength_sign (by decide) rfl rfl sign
  have gap' : gapLength .blank ['\n'] = some 1 := by decide
  rw [lexemesFrom_of_lexeme gap rfl, headLexeme, semicolon]
  simp only [lexemesBehind, List.drop_succ_cons, List.drop_zero]
  rw [lexemesFrom_of_gap gap']
  exact ⟨_, _, rfl, rfl, rfl⟩

theorem lexemesFrom_lineFeed (line : Nat) (operand : Bool) (lead : List Char) :
    ∃ last, lexemesFrom line operand lead ['\n'] = [last] ∧ last.kind = .done := by
  have gap : gapLength .blank ['\n'] = some 1 := by decide
  rw [lexemesFrom_of_gap gap]
  exact ⟨_, rfl, rfl⟩

end RequestSchema.Source
