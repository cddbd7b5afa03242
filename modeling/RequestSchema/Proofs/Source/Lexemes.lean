import Mathlib.Data.List.Chain
import RequestSchema.Source.Lexeme.Scan

/-!
What stands between the lexemes of a source. A lexeme reaches as far as it can, so two names never
touch; and what stands in front of a lexeme is white space, unless it holds a sign of a comment.
-/
namespace RequestSchema.Source

open RequestSchema.Text

/-! ## Gaps -/

/-- What stands between two lexemes: white space or a comment. -/
def IsGap (cs : List Char) : Prop := (∀ c ∈ cs, isSpace c = true) ∨ '/' ∈ cs ∨ '#' ∈ cs

theorem isGap_nil : IsGap [] := .inl (by simp)

theorem isGap_take {cs : List Char} {n : Nat} (gap : gapLength .blank cs = some n) :
    IsGap (cs.take n) := by
  induction cs generalizing n with
  | nil => simpa using isGap_nil
  | cons c cs ih =>
    unfold gapLength at gap
    by_cases space : isSpace c = true
    · rw [if_pos space] at gap
      obtain ⟨m, rest, rfl⟩ := Option.map_eq_some_iff.mp gap
      rcases ih rest with blank | slash | hash
      · exact .inl (by simpa [space] using blank)
      · exact .inr (.inl (by simp [slash]))
      · exact .inr (.inr (by simp [hash]))
    · rw [if_neg space] at gap
      -- Only a sign of a comment makes the gap longer from here.
      by_cases sign : c = '/' ∨ c = '#'
      · cases n with
        | zero => exact isGap_nil
        | succ n => rcases sign with rfl | rfl <;> simp [IsGap]
      · obtain ⟨slash, hash⟩ := not_or.mp sign
        simp only [slash, hash, decide_false, Bool.false_and, Bool.false_eq_true, if_false,
          Option.some.injEq] at gap
        exact gap ▸ isGap_nil

/-! ## Names -/

/-- A name ends where no further segment of it begins. -/
theorem nameTailLength_drop (cs : List Char) :
    nameTailLength (cs.drop (nameTailLength cs)) = 0 := by
  fun_induction nameTailLength cs with
  | case1 => rfl
  | case2 c part => rfl
  | case3 c other => simp [nameTailLength, other]
  | case4 c d cs part ih => simpa using ih
  | case5 c d cs other joined ih => simpa using ih
  | case6 c d cs other unjoined =>
    rw [List.drop_zero, nameTailLength, if_neg other, if_neg unjoined]

/-- A choice of a kind that its first side is not of is its second side. -/
theorem eq_of_ite_kind {p : Prop} [Decidable p] {kind : LexemeKind} {n : Nat}
    {x y : LexemeKind × Nat} (chosen : (if p then x else y) = (kind, n)) (other : x.1 ≠ kind) :
    y = (kind, n) := by
  split at chosen
  · exact absurd (congrArg Prod.fst chosen) other
  · exact chosen

theorem numberLength_ne_name (cs : List Char) : (numberLength cs).1 ≠ .name := by
  intro name
  have marked (digit : Char → Bool) : (markedLength digit cs).1 ≠ .name := by simp [markedLength]
  have name : numberLength cs = (.name, (numberLength cs).2) := Prod.ext name rfl
  unfold numberLength at name
  have name := eq_of_ite_kind (eq_of_ite_kind (eq_of_ite_kind name (marked _)) (marked _))
    (marked _)
  cases eq_of_ite_kind (eq_of_ite_kind name (by simp)) (by simp)

theorem quotedLength_ne_name (n : Nat) (cs : List Char) : (quotedLength n cs).1 ≠ .name := by
  simp only [quotedLength]
  split
  · simp
  · dsimp only
    split <;> simp

theorem spanOrBad_ne_name {kind : LexemeKind} (other : kind ≠ .name) (n : Nat)
    (length : Option Nat) : (spanOrBad kind n length).1 ≠ .name := by
  cases length <;> simp [spanOrBad, other]

/-- A name begins with a letter or the low line, or with one behind a backslash, and goes on as far
as it can. -/
theorem lexemeLength_eq_name {operand : Bool} {c : Char} {cs : List Char} {n : Nat}
    (name : lexemeLength operand (c :: cs) = (.name, n)) :
    isNameStart c = true ∧ n = nameTailLength cs + 1 ∨
      ∃ d rest, c = '\\' ∧ cs = d :: rest ∧ isNameStart d = true ∧ n = nameTailLength rest + 2 := by
  have span {kind : LexemeKind} (other : kind ≠ .name) (n : Nat) (length : Option Nat) :=
    spanOrBad_ne_name other n length
  unfold lexemeLength at name
  have name := eq_of_ite_kind (eq_of_ite_kind (eq_of_ite_kind name (by simp))
    (span (by decide) _ _)) (quotedLength_ne_name _ _)
  by_cases start : isNameStart c = true
  · rw [if_pos start] at name
    cases name
    exact .inl ⟨start, rfl⟩
  rw [if_neg start] at name
  by_cases rooted : (c = '\\' && cs.head?.any isNameStart) = true
  · rw [if_pos rooted] at name
    cases name
    cases cs with
    | nil => simp at rooted
    | cons d rest =>
      obtain ⟨rfl, letter⟩ : c = '\\' ∧ isNameStart d = true := by simpa using rooted
      exact .inr ⟨d, rest, rfl, rfl, letter, rfl⟩
  -- What begins in no other way has another kind.
  rw [if_neg rooted] at name
  have name := eq_of_ite_kind (eq_of_ite_kind (eq_of_ite_kind name (by simp))
    (numberLength_ne_name _)) (by simp)
  have name := eq_of_ite_kind (eq_of_ite_kind (eq_of_ite_kind name (span (by decide) _ _))
    (quotedLength_ne_name _ _)) (span (by decide) _ _)
  split at name
  · exact absurd (congrArg Prod.fst name) (span (by decide) _ _)
  · exact absurd (congrArg Prod.fst name) (span (by decide) _ _)

theorem nameTailLength_ne_zero {operand : Bool} {cs : List Char}
    (name : (lexemeLength operand cs).1 = .name) : nameTailLength cs ≠ 0 := by
  cases cs with
  | nil => cases name
  | cons c cs =>
    rcases lexemeLength_eq_name (Prod.ext name rfl) with ⟨start, -⟩ | ⟨d, rest, rfl, rfl, start, -⟩
    · have part : isNamePart c = true := by simp [isNamePart, start]
      cases cs <;> simp [nameTailLength, part]
    · have part : isNamePart '\\' = false := by decide
      simp [nameTailLength, part, start]

theorem nameTailLength_behind {operand : Bool} {cs : List Char}
    (name : (lexemeLength operand cs).1 = .name) :
    nameTailLength (cs.drop (lexemeLength operand cs).2) = 0 := by
  cases cs with
  | nil => cases name
  | cons c cs =>
    rcases lexemeLength_eq_name (Prod.ext name rfl) with
      ⟨-, length⟩ | ⟨d, rest, rfl, rfl, -, length⟩
    · simpa [length] using nameTailLength_drop cs
    · simpa [length] using nameTailLength_drop rest

/-! ## Neighbours -/

/-- How a lexeme stands behind another: with a gap in front, which is not empty between two names.
At the end of the source anything may be left. -/
structure Joined (l m : Lexeme) : Prop where
  gap : m.kind ≠ .done → IsGap m.lead
  apart : l.kind = .name → m.kind = .name → m.lead ≠ []

/-- The first lexeme of a text that nothing stands in front of. -/
theorem head_scanFrom {steps line : Nat} {operand : Bool} {cs : List Char} {m : Lexeme}
    (head : (scanFrom steps line operand [] cs).head? = some m) :
    (m.kind ≠ .done → IsGap m.lead) ∧
      (m.kind = .name → m.lead = [] → nameTailLength cs ≠ 0) := by
  cases steps with
  | zero =>
    cases head
    simp
  | succ steps =>
    unfold scanFrom at head
    split at head
    · cases head
      exact ⟨fun _ => isGap_nil, by simp⟩
    · rename_i gap length
      dsimp only at head
      have lexeme : m.kind = (lexemeLength operand (cs.drop gap)).1 ∧ m.lead = cs.take gap := by
        split at head <;> cases head <;> simp
      refine ⟨fun _ => lexeme.2 ▸ isGap_take length, fun name empty => ?_⟩
      have whole : cs.drop gap = cs := by
        have := List.take_append_drop gap cs
        rwa [← lexeme.2, empty, List.nil_append] at this
      rw [lexeme.1, whole] at name
      exact nameTailLength_ne_zero name

theorem isChain_scanFrom (steps line : Nat) (operand : Bool) (lead cs : List Char) :
    (scanFrom steps line operand lead cs).IsChain Joined := by
  induction steps generalizing line operand lead cs with
  | zero => exact .singleton _
  | succ steps ih =>
    unfold scanFrom
    split
    · refine .cons_cons ⟨by simp, by simp⟩ (.singleton _)
    · dsimp only
      split
      · exact .singleton _
      · refine List.isChain_cons.mpr ⟨fun m head => ?_, ih _ _ _ _⟩
        obtain ⟨gap, name⟩ := head_scanFrom head
        refine ⟨gap, fun named named' empty => name named' empty ?_⟩
        exact nameTailLength_behind named

/-- In a source every lexeme but the first stands behind another. -/
theorem isChain_scan (source : String) : (scan source).IsChain Joined :=
  isChain_scanFrom _ _ _ _ _

end RequestSchema.Source
