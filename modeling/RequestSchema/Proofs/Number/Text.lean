import RequestSchema.Number
import RequestSchema.Proofs.Text.Trim

/-!
# The text of a number

Whatever the number is, its numeral is not empty and holds no white space.
-/
namespace RequestSchema

open RequestSchema.Text

def isNumeral (c : Char) : Bool := c.isDigit || ['.', 'e', '+', '-', 'i', 'n', 'f', 'a'].contains c

theorem isBlank_of_isNumeral {c : Char} (numeral : isNumeral c) : isBlank c = false := by
  rw [isNumeral, Bool.or_eq_true] at numeral
  rcases numeral with digit | sign
  · rw [Char.isDigit, Bool.and_eq_true, decide_eq_true_iff, decide_eq_true_iff] at digit
    have low : 48 ≤ c.toNat := digit.1
    have high : c.toNat ≤ 57 := digit.2
    simp only [isBlank]
    simp
    omega
  · simp at sign
    rcases sign with rfl | rfl | rfl | rfl | rfl | rfl | rfl | rfl <;> decide

theorem isNumeral_of_isDigit {c : Char} (digit : c.isDigit) : isNumeral c := by
  rw [isNumeral, digit, Bool.true_or]

theorem all_isNumeral_decimalDigits (n : Nat) : (Binary64.decimalDigits n).all isNumeral :=
  List.all_eq_true.mpr fun _ member =>
    isNumeral_of_isDigit (Nat.isDigit_of_mem_toDigits (by decide) (by decide) member)

theorem all_isNumeral_zeros (n : Nat) : (List.replicate n '0').all isNumeral :=
  List.all_eq_true.mpr fun _ member => by rw [List.eq_of_mem_replicate member]; rfl

theorem all_isNumeral_layout {digits : List Char} (numeral : digits.all isNumeral) (point : Int) :
    (Binary64.layout digits point).all isNumeral := by
  have front (n : Nat) : (digits.take n).all isNumeral :=
    List.all_eq_true.mpr fun c member =>
      List.all_eq_true.mp numeral c (List.mem_of_mem_take member)
  have back (n : Nat) : (digits.drop n).all isNumeral :=
    List.all_eq_true.mpr fun c member =>
      List.all_eq_true.mp numeral c (List.mem_of_mem_drop member)
  have zero : isNumeral '0' = true := rfl
  have dot : isNumeral '.' = true := rfl
  have letter : isNumeral 'e' = true := rfl
  have plus : isNumeral '+' = true := rfl
  have minus : isNumeral '-' = true := rfl
  unfold Binary64.layout
  simp only
  split
  · split
    · simp only [List.cons_append, List.all_cons, List.all_append, all_isNumeral_zeros, numeral,
        zero, dot, Bool.and_self]
    · simp only [List.all_cons, List.all_append, all_isNumeral_zeros, front, dot, Bool.true_and]
      split
      · rfl
      · exact back _
  · have power := all_isNumeral_decimalDigits (point - 1).natAbs
    simp only [List.all_cons, List.all_append, front, letter, Bool.true_and, Bool.and_eq_true]
    refine ⟨?_, ?_, ?_⟩
    · split
      · rfl
      · simp only [List.all_cons, dot, back, Bool.and_self]
    · split
      · exact minus
      · exact plus
    · split
      · simp only [List.all_cons, zero, power, Bool.and_self]
      · exact power

theorem layout_ne_nil (digits : List Char) (point : Int) : Binary64.layout digits point ≠ [] := by
  unfold Binary64.layout
  simp only
  split
  · split <;> simp
  · simp

/-- A text that is not empty and consists of characters of numbers. -/
def IsNumeral (s : String) : Prop := s.toList ≠ [] ∧ s.toList.all isNumeral

theorem isNumeral_repr (n : Nat) : IsNumeral (Nat.repr n) := by
  rw [Nat.repr, IsNumeral, String.toList_ofList]
  exact ⟨Nat.toDigits_ne_nil, all_isNumeral_decimalDigits n⟩

theorem isNumeral_float (x : Binary64) : IsNumeral x.text := by
  cases x with
  | nan => exact ⟨by decide, rfl⟩
  | infinite s => cases s <;> exact ⟨by decide, rfl⟩
  | finite s m e =>
    simp only [Binary64.text]
    have sign : (if s then ['-'] else []).all isNumeral := by cases s <;> rfl
    split
    · rw [IsNumeral, String.toList_ofList]
      refine ⟨by simp, ?_⟩
      rw [List.all_append, sign]
      rfl
    · rw [IsNumeral, String.toList_ofList]
      refine ⟨List.append_ne_nil_of_right_ne_nil _ (layout_ne_nil _ _), ?_⟩
      rw [List.all_append, sign, Bool.true_and]
      refine all_isNumeral_layout (List.all_eq_true.mpr fun c member => ?_) _
      have kept : c ∈ (Binary64.decimalDigits (Binary64.shortest m e).1).reverse :=
        (List.dropWhile_sublist _).subset (List.mem_reverse.mp member)
      exact List.all_eq_true.mp (all_isNumeral_decimalDigits _) c (List.mem_reverse.mp kept)

theorem isNumeral_numeral (n : Number) : IsNumeral n.numeral := by
  cases n with
  | float x => exact isNumeral_float x
  | int n =>
    cases n with
    | ofNat n => exact isNumeral_repr n
    | negSucc n =>
      obtain ⟨-, digits⟩ := isNumeral_repr (n + 1)
      have signed : (toString (Int.negSucc n)).toList = '-' :: (Nat.repr (n + 1)).toList := by
        change ("-" ++ Nat.repr (n + 1)).toList = _
        rw [String.toList_append]
        rfl
      refine ⟨?_, ?_⟩
      · rw [Number.numeral, signed]
        exact List.cons_ne_nil _ _
      · rw [Number.numeral, signed, List.all_cons, digits]
        rfl

/-- The numeral of a number is trimmed. -/
theorem trim_numeral (n : Number) : trim n.numeral = n.numeral :=
  trim_of_unblank fun c member =>
    isBlank_of_isNumeral (List.all_eq_true.mp (isNumeral_numeral n).2 c member)

theorem isEmpty_numeral (n : Number) : n.numeral.isEmpty = false := by
  rw [Bool.eq_false_iff, ne_eq, String.isEmpty_iff]
  exact fun empty => (isNumeral_numeral n).1 (by rw [empty]; rfl)

/-- The text of a number, where it has one, is its numeral. -/
theorem numeral_of_text {n : Number} {s : String} (written : n.text = .ok s) : n.numeral = s := by
  unfold Number.text at written
  split at written
  · exact Except.ok.inj written
  · cases written

end RequestSchema
