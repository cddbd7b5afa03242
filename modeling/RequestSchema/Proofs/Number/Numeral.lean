import RequestSchema.Proofs.Number.Range
import RequestSchema.Proofs.Number.Text

/-!
# Runs of digits

Digits of any script denote an integer unless there are more of them than are read
(`Decimal.int?_of_digits`). A text with a character that no numeral has denotes no number
(`Number.parse?_of_foreign`): whatever is read from the front, that character is left. The undefined
number is denoted by its name only, and that is no parameter (`Number.parse?_ne_nan`).
-/
namespace RequestSchema

open RequestSchema.Text

namespace Decimal

/-- Where the runs of digits lie among the blanks. -/
theorem zeros_apart : ∀ z ∈ Unicode.decimalZeros,
    z = 48 ∨ (0xA0 < z ∧ z + 9 < 0x1680) ∨ (0x1680 < z ∧ z + 9 < 0x2000) ∨ 0x3000 < z := by
  decide

/-- A digit is no white space. -/
theorem isBlank_of_digit {c : Char} (digit : isDecimalDigit c) : isBlank c = false := by
  have range : (48 ≤ c.toNat ∧ c.toNat ≤ 57) ∨
      ∃ z ∈ Unicode.decimalZeros, z ≤ c.toNat ∧ c.toNat ≤ z + 9 := by
    unfold isDecimalDigit digitValue? at digit
    split at digit
    · split at digit
      · rename_i ascii
        simp only [isAsciiDigit, Bool.and_eq_true, decide_eq_true_eq] at ascii
        exact .inl ⟨ascii.1, ascii.2⟩
      · cases digit
    · rw [Option.isSome_map, Option.isSome_iff_exists] at digit
      obtain ⟨z, found⟩ := digit
      have holds := List.find?_some found
      rw [Bool.and_eq_true, decide_eq_true_eq, decide_eq_true_eq] at holds
      exact .inr ⟨z, List.mem_of_find?_eq_some found, holds⟩
  simp only [isBlank, Bool.or_eq_false_iff, Bool.and_eq_false_iff, decide_eq_false_iff_not]
  rcases range with ascii | ⟨z, listed, within⟩
  · omega
  · have apart := zeros_apart z listed
    omega

/-- Digits are all read. -/
theorem digitRun_of_digits {cs : List Char} (digits : ∀ c ∈ cs, isDecimalDigit c) :
    ∃ ds, digitRun cs = (ds, []) ∧ ds.length = cs.length := by
  induction cs with
  | nil => exact ⟨[], rfl, rfl⟩
  | cons c rest ih =>
    obtain ⟨d, value⟩ := Option.isSome_iff_exists.mp (digits c List.mem_cons_self)
    cases rest with
    | nil => exact ⟨[d], by simp only [digitRun, value], rfl⟩
    | cons next rest =>
      obtain ⟨ds, run, length⟩ := ih fun c' member => digits c' (List.mem_cons_of_mem c member)
      have filled : ds.isEmpty = false := by
        rw [List.isEmpty_eq_false_iff, ← List.length_pos_iff, length]
        exact Nat.succ_pos _
      refine ⟨d :: ds, ?_, congrArg (· + 1) length⟩
      simp only [digitRun, value, run, filled, Bool.false_and, Bool.false_eq_true, if_false]

/-- A text of digits denotes an integer unless it is too long. -/
theorem int?_of_digits {s : String} (filled : s.toList ≠ [])
    (digits : ∀ c ∈ s.toList, isDecimalDigit c) (short : s.toList.length ≤ digitLimit) :
    (int? s).isSome := by
  have unsigned : sign s.toList = (false, s.toList) := by
    unfold sign
    split
    · rename_i starts
      exact absurd (digits '-' (starts ▸ List.mem_cons_self)) (by decide)
    · rename_i starts
      exact absurd (digits '+' (starts ▸ List.mem_cons_self)) (by decide)
    · rfl
  obtain ⟨ds, run, length⟩ := digitRun_of_digits digits
  unfold int?
  rw [trimBy_of_none fun c member => isBlank_of_digit (digits c member), unsigned]
  simp only [run]
  cases ds with
  | nil => exact absurd length.symm (mt List.length_eq_zero_iff.mp filled)
  | cons d rest =>
    simp only
    rw [if_neg (by omega)]
    rfl

/-! ## Characters that stand in no numeral -/

/-- Whether a character stands in no numeral: it is no digit, letter, sign, point, low line or white
space. -/
def isForeign (c : Char) : Bool :=
  !(isDecimalDigit c || isAsciiLetter c || ['-', '+', '.', '_'].contains c || isBlank c)

variable {c : Char} {cs : List Char}

theorem digitValue?_of_foreign (foreign : isForeign c) : digitValue? c = none := by
  simp only [isForeign, Bool.not_or, Bool.and_eq_true, Bool.not_eq_true'] at foreign
  simpa [isDecimalDigit] using foreign.1.1.1

theorem ne_of_foreign {other : Char} (foreign : isForeign c) (known : isForeign other = false) :
    c ≠ other := by
  rintro rfl
  rw [foreign] at known
  cases known

/-- A foreign character stands behind a digit, not in its place. -/
theorem mem_behind_digit {d : Char} {v : Nat} (foreign : isForeign c)
    (value : digitValue? d = some v) (member : c ∈ d :: cs) : c ∈ cs := by
  rcases List.mem_cons.mp member with rfl | behind
  · rw [digitValue?_of_foreign foreign] at value
    cases value
  · exact behind

/-- A foreign character is left behind a run of digits. -/
theorem mem_digitRun (foreign : isForeign c) (member : c ∈ cs) : c ∈ (digitRun cs).2 := by
  fun_induction digitRun cs with
  | case1 => cases member
  | case2 d v value => cases mem_behind_digit foreign value member
  | case3 d value => exact member
  | case4 d next rest value => exact member
  | case5 d next rest v value => exact mem_behind_digit foreign value member
  | case6 d next rest v value _ _ _ skip ds left run _ _ ih =>
    rw [run] at ih
    rw [Bool.and_eq_true, decide_eq_true_eq] at skip
    have behind := mem_behind_digit foreign value member
    rw [skip.2] at behind
    exact ih (List.mem_of_ne_of_mem (ne_of_foreign foreign (by decide)) behind)
  | case7 d next rest v value ds left run _ ih =>
    rw [run] at ih
    exact ih (mem_behind_digit foreign value member)

theorem mem_sign (foreign : isForeign c) (member : c ∈ cs) : c ∈ (sign cs).2 := by
  unfold sign
  split
  · exact List.mem_of_ne_of_mem (ne_of_foreign foreign (by decide)) member
  · exact List.mem_of_ne_of_mem (ne_of_foreign foreign (by decide)) member
  · exact member

/-- A run of digits that takes the whole of a text has no foreign character to leave. -/
theorem not_mem_of_digitRun {ds : List Nat} (foreign : isForeign c)
    (run : digitRun (sign cs).2 = (ds, [])) : c ∉ cs := by
  intro member
  have left := mem_digitRun foreign (mem_sign foreign member)
  rw [run] at left
  cases left

theorem exponent?_of_foreign (foreign : isForeign c) (member : c ∈ cs) : exponent? cs = none := by
  unfold exponent?
  simp only
  split
  · rfl
  · rfl
  · rename_i run
    exact absurd member (not_mem_of_digitRun foreign run)

theorem mem_trimBy_isBlank (foreign : isForeign c) (member : c ∈ cs) : c ∈ trimBy isBlank cs := by
  simp only [isForeign, Bool.not_or, Bool.and_eq_true, Bool.not_eq_true'] at foreign
  exact mem_trimBy foreign.2 member

theorem int?_of_foreign {s : String} (foreign : isForeign c) (member : c ∈ s.toList) :
    int? s = none := by
  have inside := mem_trimBy_isBlank foreign member
  unfold int?
  simp only
  split
  · rfl
  · rfl
  · rename_i run
    exact absurd inside (not_mem_of_digitRun foreign run)

/-- What stands behind the digits of a numeral is nothing, or an exponent. -/
theorem ending_of_foreign (x : Binary64) (put : Int → Binary64) (foreign : isForeign c)
    (member : c ∈ cs) :
    (match cs with
      | [] => some x
      | e :: rest => if e = 'e' || e = 'E' then (exponent? rest).map put else none) = none := by
  cases cs with
  | nil => cases member
  | cons e rest =>
    simp only
    split
    · rename_i letter
      have exponent : isForeign e = false := by
        simp only [Bool.or_eq_true, decide_eq_true_eq] at letter
        rcases letter with rfl | rfl <;> decide
      have behind := List.mem_of_ne_of_mem (ne_of_foreign foreign exponent) member
      rw [exponent?_of_foreign foreign behind, Option.map_none]
    · rfl

theorem magnitude?_of_foreign (negative : Bool) (foreign : isForeign c) (member : c ∈ cs) :
    magnitude? negative cs = none := by
  have behind := mem_digitRun foreign member
  unfold magnitude?
  generalize digitRun cs = run at behind
  obtain ⟨whole, rest⟩ := run
  simp only at behind ⊢
  split
  · rename_i rest
    have left := mem_digitRun foreign
      (List.mem_of_ne_of_mem (ne_of_foreign foreign (by decide)) behind)
    split
    · rfl
    · exact ending_of_foreign _ _ foreign left
  · split
    · rfl
    · exact ending_of_foreign _ _ foreign behind

theorem float?_of_foreign {s : String} (foreign : isForeign c) (member : c ∈ s.toList) :
    float? s = none := by
  have inside := mem_sign foreign (mem_trimBy_isBlank foreign member)
  unfold float?
  generalize sign (trimBy isBlank s.toList) = signed at inside
  obtain ⟨negative, cs⟩ := signed
  have capital : isAsciiUpper c = false := by
    cases upper : isAsciiUpper c with
    | false => rfl
    | true => simp [isForeign, isAsciiLetter, upper] at foreign
  have named : c ∈ cs.map fun c => if isAsciiUpper c then Char.ofNat (c.toNat + 32) else c :=
    List.mem_map.mpr ⟨c, inside, by rw [capital]; rfl⟩
  have other (name : List Char) (known : name.any isForeign = false) :
      (cs.map fun c => if isAsciiUpper c then Char.ofNat (c.toNat + 32) else c) ≠ name := by
    rintro rfl
    exact List.any_eq_false.mp known c named foreign
  simp only
  rw [magnitude?_of_foreign negative foreign inside]
  simp only [other "inf".toList (by decide), other "infinity".toList (by decide),
    other "nan".toList (by decide), decide_false, Bool.or_self, Bool.false_eq_true, if_false]

end Decimal

/-- A text with a character that stands in no numeral denotes no number. -/
theorem Number.parse?_of_foreign {c : Char} {s : String} (foreign : Decimal.isForeign c)
    (member : c ∈ s.toList) : Number.parse? s = none := by
  have inside : c ∈ (trim s).toList := by
    rw [trim, String.toList_ofList]
    exact Decimal.mem_trimBy_isBlank foreign member
  unfold Number.parse?
  simp only [Decimal.float?_of_foreign foreign inside, Decimal.int?_of_foreign foreign inside,
    Option.map_none, ite_self]

/-! ## The undefined number -/

/-- A text in lower case is made of its characters one by one. -/
theorem Text.mem_lowerFrom {x : Char} {before cs : List Char} (member : x ∈ lowerFrom before cs) :
    ∃ c ∈ cs, ∃ front behind, x ∈ lowerBetween front c behind := by
  induction cs generalizing before with
  | nil => cases member
  | cons c rest ih =>
    rw [lowerFrom] at member
    rcases List.mem_append.mp member with own | later
    · exact ⟨c, List.mem_cons_self, _, _, own⟩
    · obtain ⟨c', there, found⟩ := ih later
      exact ⟨c', List.mem_cons_of_mem c there, found⟩

theorem Binary64.ofDecimal_ne_nan (negative : Bool) (digits : Nat) (power : Int) :
    ofDecimal negative digits power ≠ .nan := by
  have rounded (num den : Nat) : round negative num den ≠ .nan := by
    unfold round zero
    grind
  unfold ofDecimal zero
  repeat' split
  all_goals first
    | exact rounded _ _
    | exact fun same => nomatch same

namespace Decimal

/-- The letters of the name of the undefined number, in either case. -/
def nanLetters : List Char := ['n', 'a', 'N', 'A']

theorem mem_nanLetters {c : Char}
    (letter : (if isAsciiUpper c then Char.ofNat (c.toNat + 32) else c) ∈ ['n', 'a', 'n']) :
    c ∈ nanLetters := by
  by_cases upper : isAsciiUpper c = true
  · have small : ∀ n < 91, (Char.ofNat (n + 32)) ∈ ['n', 'a', 'n'] → Char.ofNat n ∈ nanLetters := by
      decide
    have bound : c.toNat < 91 := by
      simp only [isAsciiUpper, Bool.and_eq_true, decide_eq_true_eq] at upper
      exact Nat.lt_succ_of_le upper.2
    rw [if_pos upper] at letter
    have known := small c.toNat bound letter
    rwa [Char.ofNat_toNat] at known
  · rw [if_neg upper] at letter
    simp only [List.mem_cons, List.not_mem_nil, or_false] at letter
    rcases letter with rfl | rfl | rfl <;> decide

/-- What stands for the undefined number holds no other characters than a sign and its letters. -/
theorem mem_of_float?_nan {s : String} (read : float? s = some .nan) {c : Char}
    (member : c ∈ trimBy isBlank s.toList) : c ∈ ['-', '+'] ++ nanLetters := by
  have signed : c ∈ ['-', '+'] ∨ c ∈ (sign (trimBy isBlank s.toList)).2 := by
    generalize trimBy isBlank s.toList = cs at member
    unfold sign
    split <;> grind
  unfold float? at read
  simp only at read
  split at read
  · cases read
  · split at read
    · rename_i named
      rcases signed with front | inside
      · exact List.mem_append_left _ front
      · refine List.mem_append_right _ (mem_nanLetters ?_)
        rw [show ['n', 'a', 'n'] = "nan".toList from rfl, ← named]
        exact List.mem_map_of_mem inside
    · obtain ⟨digits, power, same⟩ := magnitude?_eq_some read
      exact absurd same.symm (Binary64.ofDecimal_ne_nan _ _ _)

end Decimal

/-- No parameter denotes the undefined number: its name has neither a point nor the letter of an
exponent. -/
theorem Number.parse?_ne_nan (s : String) : Number.parse? s ≠ some (.float .nan) := by
  intro read
  unfold Number.parse? at read
  simp only at read
  split at read
  · cases read
  · split at read
    · rename_i marked
      obtain ⟨x, denoted, same⟩ := Option.map_eq_some_iff.mp read
      cases same
      have trimmed : trimBy isBlank (trim s).toList = (trim s).toList := by
        rw [trim, String.toList_ofList, trimBy_trimBy]
      have letters : ∀ c ∈ (trim s).toList, c ∈ ['-', '+'] ++ Decimal.nanLetters := by
        rw [← trimmed]
        exact fun c member => Decimal.mem_of_float?_nan denoted member
      have plain : (['-', '+'] ++ Decimal.nanLetters).all
          (fun c => c ≠ '.' ∧ c ≠ 'Σ' ∧ 'e' ∉ lowerChar c) = true := by decide
      replace letters c member := of_decide_eq_true (List.all_eq_true.mp plain c (letters c member))
      rw [Bool.or_eq_true, List.contains_iff_mem, List.contains_iff_mem] at marked
      rcases marked with point | exponent
      · exact (letters _ point).1 rfl
      · rw [lower, String.toList_ofList] at exponent
        obtain ⟨c, member, front, behind, lowered⟩ := mem_lowerFrom exponent
        obtain ⟨-, other, absent⟩ := letters c member
        rw [lowerBetween, if_neg other] at lowered
        exact absent lowered
    · obtain ⟨n, -, same⟩ := Option.map_eq_some_iff.mp read
      cases same

end RequestSchema
