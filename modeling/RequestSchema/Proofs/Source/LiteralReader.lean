import RequestSchema.Proofs.Source.Quotation

/-!
# Literals as the language reads them

A reader of string literals that knows nothing of how `Quotation.decode` scans: it cuts what an
escape takes off the text and goes on behind it, and it reads escaped code points.

* `denotes_of_doubleText?`: what it reads between double quotes is what stands there denotes;
* `decode_of_literal?`: a literal that it reads without an escaped code point is decoded alike.

Octal and hexadecimal escapes denote bytes. Those beyond ASCII are no characters, so literals
with one of them are not read.
-/
namespace RequestSchema.Source.Quotation

open RequestSchema.Text

/-- What stands behind a backslash between double quotes, and how many characters it takes. -/
inductive Escape
  /-- no escape: the backslash stands for itself -/
  | absent
  | char (c : Char) (length : Nat)
  | codePoint (point length : Nat)
  /-- an escape that denotes no character -/
  | unreadable

def byteEscape (byte length : Nat) : Escape :=
  if byte < 128 then .char (.ofNat byte) length else .unreadable

def escapeOf : List Char → Escape
  | [] => .absent
  | c :: cs =>
      let octal := ((c :: cs).takeWhile isOctalDigit).take 3
      let hex := (cs.takeWhile isHexDigit).take 2
      let point := cs.tail.takeWhile isHexDigit
      if octal ≠ [] then byteEscape (numeral 8 octal % 256) octal.length
      else if c = 'x' ∧ hex ≠ [] then byteEscape (numeral 16 hex) (1 + hex.length)
      else if c = 'u' ∧ cs.head? = some '\x7b' then
        if point ≠ [] ∧ (cs.tail.drop point.length).head? = some '\x7d' ∧
            (numeral 16 point).isValidChar then .codePoint (numeral 16 point) (point.length + 3)
        else .unreadable
      else
        match letters.find? fun pair => pair.1 = c with
        | some (_, d) => .char d 1
        | none => .absent

/-- The code points that are escaped in what stands between double quotes, and the text that it
denotes, behind some characters that belong to an escape. -/
def doubleText? : Nat → List Char → Option (List Nat × List Char)
  | _, [] => some ([], [])
  | skip + 1, _ :: cs => doubleText? skip cs
  | 0, c :: cs =>
      if c ≠ '\\' then (doubleText? 0 cs).map fun (points, text) => (points, c :: text)
      else
        match escapeOf cs with
        | .absent => (doubleText? 0 cs).map fun (points, text) => (points, '\\' :: text)
        | .char d length => (doubleText? length cs).map fun (points, text) => (points, d :: text)
        | .codePoint point length =>
            (doubleText? length cs).map fun (points, text) => (point :: points, .ofNat point :: text)
        | .unreadable => none

def singleText : List Char → List Char
  | '\\' :: '\\' :: cs => '\\' :: singleText cs
  | '\\' :: '\'' :: cs => '\'' :: singleText cs
  | c :: cs => c :: singleText cs
  | [] => []

def quotation? : List Char → Option (List Nat × List Char)
  | '\'' :: cs => if cs.getLast? = some '\'' then some ([], singleText cs.dropLast) else none
  | '"' :: cs => if cs.getLast? = some '"' then doubleText? 0 cs.dropLast else none
  | _ => none

/-- The code points that are escaped in a literal, and the text that it denotes. -/
def literal? : List Char → Option (List Nat × List Char)
  | 'b' :: quoted => quotation? quoted
  | 'B' :: quoted => quotation? quoted
  | quoted => quotation? quoted

/-! ## What is read is denoted -/

theorem plainlyDenotes_singleText (cs : List Char) : PlainlyDenotes cs (singleText cs) := by
  fun_induction singleText cs with
  | case1 cs ih => exact .escape (.inl rfl) ih
  | case2 cs ih => exact .escape (.inr rfl) ih
  | case3 c cs noBackslash noQuote ih =>
    by_cases sign : c = '\\'
    · subst sign
      refine .backslash (fun d first => ?_) ih
      cases cs with
      | nil => cases first
      | cons e cs =>
        cases first
        exact ⟨fun same => noBackslash cs rfl (same ▸ rfl), fun same => noQuote cs rfl (same ▸ rfl)⟩
    · exact .char sign ih
  | case4 => exact .nil

/-- As many digits as there are, but no more than a limit, lead the text behind them. -/
theorem leadingDigits_take {p : Char → Bool} {limit : Nat} {cs : List Char}
    (filled : (cs.takeWhile p).take limit ≠ []) :
    ∃ rest, cs = (cs.takeWhile p).take limit ++ rest ∧
      LeadingDigits p limit ((cs.takeWhile p).take limit) rest := by
  refine ⟨(cs.takeWhile p).drop limit ++ cs.dropWhile p, ?_, filled, List.length_take_le .., ?_, ?_⟩
  · rw [← List.append_assoc, List.take_append_drop, List.takeWhile_append_dropWhile]
  · exact fun c member => List.all_eq_true.mp List.all_takeWhile c (List.mem_of_mem_take member)
  · by_cases long : limit ≤ (cs.takeWhile p).length
    · exact .inl (by simp [long])
    · right
      intro c first
      rw [List.drop_eq_nil_of_le (by omega), List.nil_append] at first
      have stops := List.head?_dropWhile_not p cs
      cases ends : cs.dropWhile p with
      | nil => simp [ends] at first
      | cons d rest =>
        rw [ends] at first stops
        cases first
        simpa using stops

theorem doubleText?_drop (skip : Nat) (cs : List Char) :
    doubleText? skip cs = doubleText? 0 (cs.drop skip) := by
  induction cs generalizing skip with
  | nil => cases skip <;> rfl
  | cons c cs ih =>
    cases skip with
    | zero => rfl
    | succ skip => exact ih skip

/-- What an escape contributes to what a text denotes. -/
def Escape.Contributes (cs : List Char) : Escape → Prop
  | .absent => beginsEscape cs = false
  | .char d length => ∀ points text, Denotes points (cs.drop length) text →
      Denotes points ('\\' :: cs) (d :: text)
  | .codePoint point length => ∀ points text, Denotes points (cs.drop length) text →
      Denotes (point :: points) ('\\' :: cs) (.ofNat point :: text)
  | .unreadable => True

theorem contributes_octal {cs : List Char} (filled : (cs.takeWhile isOctalDigit).take 3 ≠ []) :
    (byteEscape (numeral 8 ((cs.takeWhile isOctalDigit).take 3) % 256)
      ((cs.takeWhile isOctalDigit).take 3).length).Contributes cs := by
  obtain ⟨rest, parts, leading⟩ := leadingDigits_take filled
  generalize (cs.takeWhile isOctalDigit).take 3 = digits at parts leading
  unfold byteEscape
  split
  · rename_i ascii
    intro points text denotes
    rw [parts, List.drop_left] at denotes
    rw [parts]
    exact .octal digits leading ascii denotes
  · trivial

theorem contributes_hex {cs : List Char} (filled : (cs.takeWhile isHexDigit).take 2 ≠ []) :
    (byteEscape (numeral 16 ((cs.takeWhile isHexDigit).take 2))
      (1 + ((cs.takeWhile isHexDigit).take 2).length)).Contributes ('x' :: cs) := by
  obtain ⟨rest, parts, leading⟩ := leadingDigits_take filled
  generalize (cs.takeWhile isHexDigit).take 2 = digits at parts leading
  unfold byteEscape
  split
  · rename_i ascii
    intro points text denotes
    rw [Nat.add_comm, List.drop_succ_cons, parts, List.drop_left] at denotes
    rw [parts]
    exact .hex digits leading ascii denotes
  · trivial

theorem contributes_codePoint {cs : List Char} (filled : cs.takeWhile isHexDigit ≠ [])
    (closed : (cs.drop (cs.takeWhile isHexDigit).length).head? = some '\x7d')
    (valid : (numeral 16 (cs.takeWhile isHexDigit)).isValidChar) :
    (Escape.codePoint (numeral 16 (cs.takeWhile isHexDigit))
      ((cs.takeWhile isHexDigit).length + 3)).Contributes ('u' :: '\x7b' :: cs) := by
  have inside (c : Char) (member : c ∈ cs.takeWhile isHexDigit) : isHexDigit c = true :=
    List.all_eq_true.mp List.all_takeWhile c member
  have parts : cs = cs.takeWhile isHexDigit ++ cs.drop (cs.takeWhile isHexDigit).length :=
    (List.prefix_iff_eq_append.mp (List.takeWhile_prefix isHexDigit)).symm
  obtain ⟨rest, behind⟩ := List.head?_eq_some_iff.mp closed
  rw [behind] at parts
  generalize cs.takeWhile isHexDigit = digits at parts inside filled valid
  subst parts
  intro points text denotes
  have remaining : ('u' :: '\x7b' :: (digits ++ '\x7d' :: rest)).drop (digits.length + 3) = rest := by
    simp
  rw [remaining] at denotes
  exact .codePoint digits filled inside valid denotes

theorem escapeOf_contributes (cs : List Char) : (escapeOf cs).Contributes cs := by
  cases cs with
  | nil => rfl
  | cons c cs =>
    unfold escapeOf
    simp only
    split
    · rename_i filled
      exact contributes_octal filled
    · rename_i noOctal
      split
      · rename_i hex
        obtain ⟨rfl, filled⟩ := hex
        exact contributes_hex filled
      · rename_i noHex
        split
        · rename_i opened
          obtain ⟨rfl, first⟩ := opened
          obtain ⟨behind, rfl⟩ := List.head?_eq_some_iff.mp first
          split
          · rename_i closed
            exact contributes_codePoint closed.1 closed.2.1 closed.2.2
          · trivial
        · rename_i noPoint
          split
          · rename_i d listed
            intro points text denotes
            have same := List.find?_some listed
            simp only [decide_eq_true_eq] at same
            exact .letter (same ▸ List.mem_of_find?_eq_some listed) denotes
          · rename_i unlisted
            have noLetter : (letters.map Prod.fst).contains c = false := by
              rw [List.contains_eq_mem, decide_eq_false_iff_not]
              rintro member
              obtain ⟨pair, listed, first⟩ := List.mem_map.mp member
              exact List.find?_eq_none.mp unlisted pair listed (decide_eq_true first)
            have notOctal : isOctalDigit c = false := by
              simpa [List.takeWhile_cons] using noOctal
            have notHex : (decide (c = 'x') && cs.head?.any isHexDigit) = false := by
              cases cs with
              | nil => simp
              | cons d cs => simpa [List.takeWhile_cons] using noHex
            have notPoint : (decide (c = 'u') && decide (cs.head? = some '\x7b')) = false := by
              simpa using noPoint
            simp only [Escape.Contributes, beginsEscape, noLetter, notOctal, notHex, notPoint]
            rfl

/-- What is read between double quotes is what stands there denotes. -/
theorem denotes_of_doubleText? (cs : List Char) (points : List Nat) (text : List Char)
    (read : doubleText? 0 cs = some (points, text)) : Denotes points cs text := by
  match cs with
  | [] =>
    cases read
    exact .nil
  | c :: cs =>
    rw [doubleText?] at read
    split at read
    · rename_i other
      obtain ⟨⟨_, _⟩, readRest, same⟩ := Option.map_eq_some_iff.mp read
      cases same
      exact .char other (denotes_of_doubleText? cs _ _ readRest)
    · rename_i sign
      obtain rfl : c = '\\' := Decidable.not_not.mp sign
      have contributes := escapeOf_contributes cs
      split at read
      · rename_i absent
        rw [absent] at contributes
        obtain ⟨⟨_, _⟩, readRest, same⟩ := Option.map_eq_some_iff.mp read
        cases same
        exact .backslash contributes (denotes_of_doubleText? cs _ _ readRest)
      · rename_i d length isChar
        rw [isChar] at contributes
        obtain ⟨⟨_, _⟩, readRest, same⟩ := Option.map_eq_some_iff.mp read
        cases same
        rw [doubleText?_drop] at readRest
        exact contributes _ _ (denotes_of_doubleText? (cs.drop length) _ _ readRest)
      · rename_i point length isPoint
        rw [isPoint] at contributes
        obtain ⟨⟨_, _⟩, readRest, same⟩ := Option.map_eq_some_iff.mp read
        cases same
        rw [doubleText?_drop] at readRest
        exact contributes _ _ (denotes_of_doubleText? (cs.drop length) _ _ readRest)
      · cases read
termination_by cs.length
decreasing_by
  all_goals simp only [List.length_cons, List.length_drop]
  all_goals omega

/-- A literal without an escaped code point is decoded as the language reads it. -/
theorem decode_of_literal? {literal text : List Char} (read : literal? literal = some ([], text)) :
    decode literal = text := by
  obtain ⟨mark, quoted, marked, rfl, inner⟩ : ∃ mark quoted, mark ∈ marks ∧
      literal = mark ++ quoted ∧ quotation? quoted = some ([], text) := by
    unfold literal? at read
    split at read
    · exact ⟨['b'], _, by decide, rfl, read⟩
    · exact ⟨['B'], _, by decide, rfl, read⟩
    · exact ⟨[], _, by decide, rfl, read⟩
  unfold quotation? at inner
  split at inner
  · rename_i cs
    split at inner
    · rename_i closed
      obtain ⟨body, rfl⟩ := List.getLast?_eq_some_iff.mp closed
      rw [List.dropLast_concat] at inner
      cases inner
      rw [decode_quoted marked (.inl rfl), if_pos rfl]
      exact (plainlyDenotes_singleText body).unescapePlain
    · cases inner
  · rename_i cs
    split at inner
    · rename_i closed
      obtain ⟨body, rfl⟩ := List.getLast?_eq_some_iff.mp closed
      rw [List.dropLast_concat] at inner
      rw [decode_quoted marked (.inr rfl), if_neg (by decide)]
      exact (denotes_of_doubleText? body [] text inner).unescape
    · cases inner
  · cases inner

end RequestSchema.Source.Quotation
