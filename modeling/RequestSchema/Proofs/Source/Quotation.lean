import RequestSchema.Source.Quotation

/-!
# Quotations and the texts that they denote

Between single quotes only the quote and the backslash are escaped (`PlainlyDenotes`); between
double quotes there are letters, octal and hexadecimal numbers and code points behind a backslash,
each as long as it can be (`Denotes`). Reading scans a quotation once from left to right and never
looks back, so every lemma about an escape is about the text behind its backslash alone.

* `decode_of_denoted`: a quotation with or without a mark is read as the text that it denotes,
  exactly when no code point is escaped in it, and a text that has been quoted either way is read
  back;
* `mixedEscapes_read`: escapes of every kind next to characters that could belong to them;
* `codePoint_unread`: an escaped code point is read as it is written.
-/
namespace RequestSchema.Source.Quotation

open RequestSchema.Text

/-! ## What quotations denote -/

/-- What stands between single quotes, and the text that it denotes. A backslash in front of other
characters than itself and the quote stands for itself. -/
inductive PlainlyDenotes : List Char → List Char → Prop
  | nil : PlainlyDenotes [] []
  | char {c : Char} {cs text : List Char} :
      c ≠ '\\' → PlainlyDenotes cs text → PlainlyDenotes (c :: cs) (c :: text)
  | escape {c : Char} {cs text : List Char} :
      c = '\\' ∨ c = '\'' → PlainlyDenotes cs text → PlainlyDenotes ('\\' :: c :: cs) (c :: text)
  | backslash {cs text : List Char} : (∀ c ∈ cs.head?, c ≠ '\\' ∧ c ≠ '\'') →
      PlainlyDenotes cs text → PlainlyDenotes ('\\' :: cs) ('\\' :: text)

/-- The letters and signs that can stand behind a backslash, and what they denote there. -/
def letters : List (Char × Char) :=
  [('n', '\n'), ('r', '\r'), ('t', '\t'), ('v', '\x0b'), ('e', '\x1b'), ('f', '\x0c'), ('\\', '\\'),
    ('$', '$'), ('"', '"')]

/-- Some digits of a class at the head of a text, as many as there are but no more than a limit. -/
structure LeadingDigits (p : Char → Bool) (limit : Nat) (digits rest : List Char) : Prop where
  filled : digits ≠ []
  within : digits.length ≤ limit
  inside : ∀ c ∈ digits, p c = true
  ended : digits.length = limit ∨ ∀ c ∈ rest.head?, p c = false

def numeral (base : Nat) (digits : List Char) : Nat := Decimal.ofDigits base (digits.map hexValue)

def beginsEscape : List Char → Bool
  | [] => false
  | c :: cs => (letters.map Prod.fst).contains c || isOctalDigit c ||
      (c = 'x' && cs.head?.any isHexDigit) || (c = 'u' && cs.head? = some '\x7b')

/-- What stands between double quotes, the code points that are escaped in it, and the text that it
denotes. Octal and hexadecimal escapes denote bytes, of which only those of ASCII are characters;
an octal one that is too large for a byte loses what does not fit. -/
inductive Denotes : List Nat → List Char → List Char → Prop
  | nil : Denotes [] [] []
  | char {c : Char} {points : List Nat} {cs text : List Char} :
      c ≠ '\\' → Denotes points cs text → Denotes points (c :: cs) (c :: text)
  | letter {c d : Char} {points : List Nat} {cs text : List Char} :
      (c, d) ∈ letters → Denotes points cs text → Denotes points ('\\' :: c :: cs) (d :: text)
  | octal (digits : List Char) {points : List Nat} {cs text : List Char} :
      LeadingDigits isOctalDigit 3 digits cs → numeral 8 digits % 256 < 128 →
      Denotes points cs text → Denotes points ('\\' :: (digits ++ cs))
        (.ofNat (numeral 8 digits % 256) :: text)
  | hex (digits : List Char) {points : List Nat} {cs text : List Char} :
      LeadingDigits isHexDigit 2 digits cs → numeral 16 digits < 128 →
      Denotes points cs text → Denotes points ('\\' :: 'x' :: (digits ++ cs))
        (.ofNat (numeral 16 digits) :: text)
  | codePoint (digits : List Char) {points : List Nat} {cs text : List Char} :
      digits ≠ [] → (∀ c ∈ digits, isHexDigit c = true) → (numeral 16 digits).isValidChar →
      Denotes points cs text →
      Denotes (numeral 16 digits :: points) ('\\' :: 'u' :: '\x7b' :: (digits ++ '\x7d' :: cs))
        (.ofNat (numeral 16 digits) :: text)
  | backslash {points : List Nat} {cs text : List Char} : beginsEscape cs = false →
      Denotes points cs text → Denotes points ('\\' :: cs) ('\\' :: text)

/-- What stands between single quotes around a text. -/
def quotePlain (text : List Char) : List Char :=
  text.flatMap fun c => if c = '\\' ∨ c = '\'' then ['\\', c] else [c]

/-- What stands between double quotes around a text. -/
def quote (text : List Char) : List Char :=
  text.flatMap fun c => if c = '\\' ∨ c = '"' ∨ c = '$' then ['\\', c] else [c]

/-! ## Single quotes -/

theorem unescapePlain_cons {c : Char} (other : c ≠ '\\') (cs : List Char) :
    unescapePlain (c :: cs) = c :: unescapePlain cs := by
  cases cs with
  | nil => rfl
  | cons d cs => simp [unescapePlain, other]

theorem unescapePlain_backslash {cs : List Char} (kept : ∀ c ∈ cs.head?, c ≠ '\\' ∧ c ≠ '\'') :
    unescapePlain ('\\' :: cs) = '\\' :: unescapePlain cs := by
  cases cs with
  | nil => rfl
  | cons d cs => simp [unescapePlain, kept d rfl]

theorem PlainlyDenotes.unescapePlain {cs text : List Char} (denotes : PlainlyDenotes cs text) :
    unescapePlain cs = text := by
  induction denotes with
  | nil => rfl
  | char other _ ih => rw [unescapePlain_cons other, ih]
  | escape escaped _ ih => rw [Quotation.unescapePlain, if_pos (by simpa using escaped), ih]
  | backslash kept _ ih => rw [unescapePlain_backslash kept, ih]

theorem plainlyDenotes_quotePlain (text : List Char) : PlainlyDenotes (quotePlain text) text := by
  induction text with
  | nil => exact .nil
  | cons c text ih =>
    rw [quotePlain, List.flatMap_cons]
    by_cases escaped : c = '\\' ∨ c = '\''
    · rw [if_pos escaped]
      exact .escape escaped ih
    · rw [if_neg escaped]
      exact .char (fun same => escaped (.inl same)) ih

/-! ## Single escapes -/

theorem LeadingDigits.digitsUpTo {p : Char → Bool} {limit : Nat} {digits rest : List Char}
    (leading : LeadingDigits p limit digits rest) :
    digitsUpTo p limit (digits ++ rest) = digits := by
  have more : (rest.take (limit - digits.length)).takeWhile p = [] := by
    rcases leading.ended with full | stops
    · rw [full, Nat.sub_self, List.take_zero, List.takeWhile_nil]
    · cases room : limit - digits.length with
      | zero => rw [List.take_zero, List.takeWhile_nil]
      | succ n =>
        cases rest with
        | nil => rfl
        | cons c rest => simp [stops c rfl]
  rw [Quotation.digitsUpTo, List.take_append, List.take_of_length_le leading.within,
    List.takeWhile_append_of_pos leading.inside, more, List.append_nil]

theorem digitsUpTo_of_other {p : Char → Bool} {c : Char} (other : p c = false) (limit : Nat)
    (cs : List Char) : digitsUpTo p limit (c :: cs) = [] := by
  cases limit with
  | zero => rfl
  | succ limit => simp [digitsUpTo, other]

theorem escape?_letter {c d : Char} (listed : (c, d) ∈ letters) (cs : List Char) :
    escape? (c :: cs) = some (d, 1) := by
  simp only [letters, List.mem_cons, List.not_mem_nil, or_false, Prod.mk.injEq] at listed
  rcases listed with ⟨rfl, rfl⟩ | ⟨rfl, rfl⟩ | ⟨rfl, rfl⟩ | ⟨rfl, rfl⟩ | ⟨rfl, rfl⟩ | ⟨rfl, rfl⟩ |
    ⟨rfl, rfl⟩ | ⟨rfl, rfl⟩ | ⟨rfl, rfl⟩ <;> rfl

theorem escape?_octal {digits cs : List Char} (leading : LeadingDigits isOctalDigit 3 digits cs) :
    escape? (digits ++ cs) = some (.ofNat (numeral 8 digits % 256), digits.length) := by
  obtain ⟨c, others, rfl⟩ := List.exists_cons_of_ne_nil leading.filled
  have unmarked : c ≠ 'x' := by
    rintro rfl
    exact absurd (leading.inside 'x' List.mem_cons_self) (by decide)
  have digitsRead := leading.digitsUpTo
  rw [List.cons_append] at digitsRead ⊢
  simp [escape?, unmarked, digitsRead, numeral]

theorem escape?_hex {digits cs : List Char} (leading : LeadingDigits isHexDigit 2 digits cs) :
    escape? ('x' :: (digits ++ cs)) = some (.ofNat (numeral 16 digits), 1 + digits.length) := by
  simp [escape?, leading.digitsUpTo, leading.filled, numeral]

theorem letterEscape?_of_unlisted {c : Char} (unlisted : c ∉ letters.map Prod.fst) :
    letterEscape? c = none := by
  unfold letterEscape?
  split
  case h_10 => rfl
  all_goals exact absurd (by decide) unlisted

/-- No escape is read where none begins. -/
theorem escape?_of_unopened {cs : List Char} (unopened : beginsEscape cs = false) :
    escape? cs = none := by
  cases cs with
  | nil => rfl
  | cons c cs =>
    simp only [beginsEscape, Bool.or_eq_false_iff, List.contains_eq_mem, decide_eq_false_iff_not]
      at unopened
    obtain ⟨⟨⟨unlisted, noOctal⟩, noHex⟩, -⟩ := unopened
    have unmarked : (decide (c = 'x') && !(digitsUpTo isHexDigit 2 cs).isEmpty) = false := by
      cases cs with
      | nil => simp [digitsUpTo]
      | cons d cs =>
        by_cases mark : c = 'x'
        · have other : isHexDigit d = false := by simpa [mark] using noHex
          rw [digitsUpTo_of_other other]
          simp
        · simp [mark]
    simp only [escape?, unmarked, digitsUpTo_of_other noOctal, letterEscape?_of_unlisted unlisted]
    rfl

/-- An escaped code point is none of the escapes that are read. -/
theorem escape?_codePoint (cs : List Char) : escape? ('u' :: '\x7b' :: cs) = none := rfl

/-! ## Double quotes -/

theorem unescapeFrom_skip (front cs : List Char) :
    unescapeFrom front.length (front ++ cs) = unescape cs := by
  induction front with
  | nil => rfl
  | cons c front ih => exact ih

theorem unescape_char {c : Char} (other : c ≠ '\\') (cs : List Char) :
    unescape (c :: cs) = c :: unescape cs := by
  rw [unescape, unescapeFrom, if_neg other, unescape]

/-- A character that is read from an escape stands for all of it. -/
theorem unescape_escape {f cs : List Char} {d : Char}
    (read : escape? (f ++ cs) = some (d, f.length)) :
    unescape ('\\' :: (f ++ cs)) = d :: unescape cs := by
  rw [unescape, unescapeFrom, if_pos rfl, read]
  exact congrArg (d :: ·) (unescapeFrom_skip f cs)

theorem unescape_letter {c d : Char} (listed : (c, d) ∈ letters) (cs : List Char) :
    unescape ('\\' :: c :: cs) = d :: unescape cs :=
  unescape_escape (f := [c]) (escape?_letter listed cs)

theorem unescape_octal {digits cs : List Char} (leading : LeadingDigits isOctalDigit 3 digits cs) :
    unescape ('\\' :: (digits ++ cs)) = .ofNat (numeral 8 digits % 256) :: unescape cs :=
  unescape_escape (escape?_octal leading)

theorem unescape_hex {digits cs : List Char} (leading : LeadingDigits isHexDigit 2 digits cs) :
    unescape ('\\' :: 'x' :: (digits ++ cs)) = .ofNat (numeral 16 digits) :: unescape cs := by
  have read := escape?_hex leading
  rw [Nat.add_comm] at read
  exact unescape_escape (f := 'x' :: digits) read

theorem unescape_backslash {cs : List Char} (unread : escape? cs = none) :
    unescape ('\\' :: cs) = '\\' :: unescape cs := by
  rw [unescape, unescapeFrom, if_pos rfl, unread, unescape]

theorem unescape_append {front : List Char} (plain : ∀ c ∈ front, c ≠ '\\') (cs : List Char) :
    unescape (front ++ cs) = front ++ unescape cs := by
  induction front with
  | nil => rfl
  | cons c front ih =>
    rw [List.cons_append, unescape_char (plain c List.mem_cons_self),
      ih fun c' member => plain c' (List.mem_cons_of_mem c member), List.cons_append]

theorem ne_backslash_of_isHexDigit {c : Char} (digit : isHexDigit c = true) : c ≠ '\\' := by
  rintro rfl
  exact absurd digit (by decide)

/-- An escaped code point is read as it is written. -/
theorem unescape_codePoint {digits : List Char} (hex : ∀ c ∈ digits, isHexDigit c = true)
    (cs : List Char) : unescape ('\\' :: 'u' :: '\x7b' :: (digits ++ '\x7d' :: cs)) =
      '\\' :: 'u' :: '\x7b' :: (digits ++ '\x7d' :: unescape cs) := by
  have plain : ∀ c ∈ digits, c ≠ '\\' := fun c member => ne_backslash_of_isHexDigit (hex c member)
  rw [unescape_backslash (escape?_codePoint _), unescape_char (by decide),
    unescape_char (by decide), unescape_append plain, unescape_char (by decide)]

namespace Denotes

variable {points : List Nat} {cs text : List Char}

/-- Every escape but that of a code point is read as the character that it denotes. -/
theorem unescape (denotes : Denotes [] cs text) : unescape cs = text := by
  generalize none : [] = points at denotes
  induction denotes with
  | nil => rfl
  | char other _ ih => rw [unescape_char other, ih none]
  | letter listed _ ih => rw [unescape_letter listed, ih none]
  | octal digits leading _ _ ih => rw [unescape_octal leading, ih none]
  | hex digits leading _ _ ih => rw [unescape_hex leading, ih none]
  | codePoint => cases none
  | backslash unopened _ ih => rw [unescape_backslash (escape?_of_unopened unopened), ih none]

/-- Each code point that is escaped makes what is read longer than what is denoted. -/
theorem length_le (denotes : Denotes points cs text) :
    text.length + points.length ≤ (Quotation.unescape cs).length := by
  induction denotes with
  | nil => exact Nat.le_refl 0
  | char other _ ih =>
    rw [unescape_char other]
    grind
  | letter listed _ ih =>
    rw [unescape_letter listed]
    grind
  | octal digits leading _ _ ih =>
    rw [unescape_octal leading]
    grind
  | hex digits leading _ _ ih =>
    rw [unescape_hex leading]
    grind
  | codePoint digits _ hex _ _ ih =>
    rw [unescape_codePoint hex]
    grind
  | backslash unopened _ ih =>
    rw [unescape_backslash (escape?_of_unopened unopened)]
    grind

/-- A text is read as it is denoted exactly when no code point is escaped in it. -/
theorem unescape_eq_iff (denotes : Denotes points cs text) :
    Quotation.unescape cs = text ↔ points = [] := by
  constructor
  · intro same
    have longer := denotes.length_le
    rw [same] at longer
    exact List.length_eq_zero_iff.mp (by omega)
  · rintro rfl
    exact denotes.unescape

end Denotes

theorem denotes_quote (text : List Char) : Denotes [] (quote text) text := by
  induction text with
  | nil => exact .nil
  | cons c text ih =>
    rw [quote, List.flatMap_cons]
    by_cases escaped : c = '\\' ∨ c = '"' ∨ c = '$'
    · rw [if_pos escaped]
      refine .letter ?_ ih
      rcases escaped with rfl | rfl | rfl <;> decide
    · rw [if_neg escaped]
      exact .char (fun same => escaped (.inl same)) ih

/-! ## Quotations -/

/-- The marks that can stand in front of a quotation. -/
def marks : List (List Char) := [[], ['b'], ['B']]

theorem dropMark_append {mark : List Char} (marked : mark ∈ marks) {q : Char}
    (isQuote : q = '\'' ∨ q = '"') (cs : List Char) : dropMark (mark ++ q :: cs) = q :: cs := by
  simp only [marks, List.mem_cons, List.not_mem_nil, or_false] at marked
  rcases marked with rfl | rfl | rfl
  · cases cs with
    | nil => rfl
    | cons c cs => rcases isQuote with rfl | rfl <;> rfl
  · rcases isQuote with rfl | rfl <;> rfl
  · rcases isQuote with rfl | rfl <;> rfl

/-- What is read of a quotation is what stands between its quotes. -/
theorem decode_quoted {mark : List Char} (marked : mark ∈ marks) {q : Char}
    (isQuote : q = '\'' ∨ q = '"') (body : List Char) : decode (mark ++ q :: (body ++ [q])) =
      if q = '\'' then unescapePlain body else unescape body := by
  obtain ⟨second, rest, parts⟩ := List.exists_cons_of_ne_nil (List.concat_ne_nil q body)
  have closed : (second :: rest).getLast? = some q := parts ▸ List.getLast?_concat
  have inner : (second :: rest).dropLast = body := parts ▸ List.dropLast_concat
  rw [decode, dropMark_append marked isQuote, parts]
  simp only [closed, inner, if_true]
  rcases isQuote with rfl | rfl <;> rfl

/-- A quotation, marked or not, is read as the text that it denotes: between single quotes always,
between double quotes exactly when no code point is escaped. So a text that has been quoted either
way is read back. -/
theorem decode_of_denoted {mark : List Char} (marked : mark ∈ marks) :
    (∀ body text, PlainlyDenotes body text → decode (mark ++ '\'' :: (body ++ ['\''])) = text) ∧
      (∀ points body text, Denotes points body text →
        (decode (mark ++ '"' :: (body ++ ['"'])) = text ↔ points = [])) ∧
      ∀ text, decode (mark ++ '\'' :: (quotePlain text ++ ['\''])) = text ∧
        decode (mark ++ '"' :: (quote text ++ ['"'])) = text := by
  have plain (body : List Char) : decode (mark ++ '\'' :: (body ++ ['\''])) = unescapePlain body :=
    decode_quoted marked (.inl rfl) body
  have double (body : List Char) : decode (mark ++ '"' :: (body ++ ['"'])) = unescape body :=
    decode_quoted marked (.inr rfl) body
  refine ⟨fun body text denotes => ?_, fun points body text denotes => ?_, fun text => ⟨?_, ?_⟩⟩
  · rw [plain, denotes.unescapePlain]
  · rw [double, denotes.unescape_eq_iff]
  · rw [plain, (plainlyDenotes_quotePlain text).unescapePlain]
  · rw [double, (denotes_quote text).unescape]

/-- Escapes in front of characters that could belong to them if they were longer, and backslashes
that begin none. -/
theorem mixedEscapes_read :
    ['b'] ∈ marks ∧ Denotes [] "\\\\n\\x4a1\\1018\\q\\$".toList "\\nJ1A8\\q$".toList ∧
      decode "b\"\\\\n\\x4a1\\1018\\q\\$\"".toList = "\\nJ1A8\\q$".toList := by
  have marked : ['b'] ∈ marks := by decide
  have denotes : Denotes [] "\\\\n\\x4a1\\1018\\q\\$".toList "\\nJ1A8\\q$".toList := by
    refine .letter (by decide) (.char (by decide) ?_)
    refine .hex ['4', 'a'] ⟨by decide, by decide, List.all_eq_true.mp rfl, .inl rfl⟩ (by decide) ?_
    refine .char (by decide) ?_
    refine .octal ['1', '0', '1'] ⟨by decide, by decide, List.all_eq_true.mp rfl, .inl rfl⟩
      (by decide) ?_
    refine .char (by decide) (.backslash (by decide) (.char (by decide) ?_))
    exact .letter (by decide) .nil
  exact ⟨marked, denotes, ((decode_of_denoted marked).2.1 [] _ _ denotes).mpr rfl⟩

/-- An escaped code point is not read as the character that it denotes. -/
theorem codePoint_unread :
    ¬ ∀ points body text, Denotes points body text → decode ('"' :: (body ++ ['"'])) = text := by
  intro reads
  have denotes : Denotes [0x41] "\\u\x7b41\x7d".toList ['A'] :=
    .codePoint ['4', '1'] (by decide) (List.all_eq_true.mp rfl) (by decide) .nil
  exact absurd (reads _ _ _ denotes) (by decide)

end RequestSchema.Source.Quotation
