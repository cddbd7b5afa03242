import RequestSchema.Proofs.Source.Reading
import RequestSchema.Proofs.Text.Recognition
import RequestSchema.Proofs.Text.Trim
import RequestSchema.Source.Imports

/-!
# Reading the text of an import again

The parser knows the items of an import; its aliases are read from its text once more, by cutting
the text at its braces and commas. The lexemes of an import whose gaps are white space (`Clean`)
make up texts that are read in steps: the alias behind a name (`AliasText`), one item
(`ItemForm.text`), items with commas between them (`Series.text`), and the body of the import
between its word and the signs at its end (`Imports.bodyOf_text`).
-/
namespace RequestSchema.Source

open RequestSchema.Text

/-! ## Names -/

/-- An identifier of letters, digits and low lines of ASCII, which begins with no digit. -/
structure IsIdentifier (cs : List Char) : Prop where
  begins : ∃ c ∈ cs.head?, isAsciiDigit c = false
  chars : ∀ c ∈ cs, c = '_' ∨ isAsciiLetter c = true ∨ isAsciiDigit c = true

instance (cs : List Char) : Decidable (IsIdentifier cs) :=
  decidable_of_iff (cs.head?.any (!isAsciiDigit ·) = true ∧
      cs.all (fun c => c = '_' || isAsciiLetter c || isAsciiDigit c) = true)
    ⟨fun ⟨begins, chars⟩ =>
        ⟨by simpa [Option.any_eq_true] using begins, by simpa [or_assoc] using chars⟩,
      fun ⟨begins, chars⟩ =>
        ⟨by simpa [Option.any_eq_true] using begins, by simpa [or_assoc] using chars⟩⟩

/-- A qualified name: identifiers with single backslashes between them. -/
def IsQualified (cs : List Char) : Prop := ∀ piece ∈ splitChars '\\' cs, IsIdentifier piece

instance (cs : List Char) : Decidable (IsQualified cs) :=
  inferInstanceAs (Decidable (∀ piece ∈ splitChars '\\' cs, IsIdentifier piece))

namespace IsIdentifier

variable {cs : List Char}

theorem isWord (identifier : IsIdentifier cs) : ∀ c ∈ cs, isWord c = true := by
  intro c member
  rcases identifier.chars c member with rfl | letter | digit
  · decide
  · simp [Text.isWord, isAlphanumeric_of_isAsciiLetter letter]
  · have small : c.toNat < 128 := by
      simp only [isAsciiDigit, Bool.and_eq_true, decide_eq_true_eq] at digit
      exact Nat.lt_of_le_of_lt digit.2 (by decide)
    simp [Text.isWord, isAlphanumeric, small, digit]

theorem exists_cons (identifier : IsIdentifier cs) :
    ∃ c rest, cs = c :: rest ∧ Imports.isNameHead c = true := by
  obtain ⟨c, head, other⟩ := identifier.begins
  obtain ⟨rest, rfl⟩ := List.head?_eq_some_iff.mp head
  refine ⟨c, rest, rfl, ?_⟩
  rcases identifier.chars c List.mem_cons_self with rfl | letter | digit
  · decide
  · simp [Imports.isNameHead, foldsToLetter, letter]
  · rw [other] at digit
    cases digit

end IsIdentifier

namespace IsQualified

variable {cs : List Char}

theorem isPathPart (qualified : IsQualified cs) : ∀ c ∈ cs, Imports.isPathPart c = true := by
  intro c member
  have whole : ['\\'].intercalate (splitChars '\\' cs) = cs := by
    rw [splitChars_eq_splitOn, List.intercalate_splitOn]
  rw [← whole] at member
  rcases mem_intercalate member with separator | ⟨piece, there, own⟩
  · simp [Imports.isPathPart, List.mem_singleton.mp separator]
  · simp [Imports.isPathPart, (qualified piece there).isWord c own]

theorem exists_cons (qualified : IsQualified cs) :
    ∃ c rest, cs = c :: rest ∧ Imports.isNameHead c = true := by
  cases cs with
  | nil =>
    obtain ⟨c, rest, same, -⟩ := (qualified [] (by simp [splitChars])).exists_cons
    cases same
  | cons c cs =>
    -- The first piece begins with the first character, since it is not empty.
    have first : ∀ piece ∈ (splitChars '\\' (c :: cs)).head?, IsIdentifier piece :=
      fun piece head => qualified piece (List.mem_of_mem_head? head)
    rw [splitChars] at first
    split at first
    · obtain ⟨d, rest, same, -⟩ := (first [] rfl).exists_cons
      cases same
    · split at first
      · obtain ⟨d, rest, same, head⟩ := (first [c] rfl).exists_cons
        cases same
        exact ⟨c, cs, rfl, head⟩
      · obtain ⟨d, rest, same, head⟩ := (first _ rfl).exists_cons
        cases same
        exact ⟨c, cs, rfl, head⟩

theorem isPathPart_rooted (qualified : IsQualified cs) {root : List Char}
    (rooted : root = [] ∨ root = ['\\']) : ∀ c ∈ root ++ cs, Imports.isPathPart c = true := by
  intro c member
  rcases List.mem_append.mp member with own | inner
  · rcases rooted with rfl | rfl
    · cases own
    · rw [List.mem_singleton.mp own]
      decide
  · exact qualified.isPathPart c inner

theorem append_iff {before behind : List Char} : IsQualified (before ++ '\\' :: behind) ↔
    IsQualified before ∧ IsQualified behind := by
  simp [IsQualified, splitChars_append_cons, or_imp, forall_and]

/-- A qualified name ends with no backslash. -/
theorem getLast?_ne (qualified : IsQualified cs) : ∀ c ∈ cs.getLast?, c ≠ '\\' := by
  rintro c last rfl
  obtain ⟨front, rfl⟩ := List.getLast?_eq_some_iff.mp last
  obtain ⟨c, rest, same, -⟩ := (append_iff.mp qualified).2.exists_cons
  cases same

end IsQualified

/-! ## Characters -/

theorem isBlank_of_isPathPart {c : Char} (part : Imports.isPathPart c = true) :
    isBlank c = false := by
  rw [Imports.isPathPart, Bool.or_eq_true, decide_eq_true_eq] at part
  rcases part with word | rfl
  · exact isBlank_of_isWord word
  · decide

theorem isPathPart_of_isBlank {c : Char} (blank : isBlank c = true) :
    Imports.isPathPart c = false := by
  rw [Bool.eq_false_iff]
  intro part
  rw [isBlank_of_isPathPart part] at blank
  cases blank

/-- White space of ASCII between lexemes is white space to the reader of imports. -/
theorem isBlank_of_isSpace {c : Char} (space : isSpace c = true) (ascii : c.toNat < 128) :
    isBlank c = true := by
  have all : ∀ n < 128, isSpace (Char.ofNat n) = true → isBlank (Char.ofNat n) = true := by decide
  have own := all c.toNat ascii
  rw [Char.ofNat_toNat] at own
  exact own space

/-! ## Words in any case -/

/-- A character of ASCII has one character as its lower case form, and white space itself. -/
theorem lowerChar_ascii {c : Char} (ascii : c.toNat < 128) :
    ∃ d, lowerChar c = [d] ∧ (isBlank c = true → d = c) := by
  have all : ∀ n < 128, isBlank (Char.ofNat n) = true → isAsciiUpper (Char.ofNat n) = false := by
    decide
  have own := all c.toNat ascii
  rw [Char.ofNat_toNat] at own
  rw [lowerChar, if_pos ascii]
  refine ⟨_, rfl, fun blank => ?_⟩
  rw [own blank]
  rfl

theorem lowerBetween_ascii {before after : List Char} {c : Char} (ascii : c.toNat < 128) :
    lowerBetween before c after = lowerChar c := by
  rw [lowerBetween, if_neg]
  rintro rfl
  exact absurd ascii (by decide)

theorem length_lowerFrom {before cs : List Char} (ascii : ∀ c ∈ cs, c.toNat < 128) :
    (lowerFrom before cs).length = cs.length := by
  induction cs generalizing before with
  | nil => rfl
  | cons c cs ih =>
    have small := ascii c List.mem_cons_self
    obtain ⟨d, lowered, -⟩ := lowerChar_ascii small
    rw [lowerFrom, lowerBetween_ascii small, lowered, List.length_append,
      ih fun c member => ascii c (List.mem_cons_of_mem _ member)]
    simp [Nat.add_comm]

/-- A text of ASCII is found where its lower case form is looked for, case ignored. -/
theorem dropFolded_lower {before cs : List Char} (ascii : ∀ c ∈ cs, c.toNat < 128)
    (rest : List Char) : dropFolded (lowerFrom before cs) (cs ++ rest) = some rest := by
  induction cs generalizing before with
  | nil => rfl
  | cons c cs ih =>
    have small := ascii c List.mem_cons_self
    obtain ⟨d, lowered, -⟩ := lowerChar_ascii small
    have folds : foldsTo d c = true := by simp [foldsTo, lowered]
    rw [lowerFrom, lowerBetween_ascii small, lowered, List.singleton_append, List.cons_append,
      dropFolded, if_pos folds]
    exact ih fun c member => ascii c (List.mem_cons_of_mem _ member)

/-- A text of ASCII begins with white space only if its lower case form does. -/
theorem unblank_of_lower {before cs : List Char} (ascii : ∀ c ∈ cs, c.toNat < 128)
    (unblank : ∀ d ∈ (lowerFrom before cs).head?, isBlank d = false) :
    ∀ c ∈ cs.head?, isBlank c = false := by
  intro c head
  obtain ⟨rest, rfl⟩ := List.head?_eq_some_iff.mp head
  have small := ascii c List.mem_cons_self
  obtain ⟨d, lowered, same⟩ := lowerChar_ascii small
  have own : isBlank d = false :=
    unblank d (by rw [lowerFrom, lowerBetween_ascii small, lowered]; rfl)
  cases blank : isBlank c with
  | false => rfl
  | true => rwa [same blank, blank] at own

/-! ## Items -/

theorem dropWhile_gap {gap core : List Char} (blank : ∀ c ∈ gap, isBlank c = true)
    (first : ∀ c ∈ core.head?, isBlank c = false) : (gap ++ core).dropWhile isBlank = core := by
  rw [List.dropWhile_append_of_pos blank]
  cases core with
  | nil => rfl
  | cons c core => exact List.dropWhile_cons_of_neg (by simp [first c rfl])

namespace Imports

theorem takeWhile_parts {name rest : List Char} (parts : ∀ c ∈ name, isPathPart c = true)
    (behind : ∀ c ∈ rest.head?, isPathPart c = false) :
    (name ++ rest).takeWhile isPathPart = name := by
  rw [List.takeWhile_append_of_pos parts]
  cases rest with
  | nil => simp
  | cons c rest => simp [behind c rfl]

theorem aliasOf?_given {gap word gap' name : List Char} (blank : ∀ c ∈ gap, isBlank c = true)
    (apart : gap ≠ []) (ascii : ∀ c ∈ word, c.toNat < 128)
    (lowered : lowerFrom [] word = "as".toList) (blank' : ∀ c ∈ gap', isBlank c = true)
    (apart' : gap' ≠ []) (identifier : IsIdentifier name) :
    aliasOf? (gap ++ (word ++ (gap' ++ name))) = some (some (String.ofList name)) := by
  obtain ⟨b, rest, rfl⟩ := List.exists_cons_of_ne_nil apart
  obtain ⟨b', rest', rfl⟩ := List.exists_cons_of_ne_nil apart'
  obtain ⟨c, tail, rfl, head⟩ := identifier.exists_cons
  have unblank : ∀ d ∈ (word ++ (b' :: rest' ++ c :: tail)).head?, isBlank d = false := by
    have filled : word ≠ [] := by
      rintro rfl
      cases lowered
    rw [List.head?_append_of_ne_nil _ filled]
    exact unblank_of_lower ascii (by rw [lowered]; rintro _ ⟨⟩; rfl)
  have skipped : (b' :: rest' ++ c :: tail).dropWhile isBlank = c :: tail := by
    refine dropWhile_gap blank' ?_
    rintro _ ⟨⟩
    exact isBlank_of_isWord (identifier.isWord _ List.mem_cons_self)
  have folded := @dropFolded_lower [] word ascii (b' :: rest' ++ c :: tail)
  rw [lowered] at folded
  unfold aliasOf?
  rw [dropWhile_gap blank unblank, folded]
  have all : ∀ d ∈ tail, isWord d = true := fun d member =>
    identifier.isWord d (List.mem_cons_of_mem c member)
  have lead := identifier.isWord c List.mem_cons_self
  have begins : isBlank b = true ∧ isBlank b' = true :=
    ⟨blank b List.mem_cons_self, blank' b' List.mem_cons_self⟩
  dsimp only
  rw [skipped]
  simpa [begins, head, lead] using all

theorem item?_text {gap root path behind gap' : List Char} {short : Option String}
    (blank : ∀ c ∈ gap, isBlank c = true) (blank' : ∀ c ∈ gap', isBlank c = true)
    (rooted : root = [] ∨ root = ['\\']) (qualified : IsQualified path)
    (first : ∀ c ∈ behind.head?, isBlank c = true) (last : ∀ c ∈ behind.getLast?, isBlank c = false)
    (named : aliasOf? behind = some short) :
    item? (String.ofList (gap ++ (root ++ (path ++ behind)) ++ gap')) =
      some (String.ofList path, short) := by
  obtain ⟨c, rest, whole, head⟩ := qualified.exists_cons
  have unblank : ∀ c ∈ path, isBlank c = false := fun c member =>
    isBlank_of_isPathPart (qualified.isPathPart c member)
  have trimmed : trimBy isBlank (gap ++ (root ++ (path ++ behind)) ++ gap') =
      root ++ (path ++ behind) := by
    refine trimBy_between blank blank' ?_ ?_
    · intro d front
      rcases rooted with rfl | rfl
      · rw [whole] at front unblank
        cases front
        exact unblank c List.mem_cons_self
      · cases front
        decide
    · intro d ending
      rw [List.getLast?_append, List.getLast?_append] at ending
      rcases Option.or_eq_some_iff.mp ending with inner | ⟨empty, -⟩
      · rcases Option.or_eq_some_iff.mp inner with later | ⟨-, own⟩
        · exact last d later
        · exact unblank d (List.mem_of_getLast? own)
      · simp [whole] at empty
  have taken : (path ++ behind).takeWhile isPathPart = path :=
    takeWhile_parts qualified.isPathPart fun c front => isPathPart_of_isBlank (first c front)
  unfold item?
  rw [String.toList_ofList, trimmed]
  dsimp only
  split
  · rename_i cs stripped
    have same : path ++ behind = cs := by
      rcases rooted with rfl | rfl
      · rw [whole, List.nil_append, List.cons_append] at stripped
        cases stripped
        cases head
      · simpa using stripped
    rw [← same, taken, List.drop_left, named, whole]
    simp [head]
  · rename_i unrooted
    rcases rooted with rfl | rfl
    · rw [List.nil_append, taken, List.drop_left, named, whole]
      simp [head]
    · exact absurd rfl (unrooted _)

theorem item?_blank {cs : List Char} (blank : ∀ c ∈ cs, isBlank c = true) :
    item? (String.ofList cs) = none := by
  have nothing : trimBy isBlank cs = [] := by
    simpa using @trimBy_between isBlank cs [] [] blank (by simp) (by simp) (by simp)
  unfold item?
  rw [String.toList_ofList, nothing]
  rfl

def readItems (cs : List Char) : List (String × Option String) :=
  (splitChars ',' cs).filterMap fun piece => item? (String.ofList piece)

theorem readItems_append_cons (before behind : List Char) :
    readItems (before ++ ',' :: behind) = readItems before ++ readItems behind := by
  rw [readItems, splitChars_append_cons, List.filterMap_append]
  rfl

theorem readItems_of_absent {cs : List Char} (absent : ',' ∉ cs) :
    readItems cs = (item? (String.ofList cs)).toList := by
  rw [readItems, splitChars_of_absent absent]
  cases found : item? (String.ofList cs) <;> simp [found]

theorem readItems_blank {cs : List Char} (blank : ∀ c ∈ cs, isBlank c = true) :
    readItems cs = [] := by
  have absent : ',' ∉ cs := fun member => absurd (blank _ member) (by decide)
  rw [readItems_of_absent absent, item?_blank blank, Option.toList_none]

end Imports

/-! ## Lexemes with white space between them -/

/-- Lexemes of ASCII with white space in front of each, and some between two names. -/
structure Clean (ls : List Lexeme) : Prop where
  blank : ∀ l ∈ ls, l.kind ≠ .done → ∀ c ∈ l.lead, isBlank c = true
  apart : ls.IsChain fun l m => l.kind = .name → m.kind = .name → m.lead ≠ []
  ascii : ∀ l ∈ ls, ∀ c ∈ l.text, c.toNat < 128

theorem Clean.within {ls ms : List Lexeme} (clean : Clean ms) (inner : ls <:+: ms) : Clean ls where
  blank l member := clean.blank l (inner.subset member)
  apart := clean.apart.infix inner
  ascii l member := clean.ascii l (inner.subset member)

/-- A character that is no capital of ASCII stays in the lower case form of a text. -/
theorem mem_lowerFrom_of_mem {c : Char} {before cs : List Char} (ascii : ∀ c ∈ cs, c.toNat < 128)
    (lowered : lowerChar c = [c]) (member : c ∈ cs) : c ∈ lowerFrom before cs := by
  induction cs generalizing before with
  | nil => cases member
  | cons d cs ih =>
    rw [lowerFrom, lowerBetween_ascii (ascii d List.mem_cons_self), List.mem_append]
    rcases List.mem_cons.mp member with rfl | later
    · exact .inl (by rw [lowered]; exact List.mem_singleton_self c)
    · exact .inr (ih (fun e there => ascii e (List.mem_cons_of_mem _ there)) later)

def importSigns : List Char := [',', '\x7b', '\x7d']

theorem sign_facts {c : Char} (sign : c ∈ importSigns) : isBlank c = false ∧
    Imports.isPathPart c = false ∧ lowerChar c = [c] ∧ c ∉ "as".toList := by
  simp only [importSigns, List.mem_cons, List.not_mem_nil, or_false] at sign
  rcases sign with rfl | rfl | rfl <;> decide

theorem not_mem_of_blank {c : Char} (sign : c ∈ importSigns) {cs : List Char}
    (blank : ∀ c ∈ cs, isBlank c = true) : c ∉ cs := by
  intro member
  have other := (sign_facts sign).1
  rw [blank c member] at other
  cases other

theorem not_mem_of_parts {c : Char} (sign : c ∈ importSigns) {cs : List Char}
    (parts : ∀ c ∈ cs, Imports.isPathPart c = true) : c ∉ cs := by
  intro member
  have other := (sign_facts sign).2.1
  rw [parts c member] at other
  cases other

/-- The text of an alias, as it is read behind a name. -/
structure AliasText (short : Option String) (cs : List Char) : Prop where
  read : Imports.aliasOf? cs = some short
  first : ∀ c ∈ cs.head?, isBlank c = true
  last : ∀ c ∈ cs.getLast?, Imports.isPathPart c = true
  signless : ∀ c ∈ importSigns, c ∉ cs

theorem AliasForm.text {short : Option String} {n : Lexeme} {read : List Lexeme}
    (form : AliasForm short read) (name : n.kind = .name) (clean : Clean (n :: read))
    (identifier : ∀ s ∈ short, IsIdentifier s.toList) : AliasText short (Lexeme.trailing read) := by
  cases form with
  | absent => exact ⟨rfl, by simp [Lexeme.trailing], by simp [Lexeme.trailing],
      by simp [Lexeme.trailing]⟩
  | @given w m word named =>
    obtain ⟨kind, lowered⟩ := kind_of_word word (by decide)
    have identifier : IsIdentifier m.text := by
      simpa [Lexeme.string] using identifier m.string rfl
    have blank := clean.blank w (by simp) (by rw [kind]; decide)
    have blank' := clean.blank m (by simp) (by rw [named]; decide)
    have ascii := clean.ascii w (by simp)
    have chain := clean.apart
    rw [List.isChain_cons_cons, List.isChain_cons_cons] at chain
    have apart := chain.1 name kind
    have apart' := chain.2.1 kind named
    have whole : Lexeme.trailing [w, m] = w.lead ++ (w.text ++ (m.lead ++ m.text)) := by
      simp [Lexeme.trailing]
    have parts : ∀ c ∈ m.text, Imports.isPathPart c = true := fun c member => by
      simp [Imports.isPathPart, identifier.isWord c member]
    rw [whole]
    refine ⟨Imports.aliasOf?_given blank apart ascii lowered blank' apart' identifier, ?_, ?_, ?_⟩
    · intro c head
      rw [List.head?_append_of_ne_nil _ apart] at head
      exact blank c (List.mem_of_mem_head? head)
    · intro c last
      obtain ⟨d, rest, same, -⟩ := identifier.exists_cons
      have filled : m.text ≠ [] := by simp [same]
      rw [← List.append_assoc, ← List.append_assoc, List.getLast?_append_of_ne_nil _ filled] at last
      exact parts c (List.mem_of_getLast? last)
    · intro c sign
      obtain ⟨-, -, lowerSelf, other⟩ := sign_facts sign
      simp only [List.mem_append, not_or]
      refine ⟨not_mem_of_blank sign blank, fun member => ?_, not_mem_of_blank sign blank',
        not_mem_of_parts sign parts⟩
      exact other (lowered ▸ mem_lowerFrom_of_mem ascii lowerSelf member)

/-- How names are written: perhaps with a backslash in front, and `outer` completes what is
written to the full name. -/
def Spells (full outer : String → String) : Prop :=
  ∀ n : List Char, IsQualified (full (String.ofList n)).toList →
    ∃ root path, (root = [] ∨ root = ['\\']) ∧ n = root ++ path ∧ IsQualified path ∧
      full (String.ofList n) = outer (String.ofList path)

theorem spells_unrooted : Spells Parse.unrooted id := by
  intro n qualified
  have start : afterStart? "\\" (String.ofList n) = (dropStart? ['\\'] n).map String.ofList := by
    simp only [afterStart?, String.toList_ofList, show "\\".toList = ['\\'] from rfl]
  rw [Parse.unrooted, start] at qualified ⊢
  cases dropped : dropStart? ['\\'] n with
  | none => exact ⟨[], n, .inl rfl, rfl, by simpa [dropped] using qualified, by simp⟩
  | some path =>
    refine ⟨['\\'], path, .inr rfl, eq_append_of_dropStart? dropped, ?_, by simp⟩
    simpa [dropped] using qualified

theorem spells_below (space : String) : Spells ((space ++ "\\") ++ ·) ((space ++ "\\") ++ ·) := by
  intro n qualified
  have parts : (space ++ "\\" ++ String.ofList n).toList = space.toList ++ '\\' :: n := by simp
  rw [parts, IsQualified.append_iff] at qualified
  exact ⟨[], n, .inl rfl, rfl, qualified.2, rfl⟩

/-- An import of a class whose name is made of identifiers, and whose alias is one. -/
structure Import.Plain (i : Import) : Prop where
  isClass : i.isClass = true
  name : IsQualified i.name.toList
  short : ∀ s ∈ i.short, IsIdentifier s.toList

instance (i : Import) : Decidable i.Plain :=
  decidable_of_iff (i.isClass = true ∧ IsQualified i.name.toList ∧
      i.short.all (fun s => IsIdentifier s.toList) = true)
    ⟨fun ⟨isClass, name, short⟩ => ⟨isClass, name, by simpa [Option.all_eq_true] using short⟩,
      fun ⟨isClass, name, short⟩ => ⟨isClass, name, by simpa [Option.all_eq_true] using short⟩⟩

/-- The text of items, as they are read between white space. -/
structure ItemsText (outer : String → String) (items : List Import) (cs : List Char) : Prop where
  read : ∀ gap gap', (∀ c ∈ gap, isBlank c = true) → (∀ c ∈ gap', isBlank c = true) →
    (Imports.readItems (gap ++ cs ++ gap')).map (Prod.map outer id) =
      items.map fun i => (i.name, i.short)
  last : ∀ c ∈ cs.getLast?, Imports.isPathPart c = true
  filled : cs ≠ []
  braceless : '\x7b' ∉ cs

variable {full outer : String → String}

theorem ItemForm.text {i : Import} {read : List Lexeme} (form : ItemForm full i read)
    (spells : Spells full outer) (clean : Clean read) (plain : i.Plain) :
    ItemsText outer [i] (Lexeme.render read) := by
  cases form with
  | @named n short read name form =>
    obtain ⟨root, path, rooted, spelled, qualified, completed⟩ := spells n.text plain.name
    have behind := form.text name clean plain.short
    have whole : Lexeme.render (n :: read) = root ++ (path ++ Lexeme.trailing read) := by
      rw [Lexeme.render, spelled, List.append_assoc]
    have signless : ∀ c ∈ importSigns, c ∉ Lexeme.render (n :: read) := by
      intro c sign
      have unrooted : c ∉ root := by
        rcases rooted with rfl | rfl
        · simp
        · exact fun member => absurd (List.mem_singleton.mp member ▸ sign) (by decide)
      rw [whole]
      simp only [List.mem_append, not_or]
      exact ⟨unrooted, not_mem_of_parts sign qualified.isPathPart, behind.signless c sign⟩
    obtain ⟨d, rest, front, -⟩ := qualified.exists_cons
    refine ⟨fun gap gap' blank blank' => ?_, fun c last => ?_, by simp [whole, front],
      signless _ (by decide)⟩
    · have absent : ',' ∉ gap ++ Lexeme.render (n :: read) ++ gap' := by
        simp only [List.mem_append, not_or]
        exact ⟨⟨not_mem_of_blank (by decide) blank, signless _ (by decide)⟩,
          not_mem_of_blank (by decide) blank'⟩
      rw [Imports.readItems_of_absent absent, whole, Imports.item?_text blank blank' rooted
        qualified behind.first (fun c last => isBlank_of_isPathPart (behind.last c last))
        behind.read]
      simpa [Lexeme.string] using completed.symm
    · have kept : path ++ Lexeme.trailing read ≠ [] := by simp [front]
      rw [whole, List.getLast?_append_of_ne_nil _ kept, List.getLast?_append] at last
      rcases Option.or_eq_some_iff.mp last with inner | ⟨-, own⟩
      · exact behind.last c inner
      · exact qualified.isPathPart c (List.mem_of_getLast? own)

/-- The first lexeme of items is a name, which ends with it. -/
structure Begins (n : Lexeme) (rest : List Lexeme) : Prop where
  name : n.kind = .name
  filled : n.text ≠ []
  parts : ∀ c ∈ n.text, Imports.isPathPart c = true
  ends : ∀ c ∈ (Lexeme.trailing rest).head?, Imports.isPathPart c = false

theorem ItemForm.begins {i : Import} {read : List Lexeme} (form : ItemForm full i read)
    (spells : Spells full outer) (clean : Clean read) (plain : i.Plain) :
    ∃ n rest, read = n :: rest ∧ Begins n rest := by
  cases form with
  | @named n short read name form =>
    obtain ⟨root, path, rooted, spelled, qualified, -⟩ := spells n.text plain.name
    have behind := form.text name clean plain.short
    obtain ⟨d, rest, front, -⟩ := qualified.exists_cons
    exact ⟨n, read, rfl, name, by simp [spelled, front],
      spelled ▸ qualified.isPathPart_rooted rooted, fun c head =>
      isPathPart_of_isBlank (behind.first c head)⟩

theorem Series.begins {items : List Import} {body : List Lexeme}
    (series : Series (ItemForm full) items body) (spells : Spells full outer) (clean : Clean body)
    (plain : ∀ i ∈ items, i.Plain) : ∃ n rest, body = n :: rest ∧ Begins n rest := by
  cases series with
  | single form => exact form.begins spells clean (plain _ (by simp))
  | @more i items read rest comma form symbol series =>
    obtain ⟨n, read, rfl, begins⟩ :=
      form.begins spells (clean.within (List.prefix_append _ _).isInfix) (plain i (by simp))
    refine ⟨n, _, List.cons_append, begins.name, begins.filled, begins.parts, ?_⟩
    obtain ⟨kind, sign⟩ := kind_of_isSymbol symbol
    have blank := clean.blank comma (by simp) (by rw [kind]; decide)
    have whole : Lexeme.trailing (read ++ comma :: rest) =
        Lexeme.trailing read ++ (comma.lead ++ ',' :: Lexeme.trailing rest) := by
      simp [Lexeme.trailing, sign]
    intro c head
    rw [whole, List.head?_append, List.head?_append] at head
    rcases Option.or_eq_some_iff.mp head with own | ⟨-, behind⟩
    · exact begins.ends c own
    · rcases Option.or_eq_some_iff.mp behind with gap | ⟨-, sign⟩
      · exact isPathPart_of_isBlank (blank c (List.mem_of_mem_head? gap))
      · cases sign
        decide

theorem Series.text {items : List Import} {body : List Lexeme}
    (series : Series (ItemForm full) items body) (spells : Spells full outer) (clean : Clean body)
    (plain : ∀ i ∈ items, i.Plain) : ItemsText outer items (Lexeme.render body) := by
  induction series with
  | single form => exact form.text spells clean (plain _ (by simp))
  | @more i items read rest comma form symbol series ih =>
    have outside : Clean read := clean.within (List.prefix_append _ _).isInfix
    have inner : Clean rest := clean.within ⟨read ++ [comma], [], by simp⟩
    have others : ∀ i ∈ items, i.Plain := fun i member => plain i (by simp [member])
    have first := form.text spells outside (plain i (by simp))
    have later := ih inner others
    obtain ⟨kind, sign⟩ := kind_of_isSymbol symbol
    have blank := clean.blank comma (by simp) (by rw [kind]; decide)
    obtain ⟨m, rest, rfl, begins⟩ := series.begins spells inner others
    have blank' := clean.blank m (by simp) (by rw [begins.name]; decide)
    obtain ⟨n, read, rfl, -⟩ := form.begins spells outside (plain i (by simp))
    have whole : Lexeme.render (n :: read ++ comma :: m :: rest) =
        Lexeme.render (n :: read) ++ comma.lead ++
          ',' :: (m.lead ++ Lexeme.render (m :: rest)) := by
      simp [Lexeme.render, Lexeme.trailing, sign]
    rw [whole]
    refine ⟨fun gap gap' before behind => ?_, ?_, by simp, ?_⟩
    · have parts (a b c d e : List Char) :
          a ++ (b ++ c ++ ',' :: (d ++ e)) ++ gap' =
            a ++ b ++ c ++ ',' :: (d ++ e ++ gap') := by simp
      rw [parts, Imports.readItems_append_cons, List.map_append,
        first.read _ _ before blank, later.read _ _ blank' behind]
      rfl
    · intro c last
      rw [List.append_cons, ← List.append_assoc,
        List.getLast?_append_of_ne_nil _ later.filled] at last
      exact later.last c last
    · simp only [List.mem_append, List.mem_cons, not_or]
      exact ⟨⟨first.braceless, not_mem_of_blank (by decide) blank⟩, by decide,
        not_mem_of_blank (by decide) blank', later.braceless⟩

/-! ## The body of an import -/

namespace Imports

/-- A word stands in front of a text only if the text begins with just this word. -/
theorem afterWord?_eq_none {word : String} {name rest : List Char}
    (word' : ∀ c ∈ word.toList, isPathPart c = true) (parts : ∀ c ∈ name, isPathPart c = true)
    (behind : ∀ c ∈ rest.head?, isPathPart c = false) (other : name ≠ word.toList) :
    afterWord? word (name ++ rest) = none := by
  unfold afterWord?
  cases dropped : dropStart? word.toList (name ++ rest) with
  | none => rfl
  | some after =>
    rw [Option.bind_some, if_neg]
    intro blank
    refine other ?_
    have blank : ∀ c ∈ after.head?, isPathPart c = false := by
      intro c head
      rw [Option.mem_def.mp head, Option.any_some] at blank
      exact isPathPart_of_isBlank blank
    rw [← takeWhile_parts parts behind, eq_append_of_dropStart? dropped,
      takeWhile_parts word' blank]

/-- The signs at the end of an import are cut off, with the white space around them. -/
theorem trim_ending {core gap ending : List Char} (filled : core ≠ [])
    (blank : ∀ c ∈ gap, isBlank c = true) (ended : ending = [] ∧ gap = [] ∨ ending = [';'])
    (first : ∀ c ∈ core.head?, isBlank c = false)
    (last : ∀ c ∈ core.getLast?, isBlank c = false ∧ c ≠ ';') :
    trimBy isBlank (trimEndBy (· == ';') (trimEndBy isBlank (core ++ (gap ++ ending)))) = core := by
  obtain ⟨front, c, rfl⟩ := (List.eq_nil_or_concat' core).resolve_left filled
  obtain ⟨unblank, other⟩ := last c (by simp)
  have whole : trimBy isBlank (front ++ [c] ++ gap) = front ++ [c] := by
    simpa using trimBy_between (List.forall_mem_nil _) blank first (by simpa using unblank)
  change trimBy isBlank (((front ++ [c] ++ (gap ++ ending)).rdropWhile isBlank).rdropWhile _) = _
  rcases ended with ⟨rfl, rfl⟩ | rfl
  · rw [List.append_nil, List.append_nil, List.rdropWhile_concat_neg _ _ _ (by simp [unblank]),
      List.rdropWhile_concat_neg _ _ _ (by simpa using other)]
    simpa using whole
  · have kept : (front ++ [c] ++ gap).rdropWhile (· == ';') = front ++ [c] ++ gap := by
      rcases gap.eq_nil_or_concat' with rfl | ⟨gap, b, rfl⟩
      · rw [List.append_nil, List.rdropWhile_concat_neg _ _ _ (by simpa using other)]
      · have blank := blank b (by simp)
        rw [← List.append_assoc, List.rdropWhile_concat_neg]
        simp only [beq_iff_eq]
        rintro rfl
        exact absurd blank (by decide)
    rw [← List.append_assoc, List.rdropWhile_concat_neg _ _ _ (by decide),
      List.rdropWhile_concat_pos _ _ _ (by decide), kept, whole]

/-- The body of an import stands between the word in front and the signs at the end. -/
theorem bodyOf_text {gap core gap' ending : List Char} (filled : core ≠ [])
    (blank : ∀ c ∈ gap, isBlank c = true) (apart : gap ≠ []) (blank' : ∀ c ∈ gap', isBlank c = true)
    (ended : ending = [] ∧ gap' = [] ∨ ending = [';'])
    (first : ∀ c ∈ core.head?, isBlank c = false)
    (last : ∀ c ∈ core.getLast?, isBlank c = false ∧ c ≠ ';')
    (function : afterWord? "function" core = none) (const : afterWord? "const" core = none) :
    bodyOf (String.ofList ("use".toList ++ (gap ++ (core ++ (gap' ++ ending))))) =
      String.ofList core := by
  have start (cs : List Char) : ("use".toList ++ cs).dropWhile isBlank = "use".toList ++ cs :=
    List.dropWhile_cons_of_neg (by decide)
  have word : afterWord? "use" ("use".toList ++ (gap ++ (core ++ (gap' ++ ending)))) =
      some (core ++ (gap' ++ ending)) := by
    unfold afterWord?
    rw [dropStart?_append, Option.bind_some, dropWhile_gap blank, if_pos]
    · obtain ⟨b, rest, rfl⟩ := List.exists_cons_of_ne_nil apart
      simp [blank b List.mem_cons_self]
    · rwa [List.head?_append_of_ne_nil _ filled]
  unfold bodyOf
  rw [String.toList_ofList]
  dsimp only
  rw [start, word, Option.getD_some, trim_ending filled blank' ended first last, function, const]
  rfl

def completed (space name : String) : String :=
  if space.isEmpty then name else space ++ "\\" ++ name

theorem itemsOf_of_braceless {core : List Char} (braceless : '\x7b' ∉ core) :
    itemsOf (String.ofList core) = ("", (splitChars ',' core).map String.ofList) := by
  rw [itemsOf, cut?, String.toList_ofList, cutChars_of_absent braceless, split,
    String.toList_ofList]
  rfl

theorem itemsOf_group {front inside : List Char} (braceless : '\x7b' ∉ front) :
    itemsOf (String.ofList (front ++ '\x7b' :: (inside ++ ['\x7d']))) =
      (trimChar '\\' (trim (String.ofList front)), (splitChars ',' inside).map String.ofList) := by
  have ending : cutLast? '\x7d' (String.ofList (inside ++ ['\x7d'])) =
      some (String.ofList inside, "") := by
    have reversed : (inside ++ ['\x7d']).reverse = [] ++ '\x7d' :: inside.reverse := by simp
    rw [cutLast?, String.toList_ofList, reversed, cutChars_append List.not_mem_nil]
    simp
  rw [itemsOf, cut?, String.toList_ofList, cutChars_append braceless]
  simp only [Option.map_some]
  rw [ending]
  simp [split]

end Imports

/-- The name by which an import is used: the given one, else the last segment of the full name. -/
def Import.alias (i : Import) : String := i.short.getD (afterLast '\\' i.name)

theorem Imports.ofText_of_items {text space : String} {inside : List Char} {items : List Import}
    (parts : itemsOf (bodyOf text) = (space, (splitChars ',' inside).map String.ofList))
    (read : (readItems inside).map (Prod.map (completed space) id) =
      items.map fun i => (i.name, i.short)) :
    ofText text = items.map fun i => (i.alias, i.name) := by
  have entries : items.map (fun i => (i.alias, i.name)) =
      ((readItems inside).map (Prod.map (completed space) id)).map fun read =>
        (read.2.getD (afterLast '\\' read.1), read.1) := by
    rw [read, List.map_map]
    rfl
  rw [entries, readItems, List.map_filterMap, List.map_filterMap, ofText, parts]
  dsimp only
  rw [List.filterMap_map]
  refine List.filterMap_congr fun piece _ => ?_
  cases found : item? (String.ofList piece) <;> simp [found, completed]

end RequestSchema.Source
