import RequestSchema.Proofs.Anonymous.ClassExpression
import RequestSchema.Proofs.Anonymous.Isolation
import RequestSchema.Proofs.Source.ClassCode
import RequestSchema.Proofs.Text.Lines
import RequestSchema.Proofs.Text.Trim
import RequestSchema.Request

/-!
# Files with a class

The class of a file can be written with a name, as a declaration, or without one, as an expression
that is assigned. The lines of a class without a name, made a source of their own, are the class as
an expression that is returned (`ClassFile.fragment_eq`), whatever parses it.

What a parser has to read of the three texts for the class to be the same in them is said by
`ClassFile.Readings`. The parser of this library reads them so if it can read the parts by
themselves (`ClassFile.Separable.readings`).
-/
namespace RequestSchema

open RequestSchema.Source RequestSchema.Text

/-- A file with a class. -/
structure ClassFile where
  /-- the text in front of the class -/
  front : String
  /-- the class, from the name of the class that it extends to its closing brace -/
  rest : String
  /-- the text behind the class -/
  back : String := "\n"

namespace ClassFile

def named (f : ClassFile) (name : String) : String :=
  f.front ++ "class " ++ name ++ " extends " ++ f.rest ++ f.back

def anonymous (f : ClassFile) : String :=
  f.front ++ "$x = new class extends " ++ f.rest ++ ";" ++ f.back

def first (f : ClassFile) : Nat := lineEnds f.front + 1

def last (f : ClassFile) : Nat := f.first + lineEnds f.rest

/-- A handle on the class without a name, in the file under a path. -/
def handle (f : ClassFile) (path : String) : Anonymous.Handle :=
  { name := "class@anonymous", file := some path, startLine := some f.first
    endLine := some f.last }

/-- The class stands on lines of its own, and no other line ends than carriage returns and line
feeds stand in front of its end: only these count where the lines of a class are told. -/
structure OwnLines (f : ClassFile) : Prop where
  front : NewlinesOnly f.front.toList
  rest : NewlinesOnly f.rest.toList
  before : f.front.toList.getLast?.any isNewline = true
  brace : f.rest.toList.getLast? = some '\x7d'
  behind : f.back.toList.head?.all isNewline = true

/-- The class as an expression that a source returns, with line feeds only. -/
def returned (f : ClassFile) : String :=
  "return new class extends " ++ unifyLineEnds f.rest ++ ";\n"

/-! ## The lines of the class -/

/-- The text in front of what the class without a name extends. -/
def opening : List Char := "$x = new class extends ".toList

/-- The same text without the assignment. -/
def expression : List Char := "new class extends ".toList

theorem toList_returned (f : ClassFile) :
    f.returned.toList =
      "return ".toList ++ expression ++ unixLines f.rest.toList ++ ";\n".toList := by
  have returns : "return new class extends ".toList = "return ".toList ++ expression := by decide
  have whole : f.returned.toList =
      ("return new class extends " ++ unifyLineEnds f.rest).toList ++ ";\n".toList :=
    String.toList_append
  have start : ("return new class extends " ++ unifyLineEnds f.rest).toList =
      "return new class extends ".toList ++ unixLines f.rest.toList :=
    String.toList_append.trans (congrArg _ String.toList_ofList)
  rw [whole, start, returns]

theorem fromClass?_opening (line : List Char) :
    Anonymous.fromClass? (opening ++ line) = some (expression ++ line) := by
  rfl

/-- The end of the last line of the class. -/
structure Closing (w : List Char) : Prop where
  brace : ∃ post, w = '\x7d' :: post ∧ '\x7d' ∉ post
  single : splitLines w = [w]

theorem closing_end : Closing ['\x7d', ';'] := ⟨⟨[';'], rfl, by decide⟩, by decide⟩

theorem closing_lineFeed : Closing ['\x7d', ';', '\n'] :=
  ⟨⟨[';', '\n'], rfl, by decide⟩, by decide⟩

theorem Closing.throughBrace? {w : List Char} (closing : Closing w) (line : List Char) :
    Anonymous.throughBrace? (line ++ w) = some (line ++ ['\x7d']) := by
  obtain ⟨⟨post, rfl, last⟩, -⟩ := closing
  exact Anonymous.throughBrace?_append last

/-- The class in its lines is what they hold between the assignment and the semicolon. -/
theorem classExpression?_eq {r w : List Char} (plain : LineFeedsOnly r) (closing : Closing w) :
    Anonymous.classExpression? (splitLines (opening ++ (r ++ w))) =
      some (expression ++ (r ++ ['\x7d'])) := by
  have other : opening.all (fun c => !isLineEnd c) = true := by decide
  have inner : ∀ c ∈ opening, isLineEnd c = false := fun c member => by
    simpa using List.all_eq_true.mp other c member
  obtain ⟨others, line, last⟩ := splitLines_last plain closing.single
  have whole := flatten_splitLines (r ++ w)
  rw [last, List.flatten_append, List.flatten_singleton, ← List.append_assoc,
    List.append_cancel_right_eq] at whole
  cases others with
  | nil =>
    rw [List.flatten_nil, List.nil_append] at whole
    subst whole
    have split : splitLines (opening ++ (line ++ w)) = [opening ++ (line ++ w)] :=
      splitLines_word inner last
    have cut : Anonymous.throughBrace? (opening ++ (line ++ w)) =
        some (opening ++ (line ++ ['\x7d'])) := by
      rw [← List.append_assoc, closing.throughBrace?, List.append_assoc]
    have before : (opening ++ (line ++ w)).length - (expression ++ (line ++ w)).length = 5 := by
      have longer : opening.length = expression.length + 5 := by decide
      rw [List.length_append, @List.length_append _ expression, longer]
      omega
    rw [split, Anonymous.classExpression?_single, fromClass?_opening, cut, Option.bind_some,
      Option.map_some, before]
    rfl
  | cons first others =>
    have split : splitLines (opening ++ (r ++ w)) =
        (opening ++ first) :: others ++ [line ++ w] := splitLines_word inner last
    rw [split, Anonymous.classExpression?_many, fromClass?_opening, closing.throughBrace?,
      Option.bind_some, Option.map_some, ← whole, List.flatten_cons]
    simp only [List.append_assoc]

/-- The lines between others. -/
theorem slice_between {before lines behind : List (List Char)} {first last : Nat}
    (start : first = before.length + 1) (stop : last = before.length + lines.length) :
    Anonymous.slice ((first : Int) - 1) last (before ++ (lines ++ behind)) = lines := by
  have through : last = (before ++ lines).length := by rw [stop, List.length_append]
  rw [Anonymous.slice_eq_linesBetween (by omega), Anonymous.linesBetween, ← List.append_assoc,
    through, List.take_left, start, Nat.add_sub_cancel, List.drop_left]

theorem lineFeedsOnly_opening : LineFeedsOnly opening := by decide

/-- The class takes as many lines as it has line feeds, and one more. -/
theorem length_classLines {r w : List Char} (plain : LineFeedsOnly r) (closing : Closing w) :
    (splitLines (opening ++ (r ++ w))).length = r.count '\n' + 1 := by
  have none : opening.count '\n' = 0 := by decide
  rw [← List.append_assoc, length_splitLines (lineFeedsOnly_opening.append plain) closing.single,
    List.count_append, none, Nat.zero_add]

/-- The lines of the class are whole lines of the file, wherever it ends. -/
theorem exists_classLines {r b : List Char} (plain : LineFeedsOnly r)
    (behind : b = [] ∨ ∃ b', b = '\n' :: b') :
    ∃ w others, Closing w ∧
      splitLines (opening ++ (r ++ '\x7d' :: ';' :: b)) =
        splitLines (opening ++ (r ++ w)) ++ others := by
  rcases behind with rfl | ⟨b', rfl⟩
  · exact ⟨['\x7d', ';'], [], closing_end, (List.append_nil _).symm⟩
  · have body : LineFeedsOnly (opening ++ (r ++ ['\x7d', ';'])) :=
      lineFeedsOnly_opening.append (plain.append (by decide))
    have lines := splitLines_append body b'
    refine ⟨['\x7d', ';', '\n'], splitLines b', closing_lineFeed, ?_⟩
    simpa only [List.append_assoc, List.cons_append, List.nil_append] using lines

/-- The fragment of the lines of the class, in a text with other lines around them. -/
theorem fragmentOf_eq {l r b : List Char} (front : LineFeedsOnly l) (rest : LineFeedsOnly r)
    (behind : b = [] ∨ ∃ b', b = '\n' :: b') {first last : Nat} (start : first = l.count '\n' + 2)
    (stop : last = first + r.count '\n') :
    Anonymous.fragmentOf
        (splitLines (l ++ '\n' :: (opening ++ (r ++ '\x7d' :: ';' :: b)))) first last =
      "<?php\nreturn ".toList ++ (expression ++ (r ++ ['\x7d'])) ++ ";\n".toList := by
  obtain ⟨w, others, closing, split⟩ := exists_classLines rest behind
  have sliced : Anonymous.slice ((first : Int) - 1) last
      (splitLines (l ++ ['\n']) ++ (splitLines (opening ++ (r ++ w)) ++ others)) =
        splitLines (opening ++ (r ++ w)) := by
    have count := length_splitLines front (by decide : splitLines ['\n'] = [['\n']])
    apply slice_between
    · rw [count, start]
    · rw [count, length_classLines rest closing, stop, start]
      omega
  rw [splitLines_append front, split]
  simp only [Anonymous.fragmentOf, sliced, classExpression?_eq rest closing]

/-- The file without a class name, with unified line ends. -/
theorem unixLines_anonymous {f : ClassFile} {r : List Char}
    (rest : f.rest.toList = r ++ ['\x7d']) :
    unixLines f.anonymous.toList = unixLines f.front.toList ++
      (opening ++ (unixLines r ++ '\x7d' :: ';' :: unixLines f.back.toList)) := by
  have text : f.anonymous.toList =
      f.front.toList ++ (opening ++ (r ++ (['\x7d', ';'] ++ f.back.toList))) := by
    simp only [anonymous, String.toList_append, rest, List.append_assoc]
    rfl
  have start (cs : List Char) : unixLines (opening ++ cs) = opening ++ unixLines cs :=
    unixLines_append fun ends => by cases ends
  have stop (cs : List Char) : unixLines (['\x7d', ';'] ++ cs) = ['\x7d', ';'] ++ unixLines cs :=
    unixLines_append fun ends => by cases ends
  have dollar (cs : List Char) : (opening ++ cs).head? ≠ some '\n' := by
    change some '$' ≠ some '\n'
    decide
  have brace (cs : List Char) : (['\x7d', ';'] ++ cs).head? ≠ some '\n' := by
    change some '\x7d' ≠ some '\n'
    decide
  rw [text, unixLines_append fun _ => dollar _, start, unixLines_append fun _ => brace _, stop]
  rfl

/-- The source made of the lines of a class without a name. -/
theorem fragment_eq {f : ClassFile} (own : f.OwnLines) :
    Anonymous.fragment (unifyLineEnds f.anonymous) f.first f.last = "<?php\n" ++ f.returned := by
  obtain ⟨l, front⟩ : ∃ l, unixLines f.front.toList = l ++ ['\n'] :=
    List.getLast?_eq_some_iff.mp (getLast?_unixLines own.before)
  obtain ⟨r, rest⟩ : ∃ r, f.rest.toList = r ++ ['\x7d'] := List.getLast?_eq_some_iff.mp own.brace
  have rest' : unixLines f.rest.toList = unixLines r ++ ['\x7d'] := by
    rw [rest, unixLines_append fun _ => (by decide)]
    rfl
  have lPlain : LineFeedsOnly l := fun c member =>
    lineFeedsOnly_unixLines own.front c (front ▸ List.mem_append_left _ member)
  have rPlain : LineFeedsOnly (unixLines r) := fun c member =>
    lineFeedsOnly_unixLines own.rest c (rest' ▸ List.mem_append_left _ member)
  have first' : f.first = l.count '\n' + 2 := by
    rw [first, lineEnds, front, List.count_append, List.count_singleton_self]
  have last' : f.last = f.first + (unixLines r).count '\n' := by
    rw [last, lineEnds, rest', List.count_append]
    rfl
  have tag : "<?php\nreturn ".toList = "<?php\n".toList ++ "return ".toList := by decide
  apply String.toList_inj.mp
  rw [Anonymous.fragment, unifyLineEnds, String.toList_ofList, String.toList_ofList,
    unixLines_anonymous rest, front, List.append_assoc, List.singleton_append,
    fragmentOf_eq lPlain rPlain (unixLines_eq_nil_or own.behind) first' last', tag,
    String.toList_append, toList_returned, rest']
  simp only [List.append_assoc]

/-! ## Readings -/

def unit (f : ClassFile) (name : String) : SourceUnit := { text := f.named name }

/-- What a parser reads of the file with the class under a name (`t`, `b`), of the file with the
class without one (`t'`), and of the class that is returned (`u`, `b'`): the same class, but for the
lines on which it stands, and the same declarations around it. -/
structure Readings (parse : Parser) (f : ClassFile) (name : String) (t t' u : SourceTree)
    (b b' : ClassBody) : Prop where
  named : parse (f.named name) = .ok t
  found : t.class? name = some b
  anonymous : parse f.anonymous = .ok t'
  returned : parse ("<?php\n" ++ f.returned) = .ok u
  filled : u.isEmpty = false
  alone : u.anonymousClass? = some b'
  body : b.unlined = b'.unlined
  space : t.namespace? = t'.namespace?
  aliases : t.aliases = t'.aliases
  enumerations : t.enumerations = t'.enumerations

/-- The class is read in its lines. -/
theorem Readings.fragment {parse : Parser} {f : ClassFile} {name : String} {t t' u : SourceTree}
    {b b' : ClassBody} (readings : f.Readings parse name t t' u b b') (own : f.OwnLines) :
    Anonymous.classIn? parse f.anonymous f.first f.last = some b' := by
  unfold Anonymous.classIn?
  simp only [fragment_eq own, readings.returned, readings.filled, readings.alone,
    Bool.false_eq_true, if_false]

/-! ## Files whose parts are read by themselves -/

/-- The parts of the file are read by themselves: the lines in front of the class are a source
without a class of its name, and the rest is a class, at the end of the file. -/
structure Separable (f : ClassFile) (name : String) : Prop where
  plain : LineFeedsOnly f.rest.toList
  front : ∃ tree, Preface f.front tree ∧ tree.class? name = none
  rest : ∃ body inner, IsClass name f.rest body inner
  back : f.back = "\n"

/-- The name of a class is its own last segment. -/
theorem lastSegment_of_isWord {name : String} (word : IsWord name.toList) :
    Text.afterLast '\\' (Text.trimChar '\\' name) = name := by
  have other : ∀ c ∈ name.toList, c ≠ '\\' := by
    rintro c member rfl
    have part := List.all_eq_true.mp word.2 _ member
    revert part
    decide
  have trimmed : Text.trimChar '\\' name = name := by
    rw [Text.trimChar, Text.trimBy_of_none fun c member => by simpa using other c member,
      String.ofList_toList]
  have absent : '\\' ∉ name.toList.reverse := fun member =>
    other _ (List.mem_reverse.mp member) rfl
  rw [trimmed, Text.afterLast, Text.cutLast?, Text.cutChars_of_absent absent]
  rfl

/-- Behind declarations without a class of its name, a class is found. -/
theorem class?_behind {name : String} (word : IsWord name.toList) {ds : List Declaration}
    (absent : (SourceTree.mk [] ds).class? name = none) (c : ClassBody) (inner : List Declaration) :
    (SourceTree.mk [] (ds ++ .namedClass name c :: inner)).class? name = some c := by
  rw [SourceTree.class?] at absent ⊢
  rw [List.findSome?_append, absent, Option.none_or, List.findSome?_cons]
  simp only [lastSegment_of_isWord word, if_true]

/-- A preface without code. -/
theorem preface_tag : ∃ tree, Preface "<?php\n" tree ∧ tree.declarations = [] := by
  have tag : (SourceTree.ofText "<?php\n").toOption.any
      (fun tree => tree.declarations.isEmpty) = true := by decide +kernel
  obtain ⟨tree, read, empty⟩ := exists_ok_of_any tag
  refine ⟨tree, ⟨by decide, ?_, read, ?_, ?_⟩, List.isEmpty_iff.mp empty⟩
  · decide +kernel
  · decide +kernel
  · decide +kernel

section

variable {f : ClassFile} {name : String} {tree : SourceTree} {c : ClassBody}
  {inner : List Declaration}

/-- The file is read with the declaration of the class behind those in front of it. -/
theorem exists_named (preface : Preface f.front tree) (back : f.back = "\n")
    (absent : tree.class? name = none) (isClass : IsClass name f.rest c inner) :
    ∃ t b, SourceTree.ofText (f.named name) = .ok t ∧ t.class? name = some b ∧
      b.unlined = c.unlined ∧ t.declarations.map Declaration.unlined =
        tree.declarations.map Declaration.unlined ++
          .namedClass name c.unlined :: inner.map Declaration.unlined := by
  have absent' : (SourceTree.mk [] (tree.declarations.map Declaration.unlined)).class? name =
      none := by
    rw [← SourceTree.class?_of_unlined rfl, absent]
    rfl
  obtain ⟨t, read, -, view⟩ := preface.ofText_append isClass.named
  have text : f.front ++ (classCode name f.rest ++ "\n") = f.named name := by
    simp only [classCode, named, back, String.append_assoc]
  rw [text] at read
  have found := SourceTree.class?_of_unlined view name
  rw [class?_behind isClass.word absent', Option.map_eq_some_iff] at found
  obtain ⟨b, found, body⟩ := found
  exact ⟨t, b, read, found, body, view⟩

theorem exists_anonymous (preface : Preface f.front tree) (back : f.back = "\n")
    (isClass : IsClass name f.rest c inner) :
    ∃ t, SourceTree.ofText f.anonymous = .ok t ∧ t.declarations.map Declaration.unlined =
      tree.declarations.map Declaration.unlined ++
        .anonymousClass c.unlined :: inner.map Declaration.unlined := by
  obtain ⟨t, read, -, view⟩ := preface.ofText_append isClass.assigned
  have text : f.front ++ ("$x = new class extends " ++ f.rest ++ ";\n") = f.anonymous := by
    have semicolon : ";\n" = ";" ++ "\n" := rfl
    simp only [anonymous, back, semicolon, String.append_assoc]
  rw [text] at read
  exact ⟨t, read, view⟩

/-- The class is read alone. -/
theorem exists_returned (plain : LineFeedsOnly f.rest.toList)
    (isClass : IsClass name f.rest c inner) :
    ∃ t b, SourceTree.ofText ("<?php\n" ++ f.returned) = .ok t ∧ t.isEmpty = false ∧
      t.anonymousClass? = some b ∧ b.unlined = c.unlined := by
  have same : unifyLineEnds f.rest = f.rest := by
    rw [unifyLineEnds, unixLines_eq_self plain, String.ofList_toList]
  obtain ⟨tag, opened, empty⟩ := preface_tag
  obtain ⟨t, read, filled, view⟩ := opened.ofText_append isClass.returned
  rw [empty, List.map_nil, List.nil_append] at view
  have found := SourceTree.anonymousClass?_of_unlined view
  have first : (SourceTree.mk [] (.anonymousClass c.unlined ::
      inner.map Declaration.unlined)).anonymousClass? = some c.unlined := rfl
  rw [first, Option.map_eq_some_iff] at found
  obtain ⟨b, found, body⟩ := found
  have text : f.returned = "return new class extends " ++ f.rest ++ ";\n" :=
    congrArg (fun rest => "return new class extends " ++ rest ++ ";\n") same
  have statements : t.isEmpty = false := by
    rw [SourceTree.isEmpty, List.isEmpty_eq_false_iff]
    exact filled
  exact ⟨t, b, text ▸ read, statements, found, body⟩

/-- A file whose parts are read by themselves is read alike with the class under a name and without
one. -/
theorem Separable.readings (separable : f.Separable name) :
    ∃ t t' u b b', f.Readings SourceTree.ofText name t t' u b b' := by
  obtain ⟨plain, ⟨tree, preface, absent⟩, ⟨c, inner, isClass⟩, back⟩ := separable
  obtain ⟨t, b, named, found, body, view⟩ := exists_named preface back absent isClass
  obtain ⟨t', anonymous, view'⟩ := exists_anonymous preface back isClass
  obtain ⟨u, b', returned, filled, alone, body'⟩ := exists_returned plain isClass
  refine ⟨t, t', u, b, b', named, found, anonymous, returned, filled, alone,
    body.trans body'.symm, ?_, ?_, ?_⟩
  · rw [SourceTree.namespace?_of_unlined view, SourceTree.namespace?_of_unlined view']
    simp [SourceTree.namespace?]
  · rw [SourceTree.aliases_of_unlined view, SourceTree.aliases_of_unlined view']
    simp [SourceTree.aliases]
  · rw [SourceTree.enumerations_of_unlined view, SourceTree.enumerations_of_unlined view']
    simp [SourceTree.enumerations, SourceTree.namespace?]

end

end ClassFile

end RequestSchema
