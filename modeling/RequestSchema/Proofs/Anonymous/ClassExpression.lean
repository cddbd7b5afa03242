import Mathlib.Data.List.TakeWhile
import RequestSchema.Anonymous.Fragment
import RequestSchema.Proofs.Text.Recognition

/-!
# The class expression in a fragment

A fragment made of some lines of a text returns the class expression in them: what is left of the
lines without the text in front of the first `new class` on the first line and the text behind the
last closing brace on the last line. Nothing else of the text matters.

* `fragment_of_class`: the fragment of any lines, with a class expression in them or without one;
* `wrappedClass_cut`: an expression among other code on its first and its last line.
-/
namespace RequestSchema.Anonymous

open RequestSchema.Text

/-- A text opens an anonymous class in front of another one: it is `new`, white space and `class`,
and no word goes on behind it. -/
structure Opens (opening rest : List Char) : Prop where
  spelled : ∃ blanks, blanks ≠ [] ∧ (∀ c ∈ blanks, isBlank c = true) ∧
    opening = "new".toList ++ blanks ++ "class".toList
  bounded : ∀ c ∈ rest.head?, isWord c = false

/-- An anonymous class begins at the head of a text. -/
def ClassBegins (cs : List Char) : Prop := ∃ opening rest, cs = opening ++ rest ∧ Opens opening rest

/-- The lines of a text from one up to another, counted from one. -/
def linesBetween (lines : List (List Char)) (first last : Nat) : List (List Char) :=
  (lines.take last).drop (first - 1)

/-! ## Where a class begins -/

theorem Opens.beginsClass {opening rest : List Char} (opens : Opens opening rest) :
    beginsClass (opening ++ rest) = true := by
  obtain ⟨⟨blanks, filled, blank, rfl⟩, bounded⟩ := opens
  have parts : "new".toList ++ blanks ++ "class".toList ++ rest =
      "new".toList ++ (blanks ++ ("class".toList ++ rest)) := by simp
  have skipped : (blanks ++ ("class".toList ++ rest)).dropWhile isBlank = "class".toList ++ rest := by
    rw [List.dropWhile_append_of_pos blank]
    rfl
  have led : (blanks ++ ("class".toList ++ rest)).head?.any isBlank = true := by
    obtain ⟨c, others, rfl⟩ := List.exists_cons_of_ne_nil filled
    exact blank c List.mem_cons_self
  rw [Anonymous.beginsClass, parts, dropStart?_append]
  simp only [led, skipped, dropStart?_append, Bool.true_and]
  cases next : rest.head? with
  | none => rfl
  | some c => simp [bounded c next]

theorem classBegins_of_beginsClass {cs : List Char} (begins : beginsClass cs = true) :
    ClassBegins cs := by
  unfold beginsClass at begins
  split at begins
  case h_1 => cases begins
  case h_2 rest found =>
    obtain ⟨led, begins⟩ := Bool.and_eq_true_iff.mp begins
    split at begins
    case h_1 => cases begins
    case h_2 after found' =>
      refine ⟨"new".toList ++ rest.takeWhile isBlank ++ "class".toList, after, ?_, ?_, ?_⟩
      · rw [eq_append_of_dropStart? found, List.append_assoc, List.append_assoc,
          ← eq_append_of_dropStart? found', List.takeWhile_append_dropWhile]
      · refine ⟨rest.takeWhile isBlank, ?_, fun c member => List.mem_takeWhile_imp member, rfl⟩
        cases rest with
        | nil => cases led
        | cons c rest =>
          rw [List.takeWhile_cons_of_pos (by exact led)]
          exact List.cons_ne_nil _ _
      · intro c next
        rw [next] at begins
        simpa using begins

theorem beginsClass_iff {cs : List Char} : beginsClass cs = true ↔ ClassBegins cs :=
  ⟨classBegins_of_beginsClass, fun ⟨_, _, parts, opens⟩ => parts ▸ opens.beginsClass⟩

instance (cs : List Char) : Decidable (ClassBegins cs) := decidable_of_iff _ beginsClass_iff

/-- The class that begins first is found. -/
theorem fromClass?_append {pre opening rest : List Char} (opens : Opens opening rest)
    (earliest : ∀ n < pre.length, ¬ ClassBegins ((pre ++ opening ++ rest).drop n)) :
    fromClass? (pre ++ opening ++ rest) = some (opening ++ rest) := by
  rw [List.append_assoc] at earliest ⊢
  rw [fromClass?, firstMatch_append fun n before => ?_]
  · exact firstMatch_of_head (if_pos opens.beginsClass)
  · exact if_neg (mt beginsClass_iff.mp (earliest n before))

theorem fromClass?_eq_none {cs : List Char} (never : ∀ n, ¬ ClassBegins (cs.drop n)) :
    fromClass? cs = none := by
  refine firstMatch_eq_none fun rest shorter => if_neg (mt beginsClass_iff.mp ?_)
  rw [List.suffix_iff_eq_drop.mp shorter]
  exact never _

/-! ## Where it ends -/

theorem throughBrace?_append {body post : List Char} (last : '\x7d' ∉ post) :
    throughBrace? (body ++ '\x7d' :: post) = some (body ++ ['\x7d']) := by
  have reversed : (body ++ '\x7d' :: post).reverse = post.reverse ++ '\x7d' :: body.reverse := by
    simp
  rw [throughBrace?, reversed, cutChars_append (mt List.mem_reverse.mp last)]
  simp

theorem throughBrace?_eq_none {cs : List Char} (absent : '\x7d' ∉ cs) : throughBrace? cs = none := by
  rw [throughBrace?, cutChars_of_absent (mt List.mem_reverse.mp absent)]
  rfl

/-! ## The lines of a range -/

/-- A range of lines begins with its first one and ends with its last one. -/
theorem linesBetween_ends {lines : List (List Char)} {first last : Nat} (positive : 1 ≤ first)
    (ordered : first ≤ last) (inside : last ≤ lines.length) :
    (linesBetween lines first last).head? = lines[first - 1]? ∧
      (linesBetween lines first last).getLast? = lines[last - 1]? ∧
      (linesBetween lines first last).length = last + 1 - first := by
  have cut : (lines.take last).length = last := List.length_take_of_le inside
  refine ⟨?_, ?_, ?_⟩
  · rw [linesBetween, List.head?_drop, List.getElem?_take_of_lt (by omega)]
  · have there : last - 1 < lines.length := by omega
    rw [linesBetween, List.getLast?_drop, cut, if_neg (by omega), List.getLast?_take,
      if_neg (by omega), List.getElem?_eq_getElem there, Option.some_or]
  · rw [linesBetween, List.length_drop, cut]
    omega

theorem slice_eq_linesBetween {lines : List (List Char)} {first last : Nat} (positive : 1 ≤ first) :
    slice ((first : Int) - 1) last lines = linesBetween lines first last := by
  have start : ¬ (first : Int) - 1 < 0 := by omega
  have stop : ¬ (last : Int) < 0 := by omega
  have place : ((first : Int) - 1).toNat = first - 1 := by omega
  simp only [slice, if_neg start, if_neg stop, place, Int.toNat_natCast, linesBetween]

/-- Lines of which there is more than one are a first one, a last one and others between. -/
theorem exists_between {α : Type} {xs : List α} {a b : α} (head : xs.head? = some a)
    (final : xs.getLast? = some b) (many : xs.length ≠ 1) : ∃ between, xs = a :: between ++ [b] := by
  obtain ⟨rest, rfl⟩ := List.head?_eq_some_iff.mp head
  cases rest with
  | nil => exact absurd rfl many
  | cons c rest =>
    rw [List.getLast?_cons_cons] at final
    obtain ⟨between, same⟩ := List.getLast?_eq_some_iff.mp final
    exact ⟨between, by rw [same, List.cons_append]⟩

/-! ## The expression in some lines -/

theorem classExpression?_many (line final : List Char) (between : List (List Char)) :
    classExpression? (line :: between ++ [final]) =
      (fromClass? line).bind fun opening => (throughBrace? final).map fun closing =>
        opening ++ between.flatten ++ closing := by
  have many : (line :: between ++ [final]).length ≠ 1 := by simp
  have ending : (line :: between ++ [final]).getLast? = some final := List.getLast?_concat
  unfold classExpression?
  rw [ending]
  simp only [List.cons_append, List.head?_cons, Option.bind_eq_bind, Option.bind_some]
  cases fromClass? line with
  | none => rfl
  | some opening =>
    cases throughBrace? final with
    | none => rfl
    | some closing => simp

theorem classExpression?_single (line : List Char) :
    classExpression? [line] =
      (fromClass? line).bind fun opening => (throughBrace? line).map fun closing =>
        closing.drop (line.length - opening.length) := by
  unfold classExpression?
  simp only [List.head?_cons, List.getLast?_singleton, Option.bind_eq_bind, Option.bind_some]
  cases fromClass? line with
  | none => rfl
  | some opening => cases throughBrace? line <;> rfl

variable {pre opening rest body post : List Char}

/-- On several lines the expression runs from where the class begins to the last brace. -/
theorem classExpression?_of_lines (opens : Opens opening rest)
    (earliest : ∀ n < pre.length, ¬ ClassBegins ((pre ++ opening ++ rest).drop n))
    (final : '\x7d' ∉ post) (between : List (List Char)) :
    classExpression? ((pre ++ opening ++ rest) :: between ++ [body ++ '\x7d' :: post]) =
      some (opening ++ (rest ++ between.flatten ++ body) ++ ['\x7d']) := by
  rw [classExpression?_many, fromClass?_append opens earliest, throughBrace?_append final]
  simp

/-- On a single line the class stands between the text in front of it and the text behind its
brace. -/
theorem exists_inner (line : pre ++ opening ++ rest = body ++ '\x7d' :: post)
    (behind : pre.length + opening.length ≤ body.length) :
    ∃ inner, body = pre ++ opening ++ inner := by
  have front : pre ++ opening <+: body ++ '\x7d' :: post := ⟨rest, line⟩
  have shorter : (pre ++ opening).length ≤ body.length := List.length_append ▸ behind
  obtain ⟨inner, same⟩ :=
    List.prefix_of_prefix_length_le front (List.prefix_append body ('\x7d' :: post)) shorter
  exact ⟨inner, same.symm⟩

theorem classExpression?_of_line (opens : Opens opening rest)
    (earliest : ∀ n < pre.length, ¬ ClassBegins ((pre ++ opening ++ rest).drop n))
    (final : '\x7d' ∉ post) {inner : List Char}
    (line : pre ++ opening ++ rest = pre ++ opening ++ inner ++ '\x7d' :: post) :
    classExpression? [pre ++ opening ++ rest] = some (opening ++ inner ++ ['\x7d']) := by
  rw [classExpression?_single, fromClass?_append opens earliest]
  simp only [line, throughBrace?_append final, Option.bind_some, Option.map_some]
  have start : (pre ++ opening ++ inner ++ '\x7d' :: post).length - (opening ++ rest).length =
      pre.length := by
    rw [← line]
    simp
  rw [start]
  simp

theorem classExpression?_eq_none {lines : List (List Char)} {line final : List Char}
    (head : lines.head? = some line) (ending : lines.getLast? = some final)
    (missing : fromClass? line = none ∨ throughBrace? final = none) :
    classExpression? lines = none := by
  unfold classExpression?
  rw [head, ending]
  rcases missing with unopened | unclosed
  · simp [unopened]
  · cases fromClass? line <;> simp [unclosed]

/-! ## The fragment -/

/-- The fragment of any lines returns the class expression in them, which is what they hold between
the text in front of the first class on the first line and the text behind the last brace on the
last line; lines without one are taken as they are. -/
theorem fragment_of_class (lines : List (List Char)) (first last : Nat) (positive : 1 ≤ first)
    (ordered : first ≤ last) (inside : last ≤ lines.length) :
    (∀ pre opening rest body post : List Char,
      lines[first - 1]? = some (pre ++ opening ++ rest) → Opens opening rest →
      (∀ n < pre.length, ¬ ClassBegins ((pre ++ opening ++ rest).drop n)) →
      lines[last - 1]? = some (body ++ '\x7d' :: post) → '\x7d' ∉ post →
      (first = last → pre.length + opening.length ≤ body.length) →
      ∃ inner, (linesBetween lines first last).flatten =
          pre ++ (opening ++ inner ++ ['\x7d']) ++ post ∧
        fragmentOf lines first last =
          "<?php\nreturn ".toList ++ (opening ++ inner ++ ['\x7d']) ++ ";\n".toList) ∧
    ∀ line final, lines[first - 1]? = some line → lines[last - 1]? = some final →
      (∀ n, ¬ ClassBegins (line.drop n)) ∨ '\x7d' ∉ final →
      fragmentOf lines first last = "<?php\n".toList ++ (linesBetween lines first last).flatten := by
  obtain ⟨head, ending, count⟩ := linesBetween_ends positive ordered inside
  rw [fragmentOf, slice_eq_linesBetween positive]
  constructor
  · intro pre opening rest body post line opens earliest final last' behind
    rw [line] at head
    rw [final] at ending
    by_cases same : first = last
    · obtain ⟨l, only⟩ := List.length_eq_one_iff.mp (count.trans (by omega))
      rw [only] at head ending
      cases head
      have whole : pre ++ opening ++ rest = body ++ '\x7d' :: post := Option.some.inj ending
      obtain ⟨inner, rfl⟩ := exists_inner whole (behind same)
      refine ⟨inner, ?_, ?_⟩
      · rw [only, List.flatten_singleton, whole]
        simp
      · rw [only, classExpression?_of_line opens earliest last' whole]
    · obtain ⟨between, parts⟩ := exists_between head ending (by omega)
      refine ⟨rest ++ between.flatten ++ body, ?_, ?_⟩
      · rw [parts]
        simp
      · rw [parts, classExpression?_of_lines opens earliest last']
  · intro line final opened closed missing
    rw [opened] at head
    rw [closed] at ending
    rw [classExpression?_eq_none head ending (missing.imp fromClass?_eq_none throughBrace?_eq_none)]

/-- A class on several lines; in front of it stands a name that begins like one, and behind its last
brace there is more code. -/
def wrappedClass : List (List Char) :=
  ["<?php\n", "$form = [new classy, new \tclass extends Base \x7b\n",
    "  function rules() \x7b return []; \x7d\n", "\x7d \x7d] + new class;\n"].map String.toList

theorem wrappedClass_cut :
    fragmentOf wrappedClass 2 4 =
      ("<?php\nreturn new \tclass extends Base \x7b\n  function rules() \x7b return []; \x7d\n" ++
        "\x7d \x7d;\n").toList := by
  obtain ⟨inner, parts, cut⟩ := (fragment_of_class wrappedClass 2 4 (by decide) (by decide)
    (by decide)).1 "$form = [new classy, ".toList "new \tclass".toList " extends Base \x7b\n".toList
    "\x7d ".toList "] + new class;\n".toList (by decide)
    ⟨⟨[' ', '\t'], by decide, List.all_eq_true.mp rfl, by decide⟩, by rintro c ⟨⟩; rfl⟩ (by decide)
    (by decide) (by decide) (by decide)
  have whole : (linesBetween wrappedClass 2 4).flatten = "$form = [new classy, ".toList ++
      ("new \tclass extends Base \x7b\n  function rules() \x7b return []; \x7d\n" ++
        "\x7d \x7d").toList ++ "] + new class;\n".toList := by decide
  have expression := List.append_cancel_left (List.append_cancel_right (parts.symm.trans whole))
  refine cut.trans ?_
  rw [expression]
  decide

end RequestSchema.Anonymous
