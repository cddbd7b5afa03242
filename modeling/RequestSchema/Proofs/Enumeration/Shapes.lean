import RequestSchema.Proofs.Enumeration.Lookup
import RequestSchema.Proofs.Text.Recognition
import RequestSchema.Proofs.Text.Trim

/-!
# The shapes of a reference to an enumeration

A class can be named by a structured rule, by plain data, by a rule text or by one of three source
texts. The first three keep the reference as it is written. The source texts lose a backslash in
front of it.

* `find_shapes`: the structured shapes of a reference are looked up as the reference, the source
  texts as its path; so all six mean the same class unless the reference begins with a backslash;
* `rootedStatus_apart`: with one they can mean different classes, since a path without a backslash
  may begin with an alias.
-/
namespace RequestSchema

open RequestSchema.Text

/-- A reference to a class: identifiers with backslashes between them, and perhaps one in front. -/
structure ClassReference where
  rooted : Bool
  first : String
  others : List String
  identifiers : ∀ s ∈ first :: others, s.toList ≠ [] ∧ ∀ c ∈ s.toList, isWord c = true

namespace ClassReference

/-- The identifiers of a reference, with backslashes between them. -/
def path (r : ClassReference) : String := "\\".intercalate (r.first :: r.others)

def text (r : ClassReference) : String := (if r.rooted then "\\" else "") ++ r.path

/-- The shapes that keep a reference as it is written: a structured rule, plain data, and a rule
text. -/
def structured (r : ClassReference) : List Value :=
  [.enumClass r.text, .record [("type", .text "enum"), ("class", .text r.text)],
    .text ("enum:" ++ r.text)]

/-- The source texts that name the class of a reference. -/
def sources (r : ClassReference) : List Value :=
  [.source ("Rule::enum(" ++ r.text ++ "::class)"), .source ("new Enum(" ++ r.text ++ "::class)"),
    .source ("'required|enum:' . " ++ r.text ++ "::class")]

/-! ## The characters of a reference -/

theorem toList_path (r : ClassReference) :
    r.path.toList = ['\\'].intercalate ((r.first :: r.others).map String.toList) :=
  String.toList_intercalate

theorem isPathPart_path (r : ClassReference) :
    ∀ c ∈ r.path.toList, EnumReference.isPathPart c = true := by
  intro c member
  rw [toList_path] at member
  unfold EnumReference.isPathPart
  rcases mem_intercalate member with separator | ⟨piece, there, own⟩
  · rw [List.mem_singleton] at separator
    simp [separator]
  · obtain ⟨s, listed, rfl⟩ := List.mem_map.mp there
    simp [(r.identifiers s listed).2 c own]

/-- A path begins with a character of an identifier. -/
theorem path_cons (r : ClassReference) :
    ∃ c rest, r.path.toList = c :: rest ∧ isWord c = true := by
  obtain ⟨filled, word⟩ := r.identifiers r.first List.mem_cons_self
  obtain ⟨c, rest, first⟩ := List.exists_cons_of_ne_nil filled
  have initial : isWord c = true := word c (by rw [first]; exact List.mem_cons_self)
  rw [toList_path, List.map_cons, first]
  cases r.others with
  | nil => exact ⟨c, rest, by simp, initial⟩
  | cons next others =>
    exact ⟨c, _, by rw [List.map_cons, List.intercalate_cons_cons]; rfl, initial⟩

theorem toList_text (r : ClassReference) :
    r.text.toList = (if r.rooted then ['\\'] else []) ++ r.path.toList := by
  rw [text, String.toList_append]
  cases r.rooted <;> rfl

theorem isPathPart_text (r : ClassReference) :
    ∀ c ∈ r.text.toList, EnumReference.isPathPart c = true := by
  intro c member
  rw [toList_text, List.mem_append] at member
  rcases member with front | inner
  · cases rooted : r.rooted <;> rw [rooted] at front <;> simp at front
    simp [EnumReference.isPathPart, front]
  · exact r.isPathPart_path c inner

/-- Only characters of identifiers and backslashes stand in a reference. -/
theorem not_mem_text (r : ClassReference) {c : Char} (other : EnumReference.isPathPart c = false) :
    c ∉ r.text.toList := by
  intro member
  rw [r.isPathPart_text c member] at other
  cases other

theorem isBlank_of_isPathPart {c : Char} (part : EnumReference.isPathPart c = true) :
    isBlank c = false := by
  rw [EnumReference.isPathPart, Bool.or_eq_true, decide_eq_true_eq] at part
  rcases part with word | rfl
  · exact isBlank_of_isWord word
  · decide

theorem isBlank_text (r : ClassReference) : ∀ c ∈ r.text.toList, isBlank c = false :=
  fun c member => isBlank_of_isPathPart (r.isPathPart_text c member)

theorem text_cons (r : ClassReference) : ∃ c rest, r.text.toList = c :: rest := by
  obtain ⟨c, rest, path, -⟩ := r.path_cons
  rw [toList_text, path]
  cases r.rooted <;> exact ⟨_, _, rfl⟩

/-- No white space is skipped in front of a reference. -/
theorem dropWhile_text (r : ClassReference) (rest : List Char) :
    (r.text.toList ++ rest).dropWhile isBlank = r.text.toList ++ rest := by
  obtain ⟨c, tail, text⟩ := r.text_cons
  have unblank : isBlank c = false := r.isBlank_text c (by rw [text]; exact List.mem_cons_self)
  rw [text, List.cons_append, List.dropWhile_cons, if_neg (by rw [unblank]; decide)]

end ClassReference

/-! ## The class that a shape names -/

namespace EnumReference

variable (r : ClassReference)

/-- In front of `::class` a reference is read without the backslash that it begins with. -/
theorem classOperand?_text (rest : List Char) :
    classOperand? (r.text.toList ++ ("::class".toList ++ rest)) = some r.path := by
  have path : (r.text.toList ++ ("::class".toList ++ rest)).takeWhile isPathPart =
      r.text.toList := by
    rw [List.takeWhile_append_of_pos r.isPathPart_text]
    simp [isPathPart]
    decide
  have behind : (r.text.toList ++ ("::class".toList ++ rest)).drop r.text.toList.length =
      "::class".toList ++ rest := List.drop_left
  obtain ⟨c, tail, inner, word⟩ := r.path_cons
  have whole : String.ofList (c :: tail) = r.path := by rw [← inner, String.ofList_toList]
  unfold classOperand?
  simp only [path, behind, dropStart?_append]
  rw [r.toList_text, inner]
  cases r.rooted with
  | true => simp [whole]
  | false =>
    simp only [Bool.false_eq_true, if_false, List.nil_append]
    split
    · rename_i same
      rw [(List.cons.inj same).1] at word
      exact absurd word (by decide)
    · simp [whole]

theorem ofSource?_call : ofSource? ("Rule::enum(" ++ r.text ++ "::class)") = some r.path := by
  have parts : ("Rule::enum(" ++ r.text ++ "::class)").toList =
      "Rule::enum(".toList ++ (r.text.toList ++ ("::class".toList ++ [')'])) := by
    simp only [String.toList_append, List.append_assoc]
    rfl
  have called : callOperand? ("Rule::enum(".toList ++
      (r.text.toList ++ ("::class".toList ++ [')']))) = some r.path := by
    rw [callOperand?, dropStart?_append, Option.bind_some, r.dropWhile_text, classOperand?_text]
  rw [ofSource?, parts, firstMatch_of_head called, Option.some_or]

/-- A call of the enumeration rule has a parenthesis. -/
theorem callOperand?_of_absent {cs : List Char} (absent : '(' ∉ cs) : callOperand? cs = none := by
  rw [callOperand?, dropStart?_of_absent (by decide) absent, Option.bind_none]

/-- So has a new rule. -/
theorem newOperand?_of_absent {cs : List Char} (absent : '(' ∉ cs) : newOperand? cs = none := by
  unfold newOperand?
  cases found : dropStart? "new".toList cs with
  | none => rfl
  | some behind =>
    have unblank := List.dropWhile_suffix (l := behind) isBlank
    have unrooted := getD_dropStart?_suffix ['\\'] (behind.dropWhile isBlank)
    have short := (getD_dropStart?_suffix "Illuminate\\Validation\\Rules\\".toList _).trans
      (unrooted.trans (unblank.trans (suffix_of_dropStart? found)))
    simp only [Option.bind_eq_bind, Option.bind_some]
    split
    · rfl
    · rw [dropStart?_of_absent (by decide) fun member => absent (short.subset member),
        Option.bind_none]

/-- In a text without parentheses only an appended class is found. -/
theorem ofSource?_of_absent {s : String} (absent : '(' ∉ s.toList) :
    ofSource? s = firstMatch appendedOperand? s.toList := by
  have uncalled : firstMatch callOperand? s.toList = none := firstMatch_eq_none fun rest shorter =>
    callOperand?_of_absent fun member => absent (shorter.subset member)
  have unmade : firstMatch newOperand? s.toList = none := firstMatch_eq_none fun rest shorter =>
    newOperand?_of_absent fun member => absent (shorter.subset member)
  rw [ofSource?, uncalled, unmade, Option.none_or, Option.none_or]

theorem ofSource?_new : ofSource? ("new Enum(" ++ r.text ++ "::class)") = some r.path := by
  have parts : ("new Enum(" ++ r.text ++ "::class)").toList =
      ['n', 'e', 'w', ' ', 'E', 'n', 'u', 'm', '('] ++
        (r.text.toList ++ ("::class".toList ++ [')'])) := by
    simp only [String.toList_append, List.append_assoc]
    rfl
  have lacking : '(' ∉ r.text.toList ++ ("::class".toList ++ [')']) := by
    simp only [List.mem_append, not_or]
    exact ⟨r.not_mem_text (by decide), by decide, by decide⟩
  generalize operand : r.text.toList ++ ("::class".toList ++ [')']) = cs at parts lacking
  have uncalled : firstMatch callOperand? (['n', 'e', 'w', ' ', 'E', 'n', 'u', 'm', '('] ++ cs) =
      none := by
    refine (firstMatch_append_of_none fun c member rest => ?_).trans (firstMatch_eq_none
      fun rest shorter => callOperand?_of_absent fun member => lacking (shorter.subset member))
    have other : 'R' ≠ c := by
      rintro rfl
      exact absurd member (by decide)
    have call : "Rule::enum(".toList = 'R' :: "ule::enum(".toList := rfl
    rw [callOperand?, call, dropStart?_of_ne other, Option.bind_none]
  have made : newOperand? (['n', 'e', 'w', ' ', 'E', 'n', 'u', 'm', '('] ++ cs) = some r.path := by
    have operand' : classOperand? (cs.dropWhile isBlank) = some r.path := by
      rw [← operand, r.dropWhile_text, classOperand?_text]
    exact operand'
  rw [ofSource?, parts, uncalled, Option.none_or, firstMatch_of_head made, Option.some_or]

theorem ofSource?_appended :
    ofSource? ("'required|enum:' . " ++ r.text ++ "::class") = some r.path := by
  have parts : ("'required|enum:' . " ++ r.text ++ "::class").toList =
      "'required|enum:' . ".toList ++ (r.text.toList ++ ("::class".toList ++ [])) := by
    simp only [String.toList_append, List.append_assoc, List.append_nil]
  have lacking : '(' ∉ ("'required|enum:' . " ++ r.text ++ "::class").toList := by
    simp only [parts, List.mem_append, not_or]
    exact ⟨by decide, r.not_mem_text (by decide), by decide, by decide⟩
  rw [ofSource?_of_absent lacking, parts]
  refine firstMatch_of_head ?_
  have operand : classOperand? ((r.text.toList ++ ("::class".toList ++ [])).dropWhile isBlank) =
      some r.path := by
    rw [r.dropWhile_text, classOperand?_text]
  exact operand

theorem ofToken?_rule : ofToken? (.rule ("enum:" ++ r.text)) = some r.text := by
  have cut : cut? ':' ("enum:" ++ r.text) = some ("enum", r.text) := by
    have parts : ("enum:" ++ r.text).toList = ['e', 'n', 'u', 'm'] ++ ':' :: r.text.toList := by
      rw [String.toList_append]
      rfl
    rw [cut?, parts, cutChars_append (by decide), Option.map_some]
    simp
  have name : (Token.rule ("enum:" ++ r.text)).name = "enum" := by
    simp only [Token.name, cut, Option.map_some, Option.getD_some]
    decide
  have parameters : (Token.rule ("enum:" ++ r.text)).parameters = r.text := by
    simp only [Token.parameters, cut, Option.map_some, Option.getD_some]
    exact trim_of_unblank r.isBlank_text
  have filled : r.text.isEmpty = false := by
    obtain ⟨c, rest, begins⟩ := r.text_cons
    rw [Bool.eq_false_iff, Ne, String.isEmpty_iff]
    intro empty
    rw [empty] at begins
    cases begins
  simp only [ofToken?, name, parameters, split_of_absent (r.not_mem_text (c := ',') (by decide)),
    List.headD_cons, trim_of_unblank r.isBlank_text, filled, if_true, Bool.false_eq_true, if_false]

/-- The structured shapes of a reference are looked up as the reference, its source texts as the
path without a backslash in front. -/
theorem find_shapes (space : Option String) (aliases : OrderedMap String String) :
    (r.structured ++ r.sources).map (find space aliases) =
      List.replicate 3 (lookUp space aliases (.enumClass r.text)) ++
        List.replicate 3 (lookUp space aliases (.enumClass r.path)) := by
  have plain : find space aliases (.record [("type", .text "enum"), ("class", .text r.text)]) =
      lookUp space aliases (.enumClass r.text) := rfl
  simp only [ClassReference.structured, ClassReference.sources, List.cons_append, List.nil_append,
    List.map_cons, List.map_nil, plain]
  simp only [find, Token.ofValue?, lookUp, ofToken?_rule]
  simp only [ofToken?, ofSource?_call, ofSource?_new, ofSource?_appended]
  rfl

/-- A reference with a backslash in front. -/
def rootedStatus : ClassReference where
  rooted := true
  first := "Status"
  others := []
  identifiers := List.forall_mem_singleton.mpr ⟨by decide, List.all_eq_true.mp (by decide)⟩

/-- Two enumerations whose names end alike. -/
def statuses : Registry where
  known := .ofList [("Status", { name := "Status", values := [.text "a"] }),
    ("Domain\\Status", { name := "Domain\\Status", values := [.text "b"] })]

/-- Where the first identifier of a reference is an alias, a backslash in front decides which class
the structured shapes mean, and is lost in the source texts. -/
theorem rootedStatus_apart :
    (rootedStatus.structured ++ rootedStatus.sources).map (fun v =>
      ((find none (.ofList [("Status", "Domain\\Status")]) v).run false
        statuses).result.toOption.join.map Enumeration.name) =
      [some "Status", some "Status", some "Status",
        some "Domain\\Status", some "Domain\\Status", some "Domain\\Status"] := by
  decide +kernel

end EnumReference

end RequestSchema
