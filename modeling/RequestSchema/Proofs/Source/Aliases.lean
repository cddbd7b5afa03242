import RequestSchema.Proofs.Analysis.Results
import RequestSchema.Proofs.OrderedMap.Writes
import RequestSchema.Proofs.Source.Declarations
import RequestSchema.Proofs.Source.ImportText
import RequestSchema.Source.Outline

/-!
# The aliases of a source

The text of an import of classes is read again as it was parsed when it has a plain layout and its
names are made of identifiers (`ofText_of_written`): with or without an alias, alone, between
commas, or grouped under a namespace. So the aliases of a source are those that its imports
declare, and the last declaration of an alias counts (`SourceTree.get?_aliases`). An import
whose word is not in lower case is read as a whole and gives no alias
(`SourceTree.capitals_unread`).
-/
namespace RequestSchema.Source

open RequestSchema.Text

/-- Whether a text begins as a group of items does behind its namespace: with a backslash and a
brace. -/
def opensGroup : List Char → Bool
  | '\\' :: cs => (cs.dropWhile isBlank).head? = some '\x7b'
  | _ => false

/-- The layout in which an import is read again as it was parsed: its word is in lower case, it
holds no comment and no white space beyond ASCII, and no white space stands in front of the
backslash before a group. -/
structure PlainLayout (text : String) : Prop where
  lowercase : "use".toList <+: text.toList
  ascii : ∀ c ∈ text.toList, c.toNat < 128
  uncommented : '/' ∉ text.toList ∧ '#' ∉ text.toList
  joined : ∀ cs ∈ text.toList.tails, opensGroup cs.tail = true → cs.head?.any isBlank = false

instance (text : String) : Decidable (PlainLayout text) :=
  decidable_of_iff ("use".toList <+: text.toList ∧ text.toList.all (·.toNat < 128) = true ∧
      ('/' ∉ text.toList ∧ '#' ∉ text.toList) ∧
      ∀ cs ∈ text.toList.tails, opensGroup cs.tail = true → cs.head?.any isBlank = false)
    ⟨fun ⟨lowercase, ascii, uncommented, joined⟩ =>
      ⟨lowercase, by simpa using ascii, uncommented, joined⟩,
      fun ⟨lowercase, ascii, uncommented, joined⟩ =>
      ⟨lowercase, by simpa using ascii, uncommented, joined⟩⟩

theorem exists_joined {l : Lexeme} {ls : List Lexeme} (chain : (l :: ls).IsChain Joined) :
    ∀ m ∈ ls, ∃ k, Joined k m := by
  induction ls generalizing l with
  | nil => simp
  | cons k ls ih =>
    obtain ⟨joined, chain⟩ := List.isChain_cons_cons.mp chain
    intro m member
    rcases List.mem_cons.mp member with rfl | later
    · exact ⟨l, joined⟩
    · exact ih chain m later

theorem mem_trailing {l : Lexeme} {ls : List Lexeme} (member : l ∈ ls) {c : Char}
    (there : c ∈ l.lead ∨ c ∈ l.text) : c ∈ Lexeme.trailing ls :=
  List.mem_flatMap.mpr ⟨l, member, List.mem_append.mpr there⟩

namespace PlainLayout

/-- A character in front of the backslash before a group is not white space. -/
theorem unspaced {text : String} (layout : PlainLayout text) {front gap back : List Char} {c : Char}
    (whole : text.toList = front ++ c :: '\\' :: (gap ++ '\x7b' :: back))
    (blank : ∀ c ∈ gap, isBlank c = true) : isBlank c = false := by
  have opened : opensGroup ('\\' :: (gap ++ '\x7b' :: back)) = true := by
    rw [opensGroup, dropWhile_gap blank (by rintro c ⟨⟩; rfl)]
    rfl
  have inside : c :: '\\' :: (gap ++ '\x7b' :: back) <:+ text.toList := ⟨front, whole.symm⟩
  simpa using layout.joined _ ((List.mem_tails _ _).mpr inside) opened

variable {use : Lexeme} {ls : List Lexeme}

theorem clean (layout : PlainLayout (String.ofList (Lexeme.render (use :: ls))))
    (chain : (use :: ls).IsChain Joined) : Clean ls := by
  have inside {c : Char} (member : c ∈ Lexeme.trailing ls) :
      c ∈ (String.ofList (Lexeme.render (use :: ls))).toList := by
    rw [String.toList_ofList, Lexeme.render]
    exact List.mem_append_right _ member
  refine ⟨fun l member kind c there => ?_, ?_, fun l member c there => ?_⟩
  · obtain ⟨k, joined⟩ := exists_joined chain l member
    rcases joined.gap kind with space | slash | hash
    · exact isBlank_of_isSpace (space c there)
        (layout.ascii c (inside (mem_trailing member (.inl there))))
    · exact absurd (inside (mem_trailing member (.inl slash))) layout.uncommented.1
    · exact absurd (inside (mem_trailing member (.inl hash))) layout.uncommented.2
  · exact (chain.tail.imp fun _ _ joined => joined.apart)
  · exact layout.ascii c (inside (mem_trailing member (.inr there)))

/-- The word of an import is `use` itself. -/
theorem text_eq (layout : PlainLayout (String.ofList (Lexeme.render (use :: ls))))
    (word : use.word = "use") : use.text = "use".toList := by
  have text : (String.ofList (Lexeme.render (use :: ls))).toList =
      use.text ++ Lexeme.trailing ls := String.toList_ofList
  have ascii : ∀ c ∈ use.text, c.toNat < 128 := fun c member =>
    layout.ascii c (by rw [text]; exact List.mem_append_left _ member)
  have length : "use".toList.length = use.text.length := by
    rw [← (kind_of_word word (by decide)).2, length_lowerFrom ascii]
  have start := layout.lowercase
  rw [text] at start
  exact ((List.prefix_of_prefix_length_le start (List.prefix_append _ _) length.le).eq_of_length
    length).symm

/-- No white space stands in front of the separator before a group. -/
theorem lead_eq_nil {n separator brace : Lexeme}
    (layout : PlainLayout (String.ofList (Lexeme.render (use :: n :: separator :: brace :: ls))))
    (clean : Clean (n :: separator :: brace :: ls)) (separates : separator.isSymbol "\\" = true)
    (opens : brace.isSymbol "\x7b" = true) : separator.lead = [] := by
  obtain ⟨kind, slash⟩ := kind_of_isSymbol separates
  obtain ⟨kind', opening⟩ := kind_of_isSymbol opens
  have before := clean.blank brace (by simp) (by rw [kind']; decide)
  rcases separator.lead.eq_nil_or_concat' with empty | ⟨gap, b, lead⟩
  · exact empty
  · have blank := clean.blank separator (by simp) (by rw [kind]; decide) b (by simp [lead])
    have whole : (String.ofList (Lexeme.render (use :: n :: separator :: brace :: ls))).toList =
        use.text ++ n.lead ++ n.text ++ gap ++ b :: '\\' ::
          (brace.lead ++ '\x7b' :: Lexeme.trailing ls) := by
      simp [Lexeme.render, Lexeme.trailing, slash, opening, lead]
    have unblank := layout.unspaced whole before
    rw [blank] at unblank
    cases unblank

end PlainLayout

/-! ## Imports read again -/

section

variable {items : List Import} {n : Lexeme} {rest ending : List Lexeme}

/-- The signs behind an import. -/
theorem trailing_ending (clean : Clean ending) (semicolons : ∀ l ∈ ending, l.isSymbol ";" = true)
    (one : ending.length ≤ 1) : ∃ gap signs, Lexeme.trailing ending = gap ++ signs ∧
      (∀ c ∈ gap, isBlank c = true) ∧ (signs = [] ∧ gap = [] ∨ signs = [';']) := by
  match ending with
  | [] => exact ⟨[], [], rfl, by simp, .inl ⟨rfl, rfl⟩⟩
  | [l] =>
    obtain ⟨kind, text⟩ := kind_of_isSymbol (semicolons l (by simp))
    refine ⟨l.lead, [';'], by simp [Lexeme.trailing, text], ?_, .inr rfl⟩
    exact clean.blank l (by simp) (by rw [kind]; decide)
  | _ :: _ :: _ => simp at one

/-- Neither functions nor constants are announced in front of a name that is neither word. -/
theorem unannounced {name behind : List Char} (other : n.word ∉ ["function", "const"])
    (kind : n.kind = .name) (begins : name = n.text ∨ name = n.text ++ ['\\'])
    (parts : ∀ c ∈ n.text, Imports.isPathPart c = true)
    (ends : ∀ c ∈ behind.head?, Imports.isPathPart c = false) {w : String}
    (announces : w ∈ ["function", "const"]) : Imports.afterWord? w (name ++ behind) = none := by
  have facts : ∀ w ∈ ["function", "const"],
      w.toList.all Imports.isPathPart = true ∧ '\\' ∉ w.toList ∧ lower w = w := by
    decide
  obtain ⟨letters, unjoined, lowered⟩ := facts w announces
  refine Imports.afterWord?_eq_none (List.all_eq_true.mp letters) ?_ ends ?_
  · rcases begins with rfl | rfl
    · exact parts
    · simpa [or_imp, forall_and] using ⟨parts, by decide⟩
  · rintro same
    rcases begins with rfl | rfl
    · rw [Lexeme.word, if_pos kind, Lexeme.string, same, String.ofList_toList, lowered] at other
      exact other announces
    · exact unjoined (same ▸ by simp)

theorem ofText_of_series (blank : ∀ c ∈ n.lead, isBlank c = true) (apart : n.lead ≠ [])
    (other : n.word ∉ ["function", "const"])
    (series : Series (ItemForm Parse.unrooted) items (n :: rest)) (clean : Clean (n :: rest))
    (plain : ∀ i ∈ items, i.Plain) {gap signs : List Char} (blank' : ∀ c ∈ gap, isBlank c = true)
    (ended : signs = [] ∧ gap = [] ∨ signs = [';']) :
    Imports.ofText (String.ofList ("use".toList ++ (n.lead ++
      (Lexeme.render (n :: rest) ++ (gap ++ signs))))) =
      items.map fun i => (i.alias, i.name) := by
  have text := series.text spells_unrooted clean plain
  obtain ⟨_, _, same, begins⟩ := series.begins spells_unrooted clean plain
  cases same
  have unannounced {w : String} (announces : w ∈ ["function", "const"]) :
      Imports.afterWord? w (Lexeme.render (n :: rest)) = none :=
    unannounced other begins.name (.inl rfl) begins.parts begins.ends announces
  have first : ∀ c ∈ (Lexeme.render (n :: rest)).head?, isBlank c = false := by
    intro c head
    rw [Lexeme.render, List.head?_append_of_ne_nil _ begins.filled] at head
    exact isBlank_of_isPathPart (begins.parts c (List.mem_of_mem_head? head))
  have last : ∀ c ∈ (Lexeme.render (n :: rest)).getLast?, isBlank c = false ∧ c ≠ ';' := by
    intro c ending
    refine ⟨isBlank_of_isPathPart (text.last c ending), ?_⟩
    rintro rfl
    exact absurd (text.last _ ending) (by decide)
  have body := Imports.bodyOf_text text.filled blank apart blank' ended first last
    (unannounced (by simp)) (unannounced (by simp))
  refine Imports.ofText_of_items (body ▸ Imports.itemsOf_of_braceless text.braceless) ?_
  have outer : Imports.completed "" = id := rfl
  simpa [outer] using text.read [] [] (by simp) (by simp)

/-- A comma behind the last item of a group adds none. -/
theorem read_behind {outer : String → String} {cs gap gap' : List Char} {trail : List Lexeme}
    (text : ItemsText outer items cs) (clean : Clean trail)
    (commas : ∀ comma ∈ trail, comma.isSymbol "," = true) (one : trail.length ≤ 1)
    (blank : ∀ c ∈ gap, isBlank c = true) (blank' : ∀ c ∈ gap', isBlank c = true) :
    (Imports.readItems (gap ++ cs ++ (Lexeme.trailing trail ++ gap'))).map (Prod.map outer id) =
      items.map fun i => (i.name, i.short) := by
  match trail with
  | [] => exact text.read gap gap' blank blank'
  | [comma] =>
    obtain ⟨kind, sign⟩ := kind_of_isSymbol (commas comma (by simp))
    have before := clean.blank comma (by simp) (by rw [kind]; decide)
    have whole : gap ++ cs ++ (Lexeme.trailing [comma] ++ gap') =
        gap ++ cs ++ comma.lead ++ ',' :: gap' := by
      simp [Lexeme.trailing, sign]
    rw [whole, Imports.readItems_append_cons, Imports.readItems_blank blank', List.append_nil,
      text.read gap comma.lead blank before]
  | _ :: _ :: _ => simp at one

/-- The namespace of a group is read without the backslashes around it. -/
theorem trim_space {root path gap : List Char} (rooted : root = [] ∨ root = ['\\'])
    (qualified : IsQualified path) (blank : ∀ c ∈ gap, isBlank c = true) :
    trimChar '\\' (trim (String.ofList (root ++ path ++ '\\' :: gap))) = String.ofList path := by
  obtain ⟨c, rest, front, head⟩ := qualified.exists_cons
  have first : ∀ d ∈ (root ++ path ++ ['\\']).head?, isBlank d = false := by
    intro d first
    rcases rooted with rfl | rfl
    · rw [List.nil_append, List.head?_append_of_ne_nil _ (by simp [front])] at first
      exact isBlank_of_isPathPart (qualified.isPathPart d (List.mem_of_mem_head? first))
    · cases first
      decide
  have trimmed : trimBy isBlank (root ++ path ++ '\\' :: gap) = root ++ path ++ ['\\'] := by
    have last : ∀ d ∈ (root ++ path ++ ['\\']).getLast?, isBlank d = false := by
      rintro d last
      rw [List.getLast?_concat] at last
      cases last
      decide
    simpa using trimBy_between (List.forall_mem_nil _) blank first last
  have unslashed : ∀ d ∈ path.head?, (d == '\\') = false := by
    intro d first
    rw [front] at first
    cases first
    rw [beq_eq_false_iff_ne]
    rintro rfl
    cases head
  rw [trim, String.toList_ofList, trimmed, trimChar, String.toList_ofList,
    trimBy_between (by rcases rooted with rfl | rfl <;> simp) (by simp) unslashed
      (fun d last => beq_eq_false_iff_ne.mpr (qualified.getLast?_ne d last))]

/-- The namespace in front of plain names is a qualified name itself. -/
theorem Series.isQualified_space {space : String} {body : List Lexeme}
    (series : Series (ItemForm ((space ++ "\\") ++ ·)) items body) (plain : ∀ i ∈ items, i.Plain) :
    IsQualified space.toList := by
  obtain ⟨i, member, _, form⟩ := series.exists_mem
  have name := (plain i member).name
  cases form with
  | @named n short read =>
    have parts : (space ++ "\\" ++ n.string).toList = space.toList ++ '\\' :: n.text := by
      simp [Lexeme.string]
    rw [parts, IsQualified.append_iff] at name
    exact name.1

/-- The items of a group are read from what stands between its braces. -/
theorem ListedUntil.text {space : String} {read : List Lexeme}
    (listed : ListedUntil "\x7d" (ItemForm ((space ++ "\\") ++ ·)) items read) (clean : Clean read)
    (plain : ∀ i ∈ items, i.Plain) :
    IsQualified space.toList ∧ ∃ cs, Lexeme.trailing read = cs ++ ['\x7d'] ∧
      (Imports.readItems cs).map (Prod.map ((space ++ "\\") ++ ·) id) =
        items.map fun i => (i.name, i.short) := by
  obtain ⟨body, trail, l, series, commas, one, closes, rfl⟩ := listed.parts
  obtain ⟨kind, closing⟩ := kind_of_isSymbol closes
  have inner : Clean body := clean.within (List.prefix_append _ _).isInfix
  have trailing : Clean trail := clean.within ⟨body, [l], by simp⟩
  have behind := clean.blank l (by simp) (by rw [kind]; decide)
  have text := series.text (spells_below space) inner plain
  refine ⟨series.isQualified_space plain, ?_⟩
  obtain ⟨m, more, rfl, begins⟩ := series.begins (spells_below space) inner plain
  have lead := clean.blank m (by simp) (by rw [begins.name]; decide)
  refine ⟨m.lead ++ Lexeme.render (m :: more) ++ (Lexeme.trailing trail ++ l.lead), ?_,
    read_behind text trailing commas one lead behind⟩
  simp [Lexeme.render, Lexeme.trailing, closing]

/-- The body of an import with a group is its namespace and the group. -/
theorem bodyOf_group {before gap signs : List Char} (inside : List Char)
    (blank : ∀ c ∈ n.lead, isBlank c = true) (apart : n.lead ≠ [])
    (other : n.word ∉ ["function", "const"]) (kind : n.kind = .name) (filled : n.text ≠ [])
    (parts : ∀ c ∈ n.text, Imports.isPathPart c = true)
    (before' : ∀ c ∈ before, isBlank c = true) (blank' : ∀ c ∈ gap, isBlank c = true)
    (ended : signs = [] ∧ gap = [] ∨ signs = [';']) :
    Imports.bodyOf (String.ofList ("use".toList ++ (n.lead ++
      ((n.text ++ '\\' :: before ++ '\x7b' :: (inside ++ ['\x7d'])) ++ (gap ++ signs))))) =
      String.ofList (n.text ++ '\\' :: before ++ '\x7b' :: (inside ++ ['\x7d'])) := by
  have ends : ∀ c ∈ (before ++ '\x7b' :: (inside ++ ['\x7d'])).head?,
      Imports.isPathPart c = false := by
    intro c head
    rw [List.head?_append] at head
    rcases Option.or_eq_some_iff.mp head with gap | ⟨-, sign⟩
    · exact isPathPart_of_isBlank (before' c (List.mem_of_mem_head? gap))
    · cases sign
      decide
  have unannounced {w : String} (announces : w ∈ ["function", "const"]) :
      Imports.afterWord? w
        (n.text ++ '\\' :: before ++ '\x7b' :: (inside ++ ['\x7d'])) = none := by
    simpa using unannounced other kind (.inr rfl) parts ends announces
  refine Imports.bodyOf_text (by simp) blank apart blank' ended ?first ?last
    (unannounced (by simp)) (unannounced (by simp))
  case first =>
    intro c head
    rw [List.append_assoc, List.head?_append_of_ne_nil _ filled] at head
    exact isBlank_of_isPathPart (parts c (List.mem_of_mem_head? head))
  case last =>
    intro c last
    rw [← List.cons_append, ← List.append_assoc, List.getLast?_concat] at last
    cases last
    decide

theorem ofText_of_group {separator brace : Lexeme} {read : List Lexeme}
    (blank : ∀ c ∈ n.lead, isBlank c = true) (apart : n.lead ≠ [])
    (other : n.word ∉ ["function", "const"]) (name : n.kind = .name)
    (separates : separator.isSymbol "\\" = true) (close : separator.lead = [])
    (opens : brace.isSymbol "\x7b" = true)
    (listed : ListedUntil "\x7d" (ItemForm ((Parse.unrooted n.string ++ "\\") ++ ·)) items read)
    (clean : Clean (n :: separator :: brace :: read)) (plain : ∀ i ∈ items, i.Plain)
    {gap signs : List Char} (blank' : ∀ c ∈ gap, isBlank c = true)
    (ended : signs = [] ∧ gap = [] ∨ signs = [';']) :
    Imports.ofText (String.ofList ("use".toList ++ (n.lead ++
      (Lexeme.render (n :: separator :: brace :: read) ++ (gap ++ signs))))) =
      items.map fun i => (i.alias, i.name) := by
  obtain ⟨-, slash⟩ := kind_of_isSymbol separates
  obtain ⟨kind, opening⟩ := kind_of_isSymbol opens
  have before := clean.blank brace (by simp) (by rw [kind]; decide)
  obtain ⟨qualified, inside, trailing, names⟩ :=
    listed.text (clean.within ⟨[n, separator, brace], [], by simp⟩) plain
  -- The namespace of the group, as it is written and as it is read.
  obtain ⟨root, path, rooted, spelled, qualified, same⟩ := spells_unrooted n.text qualified
  have same : Parse.unrooted n.string = String.ofList path := same
  obtain ⟨c, rest, front, -⟩ := qualified.exists_cons
  have filled : n.text ≠ [] := by simp [spelled, front]
  have parts : ∀ c ∈ n.text, Imports.isPathPart c = true :=
    spelled ▸ qualified.isPathPart_rooted rooted
  have whole : Lexeme.render (n :: separator :: brace :: read) =
      n.text ++ '\\' :: brace.lead ++ '\x7b' :: (inside ++ ['\x7d']) := by
    rw [← trailing]
    simp [Lexeme.render, Lexeme.trailing, close, slash, opening]
  have body := bodyOf_group inside blank apart other name filled parts before blank' ended
  have braceless : '\x7b' ∉ n.text ++ '\\' :: brace.lead := by
    simp only [List.mem_append, List.mem_cons, not_or]
    exact ⟨not_mem_of_parts (by decide) parts, by decide, not_mem_of_blank (by decide) before⟩
  have space : trimChar '\\' (trim (String.ofList (n.text ++ '\\' :: brace.lead))) =
      String.ofList path := by
    rw [spelled]
    exact trim_space rooted qualified before
  have outer : ((Parse.unrooted n.string ++ "\\") ++ ·) =
      Imports.completed (String.ofList path) := by
    funext below
    simp [same, Imports.completed, front]
  rw [whole]
  rw [outer] at names
  refine Imports.ofText_of_items (body ▸ ?_) names
  rw [Imports.itemsOf_group braceless, space]

/-- An import of classes in this layout is read again as it was parsed. -/
theorem ofText_of_written {text : String} (written : Written text items)
    (layout : PlainLayout text) (plain : ∀ i ∈ items, i.Plain) :
    Imports.ofText text = items.map fun i => (i.alias, i.name) := by
  cases written with
  | @lexemes _ use read ending word form semicolons one chain =>
    have clean := layout.clean chain
    have own := layout.text_eq word
    have front : Clean read := clean.within (List.prefix_append _ _).isInfix
    have back : Clean ending := clean.within (List.suffix_append _ _).isInfix
    obtain ⟨gap, signs, end', blank', ended⟩ := trailing_ending back semicolons one
    have kind : use.kind = .name := (kind_of_word word (by decide)).1
    -- The first lexeme behind the word is a name in either form.
    obtain ⟨n, rest, rfl, name⟩ : ∃ n rest, read = n :: rest ∧ n.kind = .name := by
      cases form with
      | items _ series =>
        obtain ⟨n, rest, same, begins⟩ := series.begins spells_unrooted front plain
        exact ⟨n, rest, same, begins.name⟩
      | group _ name _ _ _ => exact ⟨_, _, rfl, name⟩
    have apart : n.lead ≠ [] := (List.isChain_cons_cons.mp chain).1.apart kind name
    have blank := front.blank n List.mem_cons_self (by rw [name]; decide)
    have whole : Lexeme.render (use :: (n :: rest ++ ending)) =
        "use".toList ++ (n.lead ++ (Lexeme.render (n :: rest) ++ (gap ++ signs))) := by
      rw [← own, ← end']
      simp [Lexeme.render, Lexeme.trailing]
    rw [whole]
    cases form with
    | items other series =>
      exact ofText_of_series blank apart other series front plain blank' ended
    | @group _ separator brace read other name separates opens listed =>
      have close : separator.lead = [] := layout.lead_eq_nil clean separates opens
      exact ofText_of_group blank apart other name separates close opens listed front plain
        blank' ended

end

/-! ## The aliases of a source -/

/-- The entry that is found under a key, when each of some values tells its key and what stands
there. -/
theorem find?_entries {α : Type} (key value : α → String) (k : String) (as : List α) :
    OrderedMap.find? k (as.map fun a => (key a, value a)) =
      (as.find? fun a => key a = k).map value := by
  induction as with
  | nil => rfl
  | cons a as ih =>
    by_cases same : key a = k
    · simp [OrderedMap.find?, same]
    · simp [OrderedMap.find?, same, ih]

namespace SourceTree

/-- The imports of a source with their texts, in the order in which they stand there. -/
def imports (tree : SourceTree) : List (String × List Import) :=
  tree.declarations.filterMap fun | .imports text items => some (text, items) | _ => none

def imported (tree : SourceTree) : List Import := tree.imports.flatMap Prod.snd

theorem mem_imports {tree : SourceTree} {text : String} {items : List Import} :
    (text, items) ∈ tree.imports ↔ .imports text items ∈ tree.declarations := by
  rw [imports, List.mem_filterMap]
  constructor
  · rintro ⟨d, member, told⟩
    split at told
    · cases told
      exact member
    · cases told
  · exact fun member => ⟨_, member, rfl⟩

/-- The aliases of a source are read from the texts of its imports. -/
theorem aliases_eq_ofList (tree : SourceTree) :
    tree.aliases = .ofList (tree.imports.flatMap fun own => Imports.ofText own.1) := by
  rw [aliases, imports]
  congr 1
  induction tree.declarations with
  | nil => rfl
  | cons d ds ih => cases d <;> simpa using ih

theorem aliases_of_imported {source : String} {tree : SourceTree}
    (parsed : ofText source = .ok tree) (layout : ∀ own ∈ tree.imports, PlainLayout own.1)
    (plain : ∀ i ∈ tree.imported, i.Plain) :
    tree.aliases = .ofList (tree.imported.map fun i => (i.alias, i.name)) := by
  have read : ∀ own ∈ tree.imports, Imports.ofText own.1 =
      own.2.map fun i => (i.alias, i.name) := by
    rintro ⟨text, items⟩ member
    have all : ∀ i ∈ items, i.Plain := fun i inner =>
      plain i (List.mem_flatMap.mpr ⟨_, member, inner⟩)
    have written := written_of_mem_declarations parsed (mem_imports.mp member) fun i inner =>
      (all i inner).isClass
    exact ofText_of_written written (layout _ member) all
  rw [aliases_eq_ofList, imported, List.map_flatMap, List.flatMap_congr read]

/-- The name that stands under an alias is that of the last import with this alias, and there is
none when no import has it. -/
theorem get?_aliases {source : String} {tree : SourceTree} (parsed : ofText source = .ok tree)
    (layout : ∀ own ∈ tree.imports, PlainLayout own.1) (plain : ∀ i ∈ tree.imported, i.Plain)
    (short : String) : tree.aliases.get? short =
      (tree.imported.reverse.find? fun i => i.alias = short).map Import.name := by
  have absent : (OrderedMap.empty : OrderedMap String String).get? short = none := rfl
  rw [aliases_of_imported parsed layout plain, OrderedMap.ofList, OrderedMap.get?_insertAll, absent,
    Option.or_none, ← List.map_reverse, find?_entries]

def groupedImports : String := "<?php use \\App\\\x7bUser, Post AS P,\x7d; use Lib\\P ;"

theorem groupedImports_aliases : ∃ tree, ofText groupedImports = .ok tree ∧
    tree.aliases.get? "P" = some "Lib\\P" ∧ tree.aliases.get? "Post" = none := by
  obtain ⟨tree, parsed, read⟩ := exists_ok_of_any
    (show ((ofText groupedImports).toOption.any fun tree =>
      tree.imports = [("use \\App\\\x7bUser, Post AS P,\x7d;",
          [⟨true, "App\\User", none⟩, ⟨true, "App\\Post", some "P"⟩]),
        ("use Lib\\P ;", [⟨true, "Lib\\P", none⟩])]) = true by decide +kernel)
  have read := of_decide_eq_true read
  have layout : ∀ own ∈ tree.imports, PlainLayout own.1 := by
    rw [read]
    decide +kernel
  have plain : ∀ i ∈ tree.imported, i.Plain := by
    rw [imported, read]
    decide +kernel
  refine ⟨tree, parsed, ?_, ?_⟩
  · rw [get?_aliases parsed layout plain, imported, read]
    decide +kernel
  · rw [get?_aliases parsed layout plain, imported, read]
    decide +kernel

/-- An import whose word is in capitals gives no alias. -/
theorem capitals_unread : ∃ tree, ofText "<?php USE App\\Status;" = .ok tree ∧
    (∀ i ∈ tree.imported, i.Plain) ∧ tree.aliases.get? "Status" ≠
      (tree.imported.reverse.find? fun i => i.alias = "Status").map Import.name := by
  obtain ⟨tree, parsed, read⟩ := exists_ok_of_any
    (show ((ofText "<?php USE App\\Status;").toOption.any fun tree =>
      tree.imports = [("USE App\\Status;", [⟨true, "App\\Status", none⟩])]) = true
      by decide +kernel)
  have read := of_decide_eq_true read
  refine ⟨tree, parsed, ?_, ?_⟩
  · rw [imported, read]
    decide +kernel
  · rw [aliases_eq_ofList, imported, read]
    decide +kernel

end SourceTree

end RequestSchema.Source
