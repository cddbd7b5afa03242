import RequestSchema.Proofs.Source.Lexemes
import RequestSchema.Source.Grammar.Statement

/-!
What the parser of an import has read. A parser that succeeds is told by its result, the lexemes
that it has read and those that are left; an import as a whole by the form of its lexemes.
-/
namespace RequestSchema.Source

/-! ## Words and signs -/

theorem kind_of_word {l : Lexeme} {w : String} (word : l.word = w) (filled : w ≠ "") :
    l.kind = .name ∧ Text.lowerFrom [] l.text = w.toList := by
  rw [Lexeme.word] at word
  split at word
  · rename_i name
    rw [← word, Text.lower, String.toList_ofList, Lexeme.string, String.toList_ofList]
    exact ⟨name, rfl⟩
  · exact absurd word.symm filled

theorem kind_of_isSymbol {l : Lexeme} {sign : String} (symbol : l.isSymbol sign = true) :
    l.kind = .symbol ∧ l.text = sign.toList := by
  simpa [Lexeme.isSymbol] using symbol

/-! ## Parsers -/

/-- What a parser has read when it succeeds: its result, the lexemes read and those left stand in a
relation. -/
def Reads {α : Type} (p : Parse α) (told : α → List Lexeme → List Lexeme → Prop) : Prop :=
  ∀ c a c', p.run c = .ok (a, c') → ∃ read, c.rest = read ++ c'.rest ∧ told a read c'.rest

/-- A parser that looks at lexemes and reads none. -/
def Looks {α : Type} (p : Parse α) (told : α → List Lexeme → Prop) : Prop :=
  Reads p fun a read rest => read = [] ∧ told a rest

variable {α β : Type} {p : Parse α} {told : α → List Lexeme → List Lexeme → Prop}

theorem Parse.bind_run_ok {f : α → Parse β} {c c' : Cursor} {b : β}
    (run : (p >>= f).run c = .ok (b, c')) :
    ∃ a c₁, p.run c = .ok (a, c₁) ∧ (f a).run c₁ = .ok (b, c') := by
  rw [StateT.run_bind] at run
  cases first : p.run c with
  | error fault => rw [first] at run; cases run
  | ok result => rw [first] at run; exact ⟨result.1, result.2, rfl, run⟩

/-! ## Parsers in sequence -/

theorem Reads.imp {told' : α → List Lexeme → List Lexeme → Prop} (reads : Reads p told)
    (imp : ∀ a read rest, told a read rest → told' a read rest) : Reads p told' := by
  intro c a c' run
  obtain ⟨read, left, holds⟩ := reads c a c' run
  exact ⟨read, left, imp _ _ _ holds⟩

theorem Reads.bind {f : α → Parse β} {told' : β → List Lexeme → List Lexeme → Prop}
    (first : Reads p told) (second : ∀ a, Reads (f a) fun b back rest =>
      ∀ front, told a front (back ++ rest) → told' b (front ++ back) rest) :
    Reads (p >>= f) told' := by
  intro c b c' run
  obtain ⟨a, c₁, ran, run⟩ := Parse.bind_run_ok run
  obtain ⟨front, left, holds⟩ := first c a c₁ ran
  obtain ⟨back, left', holds'⟩ := second a c₁ b c' run
  exact ⟨front ++ back, by rw [left, left', List.append_assoc], holds' front (left' ▸ holds)⟩

/-- A parser behind one that reads nothing. -/
theorem Looks.bind {f : α → Parse β} {sees : α → List Lexeme → Prop}
    {told' : β → List Lexeme → List Lexeme → Prop} (first : Looks p sees)
    (second : ∀ a, Reads (f a) fun b read rest => sees a (read ++ rest) → told' b read rest) :
    Reads (p >>= f) told' :=
  Reads.bind first fun a => (second a).imp fun _ _ _ holds _ ⟨nothing, seen⟩ => by
    rw [nothing]
    exact holds seen

theorem reads_pure {a : α} (holds : ∀ rest, told a [] rest) : Reads (pure a) told := by
  intro c b c' run
  cases run
  exact ⟨[], rfl, holds c.rest⟩

theorem reads_fail : Reads (Parse.fail : Parse α) told := by
  intro c a c' run
  cases run

theorem reads_ite {q : Parse α} {b : Prop} [Decidable b] (left : b → Reads p told)
    (right : ¬ b → Reads q told) : Reads (if b then p else q) told := by
  split
  · exact left ‹_›
  · exact right ‹_›

namespace Parse

/-! ## Single lexemes -/

theorem looks_peek : Looks peek fun l rest => l = rest.headD endOfSource := by
  intro c a c' run
  cases run
  exact ⟨[], rfl, rfl, rfl⟩

theorem looks_rest : Looks rest fun ls left => ls = left := by
  intro c a c' run
  cases run
  exact ⟨[], rfl, rfl, rfl⟩

theorem reads_advance : Reads advance fun l read _ => read = [l] ∧ l.kind ≠ .done := by
  intro c a c' run
  unfold advance at run
  obtain ⟨c₁, _, got, run⟩ := bind_run_ok run
  cases got
  split at run
  · cases run
  · rename_i l ls left
    split at run
    · cases run
    · rename_i kind
      cases run
      exact ⟨[a], left, rfl, kind⟩

theorem looks_atSign (s : String) :
    Looks (atSign s) fun found rest => found = (rest.headD endOfSource).isSymbol s :=
  looks_peek.bind fun _ => reads_pure fun _ seen => ⟨rfl, by rw [seen, List.nil_append]⟩

theorem looks_atWord (words : List String) :
    Looks (atWord words) fun found rest => found = words.contains (rest.headD endOfSource).word :=
  looks_peek.bind fun _ => reads_pure fun _ seen => ⟨rfl, by rw [seen, List.nil_append]⟩

theorem reads_sign? (s : String) : Reads (sign? s) fun found read rest =>
    if found then ∃ l, read = [l] ∧ l.isSymbol s = true
    else read = [] ∧ (rest.headD endOfSource).isSymbol s = false := by
  refine (looks_atSign s).bind fun found => reads_ite (fun yes => ?_) fun no => ?_
  · refine reads_advance.bind fun l => reads_pure ?_
    rintro rest _ ⟨rfl, -⟩ seen
    exact ⟨l, rfl, by simpa [yes] using seen.symm⟩
  · refine reads_pure fun rest seen => ⟨rfl, ?_⟩
    simpa [no] using seen.symm

theorem reads_sign (s : String) :
    Reads (sign s) fun _ read _ => ∃ l, read = [l] ∧ l.isSymbol s = true := by
  refine (reads_sign? s).bind fun found => reads_ite (fun _ => reads_fail) fun yes => ?_
  refine reads_pure fun rest front holds => ?_
  simpa [show found = true by simpa using yes] using holds

theorem reads_word? (w : String) : Reads (word? w) fun found read rest =>
    if found then ∃ l, read = [l] ∧ l.word = w
    else read = [] ∧ (rest.headD endOfSource).word ≠ w := by
  refine (looks_atWord [w]).bind fun found => reads_ite (fun yes => ?_) fun no => ?_
  · refine reads_advance.bind fun l => reads_pure ?_
    rintro rest _ ⟨rfl, -⟩ seen
    exact ⟨l, rfl, by simpa [yes] using seen.symm⟩
  · refine reads_pure fun rest seen => ⟨rfl, ?_⟩
    simpa [no] using seen.symm

theorem reads_word (w : String) : Reads (word w) fun _ read _ => ∃ l, read = [l] ∧ l.word = w := by
  refine (reads_word? w).bind fun found => reads_ite (fun _ => reads_fail) fun yes => ?_
  refine reads_pure fun rest front holds => ?_
  simpa [show found = true by simpa using yes] using holds

theorem reads_ofKind (kind : LexemeKind) :
    Reads (ofKind kind) fun l read _ => read = [l] ∧ l.kind = kind := by
  refine looks_peek.bind fun next => reads_ite (fun yes => reads_advance.imp ?_) fun _ => reads_fail
  rintro l _ rest ⟨rfl, -⟩ rfl
  exact ⟨rfl, yes⟩

/-! ## Series -/

end Parse

/-- What a parser that is repeated until it gives none has read. -/
inductive Repeats {α : Type} (told : Option α → List Lexeme → List Lexeme → Prop) :
    List α → List Lexeme → List Lexeme → Prop where
  | last {read rest : List Lexeme} : told none read rest → Repeats told [] read rest
  | step {a : α} {as : List α} {front back rest : List Lexeme} :
      told (some a) front (back ++ rest) → Repeats told as back rest →
      Repeats told (a :: as) (front ++ back) rest

/-- Items with commas between them. -/
inductive Series {α : Type} (item : α → List Lexeme → Prop) : List α → List Lexeme → Prop where
  | single {a : α} {read : List Lexeme} : item a read → Series item [a] read
  | more {a : α} {as : List α} {read rest : List Lexeme} {comma : Lexeme} : item a read →
      comma.isSymbol "," = true → Series item as rest →
      Series item (a :: as) (read ++ comma :: rest)

namespace Parse

/-- The steps of a repeated parser are enough when each of them reads a lexeme. -/
theorem repeats_of_repeated {p : Parse (Option α)}
    {told : Option α → List Lexeme → List Lexeme → Prop} (reads : Reads p told)
    (proper : ∀ a read rest, told (some a) read rest → read ≠ []) {steps : Nat} {c c' : Cursor}
    {as : List α} (enough : c.rest.length < steps)
    (run : (repeated p steps).run c = .ok (as, c')) :
    ∃ read, c.rest = read ++ c'.rest ∧ Repeats told as read c'.rest := by
  induction steps generalizing c as with
  | zero => omega
  | succ steps ih =>
    unfold repeated at run
    obtain ⟨a, c₁, ran, run⟩ := bind_run_ok run
    obtain ⟨front, left, holds⟩ := reads c a c₁ ran
    cases a with
    | none =>
      cases run
      exact ⟨front, left, .last holds⟩
    | some a =>
      obtain ⟨as', c₂, ran, run⟩ := bind_run_ok run
      cases run
      have shorter : c₁.rest.length < steps := by
        have := List.length_pos_of_ne_nil (proper a front _ holds)
        rw [left, List.length_append] at enough
        omega
      obtain ⟨back, left', others⟩ := ih shorter ran
      exact ⟨front ++ back, by rw [left, left', List.append_assoc], .step (left' ▸ holds) others⟩

theorem reads_many {p : Parse (Option α)} {told : Option α → List Lexeme → List Lexeme → Prop}
    (reads : Reads p told) (proper : ∀ a read rest, told (some a) read rest → read ≠ []) :
    Reads (many p) (Repeats told) := by
  intro c as c' run
  unfold many at run
  obtain ⟨ls, c₁, looked, run⟩ := bind_run_ok run
  cases looked
  exact repeats_of_repeated reads proper (Nat.lt_succ_self _) run

end Parse

theorem Series.imp {α : Type} {item item' : α → List Lexeme → Prop} {as : List α}
    {read : List Lexeme} (series : Series item as read)
    (imp : ∀ a ∈ as, ∀ read, item a read → item' a read) : Series item' as read := by
  induction series with
  | single holds => exact .single (imp _ (by simp) _ holds)
  | more holds sign _ ih =>
    exact .more (imp _ (by simp) _ holds) sign (ih fun a member => imp a (by simp [member]))

theorem Series.exists_mem {α : Type} {item : α → List Lexeme → Prop} {as : List α}
    {read : List Lexeme} (series : Series item as read) : ∃ a ∈ as, ∃ read, item a read := by
  cases series with
  | single holds => exact ⟨_, by simp, _, holds⟩
  | more holds _ _ => exact ⟨_, by simp, _, holds⟩

/-- What one step of further items has read: a comma and an item, or nothing. -/
def CommaStep {α : Type} (item : α → List Lexeme → Prop) :
    Option α → List Lexeme → List Lexeme → Prop
  | none, read, _ => read = []
  | some a, read, _ => ∃ comma back, read = comma :: back ∧ comma.isSymbol "," = true ∧ item a back

theorem Repeats.series {α : Type} {item : α → List Lexeme → Prop} {a : α} {as : List α}
    {front read rest : List Lexeme} (first : item a front)
    (steps : Repeats (CommaStep item) as read rest) : Series item (a :: as) (front ++ read) := by
  induction steps generalizing a front with
  | last nothing =>
    obtain rfl : _ = [] := nothing
    simpa using .single first
  | step second _ ih =>
    obtain ⟨comma, back, rfl, sign, holds⟩ := second
    exact .more first sign (ih holds)

/-- What one step of a list up to a closing sign has read: the sign, or an item that does not begin
with it and has a comma behind it unless the sign comes next. -/
def ListStep {α : Type} (close : String) (item : α → List Lexeme → Prop) :
    Option α → List Lexeme → List Lexeme → Prop
  | none, read, _ => ∃ l, read = [l] ∧ l.isSymbol close = true
  | some a, read, rest => ((read ++ rest).headD Parse.endOfSource).isSymbol close = false ∧
      ∃ front, item a front ∧
        (read = front ∧ (rest.headD Parse.endOfSource).isSymbol close = true ∨
          ∃ comma, comma.isSymbol "," = true ∧ read = front ++ [comma])

/-- Items with commas between them and perhaps one behind the last, up to a closing sign. -/
structure ListedUntil {α : Type} (close : String) (item : α → List Lexeme → Prop) (as : List α)
    (read : List Lexeme) : Prop where
  parts : ∃ body trail l, Series item as body ∧ (∀ comma ∈ trail, comma.isSymbol "," = true) ∧
    trail.length ≤ 1 ∧ l.isSymbol close = true ∧ read = body ++ (trail ++ [l])

theorem Repeats.listedUntil {close : String} {item : α → List Lexeme → Prop} {as : List α}
    {read rest : List Lexeme} (steps : Repeats (ListStep close item) as read rest)
    (filled : as ≠ []) : ListedUntil close item as read := by
  induction steps with
  | last => exact absurd rfl filled
  | @step a as front back rest first others ih =>
    obtain ⟨-, body, holds, ⟨rfl, ended⟩ | ⟨comma, sign, rfl⟩⟩ := first
    · -- The closing sign comes next, so no other item does.
      cases others with
      | last closed =>
        obtain ⟨l, rfl, close⟩ := closed
        exact ⟨front, [], l, .single holds, by simp, by simp, close, by simp⟩
      | step second =>
        rw [List.append_assoc] at ended
        exact absurd (ended.symm.trans second.1) (by simp)
    · cases others with
      | last closed =>
        obtain ⟨l, rfl, close⟩ := closed
        exact ⟨body, [comma], l, .single holds, by simpa using sign, by simp, close, by simp⟩
      | step second others =>
        obtain ⟨body', trail, l, series, commas, one, close, whole⟩ := (ih (by simp)).parts
        exact ⟨body ++ comma :: body', trail, l, .more holds sign series, commas, one, close,
          by rw [whole]; simp⟩

namespace Parse

theorem reads_listUntil {item : Parse α} {told : α → List Lexeme → Prop} (close : String)
    (reads : Reads item fun a read _ => told a read) (proper : ∀ a read, told a read → read ≠ []) :
    Reads (listUntil close item) fun as read _ => as ≠ [] → ListedUntil close told as read := by
  refine (@reads_many _ _ (ListStep close told) ?_ ?_).imp ?_
  · refine (reads_sign? close).bind fun found => reads_ite (fun yes => ?_) fun no => ?_
    · refine reads_pure fun rest front holds => ?_
      simpa [yes, ListStep] using holds
    · refine reads.bind fun a => (looks_atSign close).bind fun ended => ?_
      refine reads_ite (fun _ => (reads_sign ",").bind fun _ => reads_pure ?_) fun last =>
        reads_pure ?_
      · rintro rest read ⟨comma, rfl, sign⟩ - front holds opening unclosed
        obtain ⟨rfl, other⟩ : opening = [] ∧ _ := by simpa [no] using unclosed
        exact ⟨by simpa using other, front, holds, .inr ⟨comma, sign, by simp⟩⟩
      · intro rest seen front holds opening unclosed
        obtain ⟨rfl, other⟩ : opening = [] ∧ _ := by simpa [no] using unclosed
        refine ⟨by simpa using other, front, holds, .inl ⟨by simp, ?_⟩⟩
        simpa [show ended = true by simpa using last] using seen.symm
  · rintro a read rest ⟨-, front, holds, ⟨rfl, -⟩ | ⟨comma, -, rfl⟩⟩
    · exact proper a read holds
    · simp
  · exact fun as read rest steps filled => steps.listedUntil filled

end Parse

/-! ## Imports of classes -/

/-- The alias behind an imported name. -/
inductive AliasForm : Option String → List Lexeme → Prop where
  | absent : AliasForm none []
  | given {w n : Lexeme} : w.word = "as" → n.kind = .name → AliasForm (some n.string) [w, n]

/-- The name of a class, from which its full name follows, and its alias. -/
inductive ItemForm (full : String → String) : Import → List Lexeme → Prop where
  | named {n : Lexeme} {short : Option String} {read : List Lexeme} : n.kind = .name →
      AliasForm short read → ItemForm full ⟨true, full n.string, short⟩ (n :: read)

/-- What stands behind the word of an import: items, or a namespace and a group of items in braces.
A function or a constant would be announced by a word in front. -/
inductive ImportForm : List Import → List Lexeme → Prop where
  | items {items : List Import} {n : Lexeme} {read : List Lexeme} :
      n.word ∉ ["function", "const"] → Series (ItemForm Parse.unrooted) items (n :: read) →
      ImportForm items (n :: read)
  | group {items : List Import} {n separator brace : Lexeme} {read : List Lexeme} :
      n.word ∉ ["function", "const"] → n.kind = .name → separator.isSymbol "\\" = true →
      brace.isSymbol "\x7b" = true →
      ListedUntil "\x7d" (ItemForm ((Parse.unrooted n.string ++ "\\") ++ ·)) items read →
      ImportForm items (n :: separator :: brace :: read)

namespace Parse

theorem reads_importsClasses : Reads importsClasses fun classes read rest => classes = true →
    read = [] ∧ (rest.headD endOfSource).word ∉ ["function", "const"] := by
  refine (reads_word? _).bind fun function => (reads_word? _).bind fun const => reads_pure ?_
  intro rest front holds front' holds' classes
  obtain ⟨rfl, rfl⟩ : function = false ∧ const = false := by simpa using classes
  obtain ⟨rfl, other⟩ := holds
  obtain ⟨rfl, other'⟩ := holds'
  simpa using And.intro other' other

theorem reads_importAlias? : Reads importAlias? fun short read _ => AliasForm short read := by
  refine (reads_word? _).bind fun found => reads_ite (fun yes => ?_) fun no => ?_
  · refine (reads_ofKind _).bind fun n => reads_pure ?_
    rintro rest _ ⟨rfl, name⟩ front holds
    obtain ⟨w, rfl, word⟩ : ∃ l, front = [l] ∧ l.word = "as" := by simpa [yes] using holds
    exact .given word name
  · refine reads_pure fun rest front holds => ?_
    obtain ⟨rfl, -⟩ : front = [] ∧ _ := by simpa [no] using holds
    exact .absent

theorem reads_importItem (isClass : Bool) (space : String) :
    Reads (importItem isClass space) fun i read _ =>
      read ≠ [] ∧ (i.isClass = true → isClass = true ∧ ItemForm (space ++ ·) i read) := by
  refine reads_importsClasses.bind fun classes => (reads_ofKind _).bind fun n =>
    reads_importAlias?.bind fun short => reads_pure ?_
  rintro rest read form _ ⟨rfl, name⟩ front holds
  refine ⟨by simp, fun both => ?_⟩
  obtain ⟨rfl, rfl⟩ : classes = true ∧ isClass = true := by simpa using both
  obtain ⟨rfl, -⟩ := holds rfl
  exact ⟨rfl, by simpa using .named name form⟩

theorem reads_importItems : Reads importItems fun items read _ =>
    (∀ i ∈ items, i.isClass = true) → ImportForm items read := by
  refine reads_importsClasses.bind fun classes => (reads_ofKind _).bind fun n =>
    (reads_sign? _).bind fun grouped => reads_ite (fun yes => ?_) fun no => ?_
  · refine (reads_sign _).bind fun _ => (reads_listUntil _ (reads_importItem _ _)
      fun _ _ => And.left).bind fun items => reads_ite (fun _ => reads_fail) fun filled =>
      reads_pure ?_
    rintro rest read listed _ ⟨brace, rfl, opened⟩ front holds _ ⟨rfl, name⟩ before leads all
    obtain ⟨separator, rfl, sign⟩ : ∃ l, front = [l] ∧ l.isSymbol "\\" = true := by
      simpa [yes] using holds
    obtain ⟨body, trail, l, series, commas, one, closed, whole⟩ :=
      (listed (by simpa using filled)).parts
    obtain ⟨i, member, _, -, classes⟩ := series.exists_mem
    obtain ⟨rfl, -⟩ := classes (all i member)
    obtain ⟨rfl, other⟩ := leads rfl
    have series := series.imp fun i member read holds => (holds.2 (all i member)).2
    simpa using .group other name sign opened ⟨body, trail, l, series, commas, one, closed, whole⟩
  · refine reads_importAlias?.bind fun short => (@reads_many _ _ (CommaStep fun i read =>
      i.isClass = true → classes = true ∧ ItemForm unrooted i read) ?_ ?_).bind fun others =>
      reads_pure ?_
    · refine (reads_sign? _).bind fun found => reads_ite (fun yes => ?_) fun no => ?_
      · refine (reads_importItem _ _).bind fun next => reads_pure ?_
        rintro rest read ⟨-, holds⟩ front seen
        obtain ⟨comma, rfl, sign⟩ : ∃ l, front = [l] ∧ l.isSymbol "," = true := by
          simpa [yes] using seen
        refine ⟨comma, read, by simp, sign, fun isClass => ?_⟩
        obtain ⟨rfl, form⟩ := holds isClass
        refine ⟨rfl, ?_⟩
        cases form with
        | named name form => simpa using ItemForm.named name form
      · refine reads_pure fun rest front holds => ?_
        obtain ⟨rfl, -⟩ : front = [] ∧ _ := by simpa [no] using holds
        rfl
    · rintro i read rest ⟨comma, back, rfl, -⟩
      simp
    · rintro rest read steps shortRead form front holds _ ⟨rfl, name⟩ before leads all
      obtain ⟨rfl, -⟩ : front = [] ∧ _ := by simpa [no] using holds
      obtain rfl : classes = true := all _ List.mem_cons_self
      obtain ⟨rfl, other⟩ := leads rfl
      have series := steps.series (fun _ => ⟨rfl, .named name form⟩)
      have series := series.imp fun i member read holds => (holds (all i member)).2
      simpa using .items other series

end Parse

/-- The text and the items of an import of classes as they stand in a source: the word in front,
what the import introduces, and perhaps the semicolon that ends it. -/
inductive Written : String → List Import → Prop where
  | lexemes {items : List Import} {use : Lexeme} {read ending : List Lexeme} : use.word = "use" →
      ImportForm items read → (∀ l ∈ ending, l.isSymbol ";" = true) → ending.length ≤ 1 →
      (use :: (read ++ ending)).IsChain Joined →
      Written (String.ofList (Lexeme.render (use :: (read ++ ending)))) items

namespace Parse

theorem looks_textSince (start : List Lexeme) : Looks (textSince start) fun text rest =>
    ∀ read, start = read ++ rest → text = String.ofList (Lexeme.render read) := by
  refine looks_rest.bind fun ls => reads_pure ?_
  rintro rest seen
  exact ⟨rfl, fun read whole => by simp [seen, whole]⟩

theorem reads_endStatement : Reads endStatement fun _ read _ =>
    ∃ l, read = [l] ∧ (l.kind = .page ∨ l.isSymbol ";" = true) := by
  refine looks_peek.bind fun next => reads_ite (fun page => ?_) fun _ => ?_
  · refine reads_advance.bind fun l => reads_pure ?_
    rintro rest _ ⟨rfl, -⟩ rfl
    exact ⟨_, rfl, .inl page⟩
  · refine (reads_sign ";").imp ?_
    rintro _ _ rest ⟨l, rfl, sign⟩ -
    exact ⟨l, rfl, .inr sign⟩

theorem declare_run_ok {d : α → Declaration} {c c' : Cursor} {a : α}
    (run : (declare p d).run c = .ok (a, c')) :
    ∃ c₁, p.run { c with declarations := [] } = .ok (a, c₁) ∧
      c' = { c₁ with declarations := c.declarations ++ d a :: c₁.declarations } := by
  unfold declare at run
  obtain ⟨_, _, got, run⟩ := bind_run_ok run
  cases got
  obtain ⟨_, _, set, run⟩ := bind_run_ok run
  cases set
  obtain ⟨a, c₁, ran, run⟩ := bind_run_ok run
  cases run
  exact ⟨c₁, ran, rfl⟩

/-- The text and the items of an import that begins at some lexemes. The text reaches up to the page
text that ends the import, or through the semicolon. -/
def importText (start : List Lexeme) : Parse (String × List Import) := do
  word "use"
  let items ← importItems
  let text ← textSince start
  let closed ← atSign ";"
  endStatement
  let whole ← textSince start
  return (if closed then whole else text, items)

theorem imports_eq : imports = (do
    let start ← rest
    let _ ← declare (importText start) fun (text, items) => .imports text items) := rfl

theorem reads_importText (start : List Lexeme) (chain : start.IsChain Joined) :
    Reads (importText start) fun (text, items) read rest =>
      start = read ++ rest → (∀ i ∈ items, i.isClass = true) → Written text items := by
  refine (reads_word "use").bind fun _ => reads_importItems.bind fun items =>
    (looks_textSince start).bind fun text => (looks_atSign ";").bind fun closed =>
    reads_endStatement.bind fun _ => (looks_textSince start).bind fun whole => reads_pure ?_
  rintro rest told _ ⟨l, rfl, ended⟩ seen told' read form _ ⟨use, rfl, word⟩ parts all
  cases closed with
  | true =>
    have sign : l.isSymbol ";" = true := by simpa using seen.symm
    have chain : (use :: (read ++ [l])).IsChain Joined :=
      chain.prefix ⟨rest, by rw [parts]; simp⟩
    rw [if_pos rfl, told (use :: (read ++ [l])) (by rw [parts]; simp)]
    exact .lexemes word (form all) (by simpa using sign) (by simp) chain
  | false =>
    have chain : (use :: (read ++ [])).IsChain Joined :=
      chain.prefix ⟨l :: rest, by rw [parts]; simp⟩
    rw [if_neg (by decide), told' (use :: (read ++ [])) (by rw [parts]; simp)]
    exact .lexemes word (form all) (by simp) (by simp) chain

end Parse
end RequestSchema.Source
