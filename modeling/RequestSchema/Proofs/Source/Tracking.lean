import Mathlib.Data.List.Forall2
import RequestSchema.Proofs.Source.Reading
import RequestSchema.Proofs.Source.Unlined

/-!
# Parsers on a stretch of lexemes that stands at two places

The same text may stand on other lines, behind other declarations and in front of other
lexemes. `Stretch` is such a text at two places. A parser tracks another one on it (`Tracks`)
when, whatever the first reads of the stretch at one place, the second reads of it at the other,
with a result that is alike.

What a parser has read is not all that it has looked at: most of them look at the next lexeme to
see that it does not belong to them. So each is given a number of lexemes which it needs of the
stretch behind those that it reads (`need`), and one that it reads at least (`least`). Behind a
parser that needs more than its successor, the successor has to read the difference
(`Tracks.bind`).
-/
namespace RequestSchema.Source

/-- A lexeme without its line. -/
def Lexeme.unlined (l : Lexeme) : Lexeme := { l with line := 0 }

/-- The lexemes differ at most in their lines. -/
def Lexeme.Alike (l l' : Lexeme) : Prop := l.unlined = l'.unlined

theorem Lexeme.Alike.eq_with_line {l l' : Lexeme} (alike : l.Alike l') :
    l' = { l with line := l'.line } := by
  obtain ⟨kind, lead, text, line⟩ := l
  obtain ⟨kind', lead', text', line'⟩ := l'
  simp only [Alike, unlined, mk.injEq, and_true] at alike
  obtain ⟨rfl, rfl, rfl⟩ := alike
  rfl

/-- The line of a lexeme is no part of its text. -/
theorem Lexeme.string_line (l : Lexeme) (line : Nat) :
    ({ l with line } : Lexeme).string = l.string :=
  rfl

theorem Lexeme.render_alike {ls ls' : List Lexeme} (alike : List.Forall₂ Lexeme.Alike ls ls') :
    Lexeme.render ls = Lexeme.render ls' := by
  have trailing {ls ls' : List Lexeme} (alike : List.Forall₂ Lexeme.Alike ls ls') :
      Lexeme.trailing ls = Lexeme.trailing ls' := by
    induction alike with
    | nil => rfl
    | cons same _ ih =>
      rw [same.eq_with_line]
      simp only [Lexeme.trailing, List.flatMap_cons] at ih ⊢
      rw [ih]
  cases alike with
  | nil => rfl
  | cons same others =>
    rw [same.eq_with_line, Lexeme.render, Lexeme.render, trailing others]

def continuingWords : List String := ["elseif", "else", "catch", "finally"]

/-- The lexemes of a text at two places, with what follows on them there. -/
structure Stretch where
  first : List Lexeme
  second : List Lexeme
  behind : List Lexeme
  behind' : List Lexeme
  alike : List.Forall₂ Lexeme.Alike first second
  /-- the text does not end with a name, nor with the sign of a reference -/
  ended : ∀ l, first.getLast? = some l → l.kind ≠ .name ∧ l.isSymbol "&" = false
  /-- what follows does not continue a statement -/
  closed : (behind'.headD Parse.endOfSource).word ∉ continuingWords

namespace Stretch

/-- Both cursors stand in front of the same lexeme of the stretch, or behind its last one. -/
structure At (S : Stretch) (i : Nat) (c c' : Cursor) : Prop where
  inside : i ≤ S.first.length
  first : c.rest = S.first.drop i ++ S.behind
  second : c'.rest = S.second.drop i ++ S.behind'

theorem length_eq (S : Stretch) : S.second.length = S.first.length := S.alike.length_eq.symm

/-- Where a lexeme of the stretch is left, both cursors have it next. -/
theorem At.next {S : Stretch} {i : Nat} {c c' : Cursor} (place : S.At i c c')
    (more : i < S.first.length) :
    ∃ l l' ls ls', l.Alike l' ∧ c.rest = l :: ls ∧ c'.rest = l' :: ls' ∧
      ls = S.first.drop (i + 1) ++ S.behind ∧ ls' = S.second.drop (i + 1) ++ S.behind' := by
  have more' : i < S.second.length := by rw [S.length_eq]; exact more
  refine ⟨S.first[i], S.second[i], _, _, ?_, ?_, ?_, rfl, rfl⟩
  · exact (List.forall₂_iff_get.mp S.alike).2 i more more'
  · rw [place.first, List.drop_eq_getElem_cons more, List.cons_append]
  · rw [place.second, List.drop_eq_getElem_cons more', List.cons_append]

/-- Both cursors after some more lexemes of the stretch. -/
theorem At.drop {S : Stretch} {i m : Nat} {c c' d d' : Cursor} (place : S.At i c c')
    (inside : i + m ≤ S.first.length) (rest : d.rest = c.rest.drop m)
    (rest' : d'.rest = c'.rest.drop m) : S.At (i + m) d d' := by
  have inside' := inside
  rw [← S.length_eq] at inside'
  refine ⟨inside, ?_, ?_⟩
  · rw [rest, place.first, List.drop_append_of_le_length (by rw [List.length_drop]; omega),
      List.drop_drop]
  · rw [rest', place.second, List.drop_append_of_le_length (by rw [List.length_drop]; omega),
      List.drop_drop]

/-- The next lexemes of both cursors. -/
theorem At.head {S : Stretch} {i : Nat} {c c' : Cursor} (place : S.At i c c')
    (more : i < S.first.length) :
    (c.rest.headD Parse.endOfSource).Alike (c'.rest.headD Parse.endOfSource) := by
  obtain ⟨l, l', ls, ls', alike, left, left', -, -⟩ := place.next more
  rw [left, left']
  exact alike

/-- A name or the sign of a reference does not end a stretch. -/
theorem At.further {S : Stretch} {i : Nat} {c c' : Cursor} (place : S.At i c c')
    (more : i < S.first.length)
    (opens : (c.rest.headD Parse.endOfSource).kind = .name ∨
      (c.rest.headD Parse.endOfSource).isSymbol "&" = true) : i + 1 < S.first.length := by
  by_contra last
  have final : S.first.getLast? = some S.first[i] := by
    rw [List.getLast?_eq_getElem?, List.getElem?_eq_some_iff]
    refine ⟨by omega, ?_⟩
    congr 1
    omega
  obtain ⟨unnamed, unsigned⟩ := S.ended _ final
  rw [place.first, List.drop_eq_getElem_cons more, List.cons_append, List.headD_cons] at opens
  rcases opens with named | signed
  · exact unnamed named
  · rw [signed] at unsigned
    cases unsigned

/-- Both cursors behind the next lexeme. -/
theorem At.behindNext {S : Stretch} {i : Nat} {c c' : Cursor} (place : S.At i c c')
    (more : i < S.first.length) :
    S.At (i + 1) { c with rest := c.rest.drop 1 } { c' with rest := c'.rest.drop 1 } :=
  place.drop more rfl rfl

/-- The lexemes behind a name or the sign of a reference. -/
theorem At.secondHead {S : Stretch} {i : Nat} {c c' : Cursor} (place : S.At i c c')
    (more : i < S.first.length)
    (opens : (c.rest.headD Parse.endOfSource).kind = .name ∨
      (c.rest.headD Parse.endOfSource).isSymbol "&" = true) :
    ((c.rest.drop 1).headD Parse.endOfSource).Alike
      ((c'.rest.drop 1).headD Parse.endOfSource) :=
  (place.behindNext more).head (place.further more opens)

end Stretch

/-- The cursors have passed declarations that are alike. -/
def PassAlike (c c' d d' : Cursor) : Prop :=
  ∃ passed passed', d.declarations = c.declarations ++ passed ∧
    d'.declarations = c'.declarations ++ passed' ∧
    passed.map Declaration.unlined = passed'.map Declaration.unlined

theorem PassAlike.refl (c c' : Cursor) : PassAlike c c' c c' :=
  ⟨[], [], by simp, by simp, rfl⟩

theorem PassAlike.trans {c c' d d' e e' : Cursor} (first : PassAlike c c' d d')
    (second : PassAlike d d' e e') : PassAlike c c' e e' := by
  obtain ⟨passed, passed', declared, declared', same⟩ := first
  obtain ⟨more, more', declared₂, declared₂', same₂⟩ := second
  refine ⟨passed ++ more, passed' ++ more', ?_, ?_, ?_⟩
  · rw [declared₂, declared, List.append_assoc]
  · rw [declared₂', declared', List.append_assoc]
  · rw [List.map_append, List.map_append, same, same₂]

/-- Some lexemes that were left at a place of the stretch which both cursors have passed. -/
def Stretch.Passed (S : Stretch) (i : Nat) (start start' : List Lexeme) : Prop :=
  ∃ j ≤ i, start = S.first.drop j ++ S.behind ∧ start' = S.second.drop j ++ S.behind'

/-- From one cursor to the other, a number of lexemes has been read, none of which marks the end of
the source. -/
structure Cursor.Reads (c : Cursor) (m : Nat) (d : Cursor) : Prop where
  bound : m ≤ c.rest.length
  rest : d.rest = c.rest.drop m
  live : ∀ l ∈ c.rest.take m, l.kind ≠ .done

namespace Cursor.Reads

variable {c d e : Cursor} {m m' : Nat}

theorem refl (c : Cursor) : c.Reads 0 c :=
  ⟨Nat.zero_le _, rfl, fun l member => absurd member (by simp)⟩

theorem length (reads : c.Reads m d) : d.rest.length + m = c.rest.length := by
  rw [reads.rest, List.length_drop]
  exact Nat.sub_add_cancel reads.bound

theorem trans (first : c.Reads m d) (second : d.Reads m' e) : c.Reads (m + m') e := by
  have left := first.length
  have bound := second.bound
  refine ⟨by omega, ?_, ?_⟩
  · rw [second.rest, first.rest, List.drop_drop]
  · intro l member
    rw [List.take_add, List.mem_append, ← first.rest] at member
    exact member.elim (first.live l) (second.live l)

theorem unique (reads : c.Reads m d) (reads' : c.Reads m' d) : m = m' := by
  have left := reads.length
  have left' := reads'.length
  omega

end Cursor.Reads

/-- `Tracks known least need view p q`: what `p` reads of a stretch at its first place, `q` reads
at its second, with results of the same `view`. By its result, `p` reads at least `least` lexemes,
and looks at no more than `need` lexemes behind them. The lexemes that were left at earlier places
may be `known` to both. -/
structure Tracks {α γ : Type} (known : List (List Lexeme × List Lexeme)) (least need : α → Nat)
    (view : α → γ) (p q : Parse α) : Prop where
  reads : ∀ c a d, p.run c = .ok (a, d) → ∃ m, least a ≤ m ∧ c.Reads m d
  follows : ∀ (S : Stretch) (i m : Nat) (c c' d : Cursor) (a : α),
    (∀ start ∈ known, S.Passed i start.1 start.2) → S.At i c c' → p.run c = .ok (a, d) →
    c.Reads m d → i + m + need a ≤ S.first.length →
    ∃ b d', q.run c' = .ok (b, d') ∧ S.At (i + m) d d' ∧ view a = view b ∧ PassAlike c c' d d'

namespace Stretch

theorem Passed.later {S : Stretch} {i j : Nat} {start start' : List Lexeme}
    (passed : S.Passed i start start') (behind : i ≤ j) : S.Passed j start start' := by
  obtain ⟨place, before, there, there'⟩ := passed
  exact ⟨place, Nat.le_trans before behind, there, there'⟩

theorem At.length_second {S : Stretch} {i : Nat} {c c' : Cursor} (place : S.At i c c') :
    c'.rest.length = S.first.length - i + S.behind'.length := by
  rw [place.second, List.length_append, List.length_drop, S.length_eq]

end Stretch

namespace Tracks

variable {α β γ δ : Type} {known : List (List Lexeme × List Lexeme)}

theorem weaken {least least' need need' : α → Nat} {view : α → γ} {p q : Parse α}
    (tracks : Tracks known least need view p q) (fewer : ∀ a, least' a ≤ least a)
    (more : ∀ a, need a ≤ need' a) : Tracks known least' need' view p q := by
  constructor
  · intro c a d run
    obtain ⟨m, enough, reads⟩ := tracks.reads c a d run
    exact ⟨m, Nat.le_trans (fewer a) enough, reads⟩
  · intro S i m c c' d a passed place run reads inside
    have needed := more a
    exact tracks.follows S i m c c' d a passed place run reads (by omega)

theorem viewed {least need : α → Nat} {view : α → γ} {view' : α → δ} {p q : Parse α}
    (tracks : Tracks known least need view p q)
    (coarser : ∀ a b, view a = view b → view' a = view' b) :
    Tracks known least need view' p q := by
  refine ⟨tracks.reads, ?_⟩
  intro S i m c c' d a passed place run reads inside
  obtain ⟨b, d', run', place', same, declared⟩ :=
    tracks.follows S i m c c' d a passed place run reads inside
  exact ⟨b, d', run', place', coarser a b same, declared⟩

theorem pure {least need : α → Nat} {view : α → γ} {a b : α} (same : view a = view b)
    (none : least a = 0) :
    Tracks known least need view (Pure.pure a : Parse α) (Pure.pure b : Parse α) := by
  constructor
  · intro c a' d run
    cases run
    exact ⟨0, Nat.le_of_eq none, .refl c⟩
  · intro S i m c c' d a' _ place run reads inside
    cases run
    obtain rfl := reads.unique (.refl c)
    exact ⟨b, c', rfl, place, same, .refl c c'⟩

/-- A parser that never ends well tracks any other one. -/
theorem of_fails {least need : α → Nat} {view : α → γ} {p q : Parse α}
    (fails : ∀ c a d, p.run c ≠ .ok (a, d)) : Tracks known least need view p q :=
  ⟨fun c a d run => absurd run (fails c a d),
    fun _ _ _ c _ d a _ _ run => absurd run (fails c a d)⟩

theorem bind {least₁ need₁ : α → Nat} {least need : β → Nat} {view₁ : α → γ} {view : β → δ}
    {p q : Parse α} {f g : α → Parse β} (first : Tracks known least₁ need₁ view₁ p q)
    (second : ∀ a b, view₁ a = view₁ b →
      Tracks known (fun r => max (least r - least₁ a) (need₁ a - need r)) need view (f a) (g b)) :
    Tracks known least need view (p >>= f) (q >>= g) := by
  constructor
  · intro c r e run
    obtain ⟨a, d, run₁, run₂⟩ := Parse.bind_run_ok run
    obtain ⟨m, enough, reads⟩ := first.reads c a d run₁
    obtain ⟨m', enough', reads'⟩ := (second a a rfl).reads d r e run₂
    have total : least r - least₁ a ≤ m' := Nat.le_trans (Nat.le_max_left _ _) enough'
    exact ⟨m + m', by omega, reads.trans reads'⟩
  · intro S i m c c' e r passed place run reads inside
    obtain ⟨a, d, run₁, run₂⟩ := Parse.bind_run_ok run
    obtain ⟨m₁, enough₁, reads₁⟩ := first.reads c a d run₁
    obtain ⟨m₂, enough₂, reads₂⟩ := (second a a rfl).reads d r e run₂
    have total : m = m₁ + m₂ := reads.unique (reads₁.trans reads₂)
    have needed : need₁ a - need r ≤ m₂ := Nat.le_trans (Nat.le_max_right _ _) enough₂
    obtain ⟨b, d', run₁', place', same, declared⟩ :=
      first.follows S i m₁ c c' d a passed place run₁ reads₁ (by omega)
    have passed' : ∀ start ∈ known, S.Passed (i + m₁) start.1 start.2 := fun start member =>
      (passed start member).later (Nat.le_add_right i m₁)
    obtain ⟨r', e', run₂', place'', same', declared'⟩ :=
      (second a b same).follows S (i + m₁) m₂ d d' e r passed' place' run₂ reads₂ (by omega)
    refine ⟨r', e', ?_, ?_, same', declared.trans declared'⟩
    · rw [StateT.run_bind, run₁']
      exact run₂'
    · rw [total, ← Nat.add_assoc]
      exact place''

/-! ## Parts of parsers -/

/-- Behind a parser with the same results at both places. -/
theorem bind_same {least₁ need₁ : α → Nat} {least need : β → Nat} {view : β → δ} {p q : Parse α}
    {f g : α → Parse β} (first : Tracks known least₁ need₁ id p q)
    (second : ∀ a,
      Tracks known (fun r => max (least r - least₁ a) (need₁ a - need r)) need view (f a) (g a)) :
    Tracks known least need view (p >>= f) (q >>= g) := by
  refine first.bind fun a b same => ?_
  obtain rfl : a = b := same
  exact second a

/-- Behind a parser whose results are lexemes. -/
theorem bind_lexeme {least₁ need₁ : Lexeme → Nat} {least need : β → Nat} {view : β → δ}
    {p q : Parse Lexeme} {f g : Lexeme → Parse β}
    (first : Tracks known least₁ need₁ Lexeme.unlined p q)
    (second : ∀ l line, Tracks known (fun r => max (least r - least₁ l) (need₁ l - need r)) need
      view (f l) (g { l with line })) :
    Tracks known least need view (p >>= f) (q >>= g) := by
  refine first.bind fun l l' same => ?_
  rw [Lexeme.Alike.eq_with_line same]
  exact second l l'.line

theorem ite {least need : α → Nat} {view : α → γ} {condition : Prop} [Decidable condition]
    {p q p' q' : Parse α} (yes : condition → Tracks known least need view p q)
    (no : ¬ condition → Tracks known least need view p' q') :
    Tracks known least need view (if condition then p else p') (if condition then q else q') := by
  split
  · exact yes ‹_›
  · exact no ‹_›

/-- Behind something that is done under a condition. -/
theorem whenever {condition : Prop} [Decidable condition] {least₁ : α → Nat} {needed : Nat}
    {least need : β → Nat} {view₁ : α → γ} {view : β → δ} {p q : Parse α} {p' q' : Parse β}
    (part : Tracks known least₁ (fun _ => needed) view₁ p q)
    (behind : Tracks known (fun r => max (least r) (needed - need r)) need view p' q') :
    Tracks known least need view (if condition then p >>= fun _ => p' else p')
      (if condition then q >>= fun _ => q' else q') := by
  split
  · refine part.bind fun _ _ _ => behind.weaken (fun r => ?_) fun _ => Nat.le_refl _
    omega
  · exact behind.weaken (fun r => Nat.le_max_left _ _) fun _ => Nat.le_refl _

theorem fail {least need : α → Nat} {view : α → γ} {q : Parse α} :
    Tracks known least need view Parse.fail q := by
  refine of_fails fun c a d run => ?_
  obtain ⟨next, d, -, run⟩ := Parse.bind_run_ok run
  obtain ⟨cursor, d, -, run⟩ := Parse.bind_run_ok run
  cases run

/-- What stands behind a failure does not matter. -/
theorem fail_bind {least need : α → Nat} {view : α → γ} {f : β → Parse α} {q : Parse α} :
    Tracks known least need view (Parse.fail >>= f) q := by
  refine of_fails fun c a d run => ?_
  obtain ⟨b, d, run, -⟩ := Parse.bind_run_ok run
  cases run

/-- Behind the lexemes that are left. -/
theorem rest_bind {least need : α → Nat} {view : α → γ} {f g : List Lexeme → Parse α}
    (second : ∀ start start',
      Tracks ((start, start') :: known) least need view (f start) (g start')) :
    Tracks known least need view (Parse.rest >>= f) (Parse.rest >>= g) := by
  constructor
  · intro c a d run
    exact (second c.rest c.rest).reads c a d run
  · intro S i m c c' d a passed place run reads inside
    refine (second c.rest c'.rest).follows S i m c c' d a ?_ place run reads inside
    intro start member
    rcases List.mem_cons.mp member with rfl | earlier
    · exact ⟨i, Nat.le_refl i, place.first, place.second⟩
    · exact passed start earlier

end Tracks

namespace Parse

theorem run_peek (c : Cursor) : peek.run c = .ok (c.rest.headD endOfSource, c) := rfl

theorem run_peekSecond (c : Cursor) :
    peekSecond.run c = .ok ((c.rest.drop 1).headD endOfSource, c) := rfl

theorem run_advance {c : Cursor} {l : Lexeme} {ls : List Lexeme} (left : c.rest = l :: ls)
    (more : l.kind ≠ .done) : advance.run c =
      .ok (l, { c with rest := ls, lastLine := l.line + lineFeeds l.text }) := by
  obtain ⟨rest, lastLine, declarations⟩ := c
  cases left
  change (if l.kind = .done then fail else _ : Parse Lexeme).run _ = _
  rw [if_neg more]
  rfl

theorem fails_fail {α : Type} (c : Cursor) (a : α) (d : Cursor) :
    (fail : Parse α).run c ≠ .ok (a, d) := by
  intro run
  cases run

theorem run_advance_ok {c d : Cursor} {l : Lexeme} (run : advance.run c = .ok (l, d)) :
    ∃ ls, c.rest = l :: ls ∧ l.kind ≠ .done ∧
      d = { c with rest := ls, lastLine := l.line + lineFeeds l.text } := by
  obtain ⟨rest, lastLine, declarations⟩ := c
  cases rest with
  | nil => exact absurd run (fails_fail _ _ _)
  | cons l' ls =>
    by_cases done : l'.kind = .done
    · change (if l'.kind = .done then fail else _ : Parse Lexeme).run _ = _ at run
      rw [if_pos done] at run
      exact absurd run (fails_fail _ _ _)
    · rw [run_advance rfl done] at run
      cases run
      exact ⟨ls, rfl, done, rfl⟩

theorem reads_of_run_advance {c d : Cursor} {l : Lexeme} (run : advance.run c = .ok (l, d)) :
    c.Reads 1 d := by
  obtain ⟨ls, left, more, rfl⟩ := run_advance_ok run
  refine ⟨by simp [left], by simp [left], fun l' member => ?_⟩
  rw [left, List.take_succ_cons, List.take_zero, List.mem_singleton] at member
  rw [member]
  exact more

end Parse

namespace Tracks

variable {α β γ δ : Type} {known : List (List Lexeme × List Lexeme)}

/-- A parser that only looks at what is left. -/
theorem of_looks {least need : α → Nat} {view : α → γ} {p q : Parse α} (result : Cursor → α)
    (looks : ∀ c, p.run c = .ok (result c, c)) (none : ∀ c, least (result c) = 0)
    (follows : ∀ (S : Stretch) (i : Nat) (c c' : Cursor),
      (∀ start ∈ known, S.Passed i start.1 start.2) → S.At i c c' →
      i + need (result c) ≤ S.first.length →
      ∃ b, q.run c' = .ok (b, c') ∧ view (result c) = view b) :
    Tracks known least need view p q := by
  constructor
  · intro c a d run
    rw [looks c] at run
    cases run
    exact ⟨0, Nat.le_of_eq (none c), .refl c⟩
  · intro S i m c c' d a passed place run reads inside
    rw [looks c] at run
    cases run
    obtain rfl := reads.unique (.refl c)
    obtain ⟨b, run', same⟩ := follows S i c c' passed place inside
    exact ⟨b, c', run', place, same, .refl c c'⟩

/-- Behind a parser that only looks at what is left. -/
theorem looks_bind (needed : Nat) {least need : β → Nat} {view : β → δ} {p : Parse α}
    {f g : α → Parse β} (result : Cursor → α) (looks : ∀ c, p.run c = .ok (result c, c))
    (related : α → α → Prop)
    (seen : ∀ (S : Stretch) (i : Nat) (c c' : Cursor), S.At i c c' →
      i + needed ≤ S.first.length → related (result c) (result c'))
    (behind : ∀ a b, related a b →
      Tracks known (fun r => max (least r) (needed - need r)) need view (f a) (g b))
    (exact : ∀ a, ∃ b, related a b) :
    Tracks known least need view (p >>= f) (p >>= g) := by
  have run_bind (f : α → Parse β) (c : Cursor) : (p >>= f).run c = (f (result c)).run c := by
    rw [StateT.run_bind, looks c]
    rfl
  constructor
  · intro c r d run
    rw [run_bind] at run
    obtain ⟨b, same⟩ := exact (result c)
    obtain ⟨m, enough, reads⟩ := (behind _ b same).reads c r d run
    exact ⟨m, Nat.le_trans (Nat.le_max_left _ _) enough, reads⟩
  · intro S i m c c' d r passed place run reads inside
    rw [run_bind] at run
    obtain ⟨b, same⟩ := exact (result c)
    obtain ⟨m', enough, reads'⟩ := (behind _ b same).reads c r d run
    obtain rfl := reads.unique reads'
    have needed' : needed - need r ≤ m := Nat.le_trans (Nat.le_max_right _ _) enough
    have alike := seen S i c c' place (by omega)
    rw [run_bind]
    exact (behind _ _ alike).follows S i m c c' d r passed place run reads inside

theorem peek : Tracks known (fun _ => 0) (fun _ => 1) Lexeme.unlined Parse.peek Parse.peek := by
  refine of_looks _ Parse.run_peek (fun _ => rfl) fun S i c c' _ place inside => ?_
  obtain ⟨l, l', ls, ls', alike, left, left', -, -⟩ := place.next inside
  refine ⟨l', ?_, ?_⟩
  · rw [Parse.run_peek, left']
    rfl
  · rw [left]
    exact alike

theorem peekSecond :
    Tracks known (fun _ => 0) (fun _ => 2) Lexeme.unlined Parse.peekSecond Parse.peekSecond := by
  refine of_looks _ Parse.run_peekSecond (fun _ => rfl) fun S i c c' _ place inside => ?_
  have second : S.At (i + 1) { c with rest := c.rest.drop 1 } { c' with rest := c'.rest.drop 1 } :=
    place.drop (by omega) rfl rfl
  obtain ⟨l, l', ls, ls', alike, left, left', -, -⟩ := second.next (by omega)
  refine ⟨l', ?_, ?_⟩
  · rw [Parse.run_peekSecond, show c'.rest.drop 1 = _ from left']
    rfl
  · rw [show c.rest.drop 1 = _ from left]
    exact alike

theorem advance :
    Tracks known (fun _ => 1) (fun _ => 0) Lexeme.unlined Parse.advance Parse.advance := by
  constructor
  · intro c l d run
    exact ⟨1, Nat.le_refl 1, Parse.reads_of_run_advance run⟩
  · intro S i m c c' d l _ place run reads inside
    obtain rfl := reads.unique (Parse.reads_of_run_advance run)
    obtain ⟨ls, left, more, rfl⟩ := Parse.run_advance_ok run
    obtain ⟨l₁, l', ls₁, ls', alike, left₁, left', rest₁, rest'⟩ := place.next (by omega)
    rw [left] at left₁
    cases left₁
    have kind : l'.kind = l.kind := by rw [alike.eq_with_line]
    refine ⟨l', _, Parse.run_advance left' (by rw [kind]; exact more), ⟨by omega, rest₁, rest'⟩,
      alike, [], [], by simp, by simp, rfl⟩

/-- The text since some earlier place. -/
theorem textSince {start start' : List Lexeme} (member : (start, start') ∈ known) :
    Tracks known (fun _ => 0) (fun _ => 0) id (Parse.textSince start)
      (Parse.textSince start') := by
  refine of_looks
    (fun c => String.ofList (Lexeme.render (start.take (start.length - c.rest.length))))
    (fun c => rfl) (fun _ => rfl) fun S i c c' passed place inside => ?_
  obtain ⟨j, before, rfl, rfl⟩ := passed _ member
  refine ⟨_, rfl, congrArg String.ofList ?_⟩
  -- what has been read since is the same part of the stretch at both places
  have part (whole behind : List Lexeme) (long : i ≤ whole.length) :
      (whole.drop j ++ behind).take
        ((whole.drop j ++ behind).length - (whole.drop i ++ behind).length) =
        (whole.drop j).take (i - j) := by
    have count : (whole.drop j ++ behind).length - (whole.drop i ++ behind).length = i - j := by
      simp only [List.length_append, List.length_drop]
      omega
    rw [count, List.take_append_of_le_length (by rw [List.length_drop]; omega)]
  rw [place.first, place.second, part _ _ place.inside,
    part _ _ (by rw [S.length_eq]; exact place.inside)]
  exact Lexeme.render_alike (List.forall₂_take _ (List.forall₂_drop _ S.alike))

/-- A declaration comes before the declarations inside it at both places. -/
theorem declare {least need : α → Nat} {view : α → γ} {p q : Parse α}
    {declaration : α → Declaration} (inside : Tracks known least need view p q)
    (same : ∀ a b, view a = view b → (declaration a).unlined = (declaration b).unlined) :
    Tracks known least need view (Parse.declare p declaration) (Parse.declare q declaration) := by
  have run_declare (p : Parse α) (c : Cursor) : (Parse.declare p declaration).run c =
      p.run { c with declarations := [] } >>= fun out => .ok
        (out.1, { out.2 with declarations :=
          c.declarations ++ declaration out.1 :: out.2.declarations }) := rfl
  constructor
  · intro c a e run
    rw [run_declare] at run
    cases run₁ : p.run { c with declarations := [] } with
    | error fault =>
      rw [run₁] at run
      cases run
    | ok out =>
      rw [run₁] at run
      cases run
      obtain ⟨m, enough, reads⟩ := inside.reads { c with declarations := [] } out.1 out.2 run₁
      exact ⟨m, enough, reads.bound, reads.rest, reads.live⟩
  · intro S i m c c' e a passed place run reads inside'
    rw [run_declare] at run
    cases run₁ : p.run { c with declarations := [] } with
    | error fault =>
      rw [run₁] at run
      cases run
    | ok out =>
      rw [run₁] at run
      cases run
      obtain ⟨b, d', run', place', viewed, passed', passed'', declared, declared', alike⟩ :=
        inside.follows S i m { c with declarations := [] } { c' with declarations := [] } out.2
          out.1 passed ⟨place.inside, place.first, place.second⟩ run₁
          ⟨reads.bound, reads.rest, reads.live⟩ inside'
      refine ⟨b,
        { d' with declarations := c'.declarations ++ declaration b :: d'.declarations }, ?_,
        ⟨place'.inside, place'.first, place'.second⟩, viewed,
        declaration out.1 :: out.2.declarations, declaration b :: d'.declarations, rfl, rfl, ?_⟩
      · rw [run_declare, run']
        rfl
      · simp only [declared, declared', List.nil_append, List.map_cons]
        rw [same _ _ viewed, alike]

/-! ## Repetition -/

/-- A number of steps that exceeds the lexemes which are left is no limit to a repetition. -/
theorem reads_repeated {least need : Option α → Nat} {view : Option α → γ}
    {p q : Parse (Option α)} (body : Tracks known least need view p q)
    (progress : ∀ a, 1 ≤ least (some a)) {steps : Nat} {c d : Cursor} {as : List α}
    (enough : c.rest.length < steps) (run : (Parse.repeated p steps).run c = .ok (as, d)) :
    ∃ m, least none ≤ m ∧ c.Reads m d := by
  induction steps generalizing c as with
  | zero => exact absurd enough (Nat.not_lt_zero _)
  | succ steps ih =>
    obtain ⟨result, e, run₁, run⟩ := Parse.bind_run_ok run
    obtain ⟨m, some, reads⟩ := body.reads _ _ _ run₁
    cases result with
    | none =>
      cases run
      exact ⟨m, some, reads⟩
    | some a =>
      have one := progress a
      obtain ⟨others, e', run₂, run⟩ := Parse.bind_run_ok run
      cases run
      have left := reads.length
      obtain ⟨m', last, reads'⟩ := ih (by omega) run₂
      exact ⟨m + m', by omega, reads.trans reads'⟩

theorem follows_repeated {least need : Option α → Nat} {view : α → γ} {p q : Parse (Option α)}
    (body : Tracks known least need (Option.map view) p q) (progress : ∀ a, 1 ≤ least (some a))
    (further : ∀ a, need (some a) ≤ least none + need none) {S : Stretch} {steps steps' : Nat}
    {i m : Nat} {c c' d : Cursor} {as : List α}
    (passed : ∀ start ∈ known, S.Passed i start.1 start.2) (place : S.At i c c')
    (enough : c.rest.length < steps) (enough' : c'.rest.length < steps')
    (run : (Parse.repeated p steps).run c = .ok (as, d)) (reads : c.Reads m d)
    (inside : i + m + need none ≤ S.first.length) :
    ∃ bs d', (Parse.repeated q steps').run c' = .ok (bs, d') ∧ S.At (i + m) d d' ∧
      as.map view = bs.map view ∧ PassAlike c c' d d' := by
  induction steps generalizing steps' i m c c' as with
  | zero => exact absurd enough (Nat.not_lt_zero _)
  | succ steps ih =>
    obtain ⟨steps', rfl⟩ : ∃ n, steps' = n + 1 := Nat.exists_eq_succ_of_ne_zero (by omega)
    obtain ⟨result, e, run₁, run⟩ := Parse.bind_run_ok run
    cases result with
    | none =>
      cases run
      obtain ⟨result', e', run₁', place', same, declared⟩ :=
        body.follows S i m c c' d none passed place run₁ reads inside
      cases result' with
      | some b => cases same
      | none =>
        refine ⟨[], e', ?_, place', rfl, declared⟩
        rw [Parse.repeated, StateT.run_bind, run₁']
        rfl
    | some a =>
      obtain ⟨others, e₂, run₂, run⟩ := Parse.bind_run_ok run
      cases run
      obtain ⟨m₁, one, reads₁⟩ := body.reads _ _ _ run₁
      have one := Nat.le_trans (progress a) one
      have fewer : e.rest.length < steps := by
        have left := reads₁.length
        omega
      obtain ⟨m₂, last, reads₂⟩ := reads_repeated body progress fewer run₂
      have total : m = m₁ + m₂ := reads.unique (reads₁.trans reads₂)
      have needed := further a
      obtain ⟨result', e', run₁', place', same, declared⟩ :=
        body.follows S i m₁ c c' e (some a) passed place run₁ reads₁ (by omega)
      cases result' with
      | none => cases same
      | some b =>
        have passed' : ∀ start ∈ known, S.Passed (i + m₁) start.1 start.2 :=
          fun start member => (passed start member).later (Nat.le_add_right i m₁)
        have fewer' : e'.rest.length < steps' := by
          have shorter := place.length_second
          have shorter' := place'.length_second
          have bound' := place'.inside
          omega
        obtain ⟨others', d', run₂', place'', same', declared'⟩ :=
          ih passed' place' fewer fewer' run₂ reads₂ (by omega)
        refine ⟨b :: others', d', ?_, ?_, ?_, declared.trans declared'⟩
        · rw [Parse.repeated, StateT.run_bind, run₁']
          change ((Parse.repeated q steps').run e' >>= _) = _
          rw [run₂']
          rfl
        · rw [total, ← Nat.add_assoc]
          exact place''
        · rw [List.map_cons, List.map_cons, same', Option.some.inj same]

/-- A repetition reads what its parts read; the part that ends it decides what it needs. -/
theorem many {least need : Option α → Nat} {view : α → γ} {p q : Parse (Option α)}
    (body : Tracks known least need (Option.map view) p q) (progress : ∀ a, 1 ≤ least (some a))
    (further : ∀ a, need (some a) ≤ least none + need none) :
    Tracks known (fun _ => least none) (fun _ => need none) (List.map view) (Parse.many p)
      (Parse.many q) := by
  constructor
  · intro c as d run
    exact reads_repeated body progress (Nat.lt_succ_self _) run
  · intro S i m c c' d as passed place run reads inside
    exact follows_repeated body progress further passed place (Nat.lt_succ_self _)
      (Nat.lt_succ_self _) run reads inside

end Tracks

/-- The last value of a step that is taken until it gives none, at most a number of times. -/
def Parse.iterate {α : Type} (step : α → Parse (Option α)) : Nat → α → Parse α
  | 0, a => return a
  | steps + 1, a => do
      match ← step a with
      | some a => iterate step steps a
      | none => return a

namespace Tracks

variable {α β γ δ : Type} {known : List (List Lexeme × List Lexeme)}

/-- Nothing for the end of a repetition, one for each of its parts. -/
def perPart {α : Type} : Option α → Nat
  | some _ => 1
  | none => 0

/-- A repetition up to a lexeme that is read. -/
theorem many_closed {view : α → γ} {p q : Parse (Option α)}
    (body : Tracks known (fun _ => 1) perPart (Option.map view) p q) :
    Tracks known (fun _ => 1) (fun _ => 0) (List.map view) (Parse.many p) (Parse.many q) :=
  body.many (fun _ => Nat.le_refl 1) fun _ => Nat.le_refl 1

/-- A repetition up to a lexeme that is not read. -/
theorem many_open {view : α → γ} {p q : Parse (Option α)}
    (body : Tracks known perPart (fun _ => 1) (Option.map view) p q) :
    Tracks known (fun _ => 0) (fun _ => 1) (List.map view) (Parse.many p) (Parse.many q) :=
  body.many (fun _ => Nat.le_refl 1) fun _ => Nat.le_refl 1

theorem many_closed_same {p q : Parse (Option α)}
    (body : Tracks known (fun _ => 1) perPart id p q) :
    Tracks known (fun _ => 1) (fun _ => 0) id (Parse.many p) (Parse.many q) := by
  have viewed : Tracks known (fun _ => 1) perPart (Option.map id) p q :=
    body.viewed fun _ _ same => congrArg _ same
  exact viewed.many_closed.viewed fun as bs same => by simpa using same

theorem many_open_same {p q : Parse (Option α)}
    (body : Tracks known perPart (fun _ => 1) id p q) :
    Tracks known (fun _ => 0) (fun _ => 1) id (Parse.many p) (Parse.many q) := by
  have viewed : Tracks known perPart (fun _ => 1) (Option.map id) p q :=
    body.viewed fun _ _ same => congrArg _ same
  exact viewed.many_open.viewed fun as bs same => by simpa using same

section

variable {step step' : α → Parse (Option α)}
  (each : ∀ a, Tracks known perPart (fun _ => 1) id (step a) (step' a))
include each

theorem reads_iterate {steps : Nat} {a b : α} {c d : Cursor} (enough : c.rest.length < steps)
    (run : (Parse.iterate step steps a).run c = .ok (b, d)) : ∃ m, c.Reads m d := by
  induction steps generalizing a c with
  | zero => exact absurd enough (Nat.not_lt_zero _)
  | succ steps ih =>
    obtain ⟨result, e, run₁, run⟩ := Parse.bind_run_ok run
    obtain ⟨m, some, reads⟩ := (each a).reads _ _ _ run₁
    cases result with
    | none =>
      cases run
      exact ⟨m, reads⟩
    | some a' =>
      have one : 1 ≤ m := some
      have left := reads.length
      obtain ⟨m', reads'⟩ := ih (by omega) run
      exact ⟨m + m', reads.trans reads'⟩

theorem follows_iterate {S : Stretch} {steps steps' i m : Nat} {a b : α} {c c' d : Cursor}
    (passed : ∀ start ∈ known, S.Passed i start.1 start.2) (place : S.At i c c')
    (enough : c.rest.length < steps) (enough' : c'.rest.length < steps')
    (run : (Parse.iterate step steps a).run c = .ok (b, d)) (reads : c.Reads m d)
    (inside : i + m + 1 ≤ S.first.length) :
    ∃ d', (Parse.iterate step' steps' a).run c' = .ok (b, d') ∧ S.At (i + m) d d' ∧
      PassAlike c c' d d' := by
  induction steps generalizing steps' i m a c c' with
  | zero => exact absurd enough (Nat.not_lt_zero _)
  | succ steps ih =>
    obtain ⟨steps', rfl⟩ : ∃ n, steps' = n + 1 := Nat.exists_eq_succ_of_ne_zero (by omega)
    obtain ⟨result, e, run₁, run⟩ := Parse.bind_run_ok run
    cases result with
    | none =>
      cases run
      obtain ⟨_, e', run₁', place', rfl, declared⟩ :=
        (each _).follows S i m c c' d none passed place run₁ reads inside
      refine ⟨e', ?_, place', declared⟩
      rw [Parse.iterate, StateT.run_bind, run₁']
      rfl
    | some a' =>
      obtain ⟨m₁, one, reads₁⟩ := (each a).reads _ _ _ run₁
      have one : 1 ≤ m₁ := one
      have fewer : e.rest.length < steps := by
        have left := reads₁.length
        omega
      obtain ⟨m₂, reads₂⟩ := reads_iterate each fewer run
      have total : m = m₁ + m₂ := reads.unique (reads₁.trans reads₂)
      obtain ⟨_, e', run₁', place', rfl, declared⟩ :=
        (each a).follows S i m₁ c c' e (some a') passed place run₁ reads₁ (by omega)
      have passed' : ∀ start ∈ known, S.Passed (i + m₁) start.1 start.2 := fun start member =>
        (passed start member).later (Nat.le_add_right i m₁)
      have fewer' : e'.rest.length < steps' := by
        have shorter := place.length_second
        have shorter' := place'.length_second
        have bound' := place'.inside
        omega
      obtain ⟨d', run₂', place'', declared'⟩ :=
        ih passed' place' fewer fewer' run reads₂ (by omega)
      refine ⟨d', ?_, ?_, declared.trans declared'⟩
      · rw [Parse.iterate, StateT.run_bind, run₁']
        exact run₂'
      · rw [total, ← Nat.add_assoc]
        exact place''

theorem iterate (a : α) :
    Tracks known (fun _ => 0) (fun _ => 1) id
      (do Parse.iterate step ((← Parse.rest).length + 1) a)
      (do Parse.iterate step' ((← Parse.rest).length + 1) a) := by
  constructor
  · intro c b d run
    obtain ⟨m, reads⟩ := reads_iterate each (Nat.lt_succ_self _) run
    exact ⟨m, Nat.zero_le m, reads⟩
  · intro S i m c c' d b passed place run reads inside
    obtain ⟨d', run', place', declared⟩ := follows_iterate each passed place (Nat.lt_succ_self _)
      (Nat.lt_succ_self _) run reads inside
    exact ⟨b, d', run', place', rfl, declared⟩

end

/-- The last of some parsers. It may read more and look at less than is asked for. -/
theorem last {least least' need need' : α → Nat} {view : α → γ} {p q : Parse α}
    (tracks : Tracks known least need view p q)
    (fits : ∀ a, (Nat.ble (least' a) (least a) && Nat.ble (need a) (need' a)) = true) :
    Tracks known least' need' view p q := by
  have both (a : α) := Bool.and_eq_true_iff.mp (fits a)
  exact tracks.weaken (fun a => Nat.le_of_ble_eq_true (both a).1)
    fun a => Nat.le_of_ble_eq_true (both a).2

/-! ## Signs and words -/

theorem atSign (sign : String) :
    Tracks known (fun _ => 0) (fun _ => 1) id (Parse.atSign sign) (Parse.atSign sign) :=
  peek.bind_lexeme fun _ _ => pure rfl rfl

theorem atWord (words : List String) :
    Tracks known (fun _ => 0) (fun _ => 1) id (Parse.atWord words) (Parse.atWord words) :=
  peek.bind_lexeme fun _ _ => pure rfl rfl

/-- A lexeme that is read when it is the right one. -/
theorem sign? (sign : String) :
    Tracks known Bool.toNat (fun found => (!found).toNat) id (Parse.sign? sign)
      (Parse.sign? sign) := by
  refine (atSign sign).bind_same fun found => ?_
  cases found with
  | true => exact advance.bind_lexeme fun _ _ => pure rfl rfl
  | false => exact pure rfl rfl

theorem word? (word : String) :
    Tracks known Bool.toNat (fun found => (!found).toNat) id (Parse.word? word)
      (Parse.word? word) := by
  refine (atWord [word]).bind_same fun found => ?_
  cases found with
  | true => exact advance.bind_lexeme fun _ _ => pure rfl rfl
  | false => exact pure rfl rfl

/-- A sign that may be missing. -/
theorem optionalSign (sign : String) :
    Tracks known (fun _ => 0) (fun _ => 1) id (Parse.sign? sign) (Parse.sign? sign) :=
  (sign? sign).last fun | true | false => rfl

/-- A word that may be missing. -/
theorem optionalWord (word : String) :
    Tracks known (fun _ => 0) (fun _ => 1) id (Parse.word? word) (Parse.word? word) :=
  (word? word).last fun | true | false => rfl

theorem sign (sign : String) :
    Tracks known (fun _ => 1) (fun _ => 0) id (Parse.sign sign) (Parse.sign sign) := by
  refine (sign? sign).bind_same fun found => ?_
  cases found with
  | true => exact pure rfl rfl
  | false => exact fail

theorem word (word : String) :
    Tracks known (fun _ => 1) (fun _ => 0) id (Parse.word word) (Parse.word word) := by
  refine (word? word).bind_same fun found => ?_
  cases found with
  | true => exact pure rfl rfl
  | false => exact fail

theorem ofKind (kind : LexemeKind) :
    Tracks known (fun _ => 1) (fun _ => 0) Lexeme.unlined (Parse.ofKind kind)
      (Parse.ofKind kind) := by
  refine peek.bind_lexeme fun l line => ?_
  refine ite (fun _ => ?_) fun _ => fail
  exact advance.last fun _ => rfl

theorem listUntil {close : String} {view : α → γ} {p q : Parse α}
    (item : Tracks known (fun _ => 1) (fun _ => 1) view p q) :
    Tracks known (fun _ => 1) (fun _ => 0) (List.map view) (Parse.listUntil close p)
      (Parse.listUntil close q) := by
  have body : Tracks known (fun _ => 1) perPart (Option.map view) (do
        if ← Parse.sign? close then return none
        else
          let a ← p
          if !(← Parse.atSign close) then Parse.sign ","
          return some a)
      (do
        if ← Parse.sign? close then return none
        else
          let a ← q
          if !(← Parse.atSign close) then Parse.sign ","
          return some a) := by
    refine (sign? close).bind_same fun closed => ?_
    cases closed with
    | true => exact pure rfl rfl
    | false =>
      refine item.bind fun a b same => ?_
      refine (atSign close).bind_same fun closing => ?_
      cases closing with
      | true => exact pure (congrArg some same) rfl
      | false => exact (sign ",").bind_same fun _ => pure (congrArg some same) rfl
  exact body.many_closed

theorem listUntil_same {close : String} {p q : Parse α}
    (item : Tracks known (fun _ => 1) (fun _ => 1) id p q) :
    Tracks known (fun _ => 1) (fun _ => 0) id (Parse.listUntil close p)
      (Parse.listUntil close q) :=
  item.listUntil.viewed fun as bs same => by simpa using same

theorem commaSeparated {view : α → γ} {p q : Parse α}
    (item : Tracks known (fun _ => 1) (fun _ => 1) view p q) :
    Tracks known (fun _ => 1) (fun _ => 1) (List.map view) (Parse.commaSeparated p)
      (Parse.commaSeparated q) := by
  have more : Tracks known perPart (fun _ => 1) (Option.map view) (do
        if ← Parse.sign? "," then return some (← p) else return none)
      (do if ← Parse.sign? "," then return some (← q) else return none) := by
    refine (sign? ",").bind_same fun found => ?_
    cases found with
    | true => exact item.bind fun _ _ same => pure (congrArg some same) rfl
    | false => exact pure rfl rfl
  refine item.bind fun first first' same => ?_
  refine more.many_open.bind fun others others' same' => pure ?_ rfl
  rw [List.map_cons, List.map_cons, same, same']

theorem commaSeparated_same {p q : Parse α}
    (item : Tracks known (fun _ => 1) (fun _ => 1) id p q) :
    Tracks known (fun _ => 1) (fun _ => 1) id (Parse.commaSeparated p)
      (Parse.commaSeparated q) :=
  item.commaSeparated.viewed fun as bs same => by simpa using same

end Tracks

end RequestSchema.Source
