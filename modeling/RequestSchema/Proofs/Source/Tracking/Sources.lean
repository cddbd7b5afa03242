import RequestSchema.Proofs.Source.Tracking.Statement
import RequestSchema.Source.Grammar

/-!
# Sources in front of others

A source that is read to its end reads the same statements and passes the same declarations where
more text follows, and a grammar of a greater depth reads what a lesser one does.
-/
namespace RequestSchema.Source

open Parse

/-- What is read ends in front of the end of the source. -/
theorem Cursor.Reads.inside {c d : Cursor} {m : Nat} {first behind : List Lexeme}
    (reads : c.Reads m d) (split : c.rest = first ++ behind)
    (ends : (behind.headD endOfSource).kind = .done) : m ≤ first.length := by
  by_contra beyond
  cases behind with
  | nil =>
    have bound := reads.bound
    rw [split, List.append_nil] at bound
    exact beyond bound
  | cons l rest =>
    obtain ⟨more, exact⟩ : ∃ more, m = first.length + (more + 1) :=
      ⟨m - first.length - 1, by omega⟩
    refine reads.live l ?_ ends
    rw [split, exact, List.take_length_add_append, List.take_succ_cons]
    simp

/-- A deeper grammar reads what another one reads. -/
theorem Grammar.tracked_of_le {depth depth' : Nat} (deeper : depth ≤ depth') :
    (Grammar.ofDepth depth).Tracked (Grammar.ofDepth depth') := by
  induction depth generalizing depth' with
  | zero =>
    exact ⟨fun _ => Tracks.fail, fun _ _ => Tracks.fail, fun _ => Tracks.fail, fun _ => Tracks.fail⟩
  | succ depth ih =>
    obtain ⟨depth', rfl⟩ : ∃ n, depth' = n + 1 := Nat.exists_eq_succ_of_ne_zero (by omega)
    have inner := ih (Nat.le_of_succ_le_succ deeper)
    exact ⟨fun _ => Tracks.expression inner, fun _ level => Tracks.operand inner level,
      fun _ => Tracks.statement inner, fun _ => Tracks.members inner⟩

def Parse.item? (g : Grammar) : Parse (Option (List Stmt)) := do
  if (← peek).kind = .done then return none else return some (← g.statement)

theorem run_item?_done {c : Cursor} (g : Grammar) (ends : (c.rest.headD endOfSource).kind = .done) :
    (item? g).run c = .ok (none, c) := by
  change (if (c.rest.headD endOfSource).kind = .done then _ else _ : Parse _).run c = _
  rw [if_pos ends]
  rfl

theorem run_item?_more {c : Cursor} (g : Grammar)
    (more : (c.rest.headD endOfSource).kind ≠ .done) :
    (item? g).run c = (do return some (← g.statement) : Parse (Option (List Stmt))).run c := by
  change (if (c.rest.headD endOfSource).kind = .done then _ else _ : Parse _).run c = _
  rw [if_neg more]

/-- The statements of a text that is read to its end, where another text follows it. -/
theorem repeated_item?_through {g g' : Grammar} (tracked : g.Tracked g') {S : Stretch}
    (live : ∀ l ∈ S.first, l.kind ≠ .done)
    (ends : (S.behind.headD endOfSource).kind = .done) {steps i : Nat} {c c' d : Cursor}
    {items : List (List Stmt)} (place : S.At i c c') (enough : c.rest.length < steps)
    (run : (Parse.repeated (item? g) steps).run c = .ok (items, d)) :
    ∃ n items' d', S.At S.first.length d d' ∧
      items.map (List.map Stmt.unlined) = items'.map (List.map Stmt.unlined) ∧
      PassAlike c c' d d' ∧ i + n ≤ S.first.length ∧
      ∀ k, (Parse.repeated (item? g') (n + k)).run c' =
        ((items' ++ ·) <$> Parse.repeated (item? g') k).run d' := by
  induction steps generalizing i c c' items with
  | zero => exact absurd enough (Nat.not_lt_zero _)
  | succ steps ih =>
    have before := place.inside
    obtain ⟨result, e, run₁, run⟩ := Parse.bind_run_ok run
    by_cases more : i < S.first.length
    · have going : (c.rest.headD endOfSource).kind ≠ .done := by
        rw [place.first, List.drop_eq_getElem_cons more, List.cons_append, List.headD_cons]
        exact live _ (List.getElem_mem more)
      have going' : (c'.rest.headD endOfSource).kind ≠ .done := by
        rw [(place.head more).eq_with_line]
        exact going
      rw [run_item?_more g going] at run₁
      obtain ⟨a, e, run₁, ended⟩ := Parse.bind_run_ok run₁
      cases ended
      obtain ⟨others, e₂, run₂, ended⟩ := Parse.bind_run_ok run
      cases ended
      obtain ⟨m, one, reads⟩ := (tracked.statement []).reads c a e run₁
      have one : 1 ≤ m := one
      -- the end of the source is not read
      have inside : i + m ≤ S.first.length := by
        have within := reads.inside place.first ends
        rw [List.length_drop] at within
        omega
      obtain ⟨a', e', run₁', place', same, declared⟩ :=
        (tracked.statement []).follows S i m c c' e a
          (fun _ member => absurd member List.not_mem_nil) place run₁ reads inside
      have left := reads.length
      obtain ⟨n, items', d', place'', same', declared', bound, again⟩ :=
        ih place' (by omega) run₂
      refine ⟨n + 1, a' :: items', d', place'', ?_, declared.trans declared', by omega, ?_⟩
      · rw [List.map_cons, List.map_cons, same, same']
      · intro k
        rw [Nat.add_right_comm, Parse.repeated, StateT.run_bind, run_item?_more g' going',
          StateT.run_bind, run₁']
        change (do return a' :: (← Parse.repeated (item? g') (n + k)) : Parse _).run e' = _
        rw [StateT.run_bind, again, StateT.run_map, StateT.run_map]
        cases (Parse.repeated (item? g') k).run d' <;> rfl
    · have last : i = S.first.length := by omega
      subst last
      have left : c.rest = S.behind := by
        rw [place.first, List.drop_length, List.nil_append]
      rw [run_item?_done g (by rw [left]; exact ends)] at run₁
      cases run₁
      cases run
      refine ⟨0, [], c', place, rfl, .refl _ c', by omega, fun k => ?_⟩
      rw [Nat.zero_add]
      simp

end RequestSchema.Source
