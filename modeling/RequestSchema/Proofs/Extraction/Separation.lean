import RequestSchema.Proofs.Extraction.Following
import RequestSchema.Proofs.Extraction.PathReading

/-!
# Live paths do not influence each other

* `runBlock_apart`: as long as no path is dropped, running statements over two lists of live paths
  leaves the paths that the runs over either list leave, one list behind the other, and makes the
  branches of both runs.

A statement runs over all live paths before the next one does. So the branches of the two lists come
interleaved, and a joint run may stop with the fault of either run. `Separates` is the invariant of
the induction over statements: a choice lets each path through its arms by itself, and only the
limit behind it counts the paths of both lists.
-/
namespace RequestSchema.Extraction

open RequestSchema.Source

/-- As long as it drops no path, a computation finds what two others find: the values of the first
and then those of the second one, and the branches of both in some order. It stops only with a fault
of one of them. -/
structure Separates {α : Type} (joint first second : Paths (List α)) : Prop where
  ends : .truncated ∉ joint.events → ∀ xs, joint.outcome = .ok xs →
    ∃ ys zs, first.outcome = .ok ys ∧ second.outcome = .ok zs ∧ xs = ys ++ zs ∧
      (branchesOf joint.events).Perm (branchesOf first.events ++ branchesOf second.events)
  stops : .truncated ∉ joint.events → ∀ fault, joint.outcome = .error fault →
    first.outcome = .error fault ∨ second.outcome = .error fault

namespace Separates

variable {α β γ : Type}

theorem of_ok {joint first second : Paths (List α)} {ys zs : List α}
    (whole : joint.outcome = .ok (ys ++ zs)) (left : first.outcome = .ok ys)
    (right : second.outcome = .ok zs)
    (branches : (branchesOf joint.events).Perm
      (branchesOf first.events ++ branchesOf second.events)) :
    Separates joint first second := by
  constructor
  · intro _ xs ended
    cases whole.symm.trans ended
    exact ⟨ys, zs, left, right, rfl, branches⟩
  · intro _ fault stopped
    cases whole.symm.trans stopped

theorem of_error {joint first second : Paths (List α)} {fault : Fault}
    (whole : joint.outcome = .error fault)
    (part : .truncated ∉ joint.events →
      first.outcome = .error fault ∨ second.outcome = .error fault) :
    Separates joint first second := by
  constructor
  · intro _ xs ended
    cases whole.symm.trans ended
  · intro untruncated fault' stopped
    cases whole.symm.trans stopped
    exact part untruncated

/-- A computation beside one that finds nothing. -/
theorem nothing_before (m : Paths (List α)) : Separates m (pure []) m := by
  constructor
  · intro _ xs ended
    exact ⟨[], xs, rfl, ended, rfl, List.Perm.refl _⟩
  · intro _ fault stopped
    exact .inr stopped

theorem nothing_behind (m : Paths (List α)) : Separates m m (pure []) := by
  constructor
  · intro _ xs ended
    refine ⟨xs, [], ended, rfl, (List.append_nil xs).symm, ?_⟩
    rw [show branchesOf (pure [] : Paths (List α)).events = [] from rfl, List.append_nil]
  · intro _ fault stopped
    exact .inl stopped

/-- Two computations one after the other, whose values are joined. -/
theorem both (g : α → List γ) (g' : β → List γ) (m : Paths α) (m' : Paths β) :
    Separates (do let a ← m; let b ← m'; return g a ++ g' b) (do return g (← m))
      (do return g' (← m')) := by
  cases first : m.outcome with
  | error fault =>
    rw [Emit.bind_error _ first, Emit.bind_error _ first]
    exact of_error rfl fun _ => .inl rfl
  | ok a =>
    rw [Emit.bind_ok _ first, Emit.bind_ok _ first]
    cases second : m'.outcome with
    | error fault =>
      rw [Emit.bind_error _ second, Emit.bind_error _ second]
      exact of_error rfl fun _ => .inr rfl
    | ok b =>
      rw [Emit.bind_ok _ second, Emit.bind_ok _ second]
      apply of_ok rfl rfl rfl
      simp [Emit.after, pure, branchesOf_append]

theorem mapM (f : α → Paths β) (xs ys : List α) :
    Separates ((xs ++ ys).mapM f) (xs.mapM f) (ys.mapM f) := by
  rw [List.mapM_append]
  simpa using both id id (xs.mapM f) (ys.mapM f)

/-- A computation over each live path that leaves none. -/
theorem forM (f : α → Paths Unit) (xs ys : List α) :
    Separates (do (xs ++ ys).forM f; return ([] : List γ)) (do xs.forM f; return [])
      (do ys.forM f; return []) := by
  have joined := both (fun _ => ([] : List γ)) (fun _ => []) (xs.forM f) (ys.forM f)
  simpa only [List.forM_eq_forM, List.forM_append, bind_assoc, List.append_nil] using joined

/-- Computations go on separately if their continuations are separate, whatever has been found. -/
theorem bind {joint first second : Paths (List α)} {k : List α → Paths (List β)}
    (separate : Separates joint first second)
    (continued : ∀ xs ys, Separates (k (xs ++ ys)) (k xs) (k ys)) :
    Separates (joint >>= k) (first >>= k) (second >>= k) := by
  cases ended : joint.outcome with
  | error fault =>
    rw [Emit.bind_error k ended]
    refine of_error rfl fun untruncated => ?_
    rcases separate.stops untruncated fault ended with left | right
    · exact .inl (by rw [Emit.bind_error k left])
    · exact .inr (by rw [Emit.bind_error k right])
  | ok xs =>
    rw [Emit.bind_ok k ended]
    constructor
    · intro untruncated live passed
      obtain ⟨before, behind⟩ := untruncated_after.mp untruncated
      obtain ⟨ys, zs, left, right, rfl, branches⟩ := separate.ends before xs ended
      obtain ⟨us, vs, left', right', rfl, branches'⟩ := (continued ys zs).ends behind live passed
      rw [Emit.bind_ok k left, Emit.bind_ok k right]
      refine ⟨us, vs, left', right', rfl, ?_⟩
      simp only [Emit.after, branchesOf_append]
      apply (branches.append branches').trans
      -- the second computation has run before the first one goes on
      simp only [List.append_assoc]
      exact (List.perm_append_comm_assoc _ _ _).append_left _
    · intro untruncated fault stopped
      obtain ⟨before, behind⟩ := untruncated_after.mp untruncated
      obtain ⟨ys, zs, left, right, rfl, -⟩ := separate.ends before xs ended
      rw [Emit.bind_ok k left, Emit.bind_ok k right]
      exact (continued ys zs).stops behind fault stopped

end Separates

/-- The limit drops no path exactly when there are no more than it. -/
theorem untruncated_limited (ctx : PathContext) (states : List PathState) :
    .truncated ∉ (limited ctx states).events ↔ ∀ n ∈ ctx.limit, states.length ≤ n := by
  unfold limited
  cases ctx.limit with
  | none => simp [pure]
  | some n =>
    by_cases many : n < states.length
    · refine iff_of_false (fun kept => kept ?_) (by simpa using many)
      simp only [if_pos many]
      exact Emit.mem_events_bind.mpr (.inl List.mem_cons_self)
    · simp [many, pure, Nat.le_of_not_lt many]

/-- Where the paths of both lists are within the limit, so are those of each. -/
theorem limited_separates (ctx : PathContext) (first second : List PathState) :
    Separates (limited ctx (first ++ second)) (limited ctx first) (limited ctx second) := by
  by_cases untruncated : .truncated ∉ (limited ctx (first ++ second)).events
  · have within := (untruncated_limited ctx _).mp untruncated
    simp only [List.length_append] at within
    have part (states : List PathState) (few : states.length ≤ first.length + second.length) :
        limited ctx states = pure states := by
      apply limited_untruncated
      rw [untruncated_limited]
      intro n limit
      have := within n limit
      omega
    rw [limited_untruncated ctx _ untruncated, part first (by omega), part second (by omega)]
    exact .of_ok rfl rfl rfl (List.Perm.refl _)
  · exact ⟨fun kept => absurd kept untruncated, fun kept => absurd kept untruncated⟩

/-- A choice is met by both lists of paths, and by each. -/
theorem Separates.announced {joint first second : Paths (List PathState)}
    (separate : Separates joint first second) :
    Separates (joint.after [.choice]) (first.after [.choice]) (second.after [.choice]) := by
  constructor
  · intro untruncated
    exact separate.ends (untruncated_after.mp untruncated).2
  · intro untruncated
    exact separate.stops (untruncated_after.mp untruncated).2

/-- Every path goes through the arms by itself, and the limit counts the paths of both lists. -/
theorem choice_separates (ctx : PathContext) (arms : List Arm) (first second : List PathState) :
    Separates (runStatement ctx (.choice arms) (first ++ second))
      (runStatement ctx (.choice arms) first) (runStatement ctx (.choice arms) second) := by
  simp only [runStatement_choice]
  apply Separates.announced
  apply (Separates.mapM (followArms ctx arms) first second).bind
  intro ends ends'
  rw [List.flatten_append]
  exact limited_separates ctx ends.flatten ends'.flatten

mutual

theorem runStatement_separates (ctx : PathContext) :
    ∀ (s : Stmt) (first second : List PathState),
      Separates (runStatement ctx s (first ++ second)) (runStatement ctx s first)
        (runStatement ctx s second)
  | .expression _, first, second => .mapM _ first second
  | .result line value, first, second => .forM (returnBranch ctx line value) first second
  | .choice arms, first, second => choice_separates ctx arms first second
  | .block body, first, second => runBlock_separates ctx body first second
  | .loop body _, first, second => runBlock_separates ctx body first second
  | .attempt body _, first, second => runBlock_separates ctx body first second
  | .other, _, _ => .of_ok rfl rfl rfl (List.Perm.refl _)

/-- As long as no path is dropped, the paths of two lists do not influence each other. -/
theorem runBlock_separates (ctx : PathContext) :
    ∀ (body : List Stmt) (first second : List PathState),
      Separates (runBlock ctx body (first ++ second)) (runBlock ctx body first)
        (runBlock ctx body second)
  | [], _, _ => .of_ok rfl rfl rfl (List.Perm.refl _)
  -- statements do not run over no paths at all, so a list without paths is told apart
  | s :: rest, [], second => .nothing_before (runBlock ctx (s :: rest) second)
  | s :: rest, state :: more, [] => by
    rw [List.append_nil]
    exact .nothing_behind _
  | s :: rest, state :: more, state' :: more' =>
    (runStatement_separates ctx s (state :: more) (state' :: more')).bind
      (runBlock_separates ctx rest)

end

/-- As long as no path is dropped, running statements over the paths of two lists leaves the paths
that the runs over either list leave, those of the first list in front, and makes the branches of
both runs, in some order. It has a fault only if one of these runs has it. -/
theorem runBlock_apart (ctx : PathContext) (body : List Stmt) (first second : List PathState)
    (untruncated : .truncated ∉ (runBlock ctx body (first ++ second)).events) :
    match (runBlock ctx body (first ++ second)).outcome with
    | .ok live => ∃ live₁ live₂,
        (runBlock ctx body first).outcome = .ok live₁ ∧
        (runBlock ctx body second).outcome = .ok live₂ ∧
        live = live₁ ++ live₂ ∧
        (branchesOf (runBlock ctx body (first ++ second)).events).Perm
          (branchesOf (runBlock ctx body first).events ++
            branchesOf (runBlock ctx body second).events)
    | .error fault =>
        (runBlock ctx body first).outcome = .error fault ∨
          (runBlock ctx body second).outcome = .error fault := by
  have separate := runBlock_separates ctx body first second
  cases ended : (runBlock ctx body (first ++ second)).outcome with
  | ok live => exact separate.ends untruncated live ended
  | error fault => exact separate.stops untruncated fault ended

/-- A method that adds a field when a test holds, and returns when another one does. -/
def partlyReturned : Method :=
  { name := "rules", line := 1, text := ""
    body := some [.choice [
      .arm (some (.test (.other "$a")))
        [.expression (.assign "" (.index "" (.var "$r") (some (.string "'b'")))
          (.string "'date'"))],
      .arm (some (.test (.other "$b"))) [.result 3 (some (.var "$r"))]]] }

/-- A path on which a variable holds the rules of one field. -/
def pathWithField (name : String) : PathState :=
  { scope := .ofList [("r", .ofList [(.text name, .text "required")])] }

theorem partlyReturned_apart :
    let run := runBlock (methodContext "" ⟨1, []⟩ 3 [] partlyReturned) (partlyReturned.body.getD [])
    ∃ live₁ live₂,
      (run [pathWithField "a"]).outcome = .ok live₁ ∧ live₁.length = 2 ∧
      (run [pathWithField "b"]).outcome = .ok live₂ ∧ live₂.length = 2 ∧
      (run [pathWithField "a", pathWithField "b"]).outcome = .ok (live₁ ++ live₂) ∧
      (branchesOf (run [pathWithField "a", pathWithField "b"]).events).Perm
        (branchesOf (run [pathWithField "a"]).events ++
          branchesOf (run [pathWithField "b"]).events) := by
  intro run
  have events : ∃ b b', (run [pathWithField "a", pathWithField "b"]).events =
      [.choice, .branch b, .branch b'] := ⟨_, _, rfl⟩
  have untruncated : .truncated ∉ (run [pathWithField "a", pathWithField "b"]).events := by
    obtain ⟨b, b', events⟩ := events
    simp [events]
  obtain ⟨_, _, -, -, -, branches⟩ :=
    runBlock_apart _ _ [pathWithField "a"] [pathWithField "b"] untruncated
  exact ⟨_, _, rfl, rfl, rfl, rfl, rfl, branches⟩

end RequestSchema.Extraction
