import Mathlib.Data.Finset.Card
import RequestSchema.Extraction.Paths

/-!
# Helper calls

Where helper calls stand is told by how many more are followed into each other and by the
names of the methods that are being followed (`CallState`). A call is followed if
`CallState.enter?` says so, and only there does the reading of a method depend on the count
(`CallState.helpers_eq`).

Each call that is followed enters a method whose name, in lower case, is not among those that
are being followed, and puts it there (`enter?_eq_some`). So along a chain of calls no method
is entered twice, and there are no more calls than other names (`Chain.bounded`). The names
that are left also bound the recursion when calls are not counted at all
(`unboundedHelpers`), and a count that is not below their number does not matter
(`helpersOf_eq_unbounded`).
-/
namespace RequestSchema.Extraction

open RequestSchema.Text RequestSchema.Source

/-- The rules of a method whose helper calls have the given rules. -/
def rulesWith (label : String) (helpers : Helpers) (m : Method) : Logged RuleSet :=
  match m.body with
  | none => return .empty
  | some body => bodyRules label helpers body

/-! ## Chains of calls -/

/-- How many more calls are followed into each other, and the names, in lower case, of the
methods that are being followed. -/
structure CallState where
  left : Nat
  entered : List String

namespace CallState

/-- Where the calls of a method stand that has been entered from outside. -/
def start (depth : Int) (m : Method) : CallState := ⟨depth.toNat, [lower m.name]⟩

/-- The method that a call enters, and where the calls of that method stand; none when the
call is not followed. -/
def enter? (c : ClassBody) (s : CallState) (name : String) : Option (Method × CallState) :=
  match s.left with
  | 0 => none
  | left + 1 =>
      if lower name ∈ s.entered then none
      else (c.method? name).map fun m => (m, ⟨left, lower name :: s.entered⟩)

/-- The rules that helper calls have where they stand. -/
def helpers (label : String) (c : ClassBody) (s : CallState) : Helpers :=
  helpersOf label c s.left s.entered

/-- A call that is followed has the rules of the method that it enters. -/
theorem helpers_eq (label : String) (c : ClassBody) (s : CallState) (name : String) :
    s.helpers label c name = match s.enter? c name with
      | none => return none
      | some (m, next) => some <$> rulesWith label (next.helpers label c) m := by
  obtain ⟨left, entered⟩ := s
  cases left with
  | zero => rfl
  | succ left =>
    simp only [helpers, helpersOf, enter?, List.contains_iff_mem]
    by_cases following : lower name ∈ entered
    · rw [if_pos following, if_pos following]
    · rw [if_neg following, if_neg following]
      cases c.method? name with
      | none => rfl
      | some m => rfl

end CallState

/-- The method that a call of a name enters is one of the class, and has this name in some
case. -/
theorem method?_eq_some {c : ClassBody} {name : String} {m : Method}
    (found : c.method? name = some m) : m ∈ c.methods ∧ lower m.name = lower name :=
  ⟨List.mem_of_find?_eq_some found, by simpa using List.find?_some found⟩

/-- A call that is followed takes one from the count and enters a method of the class that is
not being followed. -/
theorem enter?_eq_some {c : ClassBody} {s next : CallState} {name : String} {m : Method}
    (enters : s.enter? c name = some (m, next)) :
    s.left = next.left + 1 ∧ m ∈ c.methods ∧ lower m.name ∉ s.entered ∧
      next.entered = lower m.name :: s.entered := by
  unfold CallState.enter? at enters
  split at enters
  · cases enters
  · rename_i left count
    split at enters
    · cases enters
    · rename_i new
      obtain ⟨m', found, same⟩ := Option.map_eq_some_iff.mp enters
      obtain ⟨rfl, rfl⟩ := Prod.mk.inj same
      obtain ⟨member, named⟩ := method?_eq_some found
      rw [named]
      exact ⟨count, member, new, rfl⟩

/-- Methods that are entered one from the other, each by a call that is followed where the
calls of the one before it stand. -/
inductive Chain (c : ClassBody) : CallState → List Method → Prop
  | done {s} : Chain c s []
  | call {s next name m rest} (enters : s.enter? c name = some (m, next))
      (behind : Chain c next rest) : Chain c s (m :: rest)

def methodNames (c : ClassBody) : Finset String := (c.methods.map fun m => lower m.name).toFinset

theorem mem_methodNames {c : ClassBody} {m : Method} (member : m ∈ c.methods) :
    lower m.name ∈ methodNames c :=
  List.mem_toFinset.mpr (List.mem_map_of_mem member)

def otherNames (c : ClassBody) (entered : List String) : Finset String :=
  methodNames c \ entered.toFinset

/-- Following one more method leaves fewer names. -/
theorem card_otherNames_lt {c : ClassBody} {entered : List String} {name : String}
    (named : name ∈ methodNames c) (new : name ∉ entered) :
    (otherNames c (name :: entered)).card < (otherNames c entered).card := by
  have other : name ∈ otherNames c entered :=
    Finset.mem_sdiff.mpr ⟨named, mt List.mem_toFinset.mp new⟩
  have erased : otherNames c (name :: entered) = (otherNames c entered).erase name := by
    simp only [otherNames, List.toFinset_cons, Finset.sdiff_insert]
  rw [erased]
  exact Finset.card_erase_lt_of_mem other

/-- The names that are left when one method is followed. -/
theorem card_otherNames_singleton {c : ClassBody} {m : Method} (member : m ∈ c.methods) :
    (otherNames c [lower m.name]).card = (methodNames c).card - 1 := by
  have erased : otherNames c [lower m.name] = (methodNames c).erase (lower m.name) := by
    simp only [otherNames, List.toFinset_cons, List.toFinset_nil, insert_empty_eq,
      Finset.sdiff_singleton_eq_erase]
  rw [erased, Finset.card_erase_of_mem (mem_methodNames member)]

/-- A chain of calls enters different methods, none of which is being followed before, and is
no longer than the count and the names that are left allow. -/
theorem Chain.bounded {c : ClassBody} {s : CallState} {ms : List Method} (chain : Chain c s ms) :
    (ms.map fun m => lower m.name).Nodup ∧ (∀ m ∈ ms, lower m.name ∉ s.entered) ∧
      ms.length ≤ s.left ∧ ms.length ≤ (otherNames c s.entered).card := by
  induction chain with
  | done =>
    exact ⟨.nil, fun m member => absurd member List.not_mem_nil, Nat.zero_le _, Nat.zero_le _⟩
  | @call s next name m rest enters _ ih =>
    obtain ⟨count, member, new, entered⟩ := enter?_eq_some enters
    obtain ⟨distinct, unfollowed, short, few⟩ := ih
    rw [entered] at unfollowed few
    have fewer := card_otherNames_lt (mem_methodNames member) new
    refine ⟨?_, ?_, ?_, ?_⟩
    · refine List.nodup_cons.mpr ⟨fun again => ?_, distinct⟩
      obtain ⟨m', member', same⟩ := List.mem_map.mp again
      exact unfollowed m' member' (same ▸ List.mem_cons_self)
    · intro m' member'
      rcases List.mem_cons.mp member' with rfl | later
      · exact new
      · exact fun following => unfollowed m' later (List.mem_cons_of_mem _ following)
    · rw [List.length_cons]
      omega
    · rw [List.length_cons]
      omega

/-! ## Calls without a count -/

/-- The rules of the helper methods of a class when every call is followed but those into
methods that are being followed. The names that are left are what the recursion uses up. -/
def unboundedHelpers (label : String) (c : ClassBody) (entered : List String) : Helpers :=
  fun name =>
    if _new : lower name ∈ entered then return none
    else match _found : c.method? name with
      | none => return none
      | some m => some <$> rulesWith label (unboundedHelpers label c (lower name :: entered)) m
termination_by (otherNames c entered).card
decreasing_by
  obtain ⟨member, named⟩ := method?_eq_some _found
  exact card_otherNames_lt (named ▸ mem_methodNames member) _new

/-- What one call is when calls are not counted. -/
theorem unboundedHelpers_eq (label : String) (c : ClassBody) (entered : List String)
    (name : String) :
    unboundedHelpers label c entered name =
      if lower name ∈ entered then return none
      else match c.method? name with
        | none => return none
        | some m =>
            some <$> rulesWith label (unboundedHelpers label c (lower name :: entered)) m := by
  rw [unboundedHelpers]
  split
  · rfl
  · split
    · rename_i absent
      rw [absent]
    · rename_i m found
      rw [found]

/-- The rules of a method when every helper call is followed but those into methods that are
being followed. -/
def unboundedRules (label : String) (c : ClassBody) (m : Method) : Logged RuleSet :=
  rulesWith label (unboundedHelpers label c [lower m.name]) m

/-- When every method is being followed, a call finds none. -/
theorem method?_of_exhausted {c : ClassBody} {entered : List String} {name : String}
    (exhausted : (otherNames c entered).card = 0) (new : lower name ∉ entered) :
    c.method? name = none := by
  cases found : c.method? name with
  | none => rfl
  | some m =>
    obtain ⟨member, named⟩ := method?_eq_some found
    have fewer := card_otherNames_lt (named ▸ mem_methodNames member) new
    omega

/-- Where the count is not below the number of names that are left, it does not matter. -/
theorem helpersOf_eq_unbounded {label : String} {c : ClassBody} {depth : Nat}
    {entered : List String} (enough : (otherNames c entered).card ≤ depth) :
    helpersOf label c depth entered = unboundedHelpers label c entered := by
  induction depth generalizing entered with
  | zero =>
    funext name
    rw [unboundedHelpers_eq]
    by_cases following : lower name ∈ entered
    · rw [if_pos following]
      rfl
    · rw [if_neg following, method?_of_exhausted (Nat.le_zero.mp enough) following]
      rfl
  | succ depth ih =>
    funext name
    have step := CallState.helpers_eq label c ⟨depth + 1, entered⟩ name
    rw [unboundedHelpers_eq]
    by_cases following : lower name ∈ entered
    · simp only [CallState.helpers, CallState.enter?, if_pos following] at step
      rw [step, if_pos following]
    · simp only [CallState.helpers, CallState.enter?, if_neg following] at step
      rw [step, if_neg following]
      cases found : c.method? name with
      | none => rfl
      | some m =>
        obtain ⟨member, named⟩ := method?_eq_some found
        have fewer := card_otherNames_lt (named ▸ mem_methodNames member) following
        have same : helpersOf label c depth (lower name :: entered) =
            unboundedHelpers label c (lower name :: entered) := ih (by omega)
        simp only [Option.map_some, same]

theorem card_methodNames_le (c : ClassBody) : (methodNames c).card ≤ c.methods.length := by
  have names := List.toFinset_card_le (c.methods.map fun m => lower m.name)
  rwa [List.length_map] at names

/-- With a count of at least the number of methods, every helper call of a method is followed
but those into methods that are being followed. -/
theorem helpersFor_eq_unbounded (label : String) {c : ClassBody} {m : Method} {depth : Int}
    (member : m ∈ c.methods) (enough : (c.methods.length : Int) ≤ depth) :
    helpersFor label c depth m = unboundedHelpers label c [lower m.name] := by
  refine helpersOf_eq_unbounded ?_
  have left := card_otherNames_singleton member
  have names := card_methodNames_le c
  omega

theorem methodRules_eq_unbounded (label : String) {c : ClassBody} {m : Method} {depth : Int}
    (member : m ∈ c.methods) (enough : (c.methods.length : Int) ≤ depth) :
    methodRules label c depth m = unboundedRules label c m := by
  have read : methodRules label c depth m = rulesWith label (helpersFor label c depth m) m := rfl
  rw [read, helpersFor_eq_unbounded label member enough]
  rfl

/-- Reading a method follows chains of helper calls in which no method is entered twice, the
method itself included. A chain is no longer than the depth and the other names of methods
allow. From a depth of the number of methods on, the rules are those of the recursion without
a depth, so they are the same for all such depths. -/
theorem helperCalls_saturate (label : String) {c : ClassBody} {m : Method}
    (member : m ∈ c.methods) :
    (∀ (depth : Int) (ms : List Method), Chain c (.start depth m) ms →
      ((m :: ms).map fun m => lower m.name).Nodup ∧
        ms.length ≤ min depth.toNat ((methodNames c).card - 1)) ∧
    (∀ depth : Int, (c.methods.length : Int) ≤ depth →
      methodRules label c depth m = unboundedRules label c m) ∧
    ∀ depth depth' : Int, (c.methods.length : Int) ≤ depth → (c.methods.length : Int) ≤ depth' →
      methodRules label c depth m = methodRules label c depth' m := by
  refine ⟨fun depth ms chain => ?_, fun depth enough => ?_,
    fun depth depth' enough enough' => ?_⟩
  · obtain ⟨distinct, unfollowed, short, few⟩ := chain.bounded
    refine ⟨List.nodup_cons.mpr ⟨fun again => ?_, distinct⟩, Nat.le_min.mpr ⟨short, ?_⟩⟩
    · obtain ⟨m', member', same⟩ := List.mem_map.mp again
      exact unfollowed m' member' (same ▸ List.mem_singleton_self _)
    · rw [← card_otherNames_singleton member]
      exact few
  · exact methodRules_eq_unbounded label member enough
  · rw [methodRules_eq_unbounded label member enough,
      methodRules_eq_unbounded label member enough']

def ownCall (name : String) : Expr := .method ("$this->" ++ name ++ "()") (.var "$this") name []

def returning (name : String) (e : Expr) : Method := ⟨name, 1, "", some [.result 1 (some e)]⟩

def entryMethod : Method := returning "rules" (.call "" "array_merge" [ownCall "A", ownCall "b"])

def spreadMethod : Method :=
  returning "a" (.array "" [.spread (ownCall "B"), .pair (.string "'x'") (.string "'min:1'")])

def unionMethod : Method :=
  returning "B" (.binary "" "+" (.binary "" "+" (ownCall "Rules") (ownCall "a")) (ownCall "b"))

def mutualCalls : ClassBody :=
  ⟨1, [.method entryMethod, .method spreadMethod, .method unionMethod]⟩

theorem mutualCalls_saturate :
    entryMethod ∈ mutualCalls.methods ∧
      Chain mutualCalls (.start 7 entryMethod) [spreadMethod, unionMethod] ∧
      ((methodRules "f" mutualCalls 3 entryMethod).outcome.toOption.map OrderedMap.keys) =
        some [.text "x"] ∧
      [spreadMethod, unionMethod].length ≤ min 7 ((methodNames mutualCalls).card - 1) ∧
      methodRules "f" mutualCalls 3 entryMethod =
        methodRules "f" mutualCalls 1000000 entryMethod := by
  have member : entryMethod ∈ mutualCalls.methods := List.mem_cons_self
  have first : (CallState.start 7 entryMethod).enter? mutualCalls "A" =
      some (spreadMethod, ⟨6, ["a", "rules"]⟩) := rfl
  have second : CallState.enter? mutualCalls ⟨6, ["a", "rules"]⟩ "B" =
      some (unionMethod, ⟨5, ["b", "a", "rules"]⟩) := rfl
  have chain : Chain mutualCalls (.start 7 entryMethod) [spreadMethod, unionMethod] :=
    .call first (.call second .done)
  obtain ⟨bounded, -, same⟩ := helperCalls_saturate "f" member
  refine ⟨member, chain, by decide +kernel, (bounded 7 _ chain).2, ?_⟩
  exact same 3 1000000 (by decide) (by decide)

end RequestSchema.Extraction
