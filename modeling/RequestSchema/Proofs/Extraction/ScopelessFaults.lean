import RequestSchema.Extraction.Scope

/-!
# Faults do not depend on variables

What a statement does to the variables depends on them, but not whether it can be followed:
every part of an expression is evaluated whatever the variables hold, and the only parts with a
fault are field names and rule values, which mention no variable.

* `assign_fault`: an expression has the same fault in every scope;
* `returnedRules_fault`: so has the value that a method returns.
-/
namespace RequestSchema

def Except.fault? {α : Type} : Except Fault α → Option Fault
  | .ok _ => none
  | .error fault => some fault

def Emit.fault? {ε α : Type} (m : Emit ε α) : Option Fault := Except.fault? m.outcome

namespace Emit

variable {ε α α' β β' : Type}

theorem fault?_eq_none {m : Emit ε α} : m.fault? = none ↔ ∃ a, m.outcome = .ok a := by
  unfold fault?
  cases m.outcome with
  | ok a => simp [Except.fault?]
  | error fault => simp [Except.fault?]

theorem fault?_eq_some {m : Emit ε α} {fault : Fault} :
    m.fault? = some fault ↔ m.outcome = .error fault := by
  unfold fault?
  cases m.outcome with
  | ok a => simp [Except.fault?]
  | error fault' => simp [Except.fault?]

theorem outcome_bind (m : Emit ε α) (f : α → Emit ε β) :
    (m >>= f).outcome = m.outcome >>= fun a => (f a).outcome := by
  cases ends : m.outcome with
  | ok a => rw [bind_ok f ends]; rfl
  | error fault => rw [bind_error f ends]; rfl

/-- Computations with the same fault, continued by such, have the same fault. -/
theorem fault?_bind {m : Emit ε α} {m' : Emit ε α'} {f : α → Emit ε β} {f' : α' → Emit ε β'}
    (first : m.fault? = m'.fault?) (second : ∀ a a', (f a).fault? = (f' a').fault?) :
    (m >>= f).fault? = (m' >>= f').fault? := by
  cases ends : m.outcome with
  | ok a =>
    have passes : m'.fault? = none := by rw [← first]; exact fault?_eq_none.mpr ⟨a, ends⟩
    obtain ⟨a', ends'⟩ := fault?_eq_none.mp passes
    rw [bind_ok f ends, bind_ok f' ends']
    exact second a a'
  | error fault =>
    have stops : m'.fault? = some fault := by rw [← first]; exact fault?_eq_some.mpr ends
    rw [bind_error f ends, bind_error f' (fault?_eq_some.mp stops)]
    rfl

/-- Continuations with the same fault, behind the same computation. -/
theorem fault?_bind_same {m : Emit ε α} {f : α → Emit ε β} {f' : α → Emit ε β'}
    (second : ∀ a, (f a).fault? = (f' a).fault?) : (m >>= f).fault? = (m >>= f').fault? := by
  cases ends : m.outcome with
  | ok a =>
    rw [bind_ok f ends, bind_ok f' ends]
    exact second a
  | error fault =>
    rw [bind_error f ends, bind_error f' ends]
    rfl

theorem fault?_map (m : Emit ε α) (f : α → β) : (f <$> m).fault? = m.fault? := by
  rw [map_eq_pure_bind]
  cases ends : m.outcome with
  | ok a =>
    rw [bind_ok _ ends]
    exact (fault?_eq_none.mpr ⟨a, ends⟩).symm
  | error fault =>
    rw [bind_error _ ends]
    exact (fault?_eq_some.mpr ends).symm

end Emit

namespace Extraction

open Source Emit

variable {helpers : Helpers} (scope scope' : Scope)

mutual

/-- Whether the rule set of an expression can be read is the same in every scope. -/
theorem ruleSet?_fault :
    ∀ e, (ruleSet? helpers scope e).fault? = (ruleSet? helpers scope' e).fault?
  | .parens _ inner => ruleSet?_fault inner
  | .array _ entries => by
    rw [ruleSet?, ruleSet?, fault?_map, fault?_map]
    exact entryRules_fault entries .empty .empty
  | .call _ callee arguments => by
    rw [ruleSet?, ruleSet?]
    split
    · rw [fault?_map, fault?_map]
      exact mergedRules_fault arguments .empty .empty
    · rfl
  | .method _ receiver name _ => by rw [ruleSet?, ruleSet?]
  | .select _ results => by
    rw [ruleSet?, ruleSet?, fault?_map, fault?_map]
    exact firstRules_fault results
  | .binary _ operator left right => by
    rw [ruleSet?, ruleSet?]
    split
    · refine fault?_bind (ruleSet?_fault left) fun a a' => ?_
      exact fault?_bind (ruleSet?_fault right) fun b b' => rfl
    · rfl
  | .var text => rfl
  | .ternary _ => by rw [ruleSet?, ruleSet?]
  | .string _ | .template _ | .heredoc _ | .integer _ | .float _ | .constant _ | .null _
  | .unary .. | .static .. | .construct .. | .classConstant _ | .member _ | .index .. | .assign ..
  | .augment .. | .other _ => rfl

theorem entryRules_fault :
    ∀ (entries : List Entry) (rules rules' : RuleSet),
      (entryRules helpers scope entries rules).fault? =
        (entryRules helpers scope' entries rules').fault?
  | [], _, _ => rfl
  | .item _ :: rest, rules, rules' => entryRules_fault rest rules rules'
  | .spread value :: rest, _, _ =>
    fault?_bind (ruleSet?_fault value) fun _ _ => entryRules_fault rest _ _
  | .pair key value :: rest, rules, rules' => by
    rw [entryRules, entryRules]
    refine fault?_bind_same fun name? => ?_
    split
    · exact entryRules_fault rest rules rules'
    · refine fault?_bind_same fun v? => ?_
      cases v? with
      | none => exact entryRules_fault rest rules rules'
      | some v => exact entryRules_fault rest _ _

theorem mergedRules_fault :
    ∀ (arguments : List Expr) (rules rules' : RuleSet),
      (mergedRules helpers scope arguments rules).fault? =
        (mergedRules helpers scope' arguments rules').fault?
  | [], _, _ => rfl
  | e :: rest, _, _ => fault?_bind (ruleSet?_fault e) fun _ _ => mergedRules_fault rest _ _

theorem firstRules_fault :
    ∀ results : List Expr,
      (firstRules helpers scope results).fault? = (firstRules helpers scope' results).fault?
  | [] => by rw [firstRules, firstRules]
  | e :: _ => fault?_bind (ruleSet?_fault e) fun _ _ => rfl

end

theorem assign_fault (e : Expr) :
    (assign helpers e scope).fault? = (assign helpers e scope').fault? := by
  unfold assign
  split
  · refine fault?_bind (ruleSet?_fault scope scope' _) fun rules? rules?' => ?_
    cases rules? with
    | none => cases rules?' <;> rfl
    | some rules => cases rules?' <;> rfl
  · refine fault?_bind_same fun name? => ?_
    split
    · rfl
    · refine fault?_bind_same fun v? => ?_
      cases v? with
      | none => rfl
      | some v => rfl
  · split
    · refine fault?_bind (ruleSet?_fault scope scope' _) fun rules? rules?' => ?_
      cases rules? with
      | none => cases rules?' <;> rfl
      | some rules => cases rules?' <;> rfl
    · rfl
  · rfl

theorem returnedRules_fault (label : String) (line : Nat) (value : Option Expr) :
    (returnedRules label helpers line value scope).fault? =
      (returnedRules label helpers line value scope').fault? := by
  unfold returnedRules
  split
  · rfl
  · refine fault?_bind (ruleSet?_fault scope scope' _) fun rules? rules?' => ?_
    -- whatever has been read, only a warning may follow
    simp only
    split
    all_goals
      split
      all_goals rfl

end Extraction

end RequestSchema
