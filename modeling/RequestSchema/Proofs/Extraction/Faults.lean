import RequestSchema.Proofs.Analysis.Results
import RequestSchema.Proofs.Extraction.RuleReading
import RequestSchema.Proofs.OrderedMap.Writes

/-!
# Faults of reading rules

The rules of a method are read from its source unless a number in them stops the reading
(`methodRules_stopsAtNumber`): one that is the size of an upload and has no integer part
(`kilobytesOf_stopsAtNumber`), or one that becomes part of a text and has more digits than are
written (`Value.shown_stopsAtNumber`). Everything around them passes the fault on.
-/
namespace RequestSchema

open Source

/-- Whether the fault is that a number has no integer part or cannot be written. -/
def Fault.ofNumber : Fault → Bool
  | .infiniteInteger => true
  | .undefinedInteger => true
  | .numeralTooLong => true
  | _ => false

/-- If the computation has no result, then because of a number. -/
def StopsAtNumber {α : Type} (m : Except Fault α) : Prop :=
  ∀ fault, m = .error fault → fault.ofNumber = true

section

variable {α β σ : Type}

theorem stopsAtNumber_ok (x : α) : StopsAtNumber (.ok x) := fun _ stops => nomatch stops

theorem StopsAtNumber.bind {m : Except Fault α} {f : α → Except Fault β} (first : StopsAtNumber m)
    (second : ∀ x, StopsAtNumber (f x)) : StopsAtNumber (m >>= f) := by
  cases m with
  | ok x => exact second x
  | error fault =>
    intro fault' stops
    cases stops
    exact first fault rfl

theorem StopsAtNumber.map {m : Except Fault α} (stops : StopsAtNumber m) (f : α → β) :
    StopsAtNumber (f <$> m) := by
  rw [map_eq_pure_bind]
  exact stops.bind fun x => stopsAtNumber_ok (f x)

theorem StopsAtNumber.mapM {f : α → Except Fault β} {xs : List α}
    (each : ∀ x ∈ xs, StopsAtNumber (f x)) : StopsAtNumber (xs.mapM f) := by
  induction xs with
  | nil => exact stopsAtNumber_ok []
  | cons x rest ih =>
    have others := ih fun y member => each y (List.mem_cons_of_mem x member)
    rw [List.mapM_cons]
    refine (each x List.mem_cons_self).bind fun y => ?_
    exact others.bind fun ys => stopsAtNumber_ok (y :: ys)

theorem StopsAtNumber.foldlM {step : σ → α → Except Fault σ}
    (each : ∀ s x, StopsAtNumber (step s x)) (xs : List α) (s : σ) :
    StopsAtNumber (xs.foldlM step s) := by
  induction xs generalizing s with
  | nil => exact stopsAtNumber_ok s
  | cons x rest ih =>
    rw [List.foldlM_cons]
    exact (each s x).bind ih

theorem StopsAtNumber.option {f : α → Except Fault β} (each : ∀ x, StopsAtNumber (f x))
    (x? : Option α) : StopsAtNumber (x?.mapM f) := by
  cases x? with
  | none => exact stopsAtNumber_ok none
  | some x => exact (each x).map some

theorem StopsAtNumber.filterMapM {f : α → Except Fault (Option β)} {xs : List α}
    (each : ∀ x ∈ xs, StopsAtNumber (f x)) : StopsAtNumber (xs.filterMapM f) := by
  induction xs with
  | nil => exact stopsAtNumber_ok []
  | cons x rest ih =>
    have others := ih fun y member => each y (List.mem_cons_of_mem x member)
    rw [List.filterMapM_cons]
    refine (each x List.mem_cons_self).bind fun y? => ?_
    cases y? with
    | none => exact others
    | some y => exact others.bind fun ys => stopsAtNumber_ok (y :: ys)

end

/-! ## Numbers -/

theorem Binary64.truncate_stopsAtNumber (x : Binary64) : StopsAtNumber x.truncate := by
  cases x with
  | finite negative m e => exact stopsAtNumber_ok _
  | infinite negative | nan =>
    intro fault stops
    cases stops
    rfl

theorem Number.truncate_stopsAtNumber (n : Number) : StopsAtNumber n.truncate := by
  cases n with
  | int i => exact stopsAtNumber_ok i
  | float x => exact x.truncate_stopsAtNumber

theorem Number.text_stopsAtNumber (n : Number) : StopsAtNumber n.text := by
  intro fault stops
  unfold text at stops
  split at stops
  · cases stops
  · cases stops
    rfl

/-! ## Literals -/

mutual

/-- Whether a value can be that of a literal. -/
def Value.isLiteral : Value → Bool
  | .null => true
  | .bool _ => true
  | .number _ => true
  | .text _ => true
  | .list items => Value.allLiteral items
  | _ => false

def Value.allLiteral : List Value → Bool
  | [] => true
  | v :: rest => v.isLiteral && Value.allLiteral rest

end

theorem Value.allLiteral_iff (items : List Value) :
    allLiteral items = true ↔ ∀ v ∈ items, v.isLiteral = true := by
  induction items with
  | nil => simp [allLiteral]
  | cons v rest ih => simp [allLiteral, ih]

mutual

/-- A literal that holds no number can be shown. -/
theorem Value.shown_stopsAtNumber :
    ∀ v : Value, v.isLiteral = true → StopsAtNumber v.shown
  | .null, _ | .bool _, _ | .text _, _ => stopsAtNumber_ok _
  | .number n, _ => n.text_stopsAtNumber
  | .list items, literal =>
    (Value.shownItems_stopsAtNumber items literal).bind fun _ => stopsAtNumber_ok _

theorem Value.shownItems_stopsAtNumber :
    ∀ items : List Value, Value.allLiteral items = true → StopsAtNumber (Value.shownItems items)
  | [], _ => stopsAtNumber_ok _
  | v :: rest, literal => by
    obtain ⟨first, others⟩ := Bool.and_eq_true_iff.mp literal
    refine (v.shown_stopsAtNumber first).bind fun _ => ?_
    exact (Value.shownItems_stopsAtNumber rest others).bind fun _ => stopsAtNumber_ok _

end

theorem Value.display_stopsAtNumber {v : Value} (literal : v.isLiteral = true) :
    StopsAtNumber v.display := by
  cases v with
  | text s | source s => exact stopsAtNumber_ok s
  | null | bool b | number n | enumClass name | upload rule | list items | mapping entries
  | condition kind expression method | branch conditions rules shown | object truth shown =>
    exact Value.shown_stopsAtNumber _ literal

namespace Source

mutual

theorem Expr.all_isLiteral_value? : ∀ e : Expr, e.value?.all Value.isLiteral = true
  | .string text => by rw [Expr.value?, Option.all_some, Value.isLiteral]
  | .heredoc text => by
    rw [Expr.value?]
    cases Quotation.innerLines? text <;> rfl
  | .integer text => by
    rw [Expr.value?]
    cases integerLiteral? text <;> rfl
  | .float text => by
    rw [Expr.value?]
    cases floatLiteral? text <;> rfl
  | .constant text => by
    rw [Expr.value?]
    cases truthConstant? text <;> rfl
  | .parens _ inner => by
    rw [Expr.value?]
    exact inner.all_isLiteral_value?
  | .array _ entries => by
    rw [Expr.value?, Option.all_some, Value.isLiteral]
    exact allLiteral_entryValues entries
  | .unary text operand => by
    rw [Expr.value?]
    split
    · cases operand.value? with
      | none => rfl
      | some v => cases v <;> rfl
    · rfl
  | .var _ | .template _ | .null _ | .call .. | .method .. | .static .. | .construct ..
  | .classConstant _ | .member _ | .index .. | .binary .. | .select .. | .ternary _ | .assign ..
  | .augment .. | .other _ => by rw [Expr.value?] <;> simp

theorem allLiteral_entryValues :
    ∀ entries : List Entry, Value.allLiteral (entryValues entries) = true
  | [] => by rw [entryValues, Value.allLiteral]
  | .item e :: rest | .pair _ e :: rest => by
    have own := e.all_isLiteral_value?
    have others := allLiteral_entryValues rest
    rw [entryValues]
    cases read : e.value? with
    | none => exact others
    | some v =>
      rw [read] at own
      exact Bool.and_eq_true_iff.mpr ⟨own, others⟩
  | .spread _ :: rest => by
    rw [entryValues]
    exact allLiteral_entryValues rest

end

theorem Expr.isLiteral_of_value? {e : Expr} {v : Value} (read : e.value? = some v) :
    v.isLiteral = true := by
  have own := e.all_isLiteral_value?
  rwa [read] at own

/-- What the keys of an array stand for are literals. -/
theorem Expr.isLiteral_of_mem_keyedValues {e : Expr} {entry : String × Value}
    (member : entry ∈ e.keyedValues.entries) : entry.2.isLiteral = true := by
  unfold keyedValues at member
  split at member
  · obtain ⟨written, -, read⟩ := List.mem_filterMap.mp (OrderedMap.mem_of_mem_ofList member)
    split at read
    · rename_i key value
      obtain ⟨name, -, rfl⟩ := Option.map_eq_some_iff.mp read
      cases read : value.value? with
      | none => rfl
      | some v => exact isLiteral_of_value? read
    · cases read
  · cases member

end Source

namespace Extraction

/-! ## Rule values -/

theorem product?_stopsAtNumber (e : Expr) : StopsAtNumber (product? e) := by
  have literal (e : Expr) : StopsAtNumber (e.numberValue?.mapM Number.truncate) :=
    .option Number.truncate_stopsAtNumber _
  induction e using product?.induct with
  | case1 text inner ih =>
    rw [product?]
    exact ih
  | case2 text left right ihLeft ihRight =>
    rw [product?, if_pos rfl]
    refine ihLeft.bind fun a? => ihRight.bind fun b? => ?_
    split
    · exact stopsAtNumber_ok _
    · exact stopsAtNumber_ok _
  | case3 text operator left right other =>
    rw [product?, if_neg other]
    exact literal _
  | case4 e unparenthesized unary =>
    rw [product?]
    · exact literal e
    · exact unparenthesized
    · exact unary

/-- The size of an upload is the only number of which an integer is asked. -/
theorem kilobytesOf_stopsAtNumber (e : Expr) : StopsAtNumber (kilobytesOf e) := by
  refine (product?_stopsAtNumber e).bind fun n? => ?_
  cases n? with
  | some n => exact stopsAtNumber_ok _
  | none => exact .option Binary64.truncate_stopsAtNumber _

theorem limitUpload_stopsAtNumber (limits : UploadRule) (link : Link) :
    StopsAtNumber (limitUpload limits link) := by
  unfold limitUpload
  split
  · exact stopsAtNumber_ok _
  · exact stopsAtNumber_ok _
  · exact (kilobytesOf_stopsAtNumber _).bind fun _ => stopsAtNumber_ok _
  · exact (kilobytesOf_stopsAtNumber _).bind fun _ => stopsAtNumber_ok _
  · refine (kilobytesOf_stopsAtNumber _).bind fun _ => ?_
    exact (kilobytesOf_stopsAtNumber _).bind fun _ => stopsAtNumber_ok _
  · exact stopsAtNumber_ok _

theorem uploadRule_stopsAtNumber (method : String) (arguments : List Expr) (chain : List Link) :
    StopsAtNumber (uploadRule method arguments chain) := by
  unfold uploadRule
  have limited := StopsAtNumber.foldlM limitUpload_stopsAtNumber chain
  exact (limited _).bind fun _ => stopsAtNumber_ok _

theorem listedText_stopsAtNumber {v : Value} (literal : v.isLiteral = true) :
    StopsAtNumber (listedText v) := by
  cases v with
  | bool b => exact stopsAtNumber_ok _
  | null | number n | text s | source s | enumClass name | upload rule | list items
  | mapping entries | condition kind expression method | branch conditions rules shown
  | object truth shown => exact Value.display_stopsAtNumber literal

theorem listedTexts?_stopsAtNumber (arguments : List Expr) :
    StopsAtNumber (listedTexts? arguments) := by
  have literal {v : Value} (own : some v ∈ arguments.map Expr.value?) : v.isLiteral = true := by
    obtain ⟨e, -, read⟩ := List.mem_map.mp own
    exact Expr.isLiteral_of_value? read
  unfold listedTexts?
  split
  · rename_i items single
    have listed : Value.isLiteral (.list items) = true :=
      literal (by rw [single]; exact List.mem_singleton_self _)
    refine (StopsAtNumber.mapM fun v member => ?_).map some
    have own := List.mem_of_mem_filter member
    exact listedText_stopsAtNumber ((Value.allLiteral_iff items).mp listed v own)
  · split
    · exact stopsAtNumber_ok none
    · refine (StopsAtNumber.mapM fun v member => ?_).map some
      obtain ⟨v?, own, same⟩ := List.mem_filterMap.mp member
      cases same
      exact listedText_stopsAtNumber (literal own)

theorem scalarText?_stopsAtNumber (e : Expr) : StopsAtNumber e.scalarText? := by
  unfold Expr.scalarText?
  split
  · exact stopsAtNumber_ok _
  · exact (Number.text_stopsAtNumber _).bind fun _ => stopsAtNumber_ok _
  · exact stopsAtNumber_ok _

theorem foldedText?_stopsAtNumber (e : Expr) : StopsAtNumber e.foldedText? := by
  induction e using Expr.foldedText?.induct with
  | case1 text inner ih =>
    rw [Expr.foldedText?]
    exact ih
  | case2 text left right ihLeft ihRight =>
    rw [Expr.foldedText?, if_pos rfl]
    refine ihLeft.bind fun a? => ihRight.bind fun b? => ?_
    split
    · exact stopsAtNumber_ok _
    · exact stopsAtNumber_ok _
  | case3 text operator left right other =>
    rw [Expr.foldedText?, if_neg other]
    exact stopsAtNumber_ok _
  | case4 | case5 | case6 =>
    rw [Expr.foldedText?]
    exact scalarText?_stopsAtNumber _
  | case7 =>
    rw [Expr.foldedText?]
    · exact stopsAtNumber_ok _
    all_goals assumption

theorem concatenatedText_stopsAtNumber (e : Expr) : StopsAtNumber e.concatenatedText := by
  induction e using Expr.concatenatedText.induct with
  | case1 text inner ih =>
    rw [Expr.concatenatedText]
    exact ih
  | case2 text left right ihLeft ihRight =>
    rw [Expr.concatenatedText, if_pos rfl]
    exact ihLeft.bind fun _ => ihRight.bind fun _ => stopsAtNumber_ok _
  | case3 text operator left right other =>
    rw [Expr.concatenatedText, if_neg other]
    exact stopsAtNumber_ok _
  | case4 e =>
    rw [Expr.concatenatedText]
    · exact (foldedText?_stopsAtNumber e).bind fun _ => stopsAtNumber_ok _
    all_goals assumption

theorem conditionRule_stopsAtNumber (name : String) (arguments : List Expr) :
    StopsAtNumber (conditionRule name arguments) :=
  (StopsAtNumber.mapM fun e _ => scalarText?_stopsAtNumber e).bind fun _ => stopsAtNumber_ok _

theorem boundText_stopsAtNumber (e : Expr) : StopsAtNumber (boundText e) := by
  unfold boundText
  split
  · rename_i v read
    exact Value.display_stopsAtNumber (Expr.isLiteral_of_value? read)
  · exact stopsAtNumber_ok _

theorem dimensionRule_stopsAtNumber (arguments : List Expr) (chain : List Link) :
    StopsAtNumber (dimensionRule arguments chain) := by
  refine StopsAtNumber.bind ?_ fun _ => stopsAtNumber_ok _
  refine (StopsAtNumber.filterMapM fun entry member => ?_).bind fun stated => ?_
  · have literal : entry.2.isLiteral = true := by
      cases given : arguments.head? with
      | none =>
        rw [given] at member
        cases member
      | some e =>
        rw [given] at member
        exact Expr.isLiteral_of_mem_keyedValues member
    obtain ⟨key, value⟩ := entry
    cases value with
    | null => exact stopsAtNumber_ok none
    | bool b | number n | text s | source s | enumClass name | upload rule | list items
    | mapping entries | condition kind expression method | branch conditions rules shown
    | object truth shown =>
      exact (Value.display_stopsAtNumber literal).bind fun _ => stopsAtNumber_ok _
  · refine .foldlM (fun bounds link => ?_) chain _
    split
    · exact (boundText_stopsAtNumber _).bind fun _ => stopsAtNumber_ok _
    · exact stopsAtNumber_ok _

theorem builtRule?_stopsAtNumber (method : String) (arguments : List Expr) (chain : List Link) :
    StopsAtNumber (builtRule? method arguments chain) := by
  have upload (method : String) : StopsAtNumber (some <$> uploadRule method arguments chain) :=
    (uploadRule_stopsAtNumber method arguments chain).map some
  unfold builtRule?
  simp only
  split
  case h_1 | h_2 => exact (listedTexts?_stopsAtNumber _).bind fun _ => stopsAtNumber_ok _
  case h_5 | h_6 | h_7 => exact (conditionRule_stopsAtNumber _ _).bind fun _ => stopsAtNumber_ok _
  case h_10 => exact (dimensionRule_stopsAtNumber _ _).bind fun _ => stopsAtNumber_ok _
  case h_11 => exact upload _
  case h_12 => exact upload _
  all_goals exact stopsAtNumber_ok _

theorem builderValue_stopsAtNumber (e : Expr) : StopsAtNumber (builderValue e) := by
  unfold builderValue
  split
  · exact stopsAtNumber_ok _
  · split
    · exact (builtRule?_stopsAtNumber _ _ _).bind fun _ => stopsAtNumber_ok _
    · exact uploadRule_stopsAtNumber _ _ _
    · exact stopsAtNumber_ok _
    · exact stopsAtNumber_ok _

theorem objectValue_stopsAtNumber (e : Expr) (name : Option String) (arguments : List Expr) :
    StopsAtNumber (objectValue e name arguments) := by
  unfold objectValue
  split
  · exact stopsAtNumber_ok _
  · split
    · exact (builtRule?_stopsAtNumber _ _ _).bind fun _ => stopsAtNumber_ok _
    · split
      · exact stopsAtNumber_ok _
      · exact stopsAtNumber_ok _

theorem singleRule?_stopsAtNumber (e : Expr) : StopsAtNumber (singleRule? e) := by
  induction e using singleRule?.induct with
  | case1 text inner ih =>
    rw [singleRule?]
    exact ih
  | case5 text left right =>
    rw [singleRule?, if_pos rfl]
    exact (concatenatedText_stopsAtNumber _).bind fun _ => stopsAtNumber_ok _
  | case6 text operator left right other =>
    rw [singleRule?, if_neg other]
    exact stopsAtNumber_ok _
  | case7 | case8 =>
    rw [singleRule?]
    exact (builderValue_stopsAtNumber _).map some
  | case9 text name arguments =>
    rw [singleRule?]
    exact (objectValue_stopsAtNumber _ _ _).map some
  | case2 | case3 | case4 => exact stopsAtNumber_ok _
  | case10 =>
    rw [singleRule?]
    · exact stopsAtNumber_ok _
    all_goals assumption

theorem ruleValue?_stopsAtNumber (e : Expr) : StopsAtNumber (ruleValue? e) := by
  have entry (entry : Entry) : StopsAtNumber (entryRule? entry) := by
    cases entry with
    | item value => exact singleRule?_stopsAtNumber value
    | pair key value => exact singleRule?_stopsAtNumber value
    | spread value => exact stopsAtNumber_ok none
  unfold ruleValue?
  split
  · exact (StopsAtNumber.mapM fun e _ => entry e).bind fun _ => stopsAtNumber_ok _
  · exact singleRule?_stopsAtNumber _

theorem fieldName?_stopsAtNumber (e : Expr) : StopsAtNumber (fieldName? e) := by
  unfold fieldName?
  split
  · exact stopsAtNumber_ok _
  · exact (Number.text_stopsAtNumber _).bind fun _ => stopsAtNumber_ok _
  · refine (foldedText?_stopsAtNumber e).bind fun s? => ?_
    split
    all_goals exact stopsAtNumber_ok _

/-! ## Methods -/

/-- A computation that reports diagnostics goes on in the same way. -/
theorem stopsAtNumber_sequence {α β : Type} {m : Logged α} {f : α → Logged β}
    (first : StopsAtNumber m.outcome) (second : ∀ x, StopsAtNumber (f x).outcome) :
    StopsAtNumber (m >>= f).outcome := by
  cases ends : m.outcome with
  | ok x =>
    rw [Emit.bind_ok f ends]
    exact second x
  | error fault =>
    rw [Emit.bind_error f ends]
    intro fault' stops
    cases stops
    exact first fault ends

theorem stopsAtNumber_passedOn : PassedOn fun _ m => StopsAtNumber m.outcome where
  done x := stopsAtNumber_ok x
  sequence := stopsAtNumber_sequence
  name := fieldName?_stopsAtNumber
  value := ruleValue?_stopsAtNumber
  report _ _ _ _ _ _ := stopsAtNumber_ok ()

/-- Reading the rules of a method stops only at a number. -/
theorem methodRules_stopsAtNumber (label : String) (c : ClassBody) (depth : Int) (m : Method) :
    StopsAtNumber (methodRules label c depth m).outcome :=
  methodRules_passes stopsAtNumber_passedOn label c depth m

end Extraction

end RequestSchema
