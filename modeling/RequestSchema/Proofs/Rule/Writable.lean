import RequestSchema.Proofs.Outcome
import RequestSchema.Rule.Token

/-!
# Values whose tokens can be written

Integers with too many digits have no text. A value that holds such a number where a text of it is
needed cannot be shown, and has no tokens; every other value has (`Value.isOk_tokens`).
-/
namespace RequestSchema

section

variable {ε α β γ : Type}

theorem isOk_map (x : Except ε α) (f : α → β) :
    (do return f (← x) : Except ε β).isOk = x.isOk := by
  cases x <;> rfl

theorem isOk_map₂ (x : Except ε α) (y : Except ε β) (f : α → β → γ) :
    (do return f (← x) (← y) : Except ε γ).isOk = (x.isOk && y.isOk) := by
  cases x <;> cases y <;> rfl

end

theorem Number.isOk_text (n : Number) : n.text.isOk = n.isWritable := by
  unfold text
  cases n.isWritable <;> rfl

def Key.showable : Key → Bool
  | .number n => n.isWritable
  | _ => true

def showableSize (size : Option Int) : Bool := size.all fun n => (Number.int n).isWritable

mutual

/-- Whether a value can be shown: every number in it can be written. -/
def Value.showable : Value → Bool
  | .number n => n.isWritable
  | .upload rule => showableSize rule.minKb && showableSize rule.maxKb
  | .list items => Value.allShowable items
  | .mapping entries => Value.entriesShowable entries
  | .condition _ _ method => method.showable
  | .branch _ _ shown => shown.isOk
  | .object _ shown => shown.isOk
  | _ => true

def Value.allShowable : List Value → Bool
  | [] => true
  | v :: rest => v.showable && Value.allShowable rest

def Value.entriesShowable : List (Key × Value) → Bool
  | [] => true
  | (k, v) :: rest => (k.showable && v.showable) && Value.entriesShowable rest

end

/-- Whether the token that a mapping stands for can be written: the name of its class can be
shown. -/
def Token.writableEntries (entries : OrderedMap Key Value) : Bool :=
  match entries.get? (.text "type"), entries.get? (.text "class") with
  | some kind, some name => !(kind.text? = some "enum" && name.truthy) || name.showable
  | _, _ => true

mutual

def Value.writable : Value → Bool
  | .number n => n.isWritable
  | .list items => Value.allWritable items
  | .mapping entries => Token.writableEntries (.ofList entries)
  | _ => true

def Value.allWritable : List Value → Bool
  | [] => true
  | v :: rest => v.writable && Value.allWritable rest

end

theorem Key.isOk_shown (k : Key) : k.shown.isOk = k.showable := by
  cases k with
  | number n => exact n.isOk_text
  | _ => rfl

theorem isOk_shownSize (size : Option Int) : (shownSize size).isOk = showableSize size := by
  cases size with
  | none => rfl
  | some n => exact (Number.int n).isOk_text

mutual

theorem Value.isOk_shown : ∀ v : Value, v.shown.isOk = v.showable
  | .null | .bool _ | .text _ | .source _ | .enumClass _ | .branch _ _ _ | .object _ _ => rfl
  | .number n => n.isOk_text
  | .upload rule => by
    rw [Value.showable, ← isOk_shownSize, ← isOk_shownSize]
    exact isOk_map₂ _ _ _
  | .list items => (isOk_map _ _).trans (Value.isOk_shownItems items)
  | .mapping entries => (isOk_map _ _).trans (Value.isOk_shownEntries entries)
  | .condition _ _ method => (isOk_map _ _).trans method.isOk_shown

theorem Value.isOk_shownItems :
    ∀ items : List Value, (Value.shownItems items).isOk = Value.allShowable items
  | [] => rfl
  | v :: rest => by
    rw [Value.allShowable, ← v.isOk_shown, ← Value.isOk_shownItems rest]
    exact isOk_map₂ _ _ _

theorem Value.isOk_shownEntries :
    ∀ entries : List (Key × Value),
      (Value.shownEntries entries).isOk = Value.entriesShowable entries
  | [] => rfl
  | (k, v) :: rest => by
    rw [Value.entriesShowable, ← k.isOk_shown, ← v.isOk_shown, ← Value.isOk_shownEntries rest,
      Value.shownEntries]
    cases k.shown with
    | error fault => rfl
    | ok s => exact isOk_map₂ _ _ _

end

theorem Value.isOk_display (v : Value) : v.display.isOk = v.showable := by
  cases v with
  | text s => rfl
  | source s => rfl
  | _ => exact Value.isOk_shown _

theorem Token.isOk_ofEntries (entries : OrderedMap Key Value) :
    (Token.ofEntries entries).isOk = Token.writableEntries entries := by
  unfold Token.ofEntries Token.writableEntries
  cases entries.get? (.text "type") with
  | none => rfl
  | some kind =>
    cases entries.get? (.text "class") with
    | none => rfl
    | some name =>
      simp only
      cases kind.text? = some "enum" && name.truthy with
      | true => exact (isOk_map _ _).trans name.isOk_display
      | false => rfl

mutual

/-- A value has tokens unless they hold a number that cannot be written. -/
theorem Value.isOk_tokens : ∀ v : Value, v.tokens.isOk = v.writable
  | .null | .bool _ | .text _ | .source _ | .enumClass _ | .upload _ | .condition _ _ _
  | .branch _ _ _ | .object _ _ => rfl
  | .number n => (isOk_map _ _).trans n.isOk_text
  | .list items => Value.isOk_itemTokens items
  | .mapping entries => Token.isOk_ofEntries (.ofList entries)

theorem Value.isOk_itemTokens :
    ∀ items : List Value, (Value.itemTokens items).isOk = Value.allWritable items
  | [] => rfl
  | .text s :: rest => (isOk_map _ _).trans (Value.isOk_itemTokens rest)
  | .null :: rest | .bool _ :: rest | .number _ :: rest | .source _ :: rest
  | .enumClass _ :: rest | .upload _ :: rest | .list _ :: rest | .mapping _ :: rest
  | .condition _ _ _ :: rest | .branch _ _ _ :: rest | .object _ _ :: rest => by
    rw [Value.allWritable, ← Value.isOk_tokens, ← Value.isOk_itemTokens rest]
    exact isOk_map₂ _ _ _

end

/-- The tokens of a value, if they can be written. -/
def Value.tokenList (v : Value) : List Token := v.tokens.toOption.getD []

theorem Value.tokens_of_writable {v : Value} (writable : v.writable = true) :
    v.tokens = .ok v.tokenList := by
  rw [← v.isOk_tokens] at writable
  unfold tokenList
  cases read : v.tokens with
  | ok tokens => rfl
  | error fault =>
    rw [read] at writable
    cases writable

theorem Value.writable_of_tokens {v : Value} {tokens : List Token} (read : v.tokens = .ok tokens) :
    v.writable = true := by
  rw [← v.isOk_tokens, read]
  rfl

theorem Value.mem_tokenList {v : Value} {t : Token} :
    t ∈ v.tokenList ↔ ∃ tokens, v.tokens = .ok tokens ∧ t ∈ tokens := by
  unfold tokenList
  cases v.tokens with
  | ok tokens => simp [Except.toOption]
  | error fault => simp [Except.toOption]

theorem Value.exists_mem_tokenList {v : Value} {P : Token → Prop} :
    (∃ t ∈ v.tokenList, P t) ↔ ∃ tokens, v.tokens = .ok tokens ∧ ∃ t ∈ tokens, P t := by
  simp only [Value.mem_tokenList]
  exact ⟨fun ⟨t, ⟨tokens, read, member⟩, holds⟩ => ⟨tokens, read, t, member, holds⟩,
    fun ⟨tokens, read, t, member, holds⟩ => ⟨t, ⟨tokens, read, member⟩, holds⟩⟩

theorem Value.tokenList_of_tokens {v : Value} {tokens : List Token}
    (read : v.tokens = .ok tokens) : v.tokenList = tokens := by
  rw [tokenList, read]
  rfl

end RequestSchema
