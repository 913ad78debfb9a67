import SealedLedger.Algorithm
import SealedLedger.Hash

/-!
# Traced results

An operation is a value together with what it showed on the way: the questions it put to a digest engine, the events it reported
and the lines it wrote, in order. The value never depends on what was shown. Main statements: what a sequence of operations shows
is the first one's entries followed by those of the rest (`Traced.entries_bind`), and running an operation on every item of a
list shows the entries item by item (`Traced.entries_forEach`).
-/

namespace SealedLedger

/-- How important an event is. -/
inductive Level where
  | debug | trace
  deriving DecidableEq

/-- The upper-case name of a level. -/
def Level.name : Level → String
  | debug => "DEBUG"
  | trace => "TRACE"

/-- Something that was reported on the way to a result. -/
inductive Event where
  /-- An unknown algorithm was replaced by this one. -/
  | fallback (algorithm : Algorithm)
  /-- A level of a Merkle tree was reduced to this many nodes; levels count from zero. -/
  | levelReduced (depth width : Nat)
  /-- A block was sealed. -/
  | blockSealed (hash merkleRoot : Hash) (transactions : Nat) (tries : UInt64) (genesis : Bool)
  deriving DecidableEq

/-- The level of an event. -/
def Event.level : Event → Level
  | fallback _ => .debug
  | levelReduced _ _ => .trace
  | blockSealed _ _ _ _ _ => .debug

/-- The wording of an event. -/
def Event.message : Event → String
  | fallback _ => "unknown hash algorithm, using default"
  | levelReduced _ _ => "merkle level reduced"
  | blockSealed _ _ _ _ _ => "sealed block"

/-- One thing shown: a question to the engine, an event, or a line of text. -/
inductive Entry where
  | call (algorithm : Algorithm) (data : Bytes)
  | event (event : Event)
  | line (text : String)
  deriving DecidableEq

/-- A value and what was shown on the way to it. -/
structure Traced (α : Type) where
  value : α
  entries : List Entry

namespace Traced

variable {α β : Type}

/-- Operations in sequence show their entries in sequence. -/
instance : Monad Traced where
  pure a := ⟨a, []⟩
  bind x f :=
    let y := f x.value
    ⟨y.value, x.entries ++ y.entries⟩

/-- Shows one entry and does nothing else. -/
def report (entry : Entry) : Traced Unit :=
  ⟨(), [entry]⟩

/-- Runs an operation on every item of a list, from the first on. -/
def forEach (items : List α) (operation : α → Traced β) : Traced (List β) :=
  let results := items.map operation
  ⟨results.map value, results.flatMap entries⟩

/-- The questions put to the engine. -/
def calls (x : Traced α) : List (Algorithm × Bytes) :=
  x.entries.filterMap fun
    | .call algorithm data => some (algorithm, data)
    | _ => none

/-- The events reported. -/
def events (x : Traced α) : List Event :=
  x.entries.filterMap fun
    | .event event => some event
    | _ => none

/-- The lines written. -/
def lines (x : Traced α) : List String :=
  x.entries.filterMap fun
    | .line text => some text
    | _ => none

/-! ## Views of the operations -/

@[ext] theorem ext {x y : Traced α} (h₁ : x.value = y.value) (h₂ : x.entries = y.entries) : x = y := by
  cases x
  cases y
  simp_all

@[simp] theorem value_pure (a : α) : (pure a : Traced α).value = a := rfl

@[simp] theorem entries_pure (a : α) : (pure a : Traced α).entries = [] := rfl

@[simp] theorem value_bind (x : Traced α) (f : α → Traced β) : (x >>= f).value = (f x.value).value := rfl

@[simp] theorem entries_bind (x : Traced α) (f : α → Traced β) :
    (x >>= f).entries = x.entries ++ (f x.value).entries := rfl

instance : LawfulMonad Traced :=
  LawfulMonad.mk' Traced
    (fun x => by ext1 <;> simp [Functor.map])
    (fun a f => by ext1 <;> simp)
    (fun x f g => by ext1 <;> simp [List.append_assoc])

@[simp] theorem value_map (f : α → β) (x : Traced α) : (f <$> x).value = f x.value := by
  rw [← bind_pure_comp]
  rfl

@[simp] theorem entries_map (f : α → β) (x : Traced α) : (f <$> x).entries = x.entries := by
  rw [← bind_pure_comp]
  exact List.append_nil x.entries

@[simp] theorem value_forEach (items : List α) (operation : α → Traced β) :
    (forEach items operation).value = items.map fun a => (operation a).value := by
  simp [forEach]

@[simp] theorem entries_forEach (items : List α) (operation : α → Traced β) :
    (forEach items operation).entries = items.flatMap fun a => (operation a).entries := by
  simp [forEach, List.flatMap_map]

/-! ## Questions, events and lines of sequences -/

@[simp] theorem calls_pure (a : α) : (pure a : Traced α).calls = [] := rfl

@[simp] theorem calls_bind (x : Traced α) (f : α → Traced β) : (x >>= f).calls = x.calls ++ (f x.value).calls := by
  rw [calls, entries_bind, List.filterMap_append]
  rfl

@[simp] theorem calls_forEach (items : List α) (operation : α → Traced β) :
    (forEach items operation).calls = items.flatMap fun a => (operation a).calls := by
  rw [calls, entries_forEach, List.filterMap_flatMap]
  rfl

@[simp] theorem calls_map (f : α → β) (x : Traced α) : (f <$> x).calls = x.calls := by
  rw [calls, entries_map]
  rfl

@[simp] theorem events_pure (a : α) : (pure a : Traced α).events = [] := rfl

@[simp] theorem events_bind (x : Traced α) (f : α → Traced β) : (x >>= f).events = x.events ++ (f x.value).events := by
  rw [events, entries_bind, List.filterMap_append]
  rfl

@[simp] theorem events_forEach (items : List α) (operation : α → Traced β) :
    (forEach items operation).events = items.flatMap fun a => (operation a).events := by
  rw [events, entries_forEach, List.filterMap_flatMap]
  rfl

@[simp] theorem events_map (f : α → β) (x : Traced α) : (f <$> x).events = x.events := by
  rw [events, entries_map]
  rfl

@[simp] theorem lines_pure (a : α) : (pure a : Traced α).lines = [] := rfl

@[simp] theorem lines_bind (x : Traced α) (f : α → Traced β) : (x >>= f).lines = x.lines ++ (f x.value).lines := by
  rw [lines, entries_bind, List.filterMap_append]
  rfl

@[simp] theorem lines_forEach (items : List α) (operation : α → Traced β) :
    (forEach items operation).lines = items.flatMap fun a => (operation a).lines := by
  rw [lines, entries_forEach, List.filterMap_flatMap]
  rfl

@[simp] theorem lines_map (f : α → β) (x : Traced α) : (f <$> x).lines = x.lines := by
  rw [lines, entries_map]
  rfl

end Traced

end SealedLedger
