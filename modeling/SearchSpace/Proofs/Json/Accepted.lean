import Mathlib.Data.Nat.Notation
import SearchSpace.Json.Reader

/-!
# What has been read

If a list, an object, a variant or a document is read then so were its parts. No list or object was
entered that must not be entered, so what is read is nested no deeper than allowed.
-/

namespace SearchSpace.Json

variable {α β : Type} {steps nesting n : Nat} {text rest : List Char} {value : α}

theorem exists_of_bind_eq_ok {computed : Except ReadError α} {others : α → Except ReadError β}
    {result : β} (ok : computed >>= others = .ok result) :
    ∃ value, computed = .ok value ∧ others value = .ok result := by
  cases computed with
  | error reason => cases ok
  | ok value => exact ⟨value, rfl, ok⟩

theorem eq_ok_of_toOption_eq_some {ε : Type} {computed : Except ε α}
    (known : computed.toOption = some value) : computed = .ok value := by
  cases computed <;> cases known
  rfl

/-! ## Lists -/

theorem forall_mem_of_readElements {element : Reader α} {isFirst : Bool} {values : List α}
    (read : readElements element n isFirst text = .ok (values, rest)) :
    ∀ value ∈ values, ∃ text rest, element text = .ok (value, rest) := by
  induction n generalizing isFirst text values rest with
  | zero => cases read
  | succ n ih =>
    unfold readElements at read
    obtain ⟨next?, -, read⟩ := exists_of_bind_eq_ok read
    cases next? with
    | none =>
      obtain ⟨rest, -, read⟩ := exists_of_bind_eq_ok read
      cases read
      simp
    | some next =>
      obtain ⟨⟨first, tail⟩, readFirst, read⟩ := exists_of_bind_eq_ok read
      obtain ⟨⟨others, tail'⟩, readOthers, read⟩ := exists_of_bind_eq_ok read
      cases read
      exact List.forall_mem_cons.2 ⟨⟨next, tail, readFirst⟩, ih readOthers⟩

theorem exists_of_readList {element? : Option (Reader α)} {values : List α}
    (read : readList steps element? text = .ok (values, rest)) :
    ∃ element, element? = some element ∧
      ∀ value ∈ values, ∃ text rest, element text = .ok (value, rest) := by
  unfold readList at read
  split at read
  · cases element? with
    | none => cases read
    | some element => exact ⟨element, rfl, forall_mem_of_readElements read⟩
  · cases read

theorem readElement_ok {expected : String} {length : Nat} {element : Reader α}
    (read : readElement expected length element text = .ok (value, rest)) :
    ∃ text, element text = .ok (value, rest) := by
  unfold readElement at read
  obtain ⟨next?, -, read⟩ := exists_of_bind_eq_ok read
  cases next? with
  | none => cases read
  | some next => exact ⟨next, read⟩

/-! ## Objects -/

/-- What holds at first, and is kept by each entry, holds at the end. -/
theorem readEntries_induction {Known : α → Prop} {entry : String → α → Reader α}
    {isFirst : Bool} {known last : α} (init : Known known)
    (step : ∀ key known text next rest, Known known →
      entry key known text = .ok (next, rest) → Known next)
    (read : readEntries entry n isFirst known text = .ok (last, rest)) : Known last := by
  induction n generalizing isFirst known text with
  | zero => cases read
  | succ n ih =>
    unfold readEntries at read
    obtain ⟨next?, -, read⟩ := exists_of_bind_eq_ok read
    cases next? with
    | none =>
      cases read
      exact init
    | some next =>
      obtain ⟨⟨key, behindKey⟩, -, read⟩ := exists_of_bind_eq_ok read
      obtain ⟨⟨later, tail⟩, readEntry, read⟩ := exists_of_bind_eq_ok read
      exact ih (step key known behindKey later tail init readEntry) read

theorem exists_of_readField {name : String} {known : Option α} {read : Reader α}
    (isRead : readField name known read text = .ok (value, rest)) :
    ∃ text, read text = .ok (value, rest) := by
  unfold readField at isRead
  split at isRead
  · cases isRead
  · obtain ⟨text, -, isRead⟩ := exists_of_bind_eq_ok isRead
    exact ⟨text, isRead⟩

theorem eq_some_of_requireField {name : String} {known : Option α}
    (required : requireField name known = .ok value) : known = some value := by
  cases known with
  | none => cases required
  | some known =>
    cases required
    rfl

/-- Data is read from the entries of an object or from the elements of a list. -/
theorem exists_of_readStruct {expected : String} {fields elements : Nat → Reader α}
    (read : readStruct expected nesting fields elements text = .ok (value, rest)) :
    ∃ inner, nesting = inner + 1 ∧ ∃ text rest,
      fields inner text = .ok (value, rest) ∨ elements inner text = .ok (value, rest) := by
  unfold readStruct at read
  split at read
  · cases read
  · cases read
  · exact ⟨_, rfl, _, _, .inl read⟩
  · obtain ⟨⟨value, rest⟩, readElements, read⟩ := exists_of_bind_eq_ok read
    obtain ⟨rest', -, read⟩ := exists_of_bind_eq_ok read
    cases read
    exact ⟨_, rfl, _, _, .inr readElements⟩
  · cases read

/-! ## Variants and documents -/

/-- A variant has a content, which is read, unless a mere name will do. -/
theorem exists_of_readVariant {known : List String} {content? : Option (String → Reader α)}
    {mere : String → Except ReadError α}
    (read : readVariant known content? mere text = .ok (value, rest)) :
    (∃ content name text rest, content? = some content ∧ content name text = .ok (value, rest)) ∨
      ∃ name, mere name = .ok value := by
  unfold readVariant at read
  split at read
  · cases read
  · cases content? with
    | none => cases read
    | some content =>
      obtain ⟨start, -, read⟩ := exists_of_bind_eq_ok read
      obtain ⟨⟨name, behindName⟩, -, read⟩ := exists_of_bind_eq_ok read
      obtain ⟨behindColon, -, read⟩ := exists_of_bind_eq_ok read
      obtain ⟨⟨value, tail⟩, readContent, read⟩ := exists_of_bind_eq_ok read
      obtain ⟨rest, -, read⟩ := exists_of_bind_eq_ok read
      cases read
      exact .inl ⟨content, name, behindColon, tail, rfl, readContent⟩
  · obtain ⟨⟨name, behindName⟩, -, read⟩ := exists_of_bind_eq_ok read
    obtain ⟨value, isMere, read⟩ := exists_of_bind_eq_ok read
    cases read
    exact .inr ⟨name, isMere⟩
  · cases read

theorem exists_of_readDocument {read : Nat → Nat → Reader α} {document : String}
    (isRead : readDocument read document = .ok value) :
    ∃ steps text rest, read steps maxNesting text = .ok (value, rest) := by
  unfold readDocument at isRead
  obtain ⟨⟨value, rest⟩, readValue, isRead⟩ := exists_of_bind_eq_ok isRead
  simp only at isRead
  split at isRead
  · cases isRead
    exact ⟨_, _, _, readValue⟩
  · cases isRead

end SearchSpace.Json
