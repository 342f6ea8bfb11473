/-!
# Queues

First in, first out. What comes in is kept in reverse order until it is needed, so that both ends
are cheap; `Queue.toList` is the order in which the elements leave.
-/

namespace SearchSpace

universe u

/-- A queue. -/
structure Queue (α : Type u) where
  /-- The elements that leave first, in order. -/
  front : List α
  /-- The elements that leave after those, latest first. -/
  back : List α

namespace Queue

variable {α : Type u}

/-- The queue that holds the elements of a list. -/
def ofList (elements : List α) : Queue α := ⟨elements, []⟩

/-- The elements in the order in which they leave. -/
def toList (queue : Queue α) : List α := queue.front ++ queue.back.reverse

/-- The element that leaves first, and the others. -/
def pop? : Queue α → Option (α × Queue α)
  | ⟨first :: front, back⟩ => some (first, ⟨front, back⟩)
  | ⟨[], back⟩ =>
    match back.reverse with
    | [] => none
    | first :: front => some (first, ⟨front, []⟩)

/-- The queue with more elements at its end. -/
def append (queue : Queue α) (elements : List α) : Queue α :=
  ⟨queue.front, elements.reverseAux queue.back⟩

theorem toList_ofList (elements : List α) : (ofList elements).toList = elements := by
  simp [ofList, toList]

theorem toList_append (queue : Queue α) (elements : List α) :
    (queue.append elements).toList = queue.toList ++ elements := by
  simp [append, toList, List.reverseAux_eq]

theorem pop?_eq_none {queue : Queue α} (h : queue.pop? = none) : queue.toList = [] := by
  obtain ⟨front, back⟩ := queue
  cases front with
  | cons first front => simp [pop?] at h
  | nil =>
    rw [pop?] at h
    split at h
    · next empty => simp [toList, empty]
    · simp at h

theorem toList_of_pop? {queue rest : Queue α} {first : α} (h : queue.pop? = some (first, rest)) :
    queue.toList = first :: rest.toList := by
  obtain ⟨front, back⟩ := queue
  cases front with
  | cons first front =>
    simp only [pop?, Option.some.injEq, Prod.mk.injEq] at h
    obtain ⟨rfl, rfl⟩ := h
    rfl
  | nil =>
    rw [pop?] at h
    split at h
    · simp at h
    · next head front reversed =>
      simp only [Option.some.injEq, Prod.mk.injEq] at h
      obtain ⟨rfl, rfl⟩ := h
      simp [toList, reversed]

end Queue

end SearchSpace
