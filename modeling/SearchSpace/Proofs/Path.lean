import Mathlib.Data.List.Chain
import SearchSpace.Path
import SearchSpace.Proofs.Graph

/-!
# Paths that pass the check

The check compares keys only, and only those of neighbours. In a lawful space that is enough:
whether one key leads to another does not depend on the states that have them. So a path that passes
need not be a walk, but there is one from the start past the same keys; and whatever has the keys of
a walk to a goal passes.
-/

namespace SearchSpace

universe u v

variable {S : Type u} {K : Type v} {space : StateSpace S K}

namespace StateSpace

/-- A state of the first key has a successor of the second. -/
def Leads (space : StateSpace S K) (key next : K) : Prop :=
  ∃ state, space.key state = key ∧
    ∃ successor ∈ space.successors state, space.key successor = next

/-- In a lawful space one state of a key tells where the key leads. -/
theorem Lawful.leads_iff (lawful : space.Lawful) {state : S} {next : K} :
    space.Leads (space.key state) next ↔
      ∃ successor ∈ space.successors state, space.key successor = next := by
  constructor
  · rintro ⟨other, same, leads⟩
    rw [← List.mem_map] at leads ⊢
    rwa [← lawful.successors_eq same]
  · intro leads
    exact ⟨state, rfl, leads⟩

/-- Keys of which each leads to the next are those of a walk from any state of the first key. -/
theorem Lawful.exists_walk_of_isChain (lawful : space.Lawful) {start : S} {keys : List K}
    (chain : (space.key start :: keys).IsChain space.Leads) :
    ∃ positions states, space.Walk start positions states ∧
      states.map space.key = space.key start :: keys := by
  induction keys generalizing start with
  | nil => exact ⟨[], [start], .stay start, rfl⟩
  | cons key rest ih =>
    obtain ⟨leads, onward⟩ := List.isChain_cons_cons.1 chain
    obtain ⟨next, member, rfl⟩ := lawful.leads_iff.1 leads
    obtain ⟨position, taken⟩ := List.mem_iff_getElem?.1 member
    obtain ⟨positions, states, walk, keys⟩ := ih onward
    exact ⟨position :: positions, start :: states, .move taken walk, by rw [List.map_cons, keys]⟩

/-- On a walk each key leads to the next. -/
theorem Walk.isChain_keys {start : S} {positions : List Nat} {states : List S}
    (walk : space.Walk start positions states) :
    (states.map space.key).IsChain space.Leads := by
  refine (List.isChain_map _).2 (walk.isChain.imp fun state next successor => ?_)
  exact ⟨state, rfl, next, successor, rfl⟩

/-- Where the keys are the same, so are the keys at the end. -/
theorem Lawful.isGoal_getLast? (lawful : space.Lawful) {states others : List S} {last : S}
    (keys : states.map space.key = others.map space.key) (atEnd : states.getLast? = some last) :
    ∃ other, others.getLast? = some other ∧ space.isGoal other = space.isGoal last := by
  have ends := congrArg List.getLast? keys
  rw [List.getLast?_map, List.getLast?_map, atEnd, Option.map_some] at ends
  obtain ⟨other, atEnd', same⟩ := Option.map_eq_some_iff.1 ends.symm
  exact ⟨other, atEnd', lawful.isGoal_eq same⟩

end StateSpace

namespace Path

variable [BEq K] [LawfulBEq K] {path : Path S} {initial : S} {states : List S}

theorem linked_iff_isChain : linked space states = true ↔
    states.IsChain fun state next =>
      ∃ successor ∈ space.successors state, space.key successor = space.key next := by
  induction states with
  | nil => simp [linked]
  | cons state rest ih =>
    cases rest with
    | nil => simp [linked]
    | cons next rest =>
      rw [linked, Bool.and_eq_true, ih, List.any_eq_true, List.isChain_cons_cons]
      simp only [beq_iff_eq]

theorem linked_iff_leads (lawful : space.Lawful) :
    linked space states = true ↔ (states.map space.key).IsChain space.Leads := by
  simp only [linked_iff_isChain, List.isChain_map, lawful.leads_iff]

/-- What the check looks at. -/
theorem verify_iff : path.verify space initial = true ↔ path.isEmpty = true ∨
    ∃ first last, path.first? = some first ∧ path.last? = some last ∧
      space.key first = space.key initial ∧ space.isGoal last = true ∧
      linked space path.states = true := by
  obtain ⟨states⟩ := path
  cases states with
  | nil => simp [verify, first?, isEmpty]
  | cons first rest =>
    obtain ⟨last, atEnd⟩ : ∃ last, (first :: rest).getLast? = some last :=
      ⟨_, List.getLast?_eq_some_getLast (List.cons_ne_nil _ _)⟩
    simp [verify, first?, last?, isEmpty, atEnd, and_assoc]

/-- A path along successors from the start to a goal passes the check. -/
theorem verify_of_isChain {last : S} (first : path.first? = some initial)
    (final : path.last? = some last) (goal : space.isGoal last = true)
    (chain : path.states.IsChain fun state next => next ∈ space.successors state) :
    path.verify space initial = true := by
  refine verify_iff.2 (.inr ⟨initial, last, first, final, rfl, goal, linked_iff_isChain.2 ?_⟩)
  exact chain.imp fun state next successor => ⟨next, successor, rfl⟩

/-- In a lawful space the paths that pass the check are the empty one and those that have the keys
of a real walk from the start to a goal, whether or not they are walks themselves. -/
theorem verify_iff_exists_walk (lawful : space.Lawful) (path : Path S) (initial : S) :
    path.verify space initial = true ↔ path.isEmpty = true ∨
      ∃ positions states, space.Walk initial positions states ∧
        (∃ last, states.getLast? = some last ∧ space.isGoal last = true) ∧
        path.keys space = states.map space.key := by
  rw [verify_iff]
  refine or_congr_right ?_
  obtain ⟨listed⟩ := path
  constructor
  · rintro ⟨first, last, atStart, atEnd, same, goal, linked⟩
    obtain ⟨rest, rfl⟩ := List.head?_eq_some_iff.1 atStart
    rw [linked_iff_leads lawful, List.map_cons, same] at linked
    obtain ⟨positions, states, walk, keys⟩ := lawful.exists_walk_of_isChain linked
    rw [← same, ← List.map_cons] at keys
    obtain ⟨final, atEnd', goal'⟩ := lawful.isGoal_getLast? keys.symm atEnd
    exact ⟨positions, states, walk, ⟨final, atEnd', goal'.trans goal⟩, keys.symm⟩
  · rintro ⟨positions, states, walk, ⟨last, atEnd, goal⟩, keys⟩
    have keys : listed.map space.key = states.map space.key := keys
    obtain ⟨final, atEnd', goal'⟩ := lawful.isGoal_getLast? keys.symm atEnd
    have starts := congrArg List.head? keys
    rw [List.head?_map, List.head?_map, walk.head?_states, Option.map_some] at starts
    obtain ⟨first, atStart, same⟩ := Option.map_eq_some_iff.1 starts
    have linked := (linked_iff_leads lawful).2 (keys ▸ walk.isChain_keys)
    exact ⟨first, final, atStart, atEnd', same, goal'.trans goal, linked⟩

/-- No step of the path but the last is one of the graph: 0 leads to 1, and 2 leads to 4. -/
theorem verify_iff_exists_walk_doubles : Graph.doubles.space.Lawful ∧
    (⟨[0, 2, 3, 5]⟩ : Path Nat).verify Graph.doubles.space 0 = true ∧
    ¬(⟨[0, 2, 3, 5]⟩ : Path Nat).states.IsChain
      (fun state next => next ∈ Graph.doubles.space.successors state) ∧
    ∃ positions states, Graph.doubles.space.Walk 0 positions states ∧
      (∃ last, states.getLast? = some last ∧ Graph.doubles.space.isGoal last = true) ∧
      states.map Graph.doubles.space.key = [0, 1, 3, 5] := by
  have lawful : Graph.doubles.space.Lawful := Graph.lawful_space_of_keys (by decide)
  have verified : (⟨[0, 2, 3, 5]⟩ : Path Nat).verify Graph.doubles.space 0 = true := by decide
  rcases (verify_iff_exists_walk lawful _ _).1 verified with
    empty | ⟨positions, states, walk, goal, keys⟩
  · cases empty
  · exact ⟨lawful, verified, by decide, positions, states, walk, goal, keys.symm⟩

end Path

end SearchSpace
