import SearchSpace.Proofs.BreadthFirst.Account
import SearchSpace.Proofs.BreadthFirst.History
import SearchSpace.Proofs.Graph

/-!
# The queue of a breadth-first search

What holds whenever a trail is about to leave the queue. The trails are routes from the start, in
the order of their lengths, which differ by one at most, and among those of one length in the order
of the positions of their states. The states that they lead to have keys of their own, and those
keys, the keys of what was expanded or given up, and the keys that were off limits from the start
make up the visited set and have nothing in common. No law is asked of the space.
-/

namespace SearchSpace

universe u v

variable {S : Type u} {K : Type v}

namespace StateSpace

/-- The keys of the states of a list. -/
def keysOf (space : StateSpace S K) (states : List S) : Set K := {key | key ∈ states.map space.key}

@[simp] theorem mem_keysOf {space : StateSpace S K} {states : List S} {key : K} :
    key ∈ space.keysOf states ↔ key ∈ states.map space.key := Iff.rfl

theorem disjoint_keysOf {space : StateSpace S K} {left right : List S}
    (disjoint : (left.map space.key).Disjoint (right.map space.key)) :
    ∀ key ∈ space.keysOf left, key ∉ space.keysOf right :=
  fun _ member member' => disjoint member member'

variable [BEq K]

/-- Where the key of a state first occurs among those of the successors of another. -/
def position (space : StateSpace S K) (state next : S) : Nat :=
  ((space.successors state).map space.key).idxOf (space.key next)

/-- Where the states of a path, but for the first, occur among the successors of those before
them. -/
def positionsOf (space : StateSpace S K) : List S → List Nat
  | state :: next :: rest => space.position state next :: positionsOf space (next :: rest)
  | _ => []

/-- One more state at the end has one more position. -/
theorem positionsOf_concat (space : StateSpace S K) {states : List S} {last : S}
    (atEnd : states.getLast? = some last) (next : S) :
    space.positionsOf (states ++ [next]) =
      space.positionsOf states ++ [space.position last next] := by
  induction states with
  | nil => cases atEnd
  | cons state rest ih =>
    cases rest with
    | nil =>
      cases atEnd
      rfl
    | cons other rest =>
      rw [List.getLast?_cons_cons] at atEnd
      rw [List.cons_append, List.cons_append, positionsOf, positionsOf, ← List.cons_append,
        ih atEnd, List.cons_append]

end StateSpace

namespace BreadthFirst

variable [BEq K] [Hashable K]

/-- The order that is kept in the queue of a search that has done what is recorded. -/
structure Frontier.Orderly (space : StateSpace S K) (visited : VisitedSet K) (initial : S)
    (record : Record S) (frontier : Frontier S K) : Prop where
  /-- A queued trail has a last state, which is the one it leads to. -/
  last : ∀ trail ∈ frontier.queue.toList, trail.toList.getLast? = some trail.state
  /-- It walks from the start along successors. -/
  walk : ∀ trail ∈ frontier.queue.toList,
    space.Walk initial (space.positionsOf trail.toList) trail.toList
  /-- From front to back the lengths never decrease, and they differ by one at most. -/
  lengths : frontier.queue.toList.Pairwise fun earlier later =>
    earlier.toList.length ≤ later.toList.length ∧ later.toList.length ≤ earlier.toList.length + 1
  /-- Trails of one length are in the lexicographic order of their positions. -/
  positions : frontier.queue.toList.Pairwise fun earlier later =>
    earlier.toList.length = later.toList.length →
      space.positionsOf earlier.toList < space.positionsOf later.toList
  /-- No two trails lead to states of one key. -/
  distinct : (frontier.waiting.map space.key).Nodup
  /-- What is visited was off limits from the start, or has been expanded, or given up, or waits. -/
  visited_eq : frontier.progress.visited.toSet = visited.toSet ∪ space.keysOf record.expanded ∪
    space.keysOf record.pruned ∪ space.keysOf frontier.waiting
  /-- No key is visited for two of these reasons. -/
  disjoint : [visited.toSet, space.keysOf record.expanded, space.keysOf record.pruned,
    space.keysOf frontier.waiting].Pairwise fun reason other => ∀ key ∈ reason, key ∉ other

/-- At each step every arrival takes the first of the successors that have the key. -/
def History.TakesFirst (space : StateSpace S K) (history : History S) : Prop :=
  ∀ arrival ∈ history.arrivals, arrival.positions = space.positionsOf arrival.trail.toList

variable {space : StateSpace S K} {limits : Limits} {visited : VisitedSet K} {blocked : Set K}
  {initial : S} {record : Record S} {frontier next : Frontier S K} {history : History S}

/-! ## Positions -/

section

omit [Hashable K] in
/-- Only the start was met, without a step. -/
theorem History.takesFirst_initial (space : StateSpace S K) (initial : S) :
    (History.initial initial).TakesFirst space := by
  intro arrival member
  obtain rfl : arrival = .root initial := by
    simpa [History.arrivals, History.initial] using member
  rfl

variable [LawfulBEq K]

/-- A successor that is kept is the first of its key. -/
theorem Sifting.position_eq {state : S} {before after : Progress K} {kept : List (Nat × S)}
    {dead : List S} (sifting : Sifting space (space.successors state) before after kept dead)
    {entry : Nat × S} (member : entry ∈ kept) : space.position state entry.2 = entry.1 := by
  have taken : ((space.successors state).map space.key)[entry.1]? = some (space.key entry.2) := by
    rw [List.getElem?_map, sifting.taken entry member, Option.map_some]
  have listed := List.mem_of_getElem? taken
  apply Nat.le_antisymm
  · obtain ⟨bound, at_entry⟩ := List.getElem?_eq_some_iff.1 taken
    rw [StateSpace.position]
    by_contra later
    have differs := List.not_of_lt_findIdx (Nat.lt_of_not_le later)
    simp [at_entry] at differs
  · -- The first successor of this key was met, and the only one of those kept that has the key is
    -- the entry itself.
    have found := List.getElem?_idxOf listed
    rw [List.getElem?_map] at found
    obtain ⟨first, atFirst, same⟩ := Option.map_eq_some_iff.1 found
    have inKept := List.mem_map_of_mem (f := (space.key ·.2)) member
    rcases sifting.met _ first atFirst with known | known | ⟨other, old, le, same'⟩
    · exact absurd (same ▸ known) (sifting.unvisited _ (.inl inKept))
    · exact absurd (same ▸ known) (List.disjoint_of_nodup_append sifting.distinct inKept)
    · have alone := (List.nodup_append.1 sifting.distinct).1
      obtain rfl := List.inj_on_of_nodup_map alone old member (same'.trans same)
      exact le

/-- A round takes the first successor of each new key. -/
theorem History.TakesFirst.expand {expanded rest : List (Arrival S)} {first : Arrival S}
    {dead more : List S} {kept : List (Nat × S)} {before after : Progress K}
    (takes : History.TakesFirst space ⟨expanded, first :: rest, dead⟩)
    (sifting : Sifting space (space.successors first.state) before after kept more) :
    (History.expand ⟨expanded, first :: rest, dead⟩ kept more).TakesFirst space := by
  intro arrival member
  rw [History.arrivals_expand] at member
  rcases List.mem_append.1 member with old | new
  · exact takes arrival old
  · obtain ⟨entry, inKept, rfl⟩ := List.mem_map.1 new
    have parent := takes first (List.mem_append_right _ List.mem_cons_self)
    rw [Arrival.toList_extend, space.positionsOf_concat first.getLast?_toList, ← parent,
      sifting.position_eq inKept, Arrival.positions_extend]

end

/-! ## The order in the queue -/

namespace Explains

variable {earlier later : Arrival S}

/-- No waiting arrival is more than one step longer than another: it extends one that was expanded
before, and so one that is no longer than any that waits. -/
theorem length_positions_le (explains : Explains space blocked initial history frontier)
    (waits : earlier ∈ history.waiting) (waits' : later ∈ history.waiting) :
    later.positions.length ≤ earlier.positions.length + 1 := by
  rcases explains.grown later waits' with rfl | ⟨passed, old, position, state, rfl⟩
  · exact Nat.zero_le _
  · have sooner := (List.pairwise_append.1 explains.sorted).2.2 passed old earlier waits
    simpa using sooner.length_le

/-- What is true of any two waiting arrivals of which one comes sooner is true of their trails. -/
theorem pairwise_queue (explains : Explains space blocked initial history frontier)
    {R : Trail S → Trail S → Prop}
    (related : ∀ earlier ∈ history.waiting, ∀ later ∈ history.waiting,
      Sooner earlier.positions later.positions → R earlier.trail later.trail) :
    frontier.queue.toList.Pairwise R := by
  rw [explains.queue_eq, List.pairwise_map]
  have sorted := (List.pairwise_append.1 explains.sorted).2.1
  exact sorted.imp_of_mem fun waits waits' sooner => related _ waits _ waits' sooner

end Explains

namespace Frontier

/-- The frontier agrees with the record and has a history in which first successors are taken. -/
structure Traced (space : StateSpace S K) (visited : VisitedSet K) (initial : S)
    (record : Record S) (frontier : Frontier S K) : Prop where
  accounted : frontier.Accounted space visited initial record
  history : ∃ history, Explains space visited.toSet initial history frontier ∧
    history.TakesFirst space

variable [LawfulBEq K]

theorem Traced.start (fresh : space.key initial ∉ visited)
    (alive : space.isDeadEnd initial = false) :
    Traced space visited initial .empty (BreadthFirst.start space visited initial) where
  accounted := .start fresh alive
  history := ⟨_, .initial fresh alive, History.takesFirst_initial space initial⟩

/-- Every round keeps the trace. -/
theorem Traced.onward (traced : frontier.Traced space visited initial record)
    (stepped : step space limits frontier = .inr next) :
    next.Traced space visited initial (record ++ frontier.work space limits) := by
  obtain ⟨accounted, history, explains, takes⟩ := traced
  have round := round_step space limits frontier
  rw [stepped] at round
  obtain ⟨expanded, first, rest, dead, kept, more, rfl, sifting, later⟩ :=
    explains.exists_expand round
  exact ⟨accounted.onward stepped, _, later, takes.expand sifting⟩

omit [LawfulBEq K] in
/-- A trace keeps the queue in order. -/
theorem Traced.orderly (traced : frontier.Traced space visited initial record) :
    frontier.Orderly space visited initial record := by
  obtain ⟨⟨account, -, -⟩, history, explains, takes⟩ := traced
  have positions : ∀ arrival ∈ history.waiting,
      arrival.positions = space.positionsOf arrival.trail.toList :=
    fun arrival waits => takes arrival (List.mem_append_right _ waits)
  have route : ∀ arrival ∈ history.waiting,
      space.Walk initial arrival.positions arrival.trail.toList :=
    fun arrival waits => (explains.genuine arrival (List.mem_append_right _ waits)).route.walk
  have queued : ∀ trail ∈ frontier.queue.toList, ∃ arrival ∈ history.waiting,
      arrival.trail = trail := by
    rw [explains.queue_eq]
    exact fun trail member => List.mem_map.1 member
  have apart := account.distinct
  rw [Record.states, List.map_append, List.map_append] at apart
  have recordWaiting := List.disjoint_append_left.1 (List.disjoint_of_nodup_append apart)
  have expandedPruned := List.disjoint_of_nodup_append (List.nodup_append.1 apart).1
  refine ⟨?_, ?_, ?_, ?_, (List.nodup_append.1 apart).2.1, ?_, ?_⟩
  · intro trail member
    obtain ⟨arrival, -, rfl⟩ := queued trail member
    exact arrival.getLast?_toList
  · intro trail member
    obtain ⟨arrival, waits, rfl⟩ := queued trail member
    rw [← positions arrival waits]
    exact route arrival waits
  · refine explains.pairwise_queue fun earlier waits later waits' sooner => ?_
    rw [(route earlier waits).length_states, (route later waits').length_states]
    exact ⟨Nat.succ_le_succ sooner.length_le,
      Nat.succ_le_succ (explains.length_positions_le waits waits')⟩
  · refine explains.pairwise_queue fun earlier waits later waits' sooner same => ?_
    rw [← positions earlier waits, ← positions later waits']
    rw [(route earlier waits).length_states, (route later waits').length_states] at same
    exact sooner.lt_of_length_eq (Nat.succ.inj same)
  · ext key
    have visited_iff := account.visited_iff key
    simp only [Record.states, List.map_append, List.mem_append] at visited_iff
    simpa only [Set.mem_union, StateSpace.mem_keysOf, VisitedSet.mem_toSet, or_assoc]
      using visited_iff
  · have unblocked : ∀ states ⊆ record.states ++ frontier.waiting,
        ∀ key ∈ visited.toSet, key ∉ space.keysOf states := by
      intro states listed key known member
      obtain ⟨state, inStates, rfl⟩ := List.mem_map.1 member
      exact account.unblocked state (listed inStates) known
    have expanded : record.expanded ⊆ record.states ++ frontier.waiting := by
      simp [Record.states]
    have pruned : record.pruned ⊆ record.states ++ frontier.waiting := by
      simp [Record.states]
    simp only [List.pairwise_cons, List.forall_mem_cons, List.Pairwise.nil, List.not_mem_nil,
      false_implies, implies_true, and_true]
    exact ⟨⟨unblocked _ expanded, unblocked _ pruned,
        unblocked _ (List.subset_append_right _ _)⟩,
      ⟨StateSpace.disjoint_keysOf expandedPruned, StateSpace.disjoint_keysOf recordWaiting.1⟩,
      StateSpace.disjoint_keysOf recordWaiting.2⟩

end Frontier

/-- Rounds begin at a start that is neither visited nor a dead end, with nothing done. -/
theorem of_opening_eq_inr (begins : (opening space visited initial).2 = .inr frontier) :
    space.key initial ∉ visited ∧ space.isDeadEnd initial = false ∧
      (opening space visited initial).1 = .empty ∧ frontier = start space visited initial := by
  unfold opening at begins ⊢
  split at begins
  · cases begins
  next fresh =>
  split at begins
  · cases begins
  next alive =>
  split at begins
  · cases begins
  · cases begins
    exact ⟨fresh, by simpa using alive, by simp_all, rfl⟩

/-- Whenever a trail is about to leave the queue of a search, the queue is in order. -/
theorem queue_orderly [LawfulBEq K]
    (recorded : Recorded (step space limits) (Frontier.work space limits)
      (opening space visited initial).1 (opening space visited initial).2 record
      (.inr frontier)) : frontier.Orderly space visited initial record := by
  refine (recorded.keeps (P := Frontier.Traced space visited initial) ?_ ?_).orderly
  · intro first begins
    obtain ⟨fresh, alive, nothing, rfl⟩ := of_opening_eq_inr begins
    rw [nothing]
    exact .start fresh alive
  · exact fun traced stepped => traced.onward stepped

/-- Among the twins, after two rounds: of the successors of 0 and 1, node 2 has the key of node 1,
0 is known, 3 is given up, and 5 and 4 wait. -/
theorem queue_orderly_twins : ∃ record frontier,
    Recorded (step Graph.twins.space {}) (Frontier.work Graph.twins.space {})
      (opening Graph.twins.space (.ofList [9]) 0).1 (opening Graph.twins.space (.ofList [9]) 0).2
      record (.inr frontier) ∧
    record = ⟨[0, 1], [3]⟩ ∧ frontier.queue.toList.map Trail.toList = [[0, 5], [0, 1, 4]] ∧
    frontier.Orderly Graph.twins.space (.ofList [9]) 0 record := by
  have begins : opening Graph.twins.space (.ofList [9]) 0 =
      (.empty, .inr (start Graph.twins.space (.ofList [9]) 0)) := by
    simp [opening, Graph.twins, Graph.space, Graph.key, VisitedSet.mem_ofList]
  obtain ⟨first, second, stepped, stepped', queue, work⟩ : ∃ first second,
      step Graph.twins.space {} (start Graph.twins.space (.ofList [9]) 0) = .inr first ∧
      step Graph.twins.space {} first = .inr second ∧
      second.queue.toList.map Trail.toList = [[0, 5], [0, 1, 4]] ∧
      .empty ++ (start Graph.twins.space (.ofList [9]) 0).work Graph.twins.space {} ++
        first.work Graph.twins.space {} = ⟨[0, 1], [3]⟩ := by
    simp [Graph.twins, Graph.space, Graph.successors, Graph.key, step, BreadthFirst.start,
      newTrails, VisitedSet.mem_ofList, VisitedSet.mem_insert, Queue.ofList, Queue.pop?,
      Queue.append, Queue.toList, Limits.spent, Trail.extend, Trail.toList, Frontier.work,
      Frontier.workTowards, rejected, Record.expand, Record.prune]
    rfl
  have recorded : Recorded (step Graph.twins.space {}) (Frontier.work Graph.twins.space {})
      (opening Graph.twins.space (.ofList [9]) 0).1 (opening Graph.twins.space (.ofList [9]) 0).2
      ⟨[0, 1], [3]⟩ (.inr second) := by
    rw [begins, ← work]
    exact .step (.step .start stepped) stepped'
  exact ⟨_, second, recorded, rfl, queue, queue_orderly recorded⟩

end BreadthFirst

end SearchSpace
