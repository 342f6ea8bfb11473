import Mathlib.Data.List.Nodup
import Mathlib.Data.List.Shortlex
import SearchSpace.Proofs.BreadthFirst.Round

/-!
# The history of a breadth-first search

What a breadth-first search has done so far: the trails it has expanded, in order, those that wait,
and the dead ends it has met. The history explains the frontier. Trails are met in the order of
their lengths and, among those of one length, in the lexicographic order of their positions, because
each waiting trail is one step longer than a trail that was expanded before. The space need not be
lawful for any of this.
-/

namespace SearchSpace.BreadthFirst

universe u v

variable {S : Type u} {K : Type v} [BEq K] [Hashable K]

/-- Lists of positions in the order in which the search comes to them. -/
abbrev Sooner : List Nat → List Nat → Prop := List.Shortlex (· < ·)

theorem lex_append {left right : List Nat} (same : left.length = right.length)
    (less : List.Lex (· < ·) left right) (more others : List Nat) :
    List.Lex (· < ·) (left ++ more) (right ++ others) := by
  induction less with
  | nil => simp at same
  | rel less => exact .rel less
  | cons _ ih => exact .cons (ih (by simpa using same))

theorem Sooner.append {left right more others : List Nat} (sooner : Sooner left right)
    (same : more.length = others.length) : Sooner (left ++ more) (right ++ others) := by
  rcases List.shortlex_def.1 sooner with shorter | ⟨equal, less⟩
  · apply List.Shortlex.of_length_lt
    simp only [List.length_append]
    omega
  · apply List.Shortlex.of_lex
    · simp only [List.length_append, equal, same]
    · exact lex_append equal less more others

theorem Sooner.concat_self (positions : List Nat) (position : Nat) :
    Sooner positions (positions ++ [position]) :=
  .of_length_lt (by simp)

theorem Sooner.concat_lt (positions : List Nat) {earlier later : Nat} (less : earlier < later) :
    Sooner (positions ++ [earlier]) (positions ++ [later]) :=
  .append_left (List.shortlex_singleton_iff _ _ |>.2 less) positions

theorem Sooner.trans {first second third : List Nat} (left : Sooner first second)
    (right : Sooner second third) : Sooner first third := by
  rcases List.shortlex_def.1 left with shorter | ⟨equal, less⟩ <;>
    rcases List.shortlex_def.1 right with shorter' | ⟨equal', less'⟩ <;>
    apply List.shortlex_def.2
  · exact .inl (by omega)
  · exact .inl (by omega)
  · exact .inl (by omega)
  · exact .inr ⟨equal.trans equal', List.lt_trans less less'⟩

theorem Sooner.length_le {left right : List Nat} (sooner : Sooner left right) :
    left.length ≤ right.length := by
  rcases List.shortlex_def.1 sooner with shorter | ⟨same, -⟩
  · exact Nat.le_of_lt shorter
  · exact Nat.le_of_eq same

theorem Sooner.lt_of_length_eq {left right : List Nat} (sooner : Sooner left right)
    (same : left.length = right.length) : left < right := by
  rcases List.shortlex_def.1 sooner with shorter | ⟨-, less⟩
  · exact absurd same (Nat.ne_of_lt shorter)
  · exact less

theorem Sooner.irrefl (positions : List Nat) : ¬Sooner positions positions :=
  fun sooner => List.lt_irrefl positions (sooner.lt_of_length_eq rfl)

/-- A trail with the positions of the successors that it takes. -/
structure Arrival (S : Type u) where
  positions : List Nat
  trail : Trail S

namespace Arrival

/-- The state that the trail leads to. -/
def state (arrival : Arrival S) : S := arrival.trail.state

/-- The start of the search, before any step. -/
def root (start : S) : Arrival S := ⟨[], ⟨start, []⟩⟩

/-- One more step, to the successor `next` at `position`. -/
def extend (arrival : Arrival S) (position : Nat) (next : S) : Arrival S :=
  ⟨arrival.positions ++ [position], arrival.trail.extend next⟩

@[simp] theorem state_root (start : S) : (root start).state = start := rfl

@[simp] theorem state_extend (arrival : Arrival S) (position : Nat) (next : S) :
    (arrival.extend position next).state = next := rfl

@[simp] theorem positions_extend (arrival : Arrival S) (position : Nat) (next : S) :
    (arrival.extend position next).positions = arrival.positions ++ [position] := rfl

@[simp] theorem toList_extend (arrival : Arrival S) (position : Nat) (next : S) :
    (arrival.extend position next).trail.toList = arrival.trail.toList ++ [next] :=
  Trail.toList_extend _ _

theorem getLast?_toList (arrival : Arrival S) :
    arrival.trail.toList.getLast? = some arrival.state := by
  simp [Trail.toList, state]

theorem mem_toList {arrival : Arrival S} {state : S} :
    state ∈ arrival.trail.toList ↔ state = arrival.state ∨ state ∈ arrival.trail.earlier := by
  simp [Trail.toList, Arrival.state, or_comm]

/-- The trail is a route on which no key comes twice and all states but the last were expanded. -/
structure Genuine (space : StateSpace S K) (blocked : Set K) (start : S)
    (expanded : List (Arrival S)) (arrival : Arrival S) : Prop where
  route : space.Route blocked start arrival.positions arrival.trail.toList
  distinct : (arrival.trail.toList.map space.key).Nodup
  earlier : ∀ state ∈ arrival.trail.earlier, ∃ passed ∈ expanded, passed.state = state

end Arrival

/-- What a breadth-first search has done so far. -/
structure History (S : Type u) where
  /-- The arrivals whose states were expanded, in order. -/
  expanded : List (Arrival S)
  /-- The arrivals that wait in the queue, in order. -/
  waiting : List (Arrival S)
  /-- The dead ends that were met. -/
  dead : List S

namespace History

/-- All arrivals, in the order in which they were met. -/
def arrivals (history : History S) : List (Arrival S) := history.expanded ++ history.waiting

/-- The keys that the search has marked, those of the arrivals first. -/
def keys (space : StateSpace S K) (history : History S) : List K :=
  history.arrivals.map (space.key ·.state) ++ history.dead.map space.key

/-- The search has just marked its start. -/
def initial (start : S) : History S := ⟨[], [.root start], []⟩

/-- The first arrival in the queue is expanded: the kept successors wait, and more dead ends are
met. -/
def expand (history : History S) (kept : List (Nat × S)) (more : List S) : History S :=
  match history.waiting with
  | [] => history
  | first :: rest =>
    { expanded := history.expanded ++ [first]
      waiting := rest ++ kept.map fun entry => first.extend entry.1 entry.2
      dead := history.dead ++ more }

variable {space : StateSpace S K} {expanded rest : List (Arrival S)} {first : Arrival S}
  {dead : List S}

theorem arrivals_expand (kept : List (Nat × S)) (more : List S) :
    (expand ⟨expanded, first :: rest, dead⟩ kept more).arrivals =
      expanded ++ first :: rest ++ kept.map fun entry => first.extend entry.1 entry.2 := by
  simp [expand, arrivals]

omit [BEq K] [Hashable K] in
theorem keys_expand_perm (kept : List (Nat × S)) (more : List S) :
    ((expand ⟨expanded, first :: rest, dead⟩ kept more).keys space).Perm
      (keys space ⟨expanded, first :: rest, dead⟩ ++
        (kept.map (space.key ·.2) ++ more.map space.key)) := by
  have new : (kept.map fun entry => first.extend entry.1 entry.2).map (space.key ·.state) =
      kept.map (space.key ·.2) := by
    rw [List.map_map]
    rfl
  rw [keys, arrivals_expand, List.map_append, new, keys, arrivals]
  simp only [expand, List.map_append, List.append_assoc]
  apply List.Perm.append_left
  apply List.Perm.append_left
  exact List.perm_append_comm_assoc _ _ _

end History

theorem History.mem_arrivals_of_waiting {history : History S} {first : Arrival S}
    {rest : List (Arrival S)} (waiting : history.waiting = first :: rest) :
    first ∈ history.arrivals := by
  simp [arrivals, waiting]

/-- The history accounts for everything in the frontier of a search from `start` that keeps away
from the blocked keys. -/
structure Explains (space : StateSpace S K) (blocked : Set K) (start : S) (history : History S)
    (frontier : Frontier S K) : Prop where
  queue_eq : frontier.queue.toList = history.waiting.map (·.trail)
  root_mem : .root start ∈ history.arrivals
  sorted : history.arrivals.Pairwise fun earlier later =>
    Sooner earlier.positions later.positions
  genuine : ∀ arrival ∈ history.arrivals, arrival.Genuine space blocked start history.expanded
  grown : ∀ arrival ∈ history.waiting, arrival = .root start ∨
    ∃ passed ∈ history.expanded, ∃ position next, arrival = passed.extend position next
  noGoal : ∀ arrival ∈ history.expanded, space.isGoal arrival.state = false
  rejected : ∀ state ∈ history.dead, space.isDeadEnd state = true ∧
    ∃ arrival ∈ history.expanded, state ∈ space.successors arrival.state
  visited_iff : ∀ key, key ∈ frontier.progress.visited ↔ key ∈ blocked ∨ key ∈ history.keys space
  unblocked : ∀ key ∈ history.keys space, key ∉ blocked
  distinct : (history.keys space).Nodup
  met : ∀ arrival ∈ history.expanded, ∀ position next,
    (space.successors arrival.state)[position]? = some next →
      space.key next ∈ blocked ∨ space.key next ∈ history.dead.map space.key ∨
      ∃ other ∈ history.arrivals, space.key other.state = space.key next ∧
        (other.positions = arrival.positions ++ [position] ∨
          Sooner other.positions (arrival.positions ++ [position]))
  stats_eq : frontier.progress.stats =
    { expansions := history.expanded.length
      pruned := history.dead.length
      visited := (history.keys space).length }

namespace Explains

variable {space : StateSpace S K} {blocked : Set K} {start : S} {frontier next : Frontier S K}
  {history : History S} {expanded rest : List (Arrival S)} {first : Arrival S} {dead : List S}

/-- The first trail in the queue is that of the first waiting arrival. -/
theorem exists_first (explains : Explains space blocked start history frontier) {trail : Trail S}
    {trails : List (Trail S)} (front : frontier.queue.toList = trail :: trails) :
    ∃ first rest, history.waiting = first :: rest ∧ first.trail = trail ∧
      rest.map (·.trail) = trails := by
  rw [explains.queue_eq] at front
  exact List.map_eq_cons_iff.1 front

/-- All arrivals so far are sooner than those that the next round can add: a waiting arrival extends
one that was expanded before, and so one that is sooner than the first in the queue. -/
theorem ahead (explains : Explains space blocked start ⟨expanded, first :: rest, dead⟩ frontier)
    (position : Nat) : ∀ arrival ∈ expanded ++ first :: rest,
      Sooner arrival.positions (first.positions ++ [position]) := by
  have beforeFirst : ∀ arrival ∈ expanded, Sooner arrival.positions first.positions := by
    intro arrival member
    exact (List.pairwise_append.1 explains.sorted).2.2 arrival member first List.mem_cons_self
  intro arrival member
  rcases List.mem_append.1 member with member | member
  · exact (beforeFirst arrival member).trans (.concat_self _ _)
  · rcases explains.grown arrival member with rfl | ⟨passed, old, other, state, rfl⟩
    · exact .of_length_lt (by simp [Arrival.root])
    · exact (beforeFirst passed old).append rfl

/-- A key that a round marks is new. -/
theorem new_of_sifting {kept : List (Nat × S)} {more : List S}
    (explains : Explains space blocked start history frontier)
    (sifting : Sifting space (space.successors first.state) frontier.progress.countExpanded
      next.progress kept more) :
    ∀ key, key ∈ kept.map (space.key ·.2) ∨ key ∈ more.map space.key →
      key ∉ blocked ∧ key ∉ history.keys space := by
  intro key member
  have unvisited : key ∉ frontier.progress.visited := sifting.unvisited key member
  rw [explains.visited_iff] at unvisited
  exact not_or.1 unvisited

/-- The arrivals that a round adds are genuine. -/
theorem genuine_extend {kept : List (Nat × S)} {more : List S}
    (explains : Explains space blocked start ⟨expanded, first :: rest, dead⟩ frontier)
    (sifting : Sifting space (space.successors first.state) frontier.progress.countExpanded
      next.progress kept more) :
    ∀ entry ∈ kept,
      (first.extend entry.1 entry.2).Genuine space blocked start (expanded ++ [first]) := by
  intro entry member
  have inKept : space.key entry.2 ∈ kept.map (space.key ·.2) := List.mem_map_of_mem member
  have ⟨unblocked, new⟩ := explains.new_of_sifting sifting _ (.inl inKept)
  have parent := explains.genuine first (List.mem_append_right _ List.mem_cons_self)
  refine ⟨?_, ?_, ?_⟩
  · rw [Arrival.toList_extend]
    exact parent.route.concat first.getLast?_toList (sifting.taken entry member)
      (sifting.alive entry member) unblocked
  · rw [Arrival.toList_extend, List.map_append, List.map_singleton, ← List.concat_eq_append,
      List.nodup_concat]
    refine ⟨fun passed => new ?_, parent.distinct⟩
    obtain ⟨state, onTrail, same⟩ := List.mem_map.1 passed
    apply List.mem_append_left
    rw [← same]
    rcases Arrival.mem_toList.1 onTrail with rfl | earlier
    · exact List.mem_map.2 ⟨first, List.mem_append_right _ List.mem_cons_self, rfl⟩
    · obtain ⟨old, inExpanded, rfl⟩ := parent.earlier state earlier
      exact List.mem_map.2 ⟨old, List.mem_append_left _ inExpanded, rfl⟩
  · intro state passed
    rcases List.mem_cons.1 passed with rfl | passed
    · exact ⟨first, by simp, rfl⟩
    · obtain ⟨old, inExpanded, same⟩ := parent.earlier state passed
      exact ⟨old, List.mem_append_left _ inExpanded, same⟩

/-- Whatever key a successor of the expanded state has, it was met no later than here. -/
theorem met_first {kept : List (Nat × S)} {more : List S}
    (explains : Explains space blocked start ⟨expanded, first :: rest, dead⟩ frontier)
    (sifting : Sifting space (space.successors first.state) frontier.progress.countExpanded
      next.progress kept more) (position : Nat) (other : S)
    (taken : (space.successors first.state)[position]? = some other) :
    space.key other ∈ blocked ∨ space.key other ∈ (dead ++ more).map space.key ∨
      ∃ found ∈ (History.expand ⟨expanded, first :: rest, dead⟩ kept more).arrivals,
        space.key found.state = space.key other ∧
        (found.positions = first.positions ++ [position] ∨
          Sooner found.positions (first.positions ++ [position])) := by
  rw [History.arrivals_expand, List.map_append, List.mem_append]
  rcases sifting.met position other taken with known | known | ⟨entry, new, le, same⟩
  · -- Marked before this round: the arrival that has the key is sooner than any added now.
    rw [Progress.visited_countExpanded, explains.visited_iff] at known
    rcases known with known | known
    · exact .inl known
    · rcases List.mem_append.1 known with known | known
      · obtain ⟨found, old, same⟩ := List.mem_map.1 known
        exact .inr (.inr ⟨found, List.mem_append_left _ old, same,
          .inr (explains.ahead position found old)⟩)
      · exact .inr (.inl (.inl known))
  · exact .inr (.inl (.inr known))
  · refine .inr (.inr ⟨_, List.mem_append_right _ (List.mem_map_of_mem new), same, ?_⟩)
    rcases Nat.lt_or_eq_of_le le with less | rfl
    · exact .inr (.concat_lt _ less)
    · exact .inl rfl

/-- A round that expands the first arrival in the queue keeps the frontier explained. -/
theorem expand {kept : List (Nat × S)} {more : List S}
    (explains : Explains space blocked start ⟨expanded, first :: rest, dead⟩ frontier)
    (noGoal : space.isGoal first.state = false)
    (queue : next.queue.toList = rest.map (·.trail) ++ kept.map (first.trail.extend ·.2))
    (sifting : Sifting space (space.successors first.state) frontier.progress.countExpanded
      next.progress kept more) :
    Explains space blocked start (History.expand ⟨expanded, first :: rest, dead⟩ kept more)
      next where
  queue_eq := by
    rw [queue, History.expand, List.map_append, List.map_map]
    rfl
  root_mem := by
    rw [History.arrivals_expand]
    exact List.mem_append_left _ explains.root_mem
  sorted := by
    rw [History.arrivals_expand, List.pairwise_append]
    refine ⟨explains.sorted, ?_, ?_⟩
    · apply List.pairwise_map.2
      exact sifting.increasing.imp fun less => .concat_lt _ less
    · intro arrival member added new
      obtain ⟨entry, -, rfl⟩ := List.mem_map.1 new
      exact explains.ahead entry.1 arrival member
  genuine := by
    rw [History.arrivals_expand]
    intro arrival member
    rcases List.mem_append.1 member with member | new
    · have genuine := explains.genuine arrival member
      refine { genuine with earlier := fun state passed => ?_ }
      obtain ⟨old, inExpanded, same⟩ := genuine.earlier state passed
      exact ⟨old, List.mem_append_left _ inExpanded, same⟩
    · obtain ⟨entry, inKept, rfl⟩ := List.mem_map.1 new
      exact explains.genuine_extend sifting entry inKept
  grown := by
    intro arrival member
    rcases List.mem_append.1 member with member | new
    · rcases explains.grown arrival (List.mem_cons_of_mem _ member) with
        isRoot | ⟨passed, old, position, state, eq⟩
      · exact .inl isRoot
      · exact .inr ⟨passed, List.mem_append_left _ old, position, state, eq⟩
    · obtain ⟨entry, -, rfl⟩ := List.mem_map.1 new
      exact .inr ⟨first, by simp [History.expand], entry.1, entry.2, rfl⟩
  noGoal := by
    intro arrival member
    rcases List.mem_append.1 member with member | member
    · exact explains.noGoal arrival member
    · rw [List.mem_singleton.1 member]
      exact noGoal
  rejected := by
    intro state member
    rcases List.mem_append.1 member with member | member
    · obtain ⟨deadEnd, arrival, inExpanded, successor⟩ := explains.rejected state member
      exact ⟨deadEnd, arrival, List.mem_append_left _ inExpanded, successor⟩
    · have ⟨successor, deadEnd⟩ := sifting.rejected state member
      exact ⟨deadEnd, first, by simp [History.expand], successor⟩
  visited_iff key := by
    rw [sifting.visited_iff, Progress.visited_countExpanded, explains.visited_iff,
      (History.keys_expand_perm kept more).mem_iff, List.mem_append, List.mem_append, or_assoc]
  unblocked key member := by
    rw [(History.keys_expand_perm kept more).mem_iff, List.mem_append] at member
    rcases member with member | member
    · exact explains.unblocked key member
    · exact (explains.new_of_sifting sifting key (List.mem_append.1 member)).1
  distinct := by
    rw [(History.keys_expand_perm kept more).nodup_iff]
    refine explains.distinct.append sifting.distinct fun key old new => ?_
    exact (explains.new_of_sifting sifting key (List.mem_append.1 new)).2 old
  met := by
    rw [History.arrivals_expand]
    intro arrival member position other taken
    rcases List.mem_append.1 member with member | member
    · rcases explains.met arrival member position other taken with
        known | known | ⟨found, old, same⟩
      · exact .inl known
      · exact .inr (.inl (by simp [History.expand, known]))
      · exact .inr (.inr ⟨found, List.mem_append_left _ old, same⟩)
    · obtain rfl := List.mem_singleton.1 member
      have met := explains.met_first sifting position other taken
      rwa [History.arrivals_expand] at met
  stats_eq := by
    rw [sifting.stats_eq, Progress.stats_countExpanded, explains.stats_eq,
      (History.keys_expand_perm kept more).length_eq]
    simp [History.expand, Nat.add_assoc]

theorem state_mem_region {region : Set S}
    (closed : ∀ {state next : S}, state ∈ region → next ∈ space.successors state → next ∈ region)
    (explains : Explains space blocked start history frontier) (inside : start ∈ region)
    {arrival : Arrival S} (member : arrival ∈ history.arrivals) : arrival.state ∈ region :=
  (explains.genuine arrival member).route.walk.mem_region closed inside _
    (Arrival.mem_toList.2 (.inl rfl))

/-- The history in which only the start was met explains the first frontier. -/
theorem initial [LawfulBEq K] {visited : VisitedSet K} {initial : S}
    (fresh : space.key initial ∉ visited) (alive : space.isDeadEnd initial = false) :
    Explains space visited.toSet initial (.initial initial)
      (BreadthFirst.start space visited initial) where
  queue_eq := Queue.toList_ofList _
  root_mem := by simp [History.arrivals, History.initial]
  sorted := List.pairwise_singleton _ _
  genuine arrival member := by
    obtain rfl : arrival = .root initial := by
      simpa [History.arrivals, History.initial] using member
    exact ⟨.stay alive fresh, List.nodup_singleton _, by simp [Arrival.root]⟩
  grown arrival member := .inl (List.mem_singleton.1 member)
  noGoal := by simp [History.initial]
  rejected := by simp [History.initial]
  visited_iff key := by
    simp [BreadthFirst.start, History.keys, History.arrivals, History.initial,
      VisitedSet.mem_insert, or_comm]
  unblocked := by simpa [History.keys, History.arrivals, History.initial] using fresh
  distinct := by simp [History.keys, History.arrivals, History.initial]
  met := by simp [History.initial]
  stats_eq := by
    rw [BreadthFirst.start, Progress.stats_mark_of_notMem fresh]
    rfl

/-- A round that does not decide the search expands the first arrival in the queue. -/
theorem exists_expand [LawfulBEq K] {limits : Limits}
    (explains : Explains space blocked start history frontier)
    (round : Round space limits frontier (.inr next)) :
    ∃ expanded first rest dead kept more, history = ⟨expanded, first :: rest, dead⟩ ∧
      Sifting space (space.successors first.state) frontier.progress.countExpanded next.progress
        kept more ∧
      Explains space blocked start (history.expand kept more) next := by
  cases round with
  | expanded front noGoal _ queue progress =>
    obtain ⟨first, rest, waiting, rfl, rfl⟩ := explains.exists_first front
    obtain ⟨expanded, _, dead⟩ := history
    cases waiting
    obtain ⟨kept, more, trails, sifting⟩ := exists_sifting space first.trail
      (space.successors first.trail.state) frontier.progress.countExpanded
    rw [trails] at queue
    rw [← progress] at sifting
    exact ⟨expanded, first, rest, dead, kept, more, rfl, sifting,
      explains.expand noGoal queue sifting⟩

/-- A round that does not decide the search expands one more arrival. -/
theorem round [LawfulBEq K] {limits : Limits}
    (explains : Explains space blocked start history frontier)
    (round : Round space limits frontier (.inr next)) :
    ∃ later, Explains space blocked start later next ∧
      later.expanded.length = history.expanded.length + 1 := by
  obtain ⟨expanded, first, rest, dead, kept, more, rfl, -, explains⟩ := explains.exists_expand round
  exact ⟨_, explains, by simp [History.expand]⟩

end Explains

/-- A frontier that some history explains, with a budget that is not overspent. -/
def Explained (space : StateSpace S K) (limits : Limits) (blocked : Set K) (start : S)
    (frontier : Frontier S K) : Prop :=
  (∃ history, Explains space blocked start history frontier) ∧
    limits.Within frontier.progress.stats.expansions

theorem Explained.round [LawfulBEq K] {space : StateSpace S K} {limits : Limits} {blocked : Set K}
    {start : S} {frontier next : Frontier S K}
    (explained : Explained space limits blocked start frontier)
    (round : Round space limits frontier (.inr next)) :
    Explained space limits blocked start next := by
  obtain ⟨⟨history, explains⟩, -⟩ := explained
  obtain ⟨later, explains', -⟩ := explains.round round
  exact ⟨⟨later, explains'⟩, round.within⟩

/-- How a search that was decided went: its start was visited before, a dead end or a goal, or it
ended in a round on a frontier that is explained and within the budget. -/
inductive Decided (space : StateSpace S K) (limits : Limits) (visited : VisitedSet K)
    (initial : S) : Outcome S K → Prop
  | visited : space.key initial ∈ visited →
      Decided space limits visited initial ⟨.exhausted, { visited }⟩
  | deadEnd : space.key initial ∉ visited → space.isDeadEnd initial = true →
      Decided space limits visited initial ⟨.exhausted, ({ visited } : Progress K).countPruned⟩
  | goal : space.key initial ∉ visited → space.isDeadEnd initial = false →
      space.isGoal initial = true →
      Decided space limits visited initial ⟨.found [initial], { visited }⟩
  | rounds {history : History S} {last : Frontier S K} {outcome : Outcome S K} :
      space.key initial ∉ visited → space.isDeadEnd initial = false →
      Explains space visited.toSet initial history last →
      limits.Within last.progress.stats.expansions →
      Round space limits last (.inl outcome) → Decided space limits visited initial outcome

theorem decided_search [LawfulBEq K] {space : StateSpace S K} {limits : Limits} {rounds : Nat}
    {visited : VisitedSet K} {initial : S} {outcome : Outcome S K}
    (answered : search space limits rounds visited initial = some outcome) :
    Decided space limits visited initial outcome := by
  rw [search] at answered
  split at answered
  · next known =>
    cases answered
    exact .visited known
  · next fresh =>
    split at answered
    · next deadEnd =>
      cases answered
      exact .deadEnd fresh deadEnd
    · next alive =>
      have alive : space.isDeadEnd initial = false := by simpa using alive
      split at answered
      · next goal =>
        cases answered
        exact .goal fresh alive goal
      · next noGoal =>
        obtain ⟨last, ⟨⟨history, explains⟩, within⟩, round⟩ := exists_last_round Explained.round
          ⟨⟨_, .initial fresh alive⟩, limits.within_zero⟩ answered
        exact .rounds fresh alive explains within round

end SearchSpace.BreadthFirst
