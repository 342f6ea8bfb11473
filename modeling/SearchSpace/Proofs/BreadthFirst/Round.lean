import SearchSpace.BreadthFirst
import SearchSpace.Proofs.Walk

/-!
# One round of a breadth-first search

What a round does, by what the queue holds, and what going through the successors of a state comes
to. Later modules cite these two facts and do not unfold the search.
-/

namespace SearchSpace.BreadthFirst

universe u v

variable {S : Type u} {K : Type v} [BEq K] [Hashable K]

/-- The ways in which a round can go. -/
inductive Round (space : StateSpace S K) (limits : Limits) (frontier : Frontier S K) :
    Outcome S K ⊕ Frontier S K → Prop
  | drained : frontier.queue.toList = [] →
      Round space limits frontier (.inl ⟨.exhausted, frontier.progress⟩)
  | reached {trail : Trail S} {rest : List (Trail S)} :
      frontier.queue.toList = trail :: rest → space.isGoal trail.state = true →
      Round space limits frontier (.inl ⟨.found trail.toList, frontier.progress⟩)
  | refused {trail : Trail S} {rest : List (Trail S)} {limit : UInt64} :
      frontier.queue.toList = trail :: rest → space.isGoal trail.state = false →
      limits.spent frontier.progress.stats.expansions = some limit →
      Round space limits frontier (.inl ⟨.stopped (.expansions limit), frontier.progress⟩)
  | expanded {trail : Trail S} {rest : List (Trail S)} {next : Frontier S K} :
      frontier.queue.toList = trail :: rest → space.isGoal trail.state = false →
      limits.spent frontier.progress.stats.expansions = none →
      next.queue.toList = rest ++ (newTrails space trail (space.successors trail.state)
        frontier.progress.countExpanded).1 →
      next.progress = (newTrails space trail (space.successors trail.state)
        frontier.progress.countExpanded).2 →
      Round space limits frontier (.inr next)

theorem round_step (space : StateSpace S K) (limits : Limits) (frontier : Frontier S K) :
    Round space limits frontier (step space limits frontier) := by
  rw [step]
  split
  · next empty => exact .drained (Queue.pop?_eq_none empty)
  · next trail queue popped =>
    have front := Queue.toList_of_pop? popped
    split
    · next goal => exact .reached front goal
    · next noGoal =>
      split
      · next limit overspent => exact .refused front (by simpa using noGoal) overspent
      · next within =>
        exact .expanded front (by simpa using noGoal) within (Queue.toList_append _ _) rfl

section

variable {space : StateSpace S K} {limits : Limits} {frontier next : Frontier S K}
  {outcome : Outcome S K}

/-- A run that decides the search does so in its first round, or in the rounds after it. -/
theorem run_succ_cases {rounds : Nat}
    (decided : run space limits (rounds + 1) frontier = some outcome) :
    step space limits frontier = .inl outcome ∧ Round space limits frontier (.inl outcome) ∨
      ∃ next, step space limits frontier = .inr next ∧ Round space limits frontier (.inr next) ∧
        run space limits rounds next = some outcome := by
  have round := round_step space limits frontier
  rw [run] at decided
  cases stepped : step space limits frontier with
  | inl final =>
    rw [stepped] at decided round
    cases decided
    exact .inl ⟨rfl, round⟩
  | inr next =>
    rw [stepped] at decided round
    exact .inr ⟨next, rfl, round, decided⟩

/-- What every round keeps holds in the round that decides the search. -/
theorem exists_last_round {P : Frontier S K → Prop}
    (keeps : ∀ {frontier next}, P frontier → Round space limits frontier (.inr next) → P next)
    {rounds : Nat} (kept : P frontier)
    (decided : run space limits rounds frontier = some outcome) :
    ∃ last, P last ∧ Round space limits last (.inl outcome) := by
  induction rounds generalizing frontier with
  | zero => cases decided
  | succ rounds ih =>
    rcases run_succ_cases decided with ⟨_, round⟩ | ⟨next, _, round, decided⟩
    · exact ⟨frontier, kept, round⟩
    · exact ih (keeps kept round) decided

/-- Looking through successors expands no state. -/
theorem expansions_newTrails (trail : Trail S) (successors : List S) (progress : Progress K) :
    (newTrails space trail successors progress).2.stats.expansions = progress.stats.expansions := by
  induction successors generalizing progress with
  | nil => rfl
  | cons next rest ih =>
    rw [newTrails]
    split
    · exact ih progress
    · split
      · rw [ih, Progress.stats_countPruned, Progress.expansions_mark]
      · exact ih (progress.mark (space.key next))

/-- A round that does not decide the search expands one state, for which there was room. -/
theorem Round.undecided (round : Round space limits frontier (.inr next)) :
    limits.spent frontier.progress.stats.expansions = none ∧
      next.progress.stats.expansions = frontier.progress.stats.expansions + 1 := by
  cases round with
  | expanded _ _ unspent _ progress =>
    refine ⟨unspent, ?_⟩
    rw [progress, expansions_newTrails, Progress.stats_countExpanded]

/-- No round overspends a budget. -/
theorem Round.within (round : Round space limits frontier (.inr next)) :
    limits.Within next.progress.stats.expansions := by
  obtain ⟨unspent, one⟩ := round.undecided
  rw [one]
  exact Limits.within_succ unspent

/-- The round that decides the search expands no state. -/
theorem Round.progress_eq (round : Round space limits frontier (.inl outcome)) :
    outcome.progress = frontier.progress := by
  cases round <;> rfl

end

/-- What going through successors sorts them into: those to be queued, with their positions, and
the dead ends. All others were visited before or have the key of an earlier one. -/
structure Sifting (space : StateSpace S K) (successors : List S) (before after : Progress K)
    (kept : List (Nat × S)) (dead : List S) : Prop where
  taken : ∀ entry ∈ kept, successors[entry.1]? = some entry.2
  alive : ∀ entry ∈ kept, space.isDeadEnd entry.2 = false
  increasing : kept.Pairwise fun earlier later => earlier.1 < later.1
  rejected : ∀ state ∈ dead, state ∈ successors ∧ space.isDeadEnd state = true
  visited_iff : ∀ key, key ∈ after.visited ↔ key ∈ before.visited ∨
    key ∈ kept.map (space.key ·.2) ∨ key ∈ dead.map space.key
  unvisited : ∀ key, key ∈ kept.map (space.key ·.2) ∨ key ∈ dead.map space.key →
    key ∉ before.visited
  distinct : (kept.map (space.key ·.2) ++ dead.map space.key).Nodup
  met : ∀ position next, successors[position]? = some next →
    space.key next ∈ before.visited ∨ space.key next ∈ dead.map space.key ∨
      ∃ entry ∈ kept, entry.1 ≤ position ∧ space.key entry.2 = space.key next
  stats_eq : after.stats =
    { before.stats with
      pruned := before.stats.pruned + dead.length
      visited := before.stats.visited + kept.length + dead.length }

namespace Sifting

variable {space : StateSpace S K} {next : S} {rest : List S} {before after : Progress K}
  {kept : List (Nat × S)} {dead : List S}

/-- An entry whose position counts one more successor in front. -/
def shift (entry : Nat × S) : Nat × S := (entry.1 + 1, entry.2)

omit [BEq K] [Hashable K] in
theorem map_key_shift (entries : List (Nat × S)) :
    (entries.map shift).map (space.key ·.2) = entries.map (space.key ·.2) := by
  rw [List.map_map]
  rfl

theorem increasing_shift (increasing : kept.Pairwise fun earlier later => earlier.1 < later.1) :
    (kept.map shift).Pairwise fun earlier later => earlier.1 < later.1 :=
  List.pairwise_map.2 (increasing.imp fun less => Nat.succ_lt_succ less)

theorem nil (before : Progress K) : Sifting space [] before before [] [] where
  taken := by simp
  alive := by simp
  increasing := .nil
  rejected := by simp
  visited_iff := by simp
  unvisited := by simp
  distinct := by simp
  met := by simp
  stats_eq := by simp

/-- A successor that was visited before is passed over. -/
theorem seen (sifting : Sifting space rest before after kept dead)
    (visited : space.key next ∈ before.visited) :
    Sifting space (next :: rest) before after (kept.map shift) dead where
  taken := List.forall_mem_map.2 sifting.taken
  alive := List.forall_mem_map.2 sifting.alive
  increasing := increasing_shift sifting.increasing
  rejected state member := (sifting.rejected state member).imp_left (List.mem_cons_of_mem _)
  visited_iff key := by rw [map_key_shift, sifting.visited_iff]
  unvisited := by rw [map_key_shift]; exact sifting.unvisited
  distinct := by rw [map_key_shift]; exact sifting.distinct
  met position other found := by
    cases position with
    | zero =>
      cases found
      exact .inl visited
    | succ position =>
      rcases sifting.met position other found with known | dropped | ⟨entry, member, le, same⟩
      · exact .inl known
      · exact .inr (.inl dropped)
      · exact .inr (.inr ⟨shift entry, List.mem_map_of_mem member, Nat.succ_le_succ le, same⟩)
  stats_eq := by rw [sifting.stats_eq, List.length_map]

variable [LawfulBEq K]

/-- A dead end that was not visited before is marked and dropped. -/
theorem pruned (alone : space.key next ∉ before.visited) (deadEnd : space.isDeadEnd next = true)
    (sifting : Sifting space rest (before.mark (space.key next)).countPruned after kept dead) :
    Sifting space (next :: rest) before after (kept.map shift) (next :: dead) where
  taken := List.forall_mem_map.2 sifting.taken
  alive := List.forall_mem_map.2 sifting.alive
  increasing := increasing_shift sifting.increasing
  rejected := by
    intro state member
    rcases List.mem_cons.1 member with rfl | member
    · exact ⟨List.mem_cons_self, deadEnd⟩
    · exact (sifting.rejected state member).imp_left (List.mem_cons_of_mem _)
  visited_iff key := by
    rw [map_key_shift, sifting.visited_iff]
    simp only [Progress.visited_countPruned, Progress.visited_mark, VisitedSet.mem_insert,
      List.map_cons, List.mem_cons]
    tauto
  unvisited key member visited := by
    rw [map_key_shift, List.map_cons, List.mem_cons] at member
    by_cases same : key = space.key next
    · exact alone (same ▸ visited)
    · exact sifting.unvisited key (member.imp_right (·.resolve_left same))
        (VisitedSet.mem_insert.2 (.inr visited))
  distinct := by
    rw [map_key_shift, List.map_cons, List.perm_middle.nodup_iff, List.nodup_cons]
    refine ⟨fun member => ?_, sifting.distinct⟩
    exact sifting.unvisited _ (List.mem_append.1 member) (VisitedSet.mem_insert.2 (.inl rfl))
  met position other found := by
    cases position with
    | zero =>
      cases found
      exact .inr (.inl List.mem_cons_self)
    | succ position =>
      rcases sifting.met position other found with known | dropped | ⟨entry, member, le, same⟩
      · rcases VisitedSet.mem_insert.1 known with same | known
        · exact .inr (.inl (List.mem_cons.2 (.inl same)))
        · exact .inl known
      · exact .inr (.inl (List.mem_cons_of_mem _ dropped))
      · exact .inr (.inr ⟨shift entry, List.mem_map_of_mem member, Nat.succ_le_succ le, same⟩)
  stats_eq := by
    rw [sifting.stats_eq, Progress.stats_countPruned, Progress.stats_mark_of_notMem alone]
    simp only [List.length_map, List.length_cons, Stats.mk.injEq, true_and]
    omega

/-- Any other successor that was not visited before is marked and kept. -/
theorem queued (alone : space.key next ∉ before.visited) (alive : space.isDeadEnd next = false)
    (sifting : Sifting space rest (before.mark (space.key next)) after kept dead) :
    Sifting space (next :: rest) before after ((0, next) :: kept.map shift) dead where
  taken := List.forall_mem_cons.2 ⟨rfl, List.forall_mem_map.2 sifting.taken⟩
  alive := List.forall_mem_cons.2 ⟨alive, List.forall_mem_map.2 sifting.alive⟩
  increasing := by
    refine List.pairwise_cons.2 ⟨?_, increasing_shift sifting.increasing⟩
    exact List.forall_mem_map.2 fun entry _ => Nat.succ_pos entry.1
  rejected state member := (sifting.rejected state member).imp_left (List.mem_cons_of_mem _)
  visited_iff key := by
    rw [List.map_cons, map_key_shift, sifting.visited_iff]
    simp only [Progress.visited_mark, VisitedSet.mem_insert, List.mem_cons]
    tauto
  unvisited key member visited := by
    rw [List.map_cons, map_key_shift, List.mem_cons] at member
    by_cases same : key = space.key next
    · exact alone (same ▸ visited)
    · exact sifting.unvisited key (member.imp_left (·.resolve_left same))
        (VisitedSet.mem_insert.2 (.inr visited))
  distinct := by
    rw [List.map_cons, map_key_shift, List.cons_append, List.nodup_cons]
    refine ⟨fun member => ?_, sifting.distinct⟩
    exact sifting.unvisited _ (List.mem_append.1 member) (VisitedSet.mem_insert.2 (.inl rfl))
  met position other found := by
    cases position with
    | zero =>
      cases found
      exact .inr (.inr ⟨(0, next), List.mem_cons_self, Nat.le_refl 0, rfl⟩)
    | succ position =>
      rcases sifting.met position other found with known | dropped | ⟨entry, member, le, same⟩
      · rcases VisitedSet.mem_insert.1 known with same | known
        · exact .inr (.inr ⟨(0, next), List.mem_cons_self, Nat.zero_le _, same.symm⟩)
        · exact .inl known
      · exact .inr (.inl dropped)
      · exact .inr (.inr ⟨shift entry, List.mem_cons_of_mem _ (List.mem_map_of_mem member),
          Nat.succ_le_succ le, same⟩)
  stats_eq := by
    rw [sifting.stats_eq, Progress.stats_mark_of_notMem alone]
    simp only [List.length_map, List.length_cons, Stats.mk.injEq, true_and]
    omega

end Sifting

/-- The trails queued by a round are those to the kept successors. -/
theorem exists_sifting [LawfulBEq K] (space : StateSpace S K) (trail : Trail S)
    (successors : List S) (progress : Progress K) :
    ∃ kept dead, (newTrails space trail successors progress).1 = kept.map (trail.extend ·.2) ∧
      Sifting space successors progress (newTrails space trail successors progress).2
        kept dead := by
  induction successors generalizing progress with
  | nil => exact ⟨[], [], rfl, .nil progress⟩
  | cons next rest ih =>
    rw [newTrails]
    split
    · next visited =>
      obtain ⟨kept, dead, trails, sifting⟩ := ih progress
      exact ⟨kept.map Sifting.shift, dead, by rw [trails, List.map_map]; rfl, sifting.seen visited⟩
    · next alone =>
      split
      · next deadEnd =>
        obtain ⟨kept, dead, trails, sifting⟩ := ih (progress.mark (space.key next)).countPruned
        exact ⟨kept.map Sifting.shift, next :: dead, by rw [trails, List.map_map]; rfl,
          sifting.pruned alone deadEnd⟩
      · next alive =>
        obtain ⟨kept, dead, trails, sifting⟩ := ih (progress.mark (space.key next))
        refine ⟨(0, next) :: kept.map Sifting.shift, dead, ?_,
          sifting.queued alone (by simpa using alive)⟩
        simp [trails, Function.comp_def, Sifting.shift]

end SearchSpace.BreadthFirst
