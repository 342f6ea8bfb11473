import SearchSpace.Proofs.ClosedOff

/-!
# State spaces without dead ends

Any space may be searched without giving states up early. If its dead ends are sound, so that no
walk from one of them meets a goal, then nothing is lost by them: the space has the same solutions
with them and without.
-/

namespace SearchSpace.StateSpace

universe u v

variable {S : Type u} {K : Type v} {space : StateSpace S K} {blocked more : Set K} {start : S}
  {positions : List Nat} {states : List S}

/-- The same space, with no state given up. -/
def unpruned (space : StateSpace S K) : StateSpace S K where
  successors := space.successors
  isGoal := space.isGoal
  key := space.key

/-- No walk from a dead end meets a goal, neither at the dead end itself nor later. -/
def SoundDeadEnds (space : StateSpace S K) : Prop :=
  ∀ start, space.isDeadEnd start = true → ∀ positions states,
    space.Walk start positions states → ∀ state ∈ states, space.isGoal state = false

@[simp] theorem isDeadEnd_unpruned (state : S) : space.unpruned.isDeadEnd state = false := rfl

theorem Lawful.unpruned (lawful : space.Lawful) : space.unpruned.Lawful where
  isGoal_eq := lawful.isGoal_eq
  isDeadEnd_eq _ := rfl
  successors_eq := lawful.successors_eq

theorem walk_unpruned_iff :
    space.unpruned.Walk start positions states ↔ space.Walk start positions states := by
  constructor
  · intro walk
    induction walk with
    | stay => exact .stay _
    | move taken _ ih => exact .move taken ih
  · intro walk
    induction walk with
    | stay => exact .stay _
    | move taken _ ih => exact .move taken ih

theorem Route.unpruned (route : space.Route blocked start positions states) :
    space.unpruned.Route blocked start positions states where
  walk := walk_unpruned_iff.2 route.walk
  alive _ _ := rfl
  fresh := route.fresh

/-- What may be closed off although no state is given up may be closed off all the more. -/
theorem ClosedOff.of_unpruned (closedOff : space.unpruned.ClosedOff blocked more) :
    space.ClosedOff blocked more where
  noGoal inside fresh _ := closedOff.noGoal inside fresh rfl
  successors inside fresh _ := closedOff.successors inside fresh rfl

namespace SoundDeadEnds

/-- A state that leads to a goal is no dead end. -/
theorem isDeadEnd_eq_false (sound : space.SoundDeadEnds)
    (solution : space.unpruned.Solution blocked start positions states) :
    space.isDeadEnd start = false := by
  rw [← Bool.not_eq_true]
  intro deadEnd
  obtain ⟨last, atEnd, goal⟩ := solution.goal
  have walk := walk_unpruned_iff.1 solution.walk
  have noGoal := sound start deadEnd positions states walk last (List.mem_of_mem_getLast? atEnd)
  rw [show space.isGoal last = true from goal] at noGoal
  cases noGoal

theorem not_solvable (sound : space.SoundDeadEnds) (deadEnd : space.isDeadEnd start = true) :
    ¬space.unpruned.Solvable blocked start := by
  rintro ⟨positions, states, solution⟩
  rw [sound.isDeadEnd_eq_false solution] at deadEnd
  cases deadEnd

/-- So solutions meet no dead ends, and pruning keeps them. -/
theorem solution_iff (sound : space.SoundDeadEnds) :
    space.Solution blocked start positions states ↔
      space.unpruned.Solution blocked start positions states := by
  constructor
  · intro solution
    exact ⟨solution.toRoute.unpruned, solution.goal⟩
  · intro solution
    have walk := solution.walk
    induction walk with
    | stay start =>
      exact .stay (sound.isDeadEnd_eq_false solution) solution.start_fresh solution.isGoal_of_stay
    | move taken rest ih =>
      exact .move (sound.isDeadEnd_eq_false solution) solution.start_fresh taken
        (ih (solution.tail rest))

end SoundDeadEnds

end SearchSpace.StateSpace
