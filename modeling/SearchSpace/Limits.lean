/-!
# Search limits

A search may be bounded in two ways: by the number of transitions that a depth-first search goes
down, and by the number of states that either search expands. Running into a bound is an error, and
not the answer that there is no solution.
-/

namespace SearchSpace

/-- The bounds of one search. -/
structure Limits where
  /-- The most transitions that a depth-first search goes down. -/
  maxDepth : UInt64 := 1024
  /-- The most states that are expanded, without bound if absent. -/
  maxExpansions : Option UInt64 := none
deriving DecidableEq, Repr, Inhabited

/-- Whether a search that has expanded `count` states may not expand another one. -/
def Limits.spent (limits : Limits) (count : Nat) : Option UInt64 :=
  limits.maxExpansions.filter fun limit => limit.toNat ≤ count

/-- No budget is overspent by so many expansions. -/
def Limits.Within (limits : Limits) (count : Nat) : Prop :=
  ∀ limit, limits.maxExpansions = some limit → count ≤ limit.toNat

theorem Limits.within_zero (limits : Limits) : limits.Within 0 := fun _ _ => Nat.zero_le _

theorem Limits.within_iff {limits : Limits} {limit : UInt64} {count : Nat}
    (budget : limits.maxExpansions = some limit) : limits.Within count ↔ count ≤ limit.toNat := by
  simp [Within, budget]

/-- Where another state may be expanded, expanding it overspends nothing. -/
theorem Limits.within_succ {limits : Limits} {count : Nat} (unspent : limits.spent count = none) :
    limits.Within (count + 1) := by
  intro limit budget
  have more : count < limit.toNat := by simpa [spent, budget] using unspent
  exact more

theorem Limits.Within.of_le {limits : Limits} {count fewer : Nat} (within : limits.Within count)
    (le : fewer ≤ count) : limits.Within fewer :=
  fun limit budget => Nat.le_trans le (within limit budget)

theorem Limits.spent_eq_none_iff {limits : Limits} {count : Nat} :
    limits.spent count = none ↔ limits.Within (count + 1) := by
  refine ⟨within_succ, fun within => ?_⟩
  cases budget : limits.maxExpansions with
  | none => simp [spent, budget]
  | some limit =>
    have more : count < limit.toNat := within limit budget
    simpa [spent, budget] using more

theorem Limits.spent_eq_some_iff {limits : Limits} {count : Nat} {limit : UInt64} :
    limits.spent count = some limit ↔
      limits.maxExpansions = some limit ∧ limit.toNat ≤ count := by
  simp [spent, Option.filter_eq_some_iff]

/-- Limits are at most others that let a search go at least as far. Without a budget any number of
states may be expanded. -/
instance : LE Limits where
  le limits more := limits.maxDepth ≤ more.maxDepth ∧
    ∀ limit, more.maxExpansions = some limit →
      ∃ lower, limits.maxExpansions = some lower ∧ lower ≤ limit

theorem Limits.le_iff {limits more : Limits} : limits ≤ more ↔
    limits.maxDepth ≤ more.maxDepth ∧ ∀ limit, more.maxExpansions = some limit →
      ∃ lower, limits.maxExpansions = some lower ∧ lower ≤ limit := Iff.rfl

theorem Limits.Within.mono {limits more : Limits} {count : Nat} (within : limits.Within count)
    (le : limits ≤ more) : more.Within count := by
  intro limit budget
  obtain ⟨lower, budget', le⟩ := (Limits.le_iff.1 le).2 limit budget
  exact Nat.le_trans (within lower budget') (UInt64.le_iff_toNat_le.1 le)

/-- Where another state may be expanded, it may be under limits that allow more. -/
theorem Limits.spent_mono {limits more : Limits} {count : Nat} (le : limits ≤ more)
    (unspent : limits.spent count = none) : more.spent count = none :=
  spent_eq_none_iff.2 ((spent_eq_none_iff.1 unspent).mono le)

/-- The reason why a search stopped before it could decide. -/
inductive LimitExceeded where
  /-- A depth-first search met a state more than `limit` transitions down. -/
  | depth (limit : UInt64)
  /-- A state was to be expanded after `limit` others. -/
  | expansions (limit : UInt64)
deriving DecidableEq, Repr

/-- The reason in words. -/
def LimitExceeded.message : LimitExceeded → String
  | .depth limit =>
    "depth limit exceeded: recursion went deeper than " ++ toString limit.toNat ++ " transitions"
  | .expansions limit =>
    "expansion budget exhausted after " ++ toString limit.toNat ++ " expansions"

end SearchSpace
