import Std.Data.HashSet

/-!
# Visited sets

The keys that a search has explored or queued. A caller may hand a search a set that already holds
keys: the search keeps away from those states and adds to the set as it goes. All facts about the
set go through membership and size.
-/

namespace SearchSpace

universe u

/-- A finite set of keys. -/
structure VisitedSet (K : Type u) [BEq K] [Hashable K] where
  /-- The keys, in no particular order. -/
  keys : Std.HashSet K

namespace VisitedSet

variable {K : Type u} [BEq K] [Hashable K]

/-- The set without keys. -/
def empty : VisitedSet K := ⟨{}⟩

instance : EmptyCollection (VisitedSet K) := ⟨empty⟩

instance : Inhabited (VisitedSet K) := ⟨empty⟩

instance : Membership K (VisitedSet K) := ⟨fun set key => key ∈ set.keys⟩

instance (key : K) (set : VisitedSet K) : Decidable (key ∈ set) :=
  inferInstanceAs (Decidable (key ∈ set.keys))

/-- Whether the key is in the set. -/
def contains (set : VisitedSet K) (key : K) : Bool := set.keys.contains key

/-- Adds the key and says whether it is new. -/
def insert (set : VisitedSet K) (key : K) : Bool × VisitedSet K :=
  match set with
  | ⟨keys⟩ =>
    let (known, keys) := keys.containsThenInsert key
    (!known, ⟨keys⟩)

/-- The number of keys. -/
def size (set : VisitedSet K) : Nat := set.keys.size

/-- Whether there is no key. -/
def isEmpty (set : VisitedSet K) : Bool := set.keys.isEmpty

/-- The keys, each once, in no particular order. -/
def toList (set : VisitedSet K) : List K := set.keys.toList

/-- Adds all keys of the list. -/
def extend (set : VisitedSet K) (keys : List K) : VisitedSet K :=
  keys.foldl (fun set key => (set.insert key).2) set

/-- The set of the keys of the list. -/
def ofList (keys : List K) : VisitedSet K := extend empty keys

/-- Sets are compared by their keys alone. -/
instance : BEq (VisitedSet K) := ⟨fun left right => Std.HashSet.instBEq.beq left.keys right.keys⟩

variable {set : VisitedSet K} {key other : K}

theorem contains_iff_mem : set.contains key = true ↔ key ∈ set := Iff.rfl

theorem not_mem_empty : key ∉ (∅ : VisitedSet K) := Std.HashSet.not_mem_empty

theorem fst_insert : (set.insert key).1 = !set.contains key := by
  simp [insert, contains]

variable [LawfulBEq K]

theorem mem_insert : other ∈ (set.insert key).2 ↔ other = key ∨ other ∈ set := by
  show other ∈ (set.insert key).2.keys ↔ _
  simp only [insert, Std.HashSet.containsThenInsert_snd, Std.HashSet.mem_insert, beq_iff_eq]
  exact or_congr eq_comm Iff.rfl

theorem size_insert :
    (set.insert key).2.size = if key ∈ set then set.size else set.size + 1 := by
  simp only [insert, size, Std.HashSet.containsThenInsert_snd, Std.HashSet.size_insert]
  rfl

theorem mem_extend {keys : List K} : key ∈ set.extend keys ↔ key ∈ set ∨ key ∈ keys := by
  induction keys generalizing set with
  | nil => simp [extend]
  | cons first rest ih =>
    have step : set.extend (first :: rest) = (set.insert first).2.extend rest := rfl
    rw [step, ih, mem_insert, List.mem_cons, or_comm (a := key = first), or_assoc]

theorem mem_ofList {keys : List K} : key ∈ ofList keys ↔ key ∈ keys := by
  rw [ofList, mem_extend]
  exact or_iff_right not_mem_empty

theorem mem_toList : key ∈ set.toList ↔ key ∈ set := Std.HashSet.mem_toList

end VisitedSet

end SearchSpace
