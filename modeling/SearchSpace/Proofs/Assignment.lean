import Mathlib.Data.List.Nodup
import SearchSpace.Assignment

/-!
# Facts about assignments

What can be seen of an assignment are its names and the values it gives them; an insertion changes
the value of one name. Where the name is there already the entries keep their places.
-/

namespace SearchSpace.Assignment

variable {assignment : Assignment} {name other : String} {value : UInt8}
  {names : List String} {entries : List (String × UInt8)}
  {β : Type} {fields : List (String × β)}

theorem eq_of_entries_eq {left right : Assignment} (same : left.entries = right.entries) :
    left = right := by
  obtain ⟨_, _⟩ := left
  obtain ⟨_, _⟩ := right
  cases same
  rfl

theorem contains_iff_mem : assignment.contains name = true ↔ name ∈ assignment.names := by
  rw [contains, List.contains_iff_mem]

theorem lookup_eq_none_iff_notMem : fields.lookup name = none ↔ name ∉ fields.map (·.1) := by
  rw [List.lookup_eq_none_iff, List.mem_map]
  constructor
  · rintro absent ⟨entry, member, rfl⟩
    simpa using absent entry member
  · intro absent entry member
    simp only [bne_iff_ne, ne_eq]
    rintro rfl
    exact absent ⟨entry, member, rfl⟩

theorem get?_eq_none_iff : assignment.get? name = none ↔ name ∉ assignment.names :=
  lookup_eq_none_iff_notMem

/-- The names are in order, so each comes once. -/
theorem nodup_names (assignment : Assignment) : assignment.names.Nodup :=
  List.pairwise_map.2 (assignment.ordered.imp fun less => String.ne_of_lt less)

theorem lookup_cons_eq_ite (name first : String) (held : β) (rest : List (String × β)) :
    ((first, held) :: rest).lookup name =
      if name = first then some held else rest.lookup name := by
  rw [List.lookup_cons]
  by_cases same : name = first
  · simp [same]
  · have differ : (name == first) = false := by simpa using same
    simp [same, differ]

/-- Where each name comes once, looking it up finds the value that stands beside it. -/
theorem lookup_eq_some_iff {held : β} (distinct : (fields.map (·.1)).Nodup) :
    fields.lookup name = some held ↔ (name, held) ∈ fields := by
  induction fields with
  | nil => simp
  | cons entry rest ih =>
    obtain ⟨first, other⟩ := entry
    rw [List.map_cons, List.nodup_cons] at distinct
    rw [lookup_cons_eq_ite, List.mem_cons]
    by_cases same : name = first
    · subst same
      have absent : (name, held) ∉ rest := fun member =>
        distinct.1 (List.mem_map_of_mem (f := (·.1)) member)
      simp [absent, eq_comm]
    · simp [same, ih distinct.2]

theorem get?_eq_some_iff : assignment.get? name = some value ↔ (name, value) ∈ assignment.entries :=
  lookup_eq_some_iff assignment.nodup_names

/-- Assignments that give the same values to the same names are equal. -/
theorem ext_get? {left right : Assignment} (same : ∀ name, left.get? name = right.get? name) :
    left = right := by
  have mem_iff : ∀ entry, entry ∈ left.entries ↔ entry ∈ right.entries := by
    rintro ⟨name, value⟩
    rw [← get?_eq_some_iff, ← get?_eq_some_iff, same]
  have perm : left.entries.Perm right.entries :=
    (List.perm_ext_iff_of_nodup left.nodup_names.of_map right.nodup_names.of_map).2 mem_iff
  -- Both lists are in the order of the names, so that permuting one into the other moves nothing.
  apply eq_of_entries_eq
  apply perm.eq_of_pairwise _ left.ordered right.ordered
  intro entry other _ _ less greater
  exact absurd greater (String.lt_asymm less)

theorem lookup_insertEntry (name other : String) (value : UInt8)
    (entries : List (String × UInt8)) :
    (insertEntry name value entries).lookup other =
      if other = name then some value else entries.lookup other := by
  induction entries with
  | nil => rw [insertEntry, lookup_cons_eq_ite]
  | cons entry rest ih =>
    obtain ⟨first, held⟩ := entry
    rw [insertEntry]
    split
    · rw [lookup_cons_eq_ite]
    split
    · next equal =>
      obtain rfl : name = first := equal
      rw [lookup_cons_eq_ite, lookup_cons_eq_ite]
      split <;> rfl
    · next differ =>
      rw [lookup_cons_eq_ite, lookup_cons_eq_ite, ih]
      by_cases same : other = first
      · subst same
        simp [Ne.symm differ]
      · simp [same]

/-- An insertion changes the value of one name. -/
theorem get?_insert (assignment : Assignment) (name other : String) (value : UInt8) :
    (assignment.insert name value).get? other =
      if other = name then some value else assignment.get? other :=
  lookup_insertEntry name other value assignment.entries

/-- Over a name that is there the value is replaced in its place. -/
theorem insertEntry_of_mem (ordered : entries.Pairwise fun earlier later => earlier.1 < later.1)
    (member : name ∈ entries.map (·.1)) :
    insertEntry name value entries =
      entries.map fun entry => if entry.1 = name then (name, value) else entry := by
  induction entries with
  | nil => cases member
  | cons entry rest ih =>
    have ⟨below, ordered⟩ := List.pairwise_cons.1 ordered
    rw [insertEntry, List.map_cons]
    rcases List.mem_cons.1 member with rfl | member
    · have unchanged : rest.map (fun other =>
          if other.1 = entry.1 then (entry.1, value) else other) = rest := by
        rw [List.map_congr_left (g := id), List.map_id]
        intro other member
        exact if_neg (String.ne_of_lt (below other member)).symm
      rw [if_neg (String.lt_irrefl _), if_pos rfl, if_pos rfl, unchanged]
    · obtain ⟨later, member', rfl⟩ := List.mem_map.1 member
      have less := below later member'
      rw [if_neg (String.lt_asymm less), if_neg (String.ne_of_lt less).symm,
        if_neg (String.ne_of_lt less), ih ordered member]

theorem entries_insert (member : name ∈ assignment.names) :
    (assignment.insert name value).entries =
      assignment.entries.map fun entry => if entry.1 = name then (name, value) else entry :=
  insertEntry_of_mem assignment.ordered member

theorem names_insert (member : name ∈ assignment.names) :
    (assignment.insert name value).names = assignment.names := by
  rw [Assignment.names, entries_insert member, List.map_map]
  apply List.map_congr_left
  intro entry _
  rw [Function.comp_apply]
  split
  · next same => exact same.symm
  · rfl

theorem get?_insertIfNew (assignment : Assignment) (name other : String) (value : UInt8) :
    (assignment.insertIfNew name value).get? other =
      (assignment.get? other).or (if other = name then some value else none) := by
  rw [insertIfNew]
  split
  · next known =>
    have some : assignment.get? name ≠ none := fun none =>
      get?_eq_none_iff.1 none (contains_iff_mem.1 known)
    by_cases same : other = name
    · subst same
      rw [Option.or_of_isSome (Option.isSome_iff_ne_none.2 some)]
    · simp [same]
  · next unknown =>
    rw [contains_iff_mem, ← get?_eq_none_iff] at unknown
    rw [get?_insert]
    by_cases same : other = name
    · subst same
      simp [unknown]
    · simp [same]

/-- Only names that have no value yet get one. -/
theorem get?_cover (assignment : Assignment) (names : List String) (name : String)
    (value : UInt8) : (assignment.cover names value).get? name =
      (assignment.get? name).or (if name ∈ names then some value else none) := by
  induction names generalizing assignment with
  | nil => simp [cover]
  | cons first rest ih =>
    have step : assignment.cover (first :: rest) value =
        (assignment.insertIfNew first value).cover rest value := rfl
    rw [step, ih, get?_insertIfNew, Option.or_assoc]
    by_cases same : name = first <;> simp [same]

theorem get?_cover_empty (names : List String) (name : String) (value : UInt8) :
    (empty.cover names value).get? name = if name ∈ names then some value else none :=
  get?_cover empty names name value

/-- The assignment after the values of a list have been given one after another. -/
def insertAll (assignment : Assignment) (entries : List (String × UInt8)) : Assignment :=
  entries.foldl (fun assignment entry => assignment.insert entry.1 entry.2) assignment

@[simp] theorem insertAll_cons (assignment : Assignment) (entry : String × UInt8)
    (rest : List (String × UInt8)) : assignment.insertAll (entry :: rest) =
      (assignment.insert entry.1 entry.2).insertAll rest := rfl

/-- Of several values of one name the last counts. -/
theorem get?_insertAll (assignment : Assignment) (entries : List (String × UInt8))
    (name : String) : (assignment.insertAll entries).get? name =
      (entries.reverse.lookup name).or (assignment.get? name) := by
  induction entries generalizing assignment with
  | nil => rfl
  | cons entry rest ih =>
    obtain ⟨first, value⟩ := entry
    rw [insertAll_cons, ih, get?_insert, List.reverse_cons, List.lookup_append, Option.or_assoc,
      lookup_cons_eq_ite]
    by_cases same : name = first <;> simp [same]

theorem get?_ofList (entries : List (String × UInt8)) (name : String) :
    (ofList entries).get? name = entries.reverse.lookup name := by
  have values := get?_insertAll empty entries name
  exact values.trans Option.or_none

theorem mem_names_cover_empty : name ∈ (empty.cover names value).names ↔ name ∈ names := by
  rw [← not_iff_not, ← get?_eq_none_iff, get?_cover_empty]
  simp

end SearchSpace.Assignment
