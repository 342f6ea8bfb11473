/-!
# Assignments

Values of variables, in the order of the names. Names are ordered character by character by code
point, which is also the order of their UTF-8 bytes. The order is part of the type, so two
assignments that give the same values to the same names are equal.
-/

namespace SearchSpace

/-- Values of finitely many variables. -/
structure Assignment where
  /-- The names with their values. -/
  entries : List (String × UInt8)
  /-- The names increase. -/
  ordered : entries.Pairwise (fun earlier later => earlier.1 < later.1)
deriving DecidableEq, Repr

namespace Assignment

/-- The assignment without variables. -/
def empty : Assignment := ⟨[], .nil⟩

instance : EmptyCollection Assignment := ⟨empty⟩

instance : Inhabited Assignment := ⟨empty⟩

/-- The value of a variable. -/
def get? (assignment : Assignment) (name : String) : Option UInt8 :=
  assignment.entries.lookup name

/-- The names of the variables. -/
def names (assignment : Assignment) : List String := assignment.entries.map (·.1)

/-- Whether the variable has a value. -/
def contains (assignment : Assignment) (name : String) : Bool := assignment.names.contains name

/-- Puts the value at the place of the name, over an older value of it. -/
def insertEntry (name : String) (value : UInt8) :
    List (String × UInt8) → List (String × UInt8)
  | [] => [(name, value)]
  | entry :: rest =>
    if name < entry.1 then (name, value) :: entry :: rest
    else if name = entry.1 then (name, value) :: rest
    else entry :: insertEntry name value rest

theorem fst_of_mem_insertEntry {name : String} {value : UInt8} {entries : List (String × UInt8)}
    {entry : String × UInt8} (h : entry ∈ insertEntry name value entries) :
    entry.1 = name ∨ entry ∈ entries := by
  induction entries with
  | nil => simp_all [insertEntry]
  | cons head rest ih =>
    rw [insertEntry] at h
    split at h
    · rcases List.mem_cons.1 h with rfl | h
      · exact .inl rfl
      · exact .inr h
    split at h
    · rcases List.mem_cons.1 h with rfl | h
      · exact .inl rfl
      · exact .inr (List.mem_cons_of_mem _ h)
    · rcases List.mem_cons.1 h with rfl | h
      · exact .inr List.mem_cons_self
      · exact (ih h).imp_right (List.mem_cons_of_mem _)

theorem lt_of_not_lt_of_ne {left right : String} (h : ¬left < right) (ne : left ≠ right) :
    right < left :=
  Std.lt_of_le_of_ne (String.not_lt.1 h) (Ne.symm ne)

theorem ordered_insertEntry {entries : List (String × UInt8)} (name : String) (value : UInt8)
    (h : entries.Pairwise (fun earlier later => earlier.1 < later.1)) :
    (insertEntry name value entries).Pairwise (fun earlier later => earlier.1 < later.1) := by
  induction entries with
  | nil => simp [insertEntry]
  | cons head rest ih =>
    have ⟨below, tail⟩ := List.pairwise_cons.1 h
    rw [insertEntry]
    split
    · next less =>
      refine List.pairwise_cons.2 ⟨fun entry mem => ?_, h⟩
      rcases List.mem_cons.1 mem with rfl | mem
      · exact less
      · exact String.lt_trans less (below entry mem)
    split
    · next eq => exact List.pairwise_cons.2 ⟨fun entry mem => eq ▸ below entry mem, tail⟩
    · next notLess ne =>
      refine List.pairwise_cons.2 ⟨fun entry mem => ?_, ih tail⟩
      rcases fst_of_mem_insertEntry mem with eq | mem
      · exact eq ▸ lt_of_not_lt_of_ne notLess ne
      · exact below entry mem

/-- Gives the variable the value, over an older one. -/
def insert (assignment : Assignment) (name : String) (value : UInt8) : Assignment :=
  ⟨insertEntry name value assignment.entries, ordered_insertEntry name value assignment.ordered⟩

/-- Gives the variable the value unless it has one. -/
def insertIfNew (assignment : Assignment) (name : String) (value : UInt8) : Assignment :=
  if assignment.contains name then assignment else assignment.insert name value

/-- The assignment of the pairs of a list; of several values of one name the last counts. -/
def ofList (entries : List (String × UInt8)) : Assignment :=
  entries.foldl (fun assignment entry => assignment.insert entry.1 entry.2) empty

/-- Adds the names that have no value yet, with the given value. -/
def cover (assignment : Assignment) (names : List String) (value : UInt8) : Assignment :=
  names.foldl (fun assignment name => assignment.insertIfNew name value) assignment

end Assignment

end SearchSpace
