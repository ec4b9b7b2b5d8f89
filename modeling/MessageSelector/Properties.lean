import MessageSelector.Value

/-!
# Properties

Named values, at most one for each name. Setting a property replaces the value it had.
-/

namespace MessageSelector

/-- Values by name, in the order in which the names were first set. -/
structure Properties where
  entries : List (String × Value) := []
  deriving Inhabited

namespace Properties

/-- No properties. -/
def empty : Properties :=
  ⟨[]⟩

/-- Entries with the value of a name replaced, or added at the end. -/
def setEntry (name : String) (value : Value) : List (String × Value) → List (String × Value)
  | [] => [(name, value)]
  | (other, old) :: rest =>
    if other = name then (name, value) :: rest else (other, old) :: setEntry name value rest

/-- The properties with a name set to a value. -/
def set (properties : Properties) (name : String) (value : Value) : Properties :=
  ⟨setEntry name value properties.entries⟩

/-- The value of a name, if it is set. -/
def get? (properties : Properties) (name : String) : Option Value :=
  properties.entries.lookup name

/-- Properties set one after another. -/
def ofList (entries : List (String × Value)) : Properties :=
  entries.foldl (fun properties (name, value) => properties.set name value) empty

theorem lookup_entry (name other : String) (value : Value) (rest : List (String × Value)) :
    List.lookup other ((name, value) :: rest) =
      if other = name then some value else List.lookup other rest := by
  rw [List.lookup_cons]
  by_cases h : other = name
  · simp [h]
  · rw [beq_false_of_ne h, if_neg h]

theorem get?_empty (name : String) : empty.get? name = none := rfl

/-- The last write to a name is the one that is read. -/
theorem get?_set (properties : Properties) (name other : String) (value : Value) :
    (properties.set name value).get? other =
      if other = name then some value else properties.get? other := by
  obtain ⟨entries⟩ := properties
  simp only [set, get?]
  induction entries with
  | nil => rw [setEntry, lookup_entry]
  | cons entry rest ih =>
    obtain ⟨first, old⟩ := entry
    rw [setEntry]
    by_cases same : first = name
    · rw [if_pos same, lookup_entry, lookup_entry, same]
      by_cases h : other = name <;> simp [h]
    · rw [if_neg same, lookup_entry, lookup_entry, ih]
      by_cases h : other = first
      · subst h
        simp [same]
      · simp [h]

end Properties

end MessageSelector
