import OpcodeAtlas.Text.Basic

/-!
Tables of named texts. The last text given to a name counts.
-/

namespace OpcodeAtlas

structure TextTable where
  /-- The latest definition comes first. -/
  definitions : List (Text × Text)
  deriving DecidableEq, Repr

namespace TextTable

def empty : TextTable := ⟨[]⟩

def insert (t : TextTable) (name value : Text) : TextTable := ⟨(name, value) :: t.definitions⟩

def find? (t : TextTable) (name : Text) : Option Text := t.definitions.lookup name

def insertAll (t : TextTable) (ds : List (Text × Text)) : TextTable :=
  ds.foldl (fun t d => t.insert d.1 d.2) t

def ofStrings (ds : List (String × String)) : TextTable :=
  empty.insertAll (ds.map fun d => (d.1.toList, d.2.toList))

theorem find?_insert (t : TextTable) (name value other : Text) :
    (t.insert name value).find? other = if other = name then some value else t.find? other := by
  unfold insert find?
  by_cases h : other = name
  · simp [h]
  · simp [List.lookup_cons, beq_false_of_ne h, h]

end TextTable

end OpcodeAtlas
