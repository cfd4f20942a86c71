import OpcodeAtlas.Update
import OpcodeAtlas.Vocabulary

/-!
Sets that keep the order of first insertion. Inserting an element again has no effect; the elements
are distinct by construction.
-/

namespace OpcodeAtlas

structure OrderedSet (α : Type) where
  elements : List α
  nodup : elements.Nodup

namespace OrderedSet

variable {α β : Type}

theorem ext {s t : OrderedSet α} (h : s.elements = t.elements) : s = t := by
  cases s
  cases t
  simp_all

instance [DecidableEq α] : DecidableEq (OrderedSet α) := fun s t =>
  decidable_of_iff (s.elements = t.elements) ⟨ext, fun h => h ▸ rfl⟩

instance : Membership α (OrderedSet α) := ⟨fun s a => a ∈ s.elements⟩

instance [DecidableEq α] (a : α) (s : OrderedSet α) : Decidable (a ∈ s) :=
  inferInstanceAs (Decidable (a ∈ s.elements))

def empty : OrderedSet α := ⟨[], List.nodup_nil⟩

instance : EmptyCollection (OrderedSet α) := ⟨empty⟩

instance : Inhabited (OrderedSet α) := ⟨empty⟩

def size (s : OrderedSet α) : Nat := s.elements.length

def isEmpty (s : OrderedSet α) : Bool := s.elements.isEmpty

/-- Keeps the elements with a property. -/
def filter (p : α → Bool) (s : OrderedSet α) : OrderedSet α :=
  ⟨s.elements.filter p, List.Pairwise.filter p s.nodup⟩

theorem mem_filter {s : OrderedSet α} {p : α → Bool} {a : α} :
    a ∈ s.filter p ↔ a ∈ s ∧ p a = true :=
  List.mem_filter

variable [DecidableEq α] [DecidableEq β]

def contains (s : OrderedSet α) (a : α) : Bool := decide (a ∈ s)

/-- Adds an element at the end unless it is there. -/
def insert (s : OrderedSet α) (a : α) : OrderedSet α :=
  if h : a ∈ s.elements then s
  else ⟨s.elements ++ [a], List.nodup_append.2 ⟨s.nodup, by simp, by grind⟩⟩

def erase (s : OrderedSet α) (a : α) : OrderedSet α := s.filter (· ≠ a)

def insertAll (s : OrderedSet α) (as : List α) : OrderedSet α := as.foldl insert s

def ofList (as : List α) : OrderedSet α := insertAll ∅ as

def image (f : α → β) (s : OrderedSet α) : OrderedSet β := ofList (s.elements.map f)

def filterImage (f : α → Option β) (s : OrderedSet α) : OrderedSet β :=
  ofList (s.elements.filterMap f)

/-! ### Updates -/

/-- Inserts an element and tells whether it is new. -/
def insertNew (a : α) : StateM (OrderedSet α) Bool := fun s => (!s.contains a, s.insert a)

/-- Removes an element and tells whether the set is smaller now. -/
def eraseOld (a : α) : StateM (OrderedSet α) Bool := fun s =>
  let rest := s.erase a
  (decide (s.size ≠ rest.size), rest)

/-- Adds tokens separated by bars, all of them or none. -/
def add [Vocabulary α] (value : Text) : Update (OrderedSet α) Unit :=
  .validated (Vocabulary.parseList value) fun as s => s.insertAll as

def tokens [Vocabulary α] (s : OrderedSet α) : List Text := s.elements.map Vocabulary.token

def render [Vocabulary α] (s : OrderedSet α) : Text := Vocabulary.renderList s.elements

/-! ### Elements -/

theorem elements_insert (s : OrderedSet α) (a : α) :
    (s.insert a).elements = if a ∈ s.elements then s.elements else s.elements ++ [a] := by
  unfold insert
  split <;> simp_all

theorem elements_erase (s : OrderedSet α) (a : α) :
    (s.erase a).elements = s.elements.filter (· ≠ a) := rfl

theorem mem_insert {s : OrderedSet α} {a b : α} : b ∈ s.insert a ↔ b ∈ s ∨ b = a := by
  change b ∈ (s.insert a).elements ↔ b ∈ s.elements ∨ b = a
  rw [elements_insert]
  split <;> grind

theorem mem_erase {s : OrderedSet α} {a b : α} : b ∈ s.erase a ↔ b ∈ s ∧ b ≠ a := by
  change b ∈ (s.erase a).elements ↔ b ∈ s.elements ∧ b ≠ a
  simp [elements_erase]

theorem mem_insertAll {s : OrderedSet α} {as : List α} {b : α} :
    b ∈ s.insertAll as ↔ b ∈ s ∨ b ∈ as := by
  induction as generalizing s with
  | nil => simp [insertAll]
  | cons a as ih =>
    change b ∈ (s.insert a).insertAll as ↔ _
    rw [ih, mem_insert, List.mem_cons, or_assoc]

theorem mem_ofList {as : List α} {b : α} : b ∈ ofList as ↔ b ∈ as := by
  have none : b ∉ (∅ : OrderedSet α) := List.not_mem_nil
  rw [ofList, mem_insertAll, or_iff_right none]

theorem contains_eq_true_iff {s : OrderedSet α} {a : α} : s.contains a = true ↔ a ∈ s :=
  decide_eq_true_iff

end OrderedSet

end OpcodeAtlas
