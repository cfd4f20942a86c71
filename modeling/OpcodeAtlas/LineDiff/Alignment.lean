import OpcodeAtlas.Text.Basic

/-!
Line differences. Two lists are aligned along a longest common subsequence; an alignment is a list
of edits that spells the left list with its left and shared elements (`lefts_edits`), and the right
list with its right and shared elements (`rights_edits`).
-/

namespace OpcodeAtlas.LineDiff

inductive Edit (α : Type) where
  | left (a : α)
  | right (a : α)
  | both (a : α)
  deriving DecidableEq, Repr

namespace Edit

variable {α : Type}

def left? : Edit α → Option α
  | left a | both a => some a
  | right _ => none

def right? : Edit α → Option α
  | right a | both a => some a
  | left _ => none

end Edit

section Spelling

variable {α : Type}

/-- What edits spell on the left. -/
def lefts (es : List (Edit α)) : List α := es.filterMap Edit.left?

/-- What edits spell on the right. -/
def rights (es : List (Edit α)) : List α := es.filterMap Edit.right?

@[simp] theorem lefts_append (es fs : List (Edit α)) : lefts (es ++ fs) = lefts es ++ lefts fs :=
  List.filterMap_append

@[simp] theorem rights_append (es fs : List (Edit α)) :
    rights (es ++ fs) = rights es ++ rights fs :=
  List.filterMap_append

@[simp] theorem lefts_reverse (es : List (Edit α)) : lefts es.reverse = (lefts es).reverse :=
  List.filterMap_reverse

@[simp] theorem rights_reverse (es : List (Edit α)) : rights es.reverse = (rights es).reverse :=
  List.filterMap_reverse

@[simp] theorem lefts_both (as : List α) : lefts (as.map Edit.both) = as := by
  induction as with
  | nil => rfl
  | cons a as ih => exact congrArg (a :: ·) ih

@[simp] theorem rights_both (as : List α) : rights (as.map Edit.both) = as := by
  induction as with
  | nil => rfl
  | cons a as ih => exact congrArg (a :: ·) ih

end Spelling

/-- Edits with the number of elements they share. -/
structure Alignment (α : Type) where
  shared : Nat
  edits : List (Edit α)
  deriving DecidableEq, Repr

namespace Alignment

variable {α : Type}

def empty : Alignment α := ⟨0, []⟩

def addLeft (a : α) (x : Alignment α) : Alignment α := ⟨x.shared, .left a :: x.edits⟩

def addRight (b : α) (x : Alignment α) : Alignment α := ⟨x.shared, .right b :: x.edits⟩

def addBoth (a : α) (x : Alignment α) : Alignment α := ⟨x.shared + 1, .both a :: x.edits⟩

variable [DecidableEq α]

/-- Extends the best of the alignments without the first element of the left list, of the right
list, and of both. Of equally good ones a right element comes first, then a left one. -/
def extend (a b : α) (withoutLeft withoutRight withoutBoth : Alignment α) : Alignment α :=
  let shared :=
    if a = b then withoutBoth.shared + 1 else max withoutLeft.shared withoutRight.shared
  if shared = withoutRight.shared then addRight b withoutRight
  else if shared = withoutLeft.shared then addLeft a withoutLeft
  else addBoth a withoutBoth

/-- Only equal elements are shared. -/
theorem extend_cases (a b : α) (x y z : Alignment α) :
    extend a b x y z = addRight b y ∨ extend a b x y z = addLeft a x ∨
      a = b ∧ extend a b x y z = addBoth a z := by
  unfold extend
  grind

/-! ### Rows -/

/-- Alignments with every suffix of the right list, the longest suffix first. -/
abbrev Row (α : Type) := List (Alignment α)

def Row.first (r : Row α) : Alignment α := r.headD empty

/-- The row of the empty list. -/
def emptyRow : List α → Row α
  | [] => [empty]
  | b :: bs =>
    let rest := emptyRow bs
    addRight b rest.first :: rest

/-- The row of a list from the row of its tail. -/
def consRow (a : α) : List α → Row α → Row α
  | [], below => [addLeft a below.first]
  | b :: bs, below =>
    let rest := consRow a bs below.tail
    extend a b below.first rest.first (Row.first below.tail) :: rest

def row (as bs : List α) : Row α :=
  match as with
  | [] => emptyRow bs
  | a :: as => consRow a bs (row as bs)

theorem tail_row (as : List α) (b : α) (bs : List α) : (row as (b :: bs)).tail = row as bs := by
  induction as with
  | nil => rfl
  | cons a as ih =>
    change consRow a bs (row as (b :: bs)).tail = consRow a bs (row as bs)
    rw [ih]

end Alignment

variable {α : Type} [DecidableEq α]

/-- An alignment that shares as many elements as possible. -/
def align (as bs : List α) : Alignment α := (Alignment.row as bs).first

@[simp] theorem align_nil_nil : align ([] : List α) [] = .empty := rfl

theorem align_cons_cons (a b : α) (as bs : List α) :
    align (a :: as) (b :: bs) =
      Alignment.extend a b (align as (b :: bs)) (align (a :: as) bs) (align as bs) := by
  simp [align, Alignment.row, Alignment.consRow, Alignment.Row.first, Alignment.tail_row]

/-! ### Differences -/

def commonPrefix : List α → List α → List α
  | a :: as, b :: bs => if a = b then a :: commonPrefix as bs else []
  | _, _ => []

/-- The edits between two lists, found from the end: the common end, then an alignment of the
rest. -/
def editsBack (as bs : List α) : List (Edit α) :=
  let shared := commonPrefix as.reverse bs.reverse
  let rest := align (as.reverse.drop shared.length) (bs.reverse.drop shared.length)
  (shared.map Edit.both ++ rest.edits).reverse

/-- The edits between two lists: the common start, then the edits of the rests. -/
def edits (as bs : List α) : List (Edit α) :=
  let shared := commonPrefix as bs
  shared.map Edit.both ++ editsBack (as.drop shared.length) (bs.drop shared.length)

/-! ### What edits spell -/

theorem lefts_align (as bs : List α) : lefts (align as bs).edits = as := by
  induction as generalizing bs with
  | nil =>
    induction bs with
    | nil => rfl
    | cons b bs ih => exact ih
  | cons a as ihas =>
    induction bs with
    | nil => exact congrArg (a :: ·) (ihas [])
    | cons b bs ihbs =>
      rw [align_cons_cons]
      rcases Alignment.extend_cases a b (align as (b :: bs)) (align (a :: as) bs) (align as bs)
        with h | h | ⟨_, h⟩ <;> rw [h]
      · exact ihbs
      · exact congrArg (a :: ·) (ihas (b :: bs))
      · exact congrArg (a :: ·) (ihas bs)

theorem rights_align (as bs : List α) : rights (align as bs).edits = bs := by
  induction as generalizing bs with
  | nil =>
    induction bs with
    | nil => rfl
    | cons b bs ih => exact congrArg (b :: ·) ih
  | cons a as ihas =>
    induction bs with
    | nil => exact ihas []
    | cons b bs ihbs =>
      rw [align_cons_cons]
      rcases Alignment.extend_cases a b (align as (b :: bs)) (align (a :: as) bs) (align as bs)
        with h | h | ⟨rfl, h⟩ <;> rw [h]
      · exact congrArg (b :: ·) ihbs
      · exact ihas (b :: bs)
      · exact congrArg (a :: ·) (ihas bs)

theorem commonPrefix_append_left (as bs : List α) :
    commonPrefix as bs ++ as.drop (commonPrefix as bs).length = as := by
  induction as generalizing bs with
  | nil => cases bs <;> rfl
  | cons a as ih =>
    cases bs with
    | nil => rfl
    | cons b bs =>
      by_cases h : a = b
      · simp [commonPrefix, h, ih]
      · simp [commonPrefix, h]

theorem commonPrefix_append_right (as bs : List α) :
    commonPrefix as bs ++ bs.drop (commonPrefix as bs).length = bs := by
  induction as generalizing bs with
  | nil => cases bs <;> rfl
  | cons a as ih =>
    cases bs with
    | nil => rfl
    | cons b bs =>
      by_cases h : a = b
      · simp [commonPrefix, h, ih]
      · simp [commonPrefix, h]

theorem lefts_editsBack (as bs : List α) : lefts (editsBack as bs) = as := by
  simp [editsBack, lefts_align, commonPrefix_append_left, -List.reverse_append]

theorem rights_editsBack (as bs : List α) : rights (editsBack as bs) = bs := by
  simp [editsBack, rights_align, commonPrefix_append_right, -List.reverse_append]

/-- Left and shared elements spell the left list. -/
theorem lefts_edits (as bs : List α) : lefts (edits as bs) = as := by
  simp [edits, lefts_editsBack, commonPrefix_append_left]

/-- Right and shared elements spell the right list. -/
theorem rights_edits (as bs : List α) : rights (edits as bs) = bs := by
  simp [edits, rights_editsBack, commonPrefix_append_right]

/-! ### Texts -/

def endsInLineFeed (t : Text) : Bool := t.getLast? = some '\n'

/-- A last empty element for the texts that end in a line feed. -/
def finalEdit (left right : Text) : List (Edit Text) :=
  match endsInLineFeed left, endsInLineFeed right with
  | true, true => [.both []]
  | true, false => [.left []]
  | false, true => [.right []]
  | false, false => []

def lineEdits (left right : Text) : List (Edit Text) :=
  edits left.lines right.lines ++ finalEdit left right

end OpcodeAtlas.LineDiff
