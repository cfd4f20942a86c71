import Mathlib.Data.List.Perm.Basic
import OpcodeAtlas.Dispatch.Group

/-!
One step down a decision tree. `axisChild_eq_ok_iff` says all that an axis does to an instruction,
and `bucket_eq_of_place` which instructions an axis sends to a child.
-/

namespace OpcodeAtlas.Dispatch

/-! ### Values ahead -/

/-- What is left once the next value of the field has been asked for. -/
def Residual.consume (f : Field) (r : Residual) : Residual := r.advance f (r.pending f).tail

/-- The child that the value `n` places ahead selects. Past the last value it is the first child. -/
def Axis.select (a : Axis) (r : Residual) (n : Nat) : Option Nat :=
  match (r.pending a.field)[n]? with
  | some value => childIndex? value
  | none => some 0

namespace Residual

@[simp] theorem entry_consume (f : Field) (r : Residual) : (r.consume f).entry = r.entry := rfl

@[simp] theorem filters_consume (f : Field) (r : Residual) : (r.consume f).filters = r.filters := rfl

@[simp] theorem pending_consume_self (f : Field) (r : Residual) :
    (r.consume f).pending f = (r.pending f).tail := by
  simp [consume, advance]

theorem pending_consume_other {f g : Field} (different : g ≠ f) (r : Residual) :
    (r.consume f).pending g = r.pending g := by
  simp [consume, advance, different]

theorem consume_of_pending_eq_nil {f : Field} {r : Residual} (used : r.pending f = []) :
    r.consume f = r := by
  have same : (r.consume f).pending = r.pending := by
    funext g
    by_cases h : g = f
    · rw [h, pending_consume_self, used, List.tail_nil]
    · exact pending_consume_other h r
  calc r.consume f = ⟨r.entry, (r.consume f).pending, r.filters⟩ := rfl
    _ = r := by rw [same]

theorem has_eq_false_iff {r : Residual} {f : Field} : r.has f = false ↔ r.pending f = [] := by
  simp [has]

end Residual

namespace Axis

theorem select_of_pending_eq_nil {a : Axis} {r : Residual} (used : r.pending a.field = []) (n : Nat) :
    a.select r n = some 0 := by
  simp [select, used]

theorem select_zero_of_cons {a : Axis} {r : Residual} {value : Text} {rest : List Text}
    (next : r.pending a.field = value :: rest) : a.select r 0 = childIndex? value := by
  simp [select, next]

@[simp] theorem select_consume_self (a : Axis) (r : Residual) (n : Nat) :
    a.select (r.consume a.field) n = a.select r (n + 1) := by
  simp [select]

theorem select_consume_other {a b : Axis} (different : b.field ≠ a.field) (r : Residual) (n : Nat) :
    b.select (r.consume a.field) n = b.select r n := by
  simp [select, Residual.pending_consume_other different]

end Axis

/-- An axis sends an instruction to the child that its next value selects, if there is one, and
uses up that value and nothing else. -/
theorem axisChild_eq_ok_iff {a : Axis} {r s : Residual} {i : Nat} :
    r.child (.axis a) = .ok (i, s) ↔
      a.select r 0 = some i ∧ i < a.size ∧ s = r.consume a.field := by
  simp only [Residual.child, Residual.axisChild]
  split
  · next used =>
    rw [Axis.select_of_pending_eq_nil used, Residual.consume_of_pending_eq_nil used]
    split
    · next positive =>
      simp only [Except.ok.injEq, Prod.mk.injEq, Option.some.injEq]
      constructor
      · rintro ⟨rfl, rfl⟩
        exact ⟨rfl, positive, rfl⟩
      · rintro ⟨rfl, _, rfl⟩
        exact ⟨rfl, rfl⟩
    · next empty =>
      simp only [Option.some.injEq, reduceCtorEq, false_iff]
      rintro ⟨rfl, positive, _⟩
      exact empty positive
  · next value rest next =>
    have consumed : r.consume a.field = r.advance a.field rest := by
      rw [Residual.consume, next, List.tail_cons]
    rw [Axis.select_zero_of_cons next, consumed]
    split
    · next index found =>
      obtain ⟨selected, bounded⟩ := Option.filter_eq_some_iff.1 found
      simp only [Except.ok.injEq, Prod.mk.injEq, selected, Option.some.injEq]
      constructor
      · rintro ⟨rfl, rfl⟩
        exact ⟨rfl, of_decide_eq_true bounded, rfl⟩
      · rintro ⟨rfl, _, rfl⟩
        exact ⟨rfl, rfl⟩
    · next missing =>
      simp only [reduceCtorEq, false_iff]
      rintro ⟨selected, bounded, _⟩
      simp only [selected, Option.filter_some, bounded, decide_true, if_true, reduceCtorEq] at missing

theorem positive_sizes (f : Family) : ∀ a ∈ axesOf f, 0 < a.size := by
  cases f <;> decide

/-- Where there are children, an axis refuses a value and nothing else. -/
theorem exists_value_of_axisChild_eq_error {a : Axis} (positive : 0 < a.size) {r : Residual}
    {e : GroupError} (h : r.child (.axis a) = .error e) :
    ∃ value, e = .invalid (.invalidGroupValue (Vocabulary.token a.field) value a.size) := by
  simp only [Residual.child, Residual.axisChild] at h
  split at h
  · rw [if_pos positive] at h
    cases h
  · next value rest next =>
    split at h
    · cases h
    · cases h
      exact ⟨value, rfl⟩

/-! ### Buckets -/

theorem select_of_place {a : Axis} {list : List Residual} {placed : List (Nat × Residual)}
    (h : place (.axis a) list = .ok placed) {r : Residual} (member : r ∈ list) :
    ∃ i, a.select r 0 = some i ∧ i < a.size := by
  induction list generalizing placed with
  | nil => cases member
  | cons first list ih =>
    obtain ⟨⟨i, s⟩, rest, here, others, rfl⟩ := place_cons h
    obtain ⟨selected, bounded, _⟩ := axisChild_eq_ok_iff.1 here
    rcases List.mem_cons.1 member with rfl | later
    · exact ⟨i, selected, bounded⟩
    · exact ih others later

theorem bucket_eq_of_place {a : Axis} {list : List Residual} {placed : List (Nat × Residual)}
    (h : place (.axis a) list = .ok placed) (i : Nat) :
    bucket i placed = (list.filter fun r => a.select r 0 = some i).map (Residual.consume a.field) := by
  induction list generalizing placed with
  | nil =>
    obtain rfl : [] = placed := Except.ok.inj h
    rfl
  | cons r list ih =>
    obtain ⟨⟨j, s⟩, rest, here, others, rfl⟩ := place_cons h
    obtain ⟨selected, _, rfl⟩ := axisChild_eq_ok_iff.1 here
    have below := ih others
    rw [bucket] at below
    by_cases same : j = i
    · simp [bucket, selected, same, below]
    · simp [bucket, selected, same, below]

theorem mem_bucket_iff {a : Axis} {list : List Residual} {placed : List (Nat × Residual)}
    (h : place (.axis a) list = .ok placed) {i : Nat} {s : Residual} :
    s ∈ bucket i placed ↔ ∃ r ∈ list, r.child (.axis a) = .ok (i, s) := by
  rw [bucket_eq_of_place h, List.mem_map]
  simp only [List.mem_filter, decide_eq_true_eq, axisChild_eq_ok_iff]
  constructor
  · rintro ⟨r, ⟨member, selected⟩, rfl⟩
    obtain ⟨j, again, bounded⟩ := select_of_place h member
    obtain rfl : i = j := Option.some.inj (selected.symm.trans again)
    exact ⟨r, member, selected, bounded, rfl⟩
  · rintro ⟨r, member, selected, _, rfl⟩
    exact ⟨r, ⟨member, selected⟩, rfl⟩

/-- Cutting a list up by a key and joining the pieces in the order of the keys loses nothing. -/
theorem flatMap_filter_perm {α : Type} (key : α → Option Nat) (list : List α) (n : Nat) :
    ((List.range n).flatMap fun i => list.filter fun x => key x = some i).Perm
      (list.filter fun x => (key x).any (· < n)) := by
  induction n with
  | zero =>
    have none : (list.filter fun x => (key x).any (· < 0)) = [] := by
      rw [List.filter_eq_nil_iff]
      intro x _
      simp
    rw [none]
    exact List.Perm.refl []
  | succ n ih =>
    rw [List.range_succ, List.flatMap_append, List.flatMap_singleton]
    refine (ih.append_right _).trans ?_
    have lower : (list.filter fun x => (key x).any (· < n + 1)).filter
        (fun x => (key x).any (· < n)) = list.filter fun x => (key x).any (· < n) := by
      rw [List.filter_filter]
      apply List.filter_congr
      intro x _
      rw [Bool.eq_iff_iff]
      cases key x with
      | none => simp
      | some i =>
        simp only [Option.any_some, Bool.and_eq_true, decide_eq_true_eq]
        omega
    have last : (list.filter fun x => (key x).any (· < n + 1)).filter
        (fun x => !(key x).any (· < n)) = list.filter fun x => key x = some n := by
      rw [List.filter_filter]
      apply List.filter_congr
      intro x _
      rw [Bool.eq_iff_iff]
      cases key x with
      | none => simp
      | some i =>
        simp only [Option.any_some, Bool.and_eq_true, Bool.not_eq_true', decide_eq_false_iff_not,
          decide_eq_true_eq, Option.some.injEq]
        omega
    rw [← lower, ← last]
    exact List.filter_append_perm _ _

theorem flatMap_bucket_perm {a : Axis} {list : List Residual} {placed : List (Nat × Residual)}
    (h : place (.axis a) list = .ok placed) :
    ((List.range a.size).flatMap fun i => (bucket i placed).map (·.entry)).Perm
      (list.map (·.entry)) := by
  have all : (list.filter fun r => (a.select r 0).any (· < a.size)) = list := by
    rw [List.filter_eq_self]
    intro r member
    obtain ⟨i, selected, bounded⟩ := select_of_place h member
    simpa [selected] using bounded
  have shared := flatMap_filter_perm (fun r => a.select r 0) list a.size
  rw [all] at shared
  simpa [bucket_eq_of_place h, List.map_flatMap, Function.comp_def] using shared.map (·.entry)

end OpcodeAtlas.Dispatch
