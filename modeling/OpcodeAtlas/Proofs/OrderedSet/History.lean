import Mathlib.Data.Finset.Card
import Mathlib.Data.Nat.Find
import Mathlib.Order.Bounds.Basic
import OpcodeAtlas.Attribute

/-!
What a history of calls leaves in a set. The elements are those of the finite set that the same
calls make, in the order of their first insertion since their last removal (`contents_of_calls`). The
order is kept by single events (`Recorded.insert`, `Recorded.filter`), of which every call is a
list.
-/

namespace OpcodeAtlas.OrderedSet

/-! ### Events -/

/-- An element comes in, or every element with a property goes. -/
inductive Event (α : Type) where
  | entry (a : α)
  | exit (out : α → Prop)

section Events

variable {α : Type} {h : List (Event α)} {a b : α} {i : Nat}

/-- Event `i` lets the element in, and no later event removes it. -/
def Enters (h : List (Event α)) (a : α) (i : Nat) : Prop :=
  h[i]? = some (.entry a) ∧ ∀ j > i, ∀ out, h[j]? = some (.exit out) → ¬ out a

/-- Event `i` is the first insertion of the element since its last removal. -/
def Since (h : List (Event α)) (a : α) (i : Nat) : Prop := IsLeast {i | Enters h a i} i

theorem Since.enters (since : Since h a i) : Enters h a i := since.1

theorem exists_since (enters : Enters h a i) : ∃ j, Since h a j := by
  classical
  exact ⟨_, Nat.find_spec ⟨i, enters⟩, fun j later => Nat.find_min' ⟨i, enters⟩ later⟩

theorem Enters.lt_length (enters : Enters h a i) : i < h.length :=
  (List.getElem?_eq_some_iff.1 enters.1).1

theorem getElem?_concat_eq_some_iff {β : Type} {l : List β} {x y : β} {i : Nat} :
    (l ++ [x])[i]? = some y ↔ l[i]? = some y ∨ (i = l.length ∧ x = y) := by
  rw [List.getElem?_append]
  split
  · next inside =>
    have apart : i ≠ l.length := Nat.ne_of_lt inside
    simp [apart]
  · next outside =>
    have none : l[i]? = none := List.getElem?_eq_none (Nat.le_of_not_lt outside)
    rw [none, List.getElem?_singleton]
    by_cases last : i = l.length
    · simp [last]
    · have beyond : i - l.length ≠ 0 := by omega
      simp [last, beyond]

theorem enters_entry_iff :
    Enters (h ++ [.entry b]) a i ↔ Enters h a i ∨ (i = h.length ∧ b = a) := by
  constructor
  · rintro ⟨here, later⟩
    rcases getElem?_concat_eq_some_iff.1 here with here | ⟨last, same⟩
    · refine .inl ⟨here, fun j behind out event => later j behind out ?_⟩
      exact getElem?_concat_eq_some_iff.2 (.inl event)
    · exact .inr ⟨last, Event.entry.inj same⟩
  · rintro (⟨here, later⟩ | ⟨rfl, rfl⟩)
    · refine ⟨getElem?_concat_eq_some_iff.2 (.inl here), fun j behind out event => ?_⟩
      rcases getElem?_concat_eq_some_iff.1 event with event | ⟨_, other⟩
      · exact later j behind out event
      · cases other
    · refine ⟨getElem?_concat_eq_some_iff.2 (.inr ⟨rfl, rfl⟩), fun j behind out event => ?_⟩
      have inside := (List.getElem?_eq_some_iff.1 event).1
      rw [List.length_append, List.length_singleton] at inside
      omega

theorem enters_exit_iff {out : α → Prop} :
    Enters (h ++ [.exit out]) a i ↔ Enters h a i ∧ ¬ out a := by
  constructor
  · rintro ⟨here, later⟩
    rcases getElem?_concat_eq_some_iff.1 here with here | ⟨_, other⟩
    · have inside := (List.getElem?_eq_some_iff.1 here).1
      refine ⟨⟨here, fun j behind out event => later j behind out ?_⟩, ?_⟩
      · exact getElem?_concat_eq_some_iff.2 (.inl event)
      · exact later h.length inside out (getElem?_concat_eq_some_iff.2 (.inr ⟨rfl, rfl⟩))
    · cases other
  · rintro ⟨⟨here, later⟩, stays⟩
    refine ⟨getElem?_concat_eq_some_iff.2 (.inl here), fun j behind out event => ?_⟩
    rcases getElem?_concat_eq_some_iff.1 event with event | ⟨_, same⟩
    · exact later j behind out event
    · exact Event.exit.inj same ▸ stays

theorem Since.entry (since : Since h a i) (b : α) : Since (h ++ [.entry b]) a i := by
  refine ⟨enters_entry_iff.2 (.inl since.1), fun j enters => ?_⟩
  rcases enters_entry_iff.1 enters with earlier | ⟨rfl, _⟩
  · exact since.2 earlier
  · exact Nat.le_of_lt since.enters.lt_length

theorem Since.exit {out : α → Prop} (since : Since h a i) (stays : ¬ out a) :
    Since (h ++ [.exit out]) a i :=
  ⟨enters_exit_iff.2 ⟨since.1, stays⟩, fun _ enters => since.2 (enters_exit_iff.1 enters).1⟩

theorem since_length (absent : ∀ i, ¬ Enters h a i) : Since (h ++ [.entry a]) a h.length := by
  refine ⟨enters_entry_iff.2 (.inr ⟨rfl, rfl⟩), fun j enters => ?_⟩
  rcases enters_entry_iff.1 enters with earlier | ⟨rfl, _⟩
  · exact absurd earlier (absent j)
  · exact Nat.le_refl _

end Events

/-! ### What a history leaves -/

/-- The set holds what came in and has not been removed since, in the order it came in. -/
structure Recorded {α : Type} (s : OrderedSet α) (h : List (Event α)) : Prop where
  mem_iff : ∀ a, a ∈ s ↔ ∃ i, Enters h a i
  ordered : s.elements.Pairwise fun a b => ∃ i j, Since h a i ∧ Since h b j ∧ i < j

namespace Recorded

variable {α : Type} {s : OrderedSet α} {h : List (Event α)}

theorem empty : Recorded (∅ : OrderedSet α) [] where
  mem_iff a := by
    refine ⟨fun member => absurd member List.not_mem_nil, ?_⟩
    rintro ⟨i, enters⟩
    exact absurd enters.lt_length (Nat.not_lt_zero i)
  ordered := List.Pairwise.nil

theorem filter (recorded : Recorded s h) {p : α → Bool} {out : α → Prop}
    (goes : ∀ a, p a = true ↔ ¬ out a) : Recorded (s.filter p) (h ++ [.exit out]) where
  mem_iff a := by
    rw [mem_filter, recorded.mem_iff a, goes]
    simp only [enters_exit_iff, exists_and_right]
  ordered := by
    refine (List.Pairwise.filter p recorded.ordered).imp_of_mem ?_
    rintro a b first second ⟨i, j, since, since', before⟩
    have stays := (goes a).1 (List.mem_filter.1 first).2
    have stays' := (goes b).1 (List.mem_filter.1 second).2
    exact ⟨i, j, since.exit stays, since'.exit stays', before⟩

variable [DecidableEq α]

theorem insert (recorded : Recorded s h) (a : α) : Recorded (s.insert a) (h ++ [.entry a]) where
  mem_iff b := by
    rw [mem_insert, recorded.mem_iff b]
    simp only [enters_entry_iff, exists_or, exists_eq_left, eq_comm]
  ordered := by
    have kept : s.elements.Pairwise fun b c => ∃ i j,
        Since (h ++ [.entry a]) b i ∧ Since (h ++ [.entry a]) c j ∧ i < j :=
      recorded.ordered.imp fun ⟨i, j, first, second, before⟩ =>
        ⟨i, j, first.entry a, second.entry a, before⟩
    rw [elements_insert]
    split
    -- An element that is there keeps its place: the event is not its first one.
    · exact kept
    · next absent =>
      have never : ∀ i, ¬ Enters h a i := fun i enters => absent ((recorded.mem_iff a).2 ⟨i, enters⟩)
      refine List.pairwise_append.2 ⟨kept, List.pairwise_singleton _ a, fun b member c last => ?_⟩
      rw [List.mem_singleton.1 last]
      obtain ⟨_, enters⟩ := (recorded.mem_iff b).1 member
      obtain ⟨i, since⟩ := exists_since enters
      exact ⟨i, h.length, since.entry a, since_length never, since.enters.lt_length⟩

theorem insertAll (recorded : Recorded s h) (as : List α) :
    Recorded (s.insertAll as) (h ++ as.map .entry) := by
  induction as generalizing s h with
  | nil => rwa [List.map_nil, List.append_nil]
  | cons a as ih =>
    have rest := ih (recorded.insert a)
    rwa [List.append_assoc] at rest

end Recorded

/-! ### Calls -/

/-- The calls that change a set. Only attributes have operand flags to take. -/
inductive Call : Type → Type 1 where
  | add {α : Type} (text : Text) : Call α
  | insert {α : Type} (a : α) : Call α
  | remove {α : Type} (a : α) : Call α
  | collect {α : Type} (as : List α) : Call α
  | takeOperandFlags (number : Nat) : Call Attribute

/-- The members a text adds; one unknown token and it adds none. -/
def added (α : Type) [Vocabulary α] (text : Text) : List α :=
  (Vocabulary.parseList text).toOption.getD []

end OpcodeAtlas.OrderedSet

namespace OpcodeAtlas

/-- The operand that an attribute belongs to, counted from one. -/
def Attribute.operand? (a : Attribute) : Option Nat := a.operandFlag?.map (·.1)

theorem Attribute.flagOf?_eq_none_iff {a : Attribute} {number : Nat} :
    a.flagOf? number = none ↔ a.operand? ≠ some number := by
  rw [Option.eq_none_iff_forall_ne_some]
  simp [flagOf?_eq_some_iff, operand?]

theorem Attributes.withoutOperand_eq (number : Nat) (s : Attributes) :
    s.withoutOperand number = s.filter (·.operand? ≠ some number) := by
  refine OrderedSet.ext (List.filter_congr fun a _ => ?_)
  rw [Bool.eq_iff_iff, Option.isNone_iff_eq_none, Attribute.flagOf?_eq_none_iff,
    decide_eq_true_iff]

theorem Attributes.takeOperandFlags_answer (number : Nat) (s : Attributes) :
    (s.takeOperandFlags number).1.map (fun flag => some (number, flag)) =
      (s.elements.filter (·.operand? = some number)).map Attribute.operandFlag? := by
  change (s.elements.filterMap (Attribute.flagOf? number)).map _ = _
  induction s.elements with
  | nil => rfl
  | cons a as ih =>
    cases found : a.flagOf? number with
    | none =>
      have other := Attribute.flagOf?_eq_none_iff.1 found
      rw [List.filterMap_cons_none found, List.filter_cons_of_neg (by simpa using other), ih]
    | some flag =>
      have here := Attribute.flagOf?_eq_some_iff.1 found
      have own : a.operand? = some number := by rw [Attribute.operand?, here]; rfl
      rw [List.filterMap_cons_some found, List.filter_cons_of_pos (by simpa using own),
        List.map_cons, List.map_cons, ih, here]

namespace OrderedSet.Call

def run {α : Type} [equality : DecidableEq α] [tokens : Vocabulary α] (s : OrderedSet α)
    (call : Call α) : OrderedSet α :=
  match α, equality, tokens, s, call with
  | _, _, _, s, add text => ((OrderedSet.add text).outcome s).2
  | _, _, _, s, insert a => (insertNew a s).2
  | _, _, _, s, remove a => (eraseOld a s).2
  | _, _, _, _, collect as => ofList as
  | _, _, _, s, takeOperandFlags number => (Attributes.takeOperandFlags number s).2

def events {α : Type} [tokens : Vocabulary α] (call : Call α) : List (Event α) :=
  match α, tokens, call with
  | α, _, add text => (added α text).map .entry
  | _, _, insert a => [.entry a]
  | _, _, remove a => [.exit (· = a)]
  | _, _, collect as => .exit (fun _ => True) :: as.map .entry
  | _, _, takeOperandFlags number => [.exit (·.operand? = some number)]

def onFinset {α : Type} [equality : DecidableEq α] [tokens : Vocabulary α] (s : Finset α)
    (call : Call α) : Finset α :=
  match α, equality, tokens, s, call with
  | α, _, _, s, add text => s ∪ (added α text).toFinset
  | _, _, _, s, insert a => Insert.insert a s
  | _, _, _, s, remove a => s.erase a
  | _, _, _, _, collect as => as.toFinset
  | _, _, _, s, takeOperandFlags number => s.filter (·.operand? ≠ some number)

end OrderedSet.Call

namespace OrderedSet

variable {α : Type} [DecidableEq α] {s : OrderedSet α}

def toFinset {α : Type} (s : OrderedSet α) : Finset α := ⟨s.elements, s.nodup⟩

theorem mem_toFinset {α : Type} {s : OrderedSet α} {a : α} : a ∈ s.toFinset ↔ a ∈ s := Iff.rfl

/-- The queries, and the answers of insertions and removals, are those of the finite set. -/
structure Agrees (s : OrderedSet α) (set : Finset α) : Prop where
  contains : ∀ a, s.contains a = decide (a ∈ set)
  size : s.size = set.card
  isEmpty : s.isEmpty = decide (set = ∅)
  insertNew : ∀ a, (insertNew a s).1 = decide (a ∉ set)
  eraseOld : ∀ a, (eraseOld a s).1 = decide (a ∈ set)

theorem eraseOld_answer (a : α) : (eraseOld a s).1 = decide (a ∈ s) := by
  refine decide_eq_decide.2 ?_
  change s.elements.length ≠ (s.elements.filter (· ≠ a)).length ↔ a ∈ s.elements
  rw [ne_comm, ne_eq, List.length_filter_eq_length_iff]
  simp

theorem agrees_toFinset (s : OrderedSet α) : s.Agrees s.toFinset where
  contains _ := rfl
  size := rfl
  isEmpty := by
    have same : s.elements.length = 0 ↔ s.toFinset = ∅ := Finset.card_eq_zero (s := s.toFinset)
    rw [Bool.eq_iff_iff, decide_eq_true_iff, ← same, List.length_eq_zero_iff]
    exact List.isEmpty_iff
  insertNew a := (decide_not (p := a ∈ s)).symm
  eraseOld a := eraseOld_answer a

variable [Vocabulary α]

theorem outcome_add (text : Text) : ((add text).outcome s).2 = s.insertAll (added α text) := by
  rw [add, Update.outcome_validated, added]
  cases Vocabulary.parseList (α := α) text <;> rfl

theorem filter_none {α : Type} (s : OrderedSet α) : s.filter (fun _ => false) = ∅ :=
  ext (List.filter_false s.elements)

theorem Recorded.run {h : List (Event α)} (recorded : Recorded s h) (call : Call α) :
    Recorded (call.run s) (h ++ call.events) := by
  cases call with
  | add text =>
    change Recorded ((add text).outcome s).2 _
    rw [outcome_add]
    exact recorded.insertAll (added α text)
  | insert a => exact recorded.insert a
  | remove a => exact recorded.filter fun b => decide_eq_true_iff
  | collect as =>
    have cleared : Recorded (∅ : OrderedSet α) (h ++ [.exit fun _ => True]) := by
      rw [← filter_none s]
      exact recorded.filter (by simp)
    have collected := cleared.insertAll as
    rwa [List.append_assoc] at collected
  | takeOperandFlags number =>
    change Recorded (Attributes.withoutOperand number s) _
    rw [Attributes.withoutOperand_eq]
    exact recorded.filter fun a => decide_eq_true_iff

theorem toFinset_run (s : OrderedSet α) (call : Call α) :
    (call.run s).toFinset = call.onFinset s.toFinset := by
  cases call with
  | add text =>
    ext a
    change a ∈ ((add text).outcome s).2 ↔ a ∈ s.toFinset ∪ (added α text).toFinset
    rw [outcome_add, mem_insertAll, Finset.mem_union, List.mem_toFinset, mem_toFinset]
  | insert a =>
    ext b
    change b ∈ s.insert a ↔ b ∈ Insert.insert a s.toFinset
    rw [mem_insert, Finset.mem_insert, or_comm, mem_toFinset]
  | remove a =>
    ext b
    change b ∈ s.erase a ↔ b ∈ s.toFinset.erase a
    rw [mem_erase, Finset.mem_erase, and_comm, mem_toFinset]
  | collect as =>
    ext a
    change a ∈ ofList as ↔ a ∈ as.toFinset
    rw [mem_ofList, List.mem_toFinset]
  | takeOperandFlags number =>
    ext a
    change a ∈ Attributes.withoutOperand number s ↔
      a ∈ s.toFinset.filter (·.operand? ≠ some number)
    rw [Attributes.withoutOperand_eq, mem_filter, Finset.mem_filter, decide_eq_true_iff,
      mem_toFinset]

/-! ### Runs -/

/-- The set that calls on the empty set leave. -/
def after (calls : List (Call α)) : OrderedSet α := calls.foldl (fun s call => call.run s) ∅

def history (calls : List (Call α)) : List (Event α) := calls.flatMap Call.events

/-- The finite set that the same calls leave. -/
def reference (calls : List (Call α)) : Finset α :=
  calls.foldl (fun set call => call.onFinset set) ∅

theorem recorded_after (calls : List (Call α)) : Recorded (after calls) (history calls) := by
  -- The calls left start at the set and the history of the calls done.
  have folded : ∀ (s : OrderedSet α) (h : List (Event α)), Recorded s h →
      Recorded (calls.foldl (fun s call => call.run s) s) (h ++ history calls) := by
    induction calls with
    | nil =>
      intro s h recorded
      rwa [history, List.flatMap_nil, List.append_nil]
    | cons call calls ih =>
      intro s h recorded
      have rest := ih (call.run s) (h ++ call.events) (recorded.run call)
      rwa [List.append_assoc] at rest
  exact folded ∅ [] .empty

theorem toFinset_after (calls : List (Call α)) : (after calls).toFinset = reference calls :=
  (List.foldl_hom toFinset fun s call => (toFinset_run s call).symm).symm

end OrderedSet

/-- After any calls the elements are distinct, in the order in which they came in for good, and
those of the finite set. Taking the flags of an operand answers those of its attributes in that
order and leaves the other attributes. -/
theorem contents_of_calls :
    (∀ (α : Type) [DecidableEq α] [Vocabulary α] (calls : List (OrderedSet.Call α)),
      let s := OrderedSet.after calls
      s.elements.Nodup ∧ OrderedSet.Recorded s (OrderedSet.history calls) ∧
        s.Agrees (OrderedSet.reference calls)) ∧
    ∀ (calls : List (OrderedSet.Call Attribute)) (number : Nat),
      let s := OrderedSet.after calls
      let taken := Attributes.takeOperandFlags number s
      taken.1.map (fun flag => some (number, flag)) =
          (s.elements.filter (·.operand? = some number)).map Attribute.operandFlag? ∧
        taken.2.elements = s.elements.filter (·.operand? ≠ some number) := by
  constructor
  · intro α _ _ calls s
    refine ⟨s.nodup, OrderedSet.recorded_after calls, ?_⟩
    rw [← OrderedSet.toFinset_after]
    exact s.agrees_toFinset
  · intro calls number s taken
    exact ⟨Attributes.takeOperandFlags_answer number s,
      congrArg OrderedSet.elements (Attributes.withoutOperand_eq number s)⟩

-- An attribute that was removed comes back behind the others.
example : (((OrderedSet.ofList [.modrm, .defaultsTo64] : Attributes).erase .modrm).insertAll
    [.forcedTo64, .modrm]).elements = [.defaultsTo64, .forcedTo64, .modrm] := by
  decide

end OpcodeAtlas
