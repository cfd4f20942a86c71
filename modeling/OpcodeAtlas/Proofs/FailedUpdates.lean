import OpcodeAtlas.Flag
import OpcodeAtlas.FpuFlag
import OpcodeAtlas.OperandAccess
import OpcodeAtlas.Proofs.OrderedSet.History
import OpcodeAtlas.Proofs.Text.Output
import OpcodeAtlas.Proofs.Traversal
import OpcodeAtlas.Proofs.Update

/-!
Updates that fail. A text adds all of its entries to a set, an access map or an access to flags, or
it adds none and the first faulty entry is answered. What is wrong with an entry is said without the
readers (`Vocabulary.Fault`, `AssignmentFault`). Calls of this kind can be left out of any run where
they fail (`Update.runAll_succeeding`, `failures_leave_no_trace`).
-/

namespace OpcodeAtlas

/-! ### Entries -/

section Entries

variable {α : Type} {read : Text → Except SpecError α} {fault : Text → SpecError → Prop}

/-- What is wrong with the first faulty entry. -/
def FirstFault (fault : Text → SpecError → Prop) (entries : List Text) (e : SpecError) : Prop :=
  ∃ front entry rest, entries = front ++ entry :: rest ∧ (∀ x ∈ front, ∀ d, ¬ fault x d) ∧
    fault entry e

/-- The entries that can be read. -/
def readable (read : Text → Except SpecError α) (entries : List Text) : List α :=
  entries.filterMap fun entry => (read entry).toOption

theorem mapM_eq_error_iff_firstFault (exact : ∀ x e, read x = .error e ↔ fault x e)
    {entries : List Text} {e : SpecError} :
    entries.mapM read = .error e ↔ FirstFault fault entries e := by
  rw [Traversal.mapM_eq_error_iff]
  simp only [fun x => Traversal.exists_ok_iff (exact x), exact]
  rfl

theorem eq_readable_of_mapM {entries : List Text} {as : List α}
    (made : entries.mapM read = .ok as) : as = readable read entries := by
  have related := Traversal.mapM_eq_ok_iff.1 made
  clear made
  induction related with
  | nil => rfl
  | @cons x a entries as here _ ih =>
    rw [ih, readable, readable, List.filterMap_cons, here]
    rfl

theorem allOrNothing_entries {σ : Type} (exact : ∀ x e, read x = .error e ↔ fault x e)
    (entries : List Text) (store : List α → σ → σ) :
    Update.AllOrNothing (.validated (entries.mapM read) store) (store (readable read entries))
      fun _ => FirstFault fault entries :=
  Update.allOrNothing_validated (fun _ => eq_readable_of_mapM)
    (fun _ => mapM_eq_error_iff_firstFault exact) store

end Entries

/-- A token that is not in the vocabulary. -/
inductive Vocabulary.Fault (α : Type) [Vocabulary α] (t : Text) : SpecError → Prop where
  | unknown (absent : ∀ a ∈ (all : List α), token a ≠ t) : Fault α t (.unknown (kind α) t (tokens α))

theorem Vocabulary.parse_eq_error_iff {α : Type} [Vocabulary α] (t : Text) (e : SpecError) :
    (parse t : Except SpecError α) = .error e ↔ Fault α t e := by
  have absent_iff : (find? t : Option α) = none ↔ ∀ a ∈ (all : List α), token a ≠ t := by
    simp [find?]
  unfold parse
  constructor
  · intro failed
    split at failed
    · cases failed
    · next none =>
      cases failed
      exact .unknown (absent_iff.1 none)
  · rintro ⟨absent⟩
    rw [absent_iff.2 absent]

/-- What is wrong with an entry of two sides and an equals sign in between. The sides are checked
one after the other. -/
inductive AssignmentFault (shape : EntryShape) (first second : Text × Text → SpecError → Prop) :
    Text → SpecError → Prop where
  | unassigned {entry : Text} (missing : '=' ∉ entry) :
    AssignmentFault shape first second entry (.malformed shape entry)
  | first {left right : Text} {e : SpecError} (leftmost : '=' ∉ left)
    (wrong : first (left, right) e) : AssignmentFault shape first second (left ++ '=' :: right) e
  | second {left right : Text} {e : SpecError} (leftmost : '=' ∉ left)
    (passed : ∀ d, ¬ first (left, right) d) (wrong : second (left, right) e) :
    AssignmentFault shape first second (left ++ '=' :: right) e

/-- Reads the sides of an entry. -/
def readSides {α : Type} (shape : EntryShape) (read : Text × Text → Except SpecError α)
    (entry : Text) : Except SpecError α :=
  match entry.cut '=' with
  | none => .error (.malformed shape entry)
  | some sides => read sides

theorem readSides_eq_error_iff {α β γ : Type} {shape : EntryShape}
    {first second : Text × Text → SpecError → Prop} {readFirst : Text × Text → Except SpecError α}
    {readSecond : Text × Text → Except SpecError β} {make : α → β → γ}
    (exact : ∀ sides e, readFirst sides = .error e ↔ first sides e)
    (exact' : ∀ sides e, readSecond sides = .error e ↔ second sides e) (entry : Text)
    (e : SpecError) :
    readSides shape (fun sides => do
      let a ← readFirst sides
      let b ← readSecond sides
      return make a b) entry = .error e ↔ AssignmentFault shape first second entry e := by
  unfold readSides
  constructor
  · intro failed
    split at failed
    · next none =>
      cases failed
      exact .unassigned (Text.cut_eq_none_iff.1 none)
    · next sides found =>
      obtain rfl := Text.eq_of_cut found
      have leftmost := Text.notMem_of_cut found
      rcases Traversal.bind_eq_error_iff.1 failed with wrong | ⟨a, made, others⟩
      · exact .first leftmost ((exact sides e).1 wrong)
      · have passed := (Traversal.exists_ok_iff (exact sides)).1 ⟨a, made⟩
        rcases Traversal.bind_eq_error_iff.1 others with wrong | ⟨_, _, impossible⟩
        · exact .second leftmost passed ((exact' sides e).1 wrong)
        · cases impossible
  · intro wrong
    cases wrong with
    | unassigned missing => rw [Text.cut_eq_none_iff.2 missing]
    | @first left right _ leftmost wrong =>
      rw [Text.cut_append_cons leftmost]
      exact Traversal.bind_eq_error_iff.2 (.inl ((exact (left, right) e).2 wrong))
    | @second left right _ leftmost passed wrong =>
      obtain ⟨a, made⟩ := (Traversal.exists_ok_iff (exact (left, right))).2 passed
      have failed := (exact' (left, right) e).2 wrong
      rw [Text.cut_append_cons leftmost]
      exact Traversal.bind_eq_error_iff.2
        (.inr ⟨a, made, Traversal.bind_eq_error_iff.2 (.inl failed)⟩)

/-! ### Containers -/

namespace OrderedSet.Call

variable {α : Type} [DecidableEq α] [Vocabulary α]

/-- Of the calls that change a set only those that add a text can fail. -/
def update (call : Call α) : Update (OrderedSet α) Unit :=
  match call with
  | add text => OrderedSet.add text
  | other => modify other.run

/-- The set after a call that succeeds. The members that a text adds come behind those that are
there. -/
def effect (call : Call α) (s : OrderedSet α) : OrderedSet α :=
  match call with
  | add text => s.insertAll (readable Vocabulary.parse (text.trimmedPieces '|'))
  | other => other.run s

def Fault {α : Type} [Vocabulary α] (call : Call α) (e : SpecError) : Prop :=
  match call with
  | add text => FirstFault (Vocabulary.Fault α) (text.trimmedPieces '|') e
  | _ => False

theorem allOrNothing_update (call : Call α) :
    call.update.AllOrNothing call.effect fun _ => call.Fault := by
  cases call with
  | add text => exact allOrNothing_entries Vocabulary.parse_eq_error_iff _ _
  | insert a => exact Update.allOrNothing_modify _
  | remove a => exact Update.allOrNothing_modify _
  | collect as => exact Update.allOrNothing_modify _
  | takeOperandFlags number => exact Update.allOrNothing_modify _

end OrderedSet.Call

namespace AccessMap

/-- The calls that change an access map or can fail. -/
inductive Call where
  | add (text : Text)
  | check (operands : Nat)

namespace Call

def update : Call → Update AccessMap Unit
  | add text => AccessMap.add text
  | check operands => fun m => (m.check operands, m)

/-- The map after a call that succeeds. The entries that a text adds come behind those that are
there. -/
def effect : Call → AccessMap → AccessMap
  | add text, m => ⟨m.entries ++ readable Vocabulary.parse (text.trimmedPieces '|')⟩
  | check _, m => m

def Fault : Call → AccessMap → SpecError → Prop
  | add text, _, e => FirstFault (Vocabulary.Fault OperandAccess) (text.trimmedPieces '|') e
  | check operands, m, e => m.size < operands ∧ e = .accessMapTooShort m.size operands

theorem allOrNothing_update (call : Call) : call.update.AllOrNothing call.effect call.Fault := by
  cases call with
  | add text =>
    exact allOrNothing_entries Vocabulary.parse_eq_error_iff _
      fun as (m : AccessMap) => ⟨m.entries ++ as⟩
  | check operands =>
    have outcome : ∀ m, (check operands).update.outcome m = (m.check operands, m) := fun _ => rfl
    refine ⟨fun m n => ?_, fun m n e => ?_⟩
    · by_cases short : m.size < operands
      · simp [outcome, AccessMap.check, Fault, short]
      · simp [outcome, AccessMap.check, Fault, effect, short, eq_comm]
    · by_cases short : m.size < operands
      · simp [outcome, AccessMap.check, Fault, short, eq_comm]
      · simp [outcome, AccessMap.check, Fault, short]

end Call

end AccessMap

namespace FlagsAccess

/-- The access is checked before the flag. -/
def Fault : Text → SpecError → Prop :=
  AssignmentFault .flagAccess (fun sides => Vocabulary.Fault FlagAccess sides.2.trim)
    fun sides => Vocabulary.Fault Flag sides.1.trim

theorem parseEntry_eq_error_iff (entry : Text) (e : SpecError) :
    parseEntry entry = .error e ↔ Fault entry e := by
  have same : parseEntry entry = readSides .flagAccess (fun sides => do
      let access ← Vocabulary.parse sides.2.trim
      let flag ← Vocabulary.parse sides.1.trim
      return (access, flag)) entry := by
    unfold parseEntry readSides
    cases entry.cut '=' <;> rfl
  rw [same]
  exact readSides_eq_error_iff (fun sides => Vocabulary.parse_eq_error_iff sides.2.trim)
    (fun sides => Vocabulary.parse_eq_error_iff sides.1.trim) entry e

/-- The access after a text that can be read. Nothing is left of the one before. -/
def effect (value : Text) (templates : Templates) : FlagsAccess :=
  ofEntries (readable parseEntry (Templates.expand templates.flags.find? value))

theorem allOrNothing_add (value : Text) (templates : Templates) :
    (add value templates).AllOrNothing (fun _ => effect value templates)
      fun _ => FirstFault Fault (Templates.expand templates.flags.find? value) := by
  rw [add, parse, Update.validated_map]
  exact allOrNothing_entries parseEntry_eq_error_iff _ fun entries _ => ofEntries entries

end FlagsAccess

namespace FpuFlagsAccess

/-- The flag is checked before the access. -/
def Fault : Text → SpecError → Prop :=
  AssignmentFault .fpuFlagAccess (fun sides => Vocabulary.Fault FpuFlag sides.1.trim)
    fun sides => Vocabulary.Fault FpuAccess sides.2.trim

theorem parseEntry_eq_error_iff (entry : Text) (e : SpecError) :
    parseEntry entry = .error e ↔ Fault entry e := by
  have same : parseEntry entry = readSides .fpuFlagAccess (fun sides => do
      let flag ← Vocabulary.parse sides.1.trim
      let access ← Vocabulary.parse sides.2.trim
      return (flag, access)) entry := by
    unfold parseEntry readSides
    cases entry.cut '=' <;> rfl
  rw [same]
  exact readSides_eq_error_iff (fun sides => Vocabulary.parse_eq_error_iff sides.1.trim)
    (fun sides => Vocabulary.parse_eq_error_iff sides.2.trim) entry e

/-- The access after a text that can be read. Nothing is left of the one before. -/
def effect (value : Text) : FpuFlagsAccess := ofEntries (readable parseEntry (value.splitOn '|'))

theorem allOrNothing_add (value : Text) :
    (add value).AllOrNothing (fun _ => effect value)
      fun _ => FirstFault Fault (value.splitOn '|') := by
  rw [add, parse, Update.validated_map]
  exact allOrNothing_entries parseEntry_eq_error_iff _ fun entries _ => ofEntries entries

end FpuFlagsAccess

/-- A call that fails leaves a set, an access map or an access to flags as it was, whatever was
accepted before its first faulty entry; so a run of calls ends where its successful calls alone
end. -/
theorem failures_leave_no_trace :
    (∀ (α : Type) [DecidableEq α] [Vocabulary α],
      Update.Transactional (OrderedSet.Call.update (α := α)) OrderedSet.Call.effect
        fun call _ => call.Fault) ∧
    Update.Transactional AccessMap.Call.update AccessMap.Call.effect AccessMap.Call.Fault ∧
    Update.Transactional (fun call : Text × Templates => FlagsAccess.add call.1 call.2)
      (fun call _ => FlagsAccess.effect call.1 call.2)
      (fun call _ => FirstFault FlagsAccess.Fault
        (Templates.expand call.2.flags.find? call.1)) ∧
    Update.Transactional FpuFlagsAccess.add (fun value _ => FpuFlagsAccess.effect value)
      (fun value _ => FirstFault FpuFlagsAccess.Fault (value.splitOn '|')) := by
  refine ⟨fun α _ _ => ?_, ?_, ?_, ?_⟩
  · exact Update.transactional_of_allOrNothing OrderedSet.Call.allOrNothing_update
  · exact Update.transactional_of_allOrNothing AccessMap.Call.allOrNothing_update
  · exact Update.transactional_of_allOrNothing fun call =>
      FlagsAccess.allOrNothing_add call.1 call.2
  · exact Update.transactional_of_allOrNothing FpuFlagsAccess.allOrNothing_add

-- The second text fails at its last entry, the third one at its first.
example : (Update.runAll FpuFlagsAccess.add ["C0=m|C1=1", "C2=0|C3=1|C0=t", "C4=0|C1=u", "C1=0"]
    .absent).2.render = "C0=u|C1=0|C2=u|C3=u" := by
  decide

end OpcodeAtlas
