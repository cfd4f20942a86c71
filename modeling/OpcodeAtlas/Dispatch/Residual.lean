import OpcodeAtlas.Dispatch.Component
import OpcodeAtlas.Dispatch.Index
import OpcodeAtlas.Instruction.Basic

/-!
What is left of an instruction on its way down a decision tree: the values and filters that no node
above has used up. Every node uses up at least one value or filter of its instructions, so the total
that is left, the weight, bounds the depth.
-/

namespace OpcodeAtlas.Dispatch

/-- An instruction with an identity: equal instructions at different places of a list are told apart
by their identities. -/
structure Entry where
  id : Nat
  instruction : Instruction

/-- Gives every instruction of a list its place as identity. -/
def Entry.number (instructions : List Instruction) : List Entry :=
  instructions.zipIdx.map fun p => ⟨p.2, p.1⟩

structure Residual where
  entry : Entry
  pending : Field → List Text
  filters : List Filter

inductive GroupError where
  | invalid (error : SpecError)
  /-- An instruction without the field of a node that has no children. -/
  | noChild (component : Text)
  deriving DecidableEq, Repr

namespace GroupError

def specError? : GroupError → Option SpecError
  | invalid e => some e
  | noChild _ => none

def message : GroupError → Text
  | invalid e => e.message
  | noChild component => "component " ++ component ++ " has no children"

end GroupError

namespace Residual

def ofEntry (e : Entry) : Residual :=
  ⟨e, e.instruction.encoding.values, e.instruction.filters⟩

def has (r : Residual) (f : Field) : Bool := !(r.pending f).isEmpty

/-- Leaves `rest` to the field. -/
def advance (r : Residual) (f : Field) (rest : List Text) : Residual :=
  { r with pending := fun g => if g = f then rest else r.pending g }

def axisChild (a : Axis) (r : Residual) : Except GroupError (Nat × Residual) :=
  match r.pending a.field with
  | [] => if 0 < a.size then .ok (0, r) else .error (.noChild (Vocabulary.token a.field))
  | value :: rest =>
    match (childIndex? value).filter (· < a.size) with
    | some index => .ok (index, r.advance a.field rest)
    | none => .error (.invalid (.invalidGroupValue (Vocabulary.token a.field) value a.size))

/-- The child that the next value selects, and what is left below it. -/
def child (c : Component) (r : Residual) : Except GroupError (Nat × Residual) :=
  match c with
  | .axis a => axisChild a r
  | .filter _ => .ok (0, { r with filters := r.filters.tail })

/-! ### Weight -/

/-- The number of values and filters that are left. -/
def weight (r : Residual) : Nat :=
  (Vocabulary.all.flatMap r.pending).length + r.filters.length

theorem weight_advance_lt {r : Residual} {f : Field} {value : Text} {rest : List Text}
    (h : r.pending f = value :: rest) : (r.advance f rest).weight < r.weight := by
  have member : f ∈ (Vocabulary.all : List Field) := by cases f <;> decide
  have shorter : ∀ fs : List Field, f ∈ fs →
      (fs.flatMap (r.advance f rest).pending).length < (fs.flatMap r.pending).length := by
    have step : ∀ g, ((r.advance f rest).pending g).length ≤ (r.pending g).length := by
      intro g
      by_cases same : g = f
      · simp [advance, same, h]
      · simp [advance, same]
    intro fs hf
    induction fs with
    | nil => simp at hf
    | cons g gs ih =>
      have here := step g
      rcases List.mem_cons.1 hf with rfl | hf
      · have less : ((r.advance f rest).pending f).length < (r.pending f).length := by
          simp [advance, h]
        have others : (gs.flatMap (r.advance f rest).pending).length ≤
            (gs.flatMap r.pending).length := by
          clear ih hf
          induction gs with
          | nil => simp
          | cons g gs ih =>
            have := step g
            simp only [List.flatMap_cons, List.length_append]
            omega
        simp only [List.flatMap_cons, List.length_append]
        omega
      · have := ih hf
        simp only [List.flatMap_cons, List.length_append]
        omega
  have := shorter _ member
  simp only [weight]
  change _ + r.filters.length < _
  omega

end Residual

/-! ### Placing -/

/-- Finds the child of every residual; the first failure counts. -/
def place (c : Component) (list : List Residual) : Except GroupError (List (Nat × Residual)) :=
  list.mapM (Residual.child c)

/-- The residuals placed at one child, in order. -/
def bucket (index : Nat) (placed : List (Nat × Residual)) : List Residual :=
  (placed.filter fun p => p.1 = index).map (·.2)

def totalWeight : List Residual → Nat
  | [] => 0
  | r :: rest => r.weight + totalWeight rest

end OpcodeAtlas.Dispatch
