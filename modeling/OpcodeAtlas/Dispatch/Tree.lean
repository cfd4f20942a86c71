import OpcodeAtlas.Dispatch.Residual

/-!
Decision trees. A node has a child slot for every value of its component; a leaf is an instruction.
-/

namespace OpcodeAtlas.Dispatch

inductive Tree where
  | leaf (entry : Entry)
  | node (component : Component) (children : List (Option Tree))

namespace Tree

def component? : Tree → Option Component
  | leaf _ => none
  | node c _ => some c

/-- The child slots, none for a leaf. -/
def children : Tree → List (Option Tree)
  | leaf _ => []
  | node _ cs => cs

def entry? : Tree → Option Entry
  | leaf e => some e
  | node _ _ => none

def isLeaf : Tree → Bool
  | leaf _ => true
  | node _ _ => false

/-- The child slots that hold a tree. -/
def usedSlots (t : Tree) : List Nat :=
  ((t.children.zipIdx).filter fun slot => slot.1.isSome).map (·.2)

/-! ### Leaves -/

mutual

/-- The instructions of a tree, depth first. -/
def leaves : Tree → List Entry
  | leaf e => [e]
  | node _ cs => leavesOfSlots cs

def leavesOfSlots : List (Option Tree) → List Entry
  | [] => []
  | none :: cs => leavesOfSlots cs
  | some t :: cs => t.leaves ++ leavesOfSlots cs

end

/-! ### Depth -/

mutual

/-- The number of nodes on the longest way to a leaf. -/
def depth : Tree → Nat
  | leaf _ => 0
  | node _ cs => 1 + depthOfSlots cs

def depthOfSlots : List (Option Tree) → Nat
  | [] => 0
  | none :: cs => depthOfSlots cs
  | some t :: cs => max t.depth (depthOfSlots cs)

end

/-! ### Dump -/

def indent (level : Nat) : Text := List.replicate (4 * level) ' '

/-- The line above a child: the component and the slot of the child, in at least two digits. -/
def slotLine (level : Nat) (c : Component) (slot : Nat) : Text :=
  indent level ++ c.name ++ " " ++ Text.padLeft 2 '0' (Text.hex slot)

mutual

/-- The lines of a dump. Every child follows the line of its slot, one level deeper. -/
def dump (level : Nat) : Tree → List Text
  | leaf e => [indent level ++ e.instruction.display]
  | node c cs => dumpSlots level c 0 cs

def dumpSlots (level : Nat) (c : Component) (slot : Nat) : List (Option Tree) → List Text
  | [] => []
  | none :: cs => dumpSlots level c (slot + 1) cs
  | some t :: cs => slotLine level c slot :: t.dump (level + 1) ++ dumpSlots level c (slot + 1) cs

end

def render (t : Tree) : Text := Text.unlines (t.dump 0)

/-! ### Identity -/

mutual

/-- Whether two trees have the same shape and the same instructions, by identity, at their leaves.
-/
def same : Tree → Tree → Bool
  | leaf d, leaf e => d.id == e.id
  | node c cs, node d ds => c == d && sameSlots cs ds
  | _, _ => false

def sameSlots : List (Option Tree) → List (Option Tree) → Bool
  | [], [] => true
  | none :: cs, none :: ds => sameSlots cs ds
  | some t :: cs, some u :: ds => same t u && sameSlots cs ds
  | _, _ => false

end

end Tree

end OpcodeAtlas.Dispatch
