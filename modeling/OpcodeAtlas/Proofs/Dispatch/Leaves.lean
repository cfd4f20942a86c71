import OpcodeAtlas.Proofs.Dispatch.Growth

/-!
The leaves of a decision tree. `leaves_perm_of_group`: they are the instructions the tree was made
from, each as often as it was given. What is computed slot by slot concerns the occupied slots
(`mem_leaves_node_iff`).
-/

namespace OpcodeAtlas.Dispatch

namespace Tree

/-- The children of a node with their slots, the first slot being `first`. -/
def occupied (first : Nat) (cs : List (Option Tree)) : List (Nat × Tree) :=
  (cs.zipIdx first).filterMap fun slot => slot.1.map fun t => (slot.2, t)

theorem occupied_none (first : Nat) (cs : List (Option Tree)) :
    occupied first (none :: cs) = occupied (first + 1) cs := by
  simp [occupied]

theorem occupied_some (first : Nat) (t : Tree) (cs : List (Option Tree)) :
    occupied first (some t :: cs) = (first, t) :: occupied (first + 1) cs := by
  simp [occupied]

theorem mem_occupied_iff {cs : List (Option Tree)} {i : Nat} {t : Tree} :
    (i, t) ∈ occupied 0 cs ↔ cs[i]? = some (some t) := by
  simp [occupied, List.mem_zipIdx_iff_getElem?]

theorem leavesOfSlots_eq (first : Nat) (cs : List (Option Tree)) :
    leavesOfSlots cs = (occupied first cs).flatMap fun child => child.2.leaves := by
  induction cs generalizing first with
  | nil => rfl
  | cons slot cs ih =>
    cases slot with
    | none => rw [leavesOfSlots, occupied_none, ih (first + 1)]
    | some t => rw [leavesOfSlots, occupied_some, List.flatMap_cons, ih (first + 1)]

theorem mem_leaves_node_iff {c : Component} {cs : List (Option Tree)} {e : Entry} :
    e ∈ (node c cs).leaves ↔ ∃ (i : Nat) (t : Tree), cs[i]? = some (some t) ∧ e ∈ t.leaves := by
  rw [leaves, leavesOfSlots_eq 0, List.mem_flatMap]
  simp only [Prod.exists, mem_occupied_iff]

end Tree

theorem leavesOfSlots_perm {given : Nat → List Entry} {indices : List Nat}
    {slots : List (Option Tree)}
    (h : List.Forall₂ (fun i slot => ((slot.map Tree.leaves).getD []).Perm (given i)) indices slots) :
    (Tree.leavesOfSlots slots).Perm (indices.flatMap given) := by
  induction h with
  | nil => exact List.Perm.refl []
  | @cons i slot indices slots here _ ih =>
    rw [List.flatMap_cons]
    cases slot with
    | none =>
      rw [Tree.leavesOfSlots, ← List.nil_append (Tree.leavesOfSlots slots)]
      exact here.append ih
    | some t =>
      rw [Tree.leavesOfSlots]
      exact here.append ih

theorem leaves_perm_of_grows {axes : List Axis} {list : List Residual} {tree : Tree}
    (grown : Grows axes list tree) : tree.leaves.Perm (list.map (·.entry)) := by
  induction grown with
  | @leaf r _ _ => exact List.Perm.refl [r.entry]
  | @filter r f fs t _ _ _ ih =>
    rw [Tree.leaves, Tree.leavesOfSlots, Tree.leavesOfSlots, List.append_nil]
    exact ih
  | axis found placing length vacant occupied below ih =>
    rw [Tree.leaves]
    refine (leavesOfSlots_perm (Traversal.forall₂_range_iff.2 ⟨length, ?_⟩)).trans
      (flatMap_bucket_perm placing)
    intro i slot here
    cases slot with
    | none => rw [vacant i here]; exact List.Perm.refl []
    | some t => exact ih i t here

/-- Nothing is dropped, duplicated or invented on the way to the leaves. -/
theorem leaves_perm_of_group {axes : List Axis} {entries : List Entry} {tree : Tree}
    (h : (group axes entries).result = .ok tree) : tree.leaves.Perm entries := by
  have shared := leaves_perm_of_grows (group_eq_ok_iff.1 h)
  rwa [List.map_map, show (·.entry) ∘ Residual.ofEntry = id from rfl, List.map_id] at shared

end OpcodeAtlas.Dispatch
