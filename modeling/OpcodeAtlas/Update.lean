import OpcodeAtlas.SpecError

/-!
Updates of a container. An update answers and leaves a state whether or not it succeeds, so what a
failure leaves behind can be said; `validated` is the update that checks everything first and leaves
no trace of a failure.
-/

namespace OpcodeAtlas

abbrev Update (σ α : Type) := ExceptT SpecError (StateM σ) α

namespace Update

variable {σ α : Type}

/-- Stores what has been checked, or fails and stores nothing. -/
def validated (checked : Except SpecError α) (store : α → σ → σ) : Update σ Unit := fun s =>
  match checked with
  | .ok a => (.ok (), store a s)
  | .error e => (.error e, s)

/-- The answer of an update and the state it leaves. -/
def outcome (u : Update σ α) (s : σ) : Except SpecError α × σ := u.run.run s

/-- The answer of a successful update together with the state it leaves. -/
def outcome? (u : Update σ α) (s : σ) : Except SpecError (α × σ) :=
  match u.outcome s with
  | (.ok a, t) => .ok (a, t)
  | (.error e, _) => .error e

/-- The state a successful update leaves. -/
def state? (u : Update σ α) (s : σ) : Except SpecError σ := (u.outcome? s).map (·.2)

theorem outcome_validated (checked : Except SpecError α) (store : α → σ → σ) (s : σ) :
    (validated checked store).outcome s =
      match checked with
      | .ok a => (.ok (), store a s)
      | .error e => (.error e, s) := rfl

theorem state?_validated (checked : Except SpecError α) (store : α → σ → σ) (s : σ) :
    (validated checked store).state? s = checked.map (store · s) := by
  cases checked <;> rfl

theorem outcome_map {β : Type} (f : α → β) (u : Update σ α) (s : σ) :
    (f <$> u).outcome s = (f <$> (u.outcome s).1, (u.outcome s).2) := by
  simp only [outcome, ExceptT.run_map, StateT.run_map]
  rfl

theorem outcome?_eq_ok_iff {u : Update σ α} {s t : σ} {a : α} :
    u.outcome? s = .ok (a, t) ↔ u.outcome s = (.ok a, t) := by
  unfold outcome?
  split
  · next b r h => simp [h]
  · next e r h => simp [h]

end Update

end OpcodeAtlas
