import OpcodeAtlas.Update

/-!
Updates that are transactions: they have their whole effect, or they answer a fault and have none
(`AllOrNothing`). Where the calls of a run are of this kind, those that fail can be left out of it
(`runAll_succeeding`), and the state at the end is the one that the effects of the others lead to
(`final_eq_foldl`).
-/

namespace OpcodeAtlas.Update

universe u

variable {ι : Type u} {σ : Type}

/-- An update has its whole effect, or it answers a fault and has none. -/
structure AllOrNothing (update : Update σ Unit) (effect : σ → σ) (fault : σ → SpecError → Prop) :
    Prop where
  ok_iff : ∀ s t, update.outcome s = (.ok (), t) ↔ (∀ e, ¬ fault s e) ∧ t = effect s
  error_iff : ∀ s t e, update.outcome s = (.error e, t) ↔ fault s e ∧ t = s

/-- The answers to calls made one after the other, and the state they leave. After a failure the
next call is made all the same. -/
def runAll (call : ι → Update σ Unit) : List ι → σ → List (Except SpecError Unit) × σ
  | [], s => ([], s)
  | c :: calls, s =>
    let first := (call c).outcome s
    let rest := runAll call calls first.2
    (first.1 :: rest.1, rest.2)

/-- The calls of a run whose answer is no error. -/
def succeeding (call : ι → Update σ Unit) (calls : List ι) (s : σ) : List ι :=
  ((calls.zip (runAll call calls s).1).filter (·.2.isOk)).map (·.1)

/-- Calls that can be left out of a run where they fail: what is left succeeds and ends in the same
state, which is the one that the effects lead to. -/
structure Transactional (call : ι → Update σ Unit) (effect : ι → σ → σ)
    (fault : ι → σ → SpecError → Prop) : Prop where
  allOrNothing : ∀ c, AllOrNothing (call c) (effect c) (fault c)
  runAll_succeeding : ∀ calls s, runAll call (succeeding call calls s) s =
    ((succeeding call calls s).map fun _ => .ok (), (runAll call calls s).2)
  final_eq_foldl : ∀ calls s, (runAll call calls s).2 =
    (succeeding call calls s).foldl (fun t c => effect c t) s

variable {call : ι → Update σ Unit} {effect : ι → σ → σ} {fault : ι → σ → SpecError → Prop}
  {c : ι} {s t : σ}

theorem runAll_cons {answer : Except SpecError Unit} (first : (call c).outcome s = (answer, t))
    (calls : List ι) :
    runAll call (c :: calls) s = (answer :: (runAll call calls t).1, (runAll call calls t).2) := by
  rw [runAll, first]

theorem succeeding_cons_of_ok (first : (call c).outcome s = (.ok (), t)) (calls : List ι) :
    succeeding call (c :: calls) s = c :: succeeding call calls t := by
  rw [succeeding, runAll_cons first]
  rfl

theorem succeeding_cons_of_error {e : SpecError} (first : (call c).outcome s = (.error e, t))
    (calls : List ι) : succeeding call (c :: calls) s = succeeding call calls t := by
  rw [succeeding, runAll_cons first]
  rfl

theorem AllOrNothing.outcome_cases {update : Update σ Unit} {effect : σ → σ}
    {fault : σ → SpecError → Prop} (h : AllOrNothing update effect fault) (s : σ) :
    update.outcome s = (.ok (), effect s) ∨ ∃ e, update.outcome s = (.error e, s) := by
  obtain ⟨answer, t, done⟩ : ∃ answer t, update.outcome s = (answer, t) := ⟨_, _, rfl⟩
  cases answer with
  | ok _ =>
    obtain ⟨_, rfl⟩ := (h.ok_iff s t).1 done
    exact .inl done
  | error e =>
    obtain ⟨_, rfl⟩ := (h.error_iff s t e).1 done
    exact .inr ⟨e, done⟩

theorem runAll_succeeding (each : ∀ c, AllOrNothing (call c) (effect c) (fault c))
    (calls : List ι) (s : σ) :
    runAll call (succeeding call calls s) s =
      ((succeeding call calls s).map fun _ => .ok (), (runAll call calls s).2) := by
  induction calls generalizing s with
  | nil => rfl
  | cons c calls ih =>
    rcases (each c).outcome_cases s with done | ⟨e, failed⟩
    · rw [succeeding_cons_of_ok done, runAll_cons done, runAll_cons done, ih]
      rfl
    -- The rest of the run starts where the failed call did.
    · rw [succeeding_cons_of_error failed, runAll_cons failed, ih]

theorem final_eq_foldl (each : ∀ c, AllOrNothing (call c) (effect c) (fault c))
    (calls : List ι) (s : σ) :
    (runAll call calls s).2 = (succeeding call calls s).foldl (fun t c => effect c t) s := by
  induction calls generalizing s with
  | nil => rfl
  | cons c calls ih =>
    rcases (each c).outcome_cases s with done | ⟨e, failed⟩
    · rw [succeeding_cons_of_ok done, runAll_cons done, ih]
      rfl
    · rw [succeeding_cons_of_error failed, runAll_cons failed, ih]

theorem transactional_of_allOrNothing (each : ∀ c, AllOrNothing (call c) (effect c) (fault c)) :
    Transactional call effect fault :=
  ⟨each, runAll_succeeding each, final_eq_foldl each⟩

theorem validated_map {α β : Type} (checked : Except SpecError α) (make : α → β)
    (store : β → σ → σ) :
    validated (checked.map make) store = validated checked fun a => store (make a) := by
  cases checked <;> rfl

theorem allOrNothing_modify (f : σ → σ) : AllOrNothing (modify f) f fun _ _ => False := by
  have outcome : ∀ s, (modify f : Update σ Unit).outcome s = (.ok (), f s) := fun _ => rfl
  exact ⟨fun s t => by simp [outcome, eq_comm], fun s t e => by simp [outcome]⟩

theorem allOrNothing_validated {α : Type} {checked : Except SpecError α} {value : α}
    {fault : SpecError → Prop} (ok : ∀ a, checked = .ok a → a = value)
    (error : ∀ e, checked = .error e ↔ fault e) (store : α → σ → σ) :
    AllOrNothing (validated checked store) (store value) fun _ => fault := by
  cases checked with
  | ok a =>
    obtain rfl := ok a rfl
    have sound : ∀ e, ¬ fault e := fun e wrong => nomatch (error e).2 wrong
    exact ⟨fun s t => by simp [outcome_validated, sound, eq_comm],
      fun s t e => by simp [outcome_validated, sound]⟩
  | error d =>
    have only : ∀ e, fault e ↔ d = e := fun e => (error e).symm.trans (by rw [Except.error.injEq])
    exact ⟨fun s t => by simp [outcome_validated, only],
      fun s t e => by simp [outcome_validated, only, eq_comm]⟩

end OpcodeAtlas.Update
