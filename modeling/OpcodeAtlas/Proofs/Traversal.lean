import Mathlib.Data.List.Perm.Basic

/-!
Lists traversed with a function that may fail. `mapM_eq_ok_iff`: a traversal succeeds exactly if
every element does. `mapM_eq_error_iff`: otherwise it fails as the first element that fails does.
`gather` keeps what is found, and can be cut into parts that are gathered one by one.
`Agree` compares two results, and with `Agree.mapM_perm` two traversals in different orders.
`Errors` says something of every way to fail.
-/

namespace OpcodeAtlas.Traversal

variable {ε δ α β : Type}

theorem bind_eq_ok_iff {x : Except ε α} {f : α → Except ε β} {b : β} :
    (x >>= f) = .ok b ↔ ∃ a, x = .ok a ∧ f a = .ok b := by
  cases x with
  | error e => simp [bind, Except.bind]
  | ok a => simp [bind, Except.bind]

theorem bind_eq_error_iff {x : Except ε α} {f : α → Except ε β} {e : ε} :
    (x >>= f) = .error e ↔ x = .error e ∨ ∃ a, x = .ok a ∧ f a = .error e := by
  cases x with
  | error d => simp [bind, Except.bind]
  | ok a => simp [bind, Except.bind]

theorem map_eq_ok_iff {x : Except ε α} {f : α → β} {b : β} :
    f <$> x = .ok b ↔ ∃ a, x = .ok a ∧ f a = b := by
  cases x with
  | error e => simp [Functor.map, Except.map]
  | ok a => simp [Functor.map, Except.map]

theorem map_eq_error_iff {x : Except ε α} {f : α → β} {e : ε} :
    f <$> x = .error e ↔ x = .error e := by
  cases x with
  | error d => simp [Functor.map, Except.map]
  | ok a => simp [Functor.map, Except.map]

theorem mapError_eq_ok_iff {x : Except ε α} {g : ε → δ} {a : α} :
    x.mapError g = .ok a ↔ x = .ok a := by
  cases x with
  | error e => simp [Except.mapError]
  | ok b => simp [Except.mapError]

theorem mapError_eq_error_iff {x : Except ε α} {g : ε → δ} {d : δ} :
    x.mapError g = .error d ↔ ∃ e, x = .error e ∧ g e = d := by
  cases x with
  | error e => simp [Except.mapError]
  | ok b => simp [Except.mapError]

theorem mapError_map (g : ε → δ) (f : α → β) (x : Except ε α) :
    (f <$> x).mapError g = f <$> x.mapError g := by
  cases x <;> rfl

theorem mapError_bind (g : ε → δ) (x : Except ε α) (f : α → Except ε β) :
    (x >>= f).mapError g = x.mapError g >>= fun a => (f a).mapError g := by
  cases x <;> rfl

theorem mapError_mapM (g : ε → δ) (f : α → Except ε β) (as : List α) :
    (as.mapM f).mapError g = as.mapM fun a => (f a).mapError g := by
  induction as with
  | nil => rfl
  | cons a as ih =>
    simp only [List.mapM_cons, mapError_bind, ih]
    rfl

theorem exists_of_isOk {x : Except ε α} (h : x.isOk = true) : ∃ a, x = .ok a := by
  cases x with
  | error e => cases h
  | ok a => exact ⟨a, rfl⟩

theorem exists_ok_iff {x : Except ε α} {fault : ε → Prop} (exact : ∀ e, x = .error e ↔ fault e) :
    (∃ a, x = .ok a) ↔ ∀ e, ¬ fault e := by
  simp only [← exact]
  cases x with
  | ok a => simp
  | error e => simp

theorem exists_of_any {x : Except ε α} {p : α → Bool} (h : x.toOption.any p = true) :
    ∃ a, x = .ok a ∧ p a = true := by
  cases x with
  | error e => cases h
  | ok a => exact ⟨a, rfl, h⟩

theorem mapM_eq_ok_iff {f : α → Except ε β} {as : List α} {bs : List β} :
    as.mapM f = .ok bs ↔ List.Forall₂ (fun a b => f a = .ok b) as bs := by
  induction as generalizing bs with
  | nil =>
    rw [List.forall₂_nil_left_iff, List.mapM_nil]
    exact ⟨fun h => (Except.ok.inj h).symm, fun h => h ▸ rfl⟩
  | cons a as ih =>
    simp only [List.mapM_cons, bind_eq_ok_iff, List.forall₂_cons_left_iff, ih]
    constructor
    · rintro ⟨b, first, rest, others, same⟩
      exact ⟨b, rest, first, others, (Except.ok.inj same).symm⟩
    · rintro ⟨b, rest, first, others, rfl⟩
      exact ⟨b, first, rest, others, rfl⟩

theorem mapM_eq_some_iff {f : α → Option β} {as : List α} {bs : List β} :
    as.mapM f = some bs ↔ List.Forall₂ (fun a b => f a = some b) as bs := by
  induction as generalizing bs with
  | nil =>
    rw [List.forall₂_nil_left_iff, List.mapM_nil]
    exact ⟨fun h => (Option.some.inj h).symm, fun h => h ▸ rfl⟩
  | cons a as ih =>
    simp only [List.mapM_cons, Option.bind_eq_bind, Option.bind_eq_some_iff, ih,
      List.forall₂_cons_left_iff]
    constructor
    · rintro ⟨b, first, rest, others, same⟩
      exact ⟨b, rest, first, others, (Option.some.inj same).symm⟩
    · rintro ⟨b, rest, first, others, rfl⟩
      exact ⟨b, first, rest, others, rfl⟩

/-- What a function undoes one by one, a traversal undoes all together. -/
theorem mapM_map_eq_ok {f : β → Except ε α} {g : α → β} (undoes : ∀ a, f (g a) = .ok a)
    (as : List α) : (as.map g).mapM f = .ok as := by
  induction as with
  | nil => rfl
  | cons a as ih =>
    rw [List.map_cons, List.mapM_cons, undoes, ih]
    rfl

theorem exists_right_of_forall₂ {R : α → β → Prop} {as : List α} {bs : List β}
    (related : List.Forall₂ R as bs) {a : α} (member : a ∈ as) : ∃ b ∈ bs, R a b := by
  induction related with
  | nil => cases member
  | @cons c b as bs here _ ih =>
    rcases List.mem_cons.1 member with rfl | later
    · exact ⟨b, List.mem_cons_self, here⟩
    · obtain ⟨d, found, there⟩ := ih later
      exact ⟨d, List.mem_cons_of_mem b found, there⟩

theorem exists_left_of_forall₂ {R : α → β → Prop} {as : List α} {bs : List β}
    (related : List.Forall₂ R as bs) {b : β} (member : b ∈ bs) : ∃ a ∈ as, R a b :=
  exists_right_of_forall₂ (List.Forall₂.flip related) member

theorem exists_of_mapM_eq_ok {f : α → Except ε β} {as : List α} {bs : List β}
    (h : as.mapM f = .ok bs) {a : α} (member : a ∈ as) : ∃ b ∈ bs, f a = .ok b :=
  exists_right_of_forall₂ (mapM_eq_ok_iff.1 h) member

theorem mem_iff_of_mapM_eq_ok {f : α → Except ε β} {as : List α} {bs : List β}
    (h : as.mapM f = .ok bs) {b : β} : b ∈ bs ↔ ∃ a ∈ as, f a = .ok b := by
  constructor
  · exact exists_left_of_forall₂ (mapM_eq_ok_iff.1 h)
  · rintro ⟨a, member, made⟩
    obtain ⟨c, found, same⟩ := exists_of_mapM_eq_ok h member
    obtain rfl : b = c := Except.ok.inj (made.symm.trans same)
    exact found

/-- A traversal fails the way the first element that fails does. -/
theorem mapM_eq_error_iff {f : α → Except ε β} {as : List α} {e : ε} :
    as.mapM f = .error e ↔
      ∃ before a after, as = before ++ a :: after ∧ (∀ b ∈ before, ∃ c, f b = .ok c) ∧
        f a = .error e := by
  induction as with
  | nil =>
    constructor
    · intro impossible
      cases impossible
    · rintro ⟨before, a, after, impossible, _⟩
      simp at impossible
  | cons a as ih =>
    rw [List.mapM_cons, bind_eq_error_iff]
    constructor
    · rintro (first | ⟨b, made, others⟩)
      · exact ⟨[], a, as, rfl, by simp, first⟩
      · rcases bind_eq_error_iff.1 others with rest | ⟨_, _, impossible⟩
        · obtain ⟨before, c, after, rfl, passed, failed⟩ := ih.1 rest
          exact ⟨a :: before, c, after, rfl, List.forall_mem_cons.2 ⟨⟨b, made⟩, passed⟩, failed⟩
        · cases impossible
    · rintro ⟨before, c, after, same, passed, failed⟩
      cases before with
      | nil =>
        obtain ⟨rfl, rfl⟩ := List.cons.inj same
        exact .inl failed
      | cons d before =>
        obtain ⟨rfl, rfl⟩ := List.cons.inj same
        obtain ⟨⟨b, made⟩, passed⟩ := List.forall_mem_cons.1 passed
        have rest := ih.2 ⟨before, c, after, rfl, passed, failed⟩
        exact .inr ⟨b, made, bind_eq_error_iff.2 (.inl rest)⟩

theorem exists_of_mapM_eq_error {f : α → Except ε β} {as : List α} {e : ε}
    (h : as.mapM f = .error e) : ∃ a ∈ as, f a = .error e := by
  obtain ⟨before, a, after, rfl, _, failed⟩ := mapM_eq_error_iff.1 h
  exact ⟨a, List.mem_append_right before List.mem_cons_self, failed⟩

theorem mapM_filter_eq_error_iff {p : α → Bool} {f : α → Except ε β} {as : List α} {e : ε} :
    (as.filter p).mapM f = .error e ↔
      ∃ before a after, as = before ++ a :: after ∧
        (∀ b ∈ before, p b = true → ∃ c, f b = .ok c) ∧ p a = true ∧ f a = .error e := by
  rw [mapM_eq_error_iff]
  constructor
  · rintro ⟨before, a, after, same, passed, failed⟩
    obtain ⟨front, rest, rfl, rfl, rest_same⟩ := List.filter_eq_append_iff.1 same
    obtain ⟨gap, back, rfl, dropped, kept, _⟩ := List.filter_eq_cons_iff.1 rest_same
    refine ⟨front ++ gap, a, back, by rw [List.append_assoc], ?_, kept, failed⟩
    intro b member keep
    rcases List.mem_append.1 member with early | late
    · exact passed b (List.mem_filter.2 ⟨early, keep⟩)
    · exact absurd keep (dropped b late)
  · rintro ⟨before, a, after, rfl, passed, kept, failed⟩
    refine ⟨before.filter p, a, after.filter p, ?_, ?_, failed⟩
    · rw [List.filter_append, List.filter_cons_of_pos kept]
    · intro b member
      obtain ⟨early, keep⟩ := List.mem_filter.1 member
      exact passed b early keep

theorem mapM_range_eq_error_iff {f : Nat → Except ε β} {n : Nat} {e : ε} :
    (List.range n).mapM f = .error e ↔
      ∃ i < n, (∀ j < i, ∃ b, f j = .ok b) ∧ f i = .error e := by
  rw [mapM_eq_error_iff]
  constructor
  · rintro ⟨before, i, after, same, passed, failed⟩
    rw [List.range_eq_range', List.range'_eq_append_iff] at same
    obtain ⟨k, bounded, rfl, rest⟩ := same
    obtain ⟨first, positive, _⟩ := List.range'_eq_cons_iff.1 rest.symm
    obtain rfl : k = i := by omega
    refine ⟨k, by omega, fun j earlier => passed j ?_, failed⟩
    simpa [List.mem_range'_1] using earlier
  · rintro ⟨i, bounded, passed, failed⟩
    refine ⟨List.range i, i, List.range' (i + 1) (n - i - 1), ?_, ?_, failed⟩
    · rw [List.range_eq_range', List.range_eq_range', List.range'_eq_append_iff]
      have rest : List.range' (0 + i * 1) (n - i) = i :: List.range' (i + 1) (n - i - 1) :=
        List.range'_eq_cons_iff.2 ⟨by omega, by omega, rfl⟩
      exact ⟨i, Nat.le_of_lt bounded, rfl, rest.symm⟩
    · intro j earlier
      exact passed j (List.mem_range.1 earlier)

theorem exists_mapM_iff {f : α → Except ε β} {as : List α} :
    (∃ bs, as.mapM f = .ok bs) ↔ ∀ a ∈ as, ∃ b, f a = .ok b := by
  constructor
  · rintro ⟨bs, made⟩ a member
    obtain ⟨b, _, here⟩ := exists_of_mapM_eq_ok made member
    exact ⟨b, here⟩
  · intro each
    cases made : as.mapM f with
    | ok bs => exact ⟨bs, rfl⟩
    | error e =>
      obtain ⟨a, member, failed⟩ := exists_of_mapM_eq_error made
      obtain ⟨b, here⟩ := each a member
      cases failed.symm.trans here

theorem exists_of_mapM_zipIdx {f : α × Nat → Except ε β} {as : List α} {bs : List β}
    (h : as.zipIdx.mapM f = .ok bs) {k : Nat} {b : β} (found : bs[k]? = some b) :
    ∃ a, as[k]? = some a ∧ f (a, k) = .ok b := by
  obtain ⟨length, related⟩ := List.forall₂_iff_get.1 (mapM_eq_ok_iff.1 h)
  obtain ⟨bounded, rfl⟩ := List.getElem?_eq_some_iff.1 found
  rw [List.length_zipIdx] at length
  have inside : k < as.length := by omega
  have here := related k (by rwa [List.length_zipIdx]) bounded
  exact ⟨as[k], List.getElem?_eq_getElem inside, by simpa using here⟩

theorem elim_eq_ok_iff {o : Option α} {e : ε} {a : α} :
    o.elim (.error e) Except.ok = .ok a ↔ o = some a := by
  cases o with
  | none => simp
  | some b => simp

theorem forall₂_range_iff {R : Nat → β → Prop} {n : Nat} {bs : List β} :
    List.Forall₂ R (List.range n) bs ↔ bs.length = n ∧ ∀ i b, bs[i]? = some b → R i b := by
  rw [List.forall₂_iff_get]
  constructor
  · rintro ⟨length, related⟩
    rw [List.length_range] at length
    refine ⟨length.symm, fun i b found => ?_⟩
    obtain ⟨bounded, rfl⟩ := List.getElem?_eq_some_iff.1 found
    have here := related i (by rw [List.length_range]; omega) bounded
    simpa using here
  · rintro ⟨length, related⟩
    refine ⟨by rw [List.length_range, length], fun i bounded inside => ?_⟩
    have here := related i bs[i] (List.getElem?_eq_getElem inside)
    simpa using here

/-! ### Gathering -/

/-- A traversal that leaves the places out where nothing is found. -/
def gather (f : α → Except ε (Option β)) (as : List α) : Except ε (List β) :=
  (List.filterMap id) <$> as.mapM f

theorem mapError_gather (g : ε → δ) (f : α → Except ε (Option β)) (as : List α) :
    (gather f as).mapError g = gather (fun a => (f a).mapError g) as := by
  unfold gather
  rw [mapError_map, mapError_mapM]

theorem gather_map (f : β → Except ε (Option δ)) (g : α → β) (as : List α) :
    gather f (as.map g) = gather (f ∘ g) as := by
  unfold gather
  rw [List.mapM_map]

theorem gather_cons (f : α → Except ε (Option β)) (a : α) (as : List α) :
    gather f (a :: as) = f a >>= fun b => (b.toList ++ ·) <$> gather f as := by
  unfold gather
  rw [List.mapM_cons]
  cases f a with
  | error e => rfl
  | ok b =>
    cases as.mapM f with
    | error e => rfl
    | ok bs => cases b <;> rfl

theorem gather_append (f : α → Except ε (Option β)) (as others : List α) :
    gather f (as ++ others) = gather f as >>= fun bs => (bs ++ ·) <$> gather f others := by
  unfold gather
  rw [List.mapM_append]
  cases as.mapM f with
  | error e => rfl
  | ok bs =>
    cases others.mapM f with
    | error e => rfl
    | ok cs => exact congrArg Except.ok List.filterMap_append

theorem gather_filter (p : α → Bool) (f : α → Except ε (Option β)) (as : List α) :
    gather f (as.filter p) = gather (fun a => if p a then f a else .ok none) as := by
  induction as with
  | nil => rfl
  | cons a as ih =>
    rw [gather_cons]
    cases keep : p a with
    | true =>
      rw [List.filter_cons_of_pos keep, gather_cons, ih]
      rfl
    | false =>
      rw [List.filter_cons_of_neg (by simp [keep]), ih]
      exact (id_map _).symm

theorem gather_flatMap (f : α → Except ε (Option β)) (g : δ → List α) (ds : List δ) :
    gather f (ds.flatMap g) = List.flatten <$> ds.mapM fun d => gather f (g d) := by
  induction ds with
  | nil => rfl
  | cons d ds ih =>
    rw [List.flatMap_cons, gather_append, ih, List.mapM_cons]
    cases gather f (g d) with
    | error e => rfl
    | ok bs => cases ds.mapM fun d => gather f (g d) <;> rfl

theorem gather_eq_ok_iff {f : α → Except ε (Option β)} {as : List α} {bs : List β} :
    gather f as = .ok bs ↔
      (∀ a ∈ as, ∃ b, f a = .ok b) ∧ bs = as.filterMap fun a => (f a).toOption.join := by
  induction as generalizing bs with
  | nil => simp [gather, eq_comm, Functor.map, Except.map, pure, Except.pure]
  | cons a as ih =>
    rw [gather_cons, List.forall_mem_cons, List.filterMap_cons]
    cases f a with
    | error e => simp [bind, Except.bind]
    | ok b =>
      simp only [bind_eq_ok_iff, map_eq_ok_iff, ih, Except.ok.injEq]
      cases b with
      | none => simp [Except.toOption, eq_comm]
      | some b => simp [Except.toOption, eq_comm]

/-! ### Agreement -/

/-- Both succeed with related values, or both fail with related errors. -/
inductive Agree (V : α → α → Prop) (E : ε → ε → Prop) : Except ε α → Except ε α → Prop where
  | ok {a b : α} (values : V a b) : Agree V E (.ok a) (.ok b)
  | error {d e : ε} (errors : E d e) : Agree V E (.error d) (.error e)

variable {V : α → α → Prop} {W : β → β → Prop} {E : ε → ε → Prop}

theorem Agree.same (reflexive : ∀ e, E e e) (x : Except ε α) : Agree (· = ·) E x x := by
  cases x with
  | error e => exact .error (reflexive e)
  | ok a => exact .ok rfl

theorem Agree.imp {U : α → α → Prop} {x y : Except ε α} (h : Agree V E x y)
    (weaker : ∀ a b, V a b → U a b) : Agree U E x y := by
  cases h with
  | ok values => exact .ok (weaker _ _ values)
  | error errors => exact .error errors

theorem Agree.bind {x y : Except ε α} {f g : α → Except ε β} (first : Agree V E x y)
    (next : ∀ a b, V a b → Agree W E (f a) (g b)) : Agree W E (x >>= f) (y >>= g) := by
  cases first with
  | ok values => exact next _ _ values
  | error errors => exact .error errors

theorem Agree.map {x y : Except ε α} {f g : α → β} (first : Agree V E x y)
    (next : ∀ a b, V a b → W (f a) (g b)) : Agree W E (f <$> x) (g <$> y) := by
  cases first with
  | ok values => exact .ok (next _ _ values)
  | error errors => exact .error errors

theorem Agree.mapM {ι : Type} {f g : ι → Except ε α} {is : List ι}
    (each : ∀ i ∈ is, Agree V E (f i) (g i)) :
    Agree (List.Forall₂ V) E (is.mapM f) (is.mapM g) := by
  induction is with
  | nil => exact .ok .nil
  | cons i is ih =>
    rw [List.forall_mem_cons] at each
    rw [List.mapM_cons, List.mapM_cons]
    refine each.1.bind fun a b here => (ih each.2).bind fun as bs rest => ?_
    exact .ok (.cons here rest)

/-- Two orders of the same elements may fail at different elements, but they fail together. -/
theorem Agree.mapM_perm {f : α → Except ε β} {as others : List α} (perm : as.Perm others)
    (errors : ∀ a b d e, f a = .error d → f b = .error e → E d e) :
    Agree List.Perm E (as.mapM f) (others.mapM f) := by
  cases first : as.mapM f with
  | ok bs =>
    obtain ⟨cs, made, same⟩ := List.perm_comp_forall₂ perm.symm (mapM_eq_ok_iff.1 first)
    rw [mapM_eq_ok_iff.2 made]
    exact .ok same.symm
  | error d =>
    obtain ⟨a, member, failed⟩ := exists_of_mapM_eq_error first
    cases second : others.mapM f with
    | ok cs =>
      obtain ⟨b, _, made⟩ := exists_of_mapM_eq_ok second (perm.mem_iff.1 member)
      cases failed.symm.trans made
    | error e =>
      obtain ⟨b, _, again⟩ := exists_of_mapM_eq_error second
      exact .error (errors a b d e failed again)

/-! ### Errors -/

/-- A result that fails at most with errors that have a property. -/
def Errors (P : ε → Prop) (x : Except ε α) : Prop := ∀ e, x = .error e → P e

variable {P : ε → Prop}

theorem Errors.ok (a : α) : Errors P (.ok a) := by
  intro e h
  cases h

theorem Errors.error {e : ε} (holds : P e) : Errors P (.error e : Except ε α) := by
  intro d h
  cases h
  exact holds

theorem Errors.elim {e : ε} (holds : P e) (o : Option α) : Errors P (o.elim (.error e) .ok) := by
  cases o with
  | none => exact .error holds
  | some a => exact .ok a

theorem Errors.bind {x : Except ε α} {f : α → Except ε β} (first : Errors P x)
    (next : ∀ a, x = .ok a → Errors P (f a)) : Errors P (x >>= f) := by
  intro e h
  rcases bind_eq_error_iff.1 h with failed | ⟨a, made, failed⟩
  · exact first e failed
  · exact next a made e failed

theorem Errors.map {x : Except ε α} {f : α → β} (first : Errors P x) : Errors P (f <$> x) := by
  intro e h
  exact first e (map_eq_error_iff.1 h)

theorem Errors.mapM {f : α → Except ε β} {as : List α} (each : ∀ a ∈ as, Errors P (f a)) :
    Errors P (as.mapM f) := by
  intro e h
  obtain ⟨a, member, failed⟩ := exists_of_mapM_eq_error h
  exact each a member e failed

theorem Errors.foldlM {f : β → α → Except ε β} (each : ∀ b a, Errors P (f b a)) (b : β)
    (as : List α) : Errors P (as.foldlM f b) := by
  induction as generalizing b with
  | nil => exact .ok b
  | cons a as ih =>
    rw [List.foldlM_cons]
    exact (each b a).bind fun c _ => ih c

end OpcodeAtlas.Traversal
