import OpcodeAtlas.Proofs.Instruction.Filters
import OpcodeAtlas.Proofs.Metadata.Order

/-!
Naming an EVEX mode. An entry that names the mode of an instruction without one takes its checks of
general purpose registers away and changes nothing else (`build_append_evexMode`). That holds of
every mode, also of the native one, which has these checks when it is not named
(`native_mode_differs_from_default`).
-/

namespace OpcodeAtlas

namespace Metadata

variable {templates : Templates}

theorem record_evexMode {value : Text} {mode : EvexMode} (known : Vocabulary.parse value = .ok mode)
    (m : Metadata) :
    m.record templates ⟨.evexMode, value⟩ = .ok { m with evexMode := some mode } := by
  rw [record, known]
  rfl

theorem read_append_evexMode {mnemonic : Text} {entries : List Text} {entry value : Text}
    {mode : EvexMode} (absent : ∀ e ∈ entries, MetaEntry.key? e ≠ some .evexMode)
    (parsed : MetaEntry.parse entry = .ok ⟨.evexMode, value⟩)
    (known : Vocabulary.parse value = .ok mode) :
    Traversal.Agree (fun m n => m.evexMode = none ∧ n = { m with evexMode := some mode }) (· = ·)
      (read templates mnemonic entries) (read templates mnemonic (entries ++ [entry])) := by
  unfold read
  rw [recordAll_append]
  cases first : (initial mnemonic).recordAll templates entries with
  | error e => exact .error rfl
  | ok m =>
    have unnamed : none = m.evexMode := sameOn_of_recordAll absent first
    have last : m.recordAll templates [entry] = .ok { m with evexMode := some mode } :=
      recordAll_cons.2 ⟨_, _, parsed, record_evexMode known m, rfl⟩
    change Traversal.Agree _ _ _ (m.recordAll templates [entry])
    rw [last]
    exact .ok ⟨unnamed.symm, rfl⟩

end Metadata

namespace Instruction

variable {mnemonic : Text} {m : Metadata} {attributes : Attributes} {e : Encoding}
  {os : List Operand}

/-- Without a named mode, the checks of general purpose registers are those of EVEX instructions. -/
theorem generalChecks_filtersOf (unnamed : m.evexMode = none) :
    (filtersOf mnemonic m attributes e os).filter (·.source = .generalRegister) =
      if e.isEvex then os.filterMap generalCheck? else [] := by
  refine (filter_filtersOf (· = .generalRegister)).trans ?_
  simp only [(filter_operandFilter? _ _).2, unnamed, Option.isNone_none, Bool.and_true]
  cases e.isEvex with
  | true => simp
  | false => simp

/-- A named mode leaves the other filters as they are. -/
theorem filtersOf_evexMode (mode : EvexMode) :
    filtersOf mnemonic { m with evexMode := some mode } attributes e os =
      (filtersOf mnemonic m attributes e os).filter (·.source ≠ .generalRegister) := by
  refine Eq.trans ?_ (filter_filtersOf (· ≠ .generalRegister)).symm
  simp only [(filter_operandFilter? _ _).1]
  simp only [filtersOf, Option.isNone_some, Bool.and_false]
  rfl

/-- An entry that names the EVEX mode decides nothing about being accepted. It takes away the checks
of general purpose registers, of which an EVEX instruction has one for each such operand in
ModR/M.reg or vvvv; so the filters stay the same exactly if there is no such operand. -/
theorem build_append_evexMode {templates : Templates} {p : Parts} {entry value : Text}
    {mode : EvexMode} (absent : ∀ e ∈ p.metadata, MetaEntry.key? e ≠ some .evexMode)
    (parsed : MetaEntry.parse entry = .ok ⟨.evexMode, value⟩)
    (known : Vocabulary.parse value = .ok mode) :
    Traversal.Agree
      (fun i j =>
        j = { i with
          metadata := { i.metadata with evexMode := some mode }
          filters := i.filters.filter (·.source ≠ .generalRegister) } ∧
        i.filters.filter (·.source = .generalRegister) =
          (if i.encoding.isEvex then i.operands.filterMap generalCheck? else []) ∧
        (j.filters = i.filters ↔
          (i.encoding.isEvex = true →
            ∀ o ∈ i.operands, ∀ type ∈ [OperandType.G, .B], o.type? ≠ some type)))
      (· = ·) (build templates p)
      (build templates { p with metadata := p.metadata ++ [entry] }) := by
  have reads : Traversal.Agree _ _
      (Metadata.read templates (Decorators.strip p.mnemonic).1 p.metadata)
      (Metadata.read templates (Decorators.strip p.mnemonic).1 (p.metadata ++ [entry])) :=
    Metadata.read_append_evexMode absent parsed known
  refine (agree_build reads ?_ fun _ => rfl).imp ?_
  · rintro m _ ⟨_, rfl⟩
    exact ⟨rfl, rfl, rfl⟩
  · rintro i j ⟨⟨unnamed, named⟩, filters, feature, made⟩
    rw [named, filtersOf_evexMode, ← filters, ← feature] at made
    have general : i.filters.filter (·.source = .generalRegister) =
        if i.encoding.isEvex then i.operands.filterMap generalCheck? else [] := by
      rw [filters]
      exact generalChecks_filtersOf unnamed
    refine ⟨made, general, ?_⟩
    have same : j.filters = i.filters ↔ i.filters.filter (·.source = .generalRegister) = [] := by
      rw [made]
      simp only [List.filter_eq_self, List.filter_eq_nil_iff, decide_eq_true_eq]
    rw [same, general]
    cases i.encoding.isEvex with
    | true =>
      simp only [if_true, List.filterMap_eq_nil_iff, generalCheck?_eq_none_iff, true_imp_iff]
    | false => simp

/-- A move between general purpose registers of ModR/M.reg and vvvv. -/
def pairMove : Parts where
  mnemonic := "MOVPAIR"
  explicit := ["Gv".toList, "Bv".toList, "Ev".toList]
  implicit := []
  encoding := "evex m:4 p:0 nd:1 0x60 /r"
  metadata := ["s:APX".toList, "w:W|W|R".toList]

theorem build_append_evexMode_pairMove :
    (∀ e ∈ pairMove.metadata, MetaEntry.key? e ≠ some .evexMode) ∧
      MetaEntry.parse "v:none" = .ok ⟨.evexMode, "none".toList⟩ ∧
      Vocabulary.parse ("none" : Text) = .ok EvexMode.native ∧
      ∃ i j, build .standard pairMove = .ok i ∧
        build .standard { pairMove with metadata := pairMove.metadata ++ ["v:none".toList] } =
          .ok j ∧
        i.filters = [.regGeneralBelow16, .vvvvGeneralBelow16] ∧ j.filters = [] := by
  have absent : ∀ e ∈ pairMove.metadata, MetaEntry.key? e ≠ some .evexMode := by decide
  have parsed : MetaEntry.parse "v:none" = .ok ⟨.evexMode, "none".toList⟩ := by decide
  have known : Vocabulary.parse ("none" : Text) = .ok EvexMode.native := by decide
  refine ⟨absent, parsed, known, ?_⟩
  obtain ⟨i, built, checked⟩ := Traversal.exists_of_any
    (show (build .standard pairMove).toOption.any (fun i =>
      i.filters = [.regGeneralBelow16, .vvvvGeneralBelow16]) = true by decide)
  have filters := of_decide_eq_true checked
  have agree := @build_append_evexMode .standard _ _ _ _ absent parsed known
  rw [built] at agree
  generalize build .standard
    { pairMove with metadata := pairMove.metadata ++ ["v:none".toList] } = result at agree ⊢
  cases agree with
  | @ok _ j values =>
    refine ⟨i, j, built, rfl, filters, ?_⟩
    rw [values.1]
    change i.filters.filter _ = []
    rw [filters]
    decide

/-- The native mode is the one of an instruction that names none, but it has no checks of general
purpose registers. -/
theorem native_mode_differs_from_default :
    ¬ ∀ (templates : Templates) (p : Parts),
      (∀ e ∈ p.metadata, MetaEntry.key? e ≠ some .evexMode) →
      Traversal.Agree (fun i j => i.encoding.isEvex = true → i.filters = j.filters)
        (fun _ _ => True) (build templates p)
        (build templates { p with metadata := p.metadata ++ ["v:none".toList] }) := by
  intro every
  have agree := every .standard pairMove (by decide)
  have differ : ((build .standard pairMove).toOption.map fun i =>
        (i.encoding.isEvex, i.filters)) =
        some (true, [.regGeneralBelow16, .vvvvGeneralBelow16]) ∧
      ((build .standard { pairMove with
        metadata := pairMove.metadata ++ ["v:none".toList] }).toOption.map (·.filters)) =
        some [] := by
    decide
  generalize build .standard pairMove = first at agree differ
  generalize build .standard { pairMove with
    metadata := pairMove.metadata ++ ["v:none".toList] } = second at agree differ
  cases agree with
  | ok same =>
    obtain ⟨evex, checked⟩ := Prod.mk.inj (Option.some.inj differ.1)
    cases (checked.symm.trans (same evex)).trans (Option.some.inj differ.2)
  | error _ => cases differ.1

end Instruction

end OpcodeAtlas
