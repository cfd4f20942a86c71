import OpcodeAtlas.Proofs.Instruction.Build

/-!
Where the filters of an instruction come from. A filter has one source: an attribute, the type of an
operand, a general purpose register of a native EVEX instruction, or the exception type
(`source_of_attributeFilters` and its siblings). So whether a filter is there can be read off its
source alone.
-/

namespace OpcodeAtlas

inductive FilterSource where
  | attribute | operand | generalRegister | exceptionType
  deriving DecidableEq, Repr

namespace Filter

def source : Filter → FilterSource
  | notIn64 | only64 | noRipRelative | noAddress16 | no66 | no67 | noRep | noRex2 | noLength0
  | noV | noVPrime | noVAndVPrime => .attribute
  | regGeneralBelow16 | vvvvGeneralBelow16 => .generalRegister
  | segmentWritable | segmentReadable | controlRegister | debugBelow8 | testBelow8
  | regBoundBelow4 | rmBoundBelow4 | regMaskBelow8 | vvvvMaskBelow8 | regTileBelow8
  | rmTileBelow8 | vvvvTileBelow8 => .operand
  | gatherDistinct | gatherIndexDistinct | tilesDistinct | destinationDistinct | noStackPointer
  | pairDistinct => .exceptionType

theorem source_of_ofAttribute? {a : Attribute} {f : Filter} (h : ofAttribute? a = some f) :
    f.source = .attribute := by
  cases a <;> cases h <;> rfl

theorem source_of_ofOperand? {type : OperandType} {write : Bool} {f : Filter}
    (h : ofOperand? type write = some f) : f.source = .operand := by
  cases type with
  | S => cases write <;> cases h <;> rfl
  | _ => cases h <;> rfl

/-- Different attributes give different filters. -/
theorem eq_of_ofAttribute? {a b : Attribute} {f : Filter} (first : ofAttribute? a = some f)
    (second : ofAttribute? b = some f) : a = b := by
  cases a <;> cases first <;> cases b <;> first | rfl | cases second

end Filter

namespace Instruction

/-! ### Sources -/

/-- The check on an operand that is a general purpose register. -/
def generalCheck? (o : Operand) : Option Filter :=
  match o.type? with
  | some .G => some .regGeneralBelow16
  | some .B => some .vvvvGeneralBelow16
  | _ => none

theorem source_of_generalCheck? {o : Operand} {f : Filter} (h : generalCheck? o = some f) :
    f.source = .generalRegister := by
  unfold generalCheck? at h
  split at h <;> cases h <;> rfl

/-- Native EVEX instructions check general purpose registers, and that is all that sets them
apart. -/
theorem operandFilter?_native (o : Operand) :
    operandFilter? true o = (generalCheck? o).or (operandFilter? false o) := by
  unfold operandFilter? generalCheck?
  split
  · next absent => rw [absent]; rfl
  · next found => rw [found]; rfl
  · next found => rw [found]; rfl
  · next type notG notB found =>
    rw [found]
    cases type <;> first | rfl | contradiction

theorem operandFilter?_false (o : Operand) :
    operandFilter? false o = o.type?.bind fun type => Filter.ofOperand? type o.access.isWrite := by
  unfold operandFilter?
  split
  · next absent => rw [absent]; rfl
  · next found => rw [found]; rfl
  · next found => rw [found]; rfl
  · next found => rw [found]; rfl

theorem source_of_operandFilter? {o : Operand} {f : Filter}
    (h : operandFilter? false o = some f) : f.source = .operand := by
  rw [operandFilter?_false] at h
  obtain ⟨type, _, given⟩ := Option.bind_eq_some_iff.1 h
  exact Filter.source_of_ofOperand? given

theorem generalCheck?_eq_none_iff {o : Operand} :
    generalCheck? o = none ↔ ∀ type ∈ [OperandType.G, .B], o.type? ≠ some type := by
  unfold generalCheck?
  split
  · next found => simp [found]
  · next found => simp [found]
  · next notG notB => simpa using And.intro notG notB

/-- No other check is made on a general purpose register. -/
theorem operandFilter?_of_generalCheck? {o : Operand} {f : Filter}
    (general : generalCheck? o = some f) : operandFilter? false o = none := by
  rw [operandFilter?_false]
  unfold generalCheck? at general
  split at general
  · next found => rw [found]; rfl
  · next found => rw [found]; rfl
  · cases general

theorem source_ne_attribute_of_operandFilter? {native : Bool} {o : Operand} {f : Filter}
    (h : operandFilter? native o = some f) : f.source ≠ .attribute := by
  intro source
  cases native with
  | false => cases source.symm.trans (source_of_operandFilter? h)
  | true =>
    rw [operandFilter?_native, Option.or_eq_some_iff] at h
    rcases h with general | ⟨_, other⟩
    · cases source.symm.trans (source_of_generalCheck? general)
    · cases source.symm.trans (source_of_operandFilter? other)

theorem filter_operandFilter? (native : Bool) (o : Operand) :
    (operandFilter? native o).filter (·.source ≠ .generalRegister) = operandFilter? false o ∧
      (operandFilter? native o).filter (·.source = .generalRegister) =
        if native then generalCheck? o else none := by
  have plain : (operandFilter? false o).filter (·.source ≠ .generalRegister) =
        operandFilter? false o ∧
      (operandFilter? false o).filter (·.source = .generalRegister) = none := by
    cases given : operandFilter? false o with
    | none => exact ⟨rfl, rfl⟩
    | some f => simp [Option.filter, source_of_operandFilter? given]
  cases native with
  | false => exact plain
  | true =>
    rw [operandFilter?_native]
    cases general : generalCheck? o with
    | none => exact plain
    | some f =>
      rw [operandFilter?_of_generalCheck? general]
      simp [Option.filter, source_of_generalCheck? general]

theorem mem_joinV {fs : List Filter} {f : Filter} :
    f ∈ joinV fs ↔
      (f ∈ fs ∧ (f = .noV ∨ f = .noVPrime → ¬ (.noV ∈ fs ∧ .noVPrime ∈ fs))) ∨
        (f = .noVAndVPrime ∧ .noV ∈ fs ∧ .noVPrime ∈ fs) := by
  unfold joinV
  split
  · next both =>
    simp only [List.mem_append, List.mem_filter, List.mem_singleton, decide_eq_true_eq, both,
      and_true, not_true_eq_false, imp_false, not_or, ne_eq]
  · next apart =>
    simp only [apart, and_false, or_false, not_false_eq_true, implies_true, and_true]

/-- The filters of attributes, before the two of vvvv are joined. -/
def separateFilters (mnemonic : Text) (attributes : Attributes) : List Filter :=
  (attributes.elements.filterMap Filter.ofAttribute?).filter fun f =>
    f ≠ .noRex2 || refusesRex2 mnemonic

theorem source_of_separateFilters {mnemonic : Text} {attributes : Attributes} {f : Filter}
    (h : f ∈ separateFilters mnemonic attributes) :
    ∃ a ∈ attributes, Filter.ofAttribute? a = some f := by
  obtain ⟨given, _⟩ := List.mem_filter.1 h
  exact List.mem_filterMap.1 given

/-- The filter of an attribute is there with it; only REX2 needs more than its attribute. -/
theorem mem_separateFilters {mnemonic : Text} {attributes : Attributes} {a : Attribute}
    {f : Filter} (gives : Filter.ofAttribute? a = some f) (plain : f ≠ .noRex2) :
    f ∈ separateFilters mnemonic attributes ↔ a ∈ attributes := by
  constructor
  · intro member
    obtain ⟨b, here, given⟩ := source_of_separateFilters member
    obtain rfl := Filter.eq_of_ofAttribute? given gives
    exact here
  · intro member
    refine List.mem_filter.2 ⟨List.mem_filterMap.2 ⟨a, member, gives⟩, ?_⟩
    simp [plain]

theorem source_of_attributeFilters {mnemonic : Text} {attributes : Attributes} {f : Filter}
    (h : f ∈ attributeFilters mnemonic attributes) : f.source = .attribute := by
  rcases mem_joinV.1 h with ⟨member, _⟩ | ⟨rfl, _⟩
  · obtain ⟨a, _, given⟩ := source_of_separateFilters member
    exact Filter.source_of_ofAttribute? given
  · rfl

theorem source_of_exceptionFilters {m : Metadata} {attributes : Attributes} {f : Filter}
    (h : f ∈ exceptionFilters m attributes) : f.source = .exceptionType := by
  have known : ∀ g ∈ [Filter.gatherDistinct, .gatherIndexDistinct, .tilesDistinct,
      .destinationDistinct, .noStackPointer, .pairDistinct], g.source = .exceptionType := by
    decide
  have listed : exceptionFilters m attributes ⊆ [.gatherDistinct, .gatherIndexDistinct,
      .tilesDistinct, .destinationDistinct, .noStackPointer, .pairDistinct] := by
    unfold exceptionFilters
    split
    · split <;> simp
    · split
      · simp
      · simp
      · simp
      · simp
      · split <;> simp
      · simp
  exact known f (listed h)

/-! ### All filters -/

variable {mnemonic : Text} {m : Metadata} {attributes : Attributes} {e : Encoding}
  {os : List Operand}

theorem filter_source {fs : List Filter} {k : FilterSource} (sources : ∀ f ∈ fs, f.source = k)
    (p : FilterSource → Bool) : fs.filter (fun f => p f.source) = if p k then fs else [] := by
  split
  · next kept =>
    rw [List.filter_eq_self]
    intro f member
    rw [sources f member, kept]
  · next dropped =>
    rw [List.filter_eq_nil_iff]
    intro f member
    rwa [sources f member]

/-- Attributes and the exception type give all of their filters or none, when filters are chosen by
source. -/
theorem filter_filtersOf (p : FilterSource → Bool) :
    (filtersOf mnemonic m attributes e os).filter (fun f => p f.source) =
      (if p .attribute then attributeFilters mnemonic attributes else []) ++
        os.filterMap (fun o =>
          (operandFilter? (e.isEvex && m.evexMode.isNone) o).filter fun f => p f.source) ++
        if p .exceptionType then exceptionFilters m attributes else [] := by
  rw [filtersOf, List.filter_append, List.filter_append, List.filter_filterMap,
    filter_source (fun _ => source_of_attributeFilters) p,
    filter_source (fun _ => source_of_exceptionFilters) p]

theorem mem_filtersOf_of_source {f : Filter} (source : f.source = .attribute) :
    f ∈ filtersOf mnemonic m attributes e os ↔ f ∈ attributeFilters mnemonic attributes := by
  unfold filtersOf
  rw [List.mem_append, List.mem_append, or_assoc, or_iff_left]
  rintro (member | member)
  · obtain ⟨o, _, given⟩ := List.mem_filterMap.1 member
    exact source_ne_attribute_of_operandFilter? given source
  · cases source.symm.trans (source_of_exceptionFilters member)

theorem mem_filtersOf_of_attribute {a : Attribute} {f : Filter}
    (gives : Filter.ofAttribute? a = some f)
    (plain : f ∉ [Filter.noRex2, .noV, .noVPrime, .noVAndVPrime]) :
    f ∈ filtersOf mnemonic m attributes e os ↔ a ∈ attributes := by
  simp only [List.mem_cons, List.not_mem_nil, or_false, not_or] at plain
  obtain ⟨notRex2, notV, notVPrime, notBoth⟩ := plain
  have there : f ∈ separateFilters mnemonic attributes ↔ a ∈ attributes :=
    mem_separateFilters gives notRex2
  rw [mem_filtersOf_of_source (Filter.source_of_ofAttribute? gives)]
  change f ∈ joinV (separateFilters mnemonic attributes) ↔ _
  rw [mem_joinV, there]
  simp [notV, notVPrime, notBoth]

/-- The filter that stands for both attributes is there with both, and the filter of one of them
with that one alone. -/
theorem mem_filtersOf_v :
    (.noVAndVPrime ∈ filtersOf mnemonic m attributes e os ↔
        .noV ∈ attributes ∧ .noVPrime ∈ attributes) ∧
      (.noV ∈ filtersOf mnemonic m attributes e os ↔
        .noV ∈ attributes ∧ .noVPrime ∉ attributes) ∧
      (.noVPrime ∈ filtersOf mnemonic m attributes e os ↔
        .noVPrime ∈ attributes ∧ .noV ∉ attributes) := by
  have v : .noV ∈ separateFilters mnemonic attributes ↔ .noV ∈ attributes :=
    mem_separateFilters rfl (by decide)
  have vPrime : .noVPrime ∈ separateFilters mnemonic attributes ↔ .noVPrime ∈ attributes :=
    mem_separateFilters rfl (by decide)
  have joined : .noVAndVPrime ∉ separateFilters mnemonic attributes := by
    intro member
    obtain ⟨a, _, given⟩ := source_of_separateFilters member
    cases a <;> cases given
  rw [mem_filtersOf_of_source rfl, mem_filtersOf_of_source rfl, mem_filtersOf_of_source rfl]
  change (_ ∈ joinV (separateFilters mnemonic attributes) ↔ _) ∧
    (_ ∈ joinV (separateFilters mnemonic attributes) ↔ _) ∧
    (_ ∈ joinV (separateFilters mnemonic attributes) ↔ _)
  by_cases first : .noV ∈ attributes
  · by_cases second : .noVPrime ∈ attributes
    · simp [mem_joinV, v, vPrime, joined, first, second]
    · simp [mem_joinV, v, vPrime, joined, first, second]
  · simp [mem_joinV, v, vPrime, joined, first]

end Instruction

end OpcodeAtlas
