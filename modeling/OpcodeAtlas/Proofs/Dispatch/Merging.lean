import OpcodeAtlas.Proofs.Encoding.Merging
import OpcodeAtlas.Proofs.Specification.Conflicts

/-!
What merging does to grouping. `groupable_merged_iff`: instructions that can be told apart once
their fields are merged can be told apart without merging too. The converse asks for more, as a
merged instruction shares no field with one that is not: the fields that are never merged have to
separate the two kinds.
-/

namespace OpcodeAtlas.Dispatch

open Encoding (mergedFields)

/-! ### One axis -/

/-- The axis separates none of these instructions. -/
def Axis.Joins (a : Axis) (part : List Residual) : Prop :=
  ∀ n, a.Asks part n → ∀ r ∈ part, ∀ s ∈ part, a.select r n = a.select s n

namespace Axis

variable {a : Axis} {part : List Entry} {f g : Entry → Residual}

/-- Only the values of the axis count. -/
theorem Joins.congr (joins : a.Joins (part.map f))
    (same : ∀ e ∈ part, (g e).pending a.field = (f e).pending a.field) : a.Joins (part.map g) := by
  intro n asked
  have askedToo : a.Asks (part.map f) n := by
    intro mandatory
    have enough := asked mandatory
    rw [List.forall_mem_map] at enough ⊢
    intro e member
    rw [← same e member]
    exact enough e member
  have alike := joins n askedToo
  rw [List.forall_mem_map] at alike ⊢
  intro d hd
  have here := alike d hd
  rw [List.forall_mem_map] at here ⊢
  intro e he
  rw [select, select, same d hd, same e he]
  exact here e he

theorem joins_of_absent (mandatory : a.mandatory = true) {e : Entry} (member : e ∈ part)
    (absent : (f e).pending a.field = []) : a.Joins (part.map f) := by
  intro n asked
  have ahead := asked mandatory _ (List.mem_map_of_mem member)
  rw [absent] at ahead
  exact absurd ahead (Nat.not_lt_zero n)

theorem joins_of_single (mandatory : a.mandatory = true)
    (single : ∀ e ∈ part, ((f e).pending a.field).length ≤ 1)
    (same : ∀ d ∈ part, ∀ e ∈ part, a.select (f d) 0 = a.select (f e) 0) :
    a.Joins (part.map f) := by
  intro n asked
  rw [List.forall_mem_map]
  intro d hd
  rw [List.forall_mem_map]
  intro e he
  have ahead := asked mandatory _ (List.mem_map_of_mem hd)
  have few := single d hd
  obtain rfl : n = 0 := by omega
  exact same d hd e he

theorem Joins.select_zero (joins : a.Joins (part.map f))
    (present : ∀ e ∈ part, 0 < ((f e).pending a.field).length) {d e : Entry} (hd : d ∈ part)
    (he : e ∈ part) : a.select (f d) 0 = a.select (f e) 0 := by
  have asked : a.Asks (part.map f) 0 := fun _ => List.forall_mem_map.2 present
  exact joins 0 asked _ (List.mem_map_of_mem hd) _ (List.mem_map_of_mem he)

end Axis

theorem Inseparable.of_joins {axes : List Axis} {part : List Entry} {f g : Entry → Residual}
    (inseparable : Inseparable axes (part.map f))
    (each : ∀ a ∈ axes, a.Joins (part.map f) → a.Joins (part.map g)) :
    Inseparable axes (part.map g) := by
  have several := inseparable.1
  rw [List.length_map] at several
  exact ⟨by rwa [List.length_map], fun a ha => each a ha (inseparable.2 a ha)⟩

/-! ### Plain instructions -/

def Entry.plain (e : Entry) : Entry := { e with instruction := e.instruction.plain }

/-- The axes that merging leaves alone. -/
def unmergedAxes : List Axis :=
  vectorAxes.filter fun a => a.field ≠ .lpdf ∧ a.field ∉ mergedFields

theorem mandatory_vectorAxes : ∀ a ∈ vectorAxes, a.mandatory = true := by decide

theorem vectorAxes_cases {a : Axis} (ha : a ∈ vectorAxes) :
    a ∈ unmergedAxes ∨ a = ⟨.lpdf, 64, true⟩ ∨ a.field ∈ mergedFields := by
  revert a
  decide

theorem field_of_unmergedAxes {a : Axis} (ha : a ∈ unmergedAxes) :
    a ∈ vectorAxes ∧ a.field ≠ .lpdf ∧ a.field ∉ mergedFields := by
  obtain ⟨listed, apart⟩ := List.mem_filter.1 ha
  exact ⟨listed, of_decide_eq_true apart⟩

section Values

variable {e : Entry}

theorem pending_plain_of_other (unmerged : e.instruction.Unmerged) {f : Field} (other : f ≠ .lpdf)
    (apart : f ∉ mergedFields) :
    (Residual.ofEntry e).pending f = (Residual.ofEntry e.plain).pending f := by
  change e.instruction.encoding.values f = e.instruction.plainEncoding.values f
  rcases unmerged.cases with ⟨_, same⟩ | ⟨_, n, _, values⟩
  · rw [same]
  · rw [values, if_neg other, if_neg apart]

theorem pending_plain_of_unmerged (unmerged : e.instruction.Unmerged)
    (separate : ¬ e.instruction.IsMerged) (f : Field) :
    (Residual.ofEntry e).pending f = (Residual.ofEntry e.plain).pending f := by
  change e.instruction.encoding.values f = e.instruction.plainEncoding.values f
  rcases unmerged.cases with ⟨_, same⟩ | ⟨merged, _⟩
  · rw [same]
  · exact absurd merged separate

theorem pending_lpdf_of_unmerged (unmerged : e.instruction.Unmerged)
    (separate : ¬ e.instruction.IsMerged) : (Residual.ofEntry e).pending .lpdf = [] :=
  (pending_plain_of_unmerged unmerged separate .lpdf).trans unmerged.blank

theorem pending_of_merged (unmerged : e.instruction.Unmerged) (merged : e.instruction.IsMerged)
    {f : Field} (member : f ∈ mergedFields) : (Residual.ofEntry e).pending f = [] := by
  change e.instruction.encoding.values f = []
  have apart : ∀ f ∈ mergedFields, f ≠ .lpdf := by decide
  rcases unmerged.cases with ⟨separate, _⟩ | ⟨_, n, _, values⟩
  · exact absurd merged separate
  · rw [values, if_neg (apart f member), if_pos member]

theorem select_lpdf_of_merged (unmerged : e.instruction.Unmerged)
    (merged : e.instruction.IsMerged) :
    ∃ n, e.instruction.plainEncoding.lpdf? = some n ∧
      ((Residual.ofEntry e).pending .lpdf).length = 1 ∧
      Axis.select ⟨.lpdf, 64, true⟩ (.ofEntry e) 0 = some n := by
  have indices : ∀ n < 64, childIndex? (Text.hex n) = some n := by decide
  rcases unmerged.cases with ⟨separate, _⟩ | ⟨_, n, number, values⟩
  · exact absurd merged separate
  · have pending : (Residual.ofEntry e).pending .lpdf = [Text.hex n] :=
      (values .lpdf).trans (if_pos rfl)
    refine ⟨n, number, congrArg List.length pending, ?_⟩
    exact (Axis.select_zero_of_cons pending).trans
      (indices n (Encoding.lpdf?_lt unmerged.fits number))

theorem select_plain {a : Axis} {n : Nat}
    (first : e.instruction.plainEncoding.firstNumber? a.field = some n) :
    0 < ((Residual.ofEntry e.plain).pending a.field).length ∧
      a.select (.ofEntry e.plain) 0 = some n := by
  obtain ⟨value, rest, shape, index⟩ := Encoding.childIndex?_of_firstNumber? first
  have pending : (Residual.ofEntry e.plain).pending a.field = value :: rest := shape
  exact ⟨pending ▸ Nat.zero_lt_succ _, (Axis.select_zero_of_cons pending).trans index⟩

end Values

/-! ### Instructions that no axis separates -/

theorem exists_firstNumber? {e : Entry} (unmerged : e.instruction.Unmerged)
    (merged : e.instruction.IsMerged) {f : Field} (member : f ∈ mergedFields) :
    ∃ n, e.instruction.plainEncoding.firstNumber? f = some n := by
  obtain ⟨n, number, _⟩ := select_lpdf_of_merged unmerged merged
  obtain ⟨l, _, p, _, x, _, y, _, hl, hp, hx, hy, _⟩ :=
    Encoding.numbers_of_lpdf? unmerged.fits number
  simp only [mergedFields, List.mem_cons, List.not_mem_nil, or_false] at member
  rcases member with rfl | rfl | rfl | rfl
  · exact ⟨l, hl⟩
  · exact ⟨p, hp⟩
  · exact ⟨x, hx⟩
  · exact ⟨y, hy⟩

theorem exists_axis_of_merged {f : Field} (member : f ∈ mergedFields) :
    ∃ a ∈ vectorAxes, a.field = f := by
  revert f
  decide

theorem unmergedAxes_inseparable {part : List Residual}
    (inseparable : Inseparable vectorAxes part) : Inseparable unmergedAxes part :=
  ⟨inseparable.1, fun a ha => inseparable.2 a (field_of_unmergedAxes ha).1⟩

section Parts

variable {part : List Entry} (unmerged : ∀ e ∈ part, e.instruction.Unmerged)
include unmerged

theorem lpdf?_eq_of_plain (all : ∀ e ∈ part, e.instruction.IsMerged)
    (inseparable : Inseparable vectorAxes (part.map fun e => .ofEntry e.plain)) {d e : Entry}
    (hd : d ∈ part) (he : e ∈ part) :
    d.instruction.plainEncoding.lpdf? = e.instruction.plainEncoding.lpdf? := by
  refine Encoding.lpdf?_congr fun f member => ?_
  obtain ⟨a, ha, rfl⟩ := exists_axis_of_merged member
  have numbers := fun e he => exists_firstNumber? (unmerged e he) (all e he) member
  have present : ∀ e ∈ part, 0 < ((Residual.ofEntry e.plain).pending a.field).length := by
    intro e he
    obtain ⟨n, first⟩ := numbers e he
    exact (select_plain first).1
  have alike := Axis.Joins.select_zero (inseparable.2 a ha) present hd he
  obtain ⟨m, first⟩ := numbers d hd
  obtain ⟨n, second⟩ := numbers e he
  rw [(select_plain first).2, (select_plain second).2] at alike
  rw [first, second, alike]

/-- Merging separates nothing. -/
theorem inseparable_of_plain
    (inseparable : Inseparable vectorAxes (part.map fun e => .ofEntry e.plain)) :
    Inseparable vectorAxes (part.map Residual.ofEntry) := by
  refine inseparable.of_joins fun a ha joins => ?_
  rcases vectorAxes_cases ha with kept | rfl | member
  · obtain ⟨_, other, apart⟩ := field_of_unmergedAxes kept
    exact joins.congr fun e he => pending_plain_of_other (unmerged e he) other apart
  · by_cases all : ∀ e ∈ part, e.instruction.IsMerged
    · refine Axis.joins_of_single rfl (fun e he => ?_) fun d hd e he => ?_
      · obtain ⟨_, _, one, _⟩ := select_lpdf_of_merged (unmerged e he) (all e he)
        exact Nat.le_of_eq one
      · obtain ⟨m, first, _, here⟩ := select_lpdf_of_merged (unmerged d hd) (all d hd)
        obtain ⟨n, second, _, there⟩ := select_lpdf_of_merged (unmerged e he) (all e he)
        rw [here, there, ← first, ← second, lpdf?_eq_of_plain unmerged all inseparable hd he]
    · simp only [not_forall] at all
      obtain ⟨e, he, separate⟩ := all
      exact Axis.joins_of_absent rfl he
        (pending_lpdf_of_unmerged (unmerged e he) separate)
  · by_cases none : ∀ e ∈ part, ¬ e.instruction.IsMerged
    · exact joins.congr fun e he => pending_plain_of_unmerged (unmerged e he) (none e he) a.field
    · simp only [not_forall, not_not] at none
      obtain ⟨e, he, merged⟩ := none
      exact Axis.joins_of_absent (mandatory_vectorAxes a ha) he
        (pending_of_merged (unmerged e he) merged member)

/-- Of instructions that are all merged, merging loses only what follows the first value. -/
theorem plain_inseparable_of_merged (all : ∀ e ∈ part, e.instruction.IsMerged)
    (single : ∀ e ∈ part, ∀ f ∈ mergedFields, (e.instruction.plainEncoding.values f).length ≤ 1)
    (inseparable : Inseparable vectorAxes (part.map Residual.ofEntry)) :
    Inseparable vectorAxes (part.map fun e => .ofEntry e.plain) := by
  refine inseparable.of_joins fun a ha joins => ?_
  rcases vectorAxes_cases ha with kept | rfl | member
  · obtain ⟨_, other, apart⟩ := field_of_unmergedAxes kept
    exact joins.congr fun e he => (pending_plain_of_other (unmerged e he) other apart).symm
  · have several := inseparable.1
    rw [List.length_map] at several
    obtain ⟨e, he⟩ := List.exists_mem_of_length_pos (show 0 < part.length by omega)
    exact Axis.joins_of_absent rfl he (unmerged e he).blank
  · refine Axis.joins_of_single (mandatory_vectorAxes a ha)
      (fun e he => single e he a.field member) fun d hd e he => ?_
    -- One child on the merged axis means one number, and that means one value in every field.
    obtain ⟨m, first, _, here⟩ := select_lpdf_of_merged (unmerged d hd) (all d hd)
    obtain ⟨n, second, _, there⟩ := select_lpdf_of_merged (unmerged e he) (all e he)
    have present : ∀ e ∈ part, 0 < ((Residual.ofEntry e).pending .lpdf).length := by
      intro e he
      obtain ⟨_, _, one, _⟩ := select_lpdf_of_merged (unmerged e he) (all e he)
      exact one ▸ Nat.zero_lt_one
    have alike := Axis.Joins.select_zero (inseparable.2 ⟨.lpdf, 64, true⟩ (by decide)) present hd he
    obtain rfl : m = n := Option.some.inj (here.symm.trans (alike.trans there))
    obtain ⟨v, value⟩ := exists_firstNumber? (unmerged d hd) (all d hd) member
    have again := Encoding.firstNumber?_eq_of_lpdf?_eq (unmerged d hd).fits (unmerged e he).fits
      first second member
    rw [(select_plain value).2, (select_plain (again.symm.trans value)).2]

theorem plain_inseparable_of_unmerged (none : ∀ e ∈ part, ¬ e.instruction.IsMerged)
    (inseparable : Inseparable vectorAxes (part.map Residual.ofEntry)) :
    Inseparable vectorAxes (part.map fun e => .ofEntry e.plain) := by
  refine inseparable.of_joins fun a ha joins => ?_
  exact joins.congr fun e he => (pending_plain_of_unmerged (unmerged e he) (none e he) a.field).symm

/-- A merged instruction and one that is not share none of the fields that merging is about, so only
the other fields separate them. -/
theorem inseparable_of_mixed {d e : Entry} (hd : d ∈ part) (merged : d.instruction.IsMerged)
    (he : e ∈ part) (separate : ¬ e.instruction.IsMerged)
    (inseparable : Inseparable unmergedAxes (part.map Residual.ofEntry)) :
    Inseparable vectorAxes (part.map Residual.ofEntry) := by
  refine ⟨inseparable.1, fun a ha => ?_⟩
  rcases vectorAxes_cases ha with kept | rfl | member
  · exact inseparable.2 a kept
  · exact Axis.joins_of_absent rfl he (pending_lpdf_of_unmerged (unmerged e he) separate)
  · exact Axis.joins_of_absent (mandatory_vectorAxes a ha) hd
      (pending_of_merged (unmerged d hd) merged member)

end Parts

/-! ### Grouping -/

theorem acceptedBy_of_allFit {e : Entry} (fits : Encoding.AllFit e.instruction.encoding) :
    AcceptedBy vectorAxes (.ofEntry e) :=
  fun a ha value ahead => fits a.field value ahead a (List.mem_append_right _ ha) rfl

theorem groupable_iff_of_allFit {entries : List Entry}
    (fits : ∀ e ∈ entries, Encoding.AllFit e.instruction.encoding) :
    Groupable vectorAxes entries ↔ ∀ part : List Entry, part.Sublist entries →
      ¬ Inseparable vectorAxes (part.map Residual.ofEntry) :=
  groupable_iff_separable (distinct_fields .evex) List.mem_cons_self rfl
    fun e he => acceptedBy_of_allFit (fits e he)

theorem groupable_plain_iff {entries : List Entry}
    (unmerged : ∀ e ∈ entries, e.instruction.Unmerged) :
    Groupable vectorAxes (entries.map Entry.plain) ↔ ∀ part : List Entry, part.Sublist entries →
      ¬ Inseparable vectorAxes (part.map fun e => .ofEntry e.plain) := by
  rw [groupable_iff_of_allFit (List.forall_mem_map.2 fun e he => (unmerged e he).fits)]
  constructor
  · intro separable part within
    have apart := separable _ (within.map Entry.plain)
    rwa [List.map_map] at apart
  · intro separable part within
    obtain ⟨sources, chosen, rfl⟩ := List.sublist_map_iff.1 within
    rw [List.map_map]
    exact separable sources chosen

/-- Whatever can be grouped with merged fields can be grouped without. Where no merged instruction
has several values in a merged field, the converse holds exactly if the fields that are never merged
separate merged instructions from the others. -/
theorem groupable_merged_iff {entries : List Entry}
    (built : ∀ e ∈ entries, ∃ templates p, Instruction.build templates p = .ok e.instruction) :
    (Groupable vectorAxes entries → Groupable vectorAxes (entries.map Entry.plain)) ∧
      ((∀ e ∈ entries, e.instruction.IsMerged → ∀ f ∈ mergedFields,
          (e.instruction.plainEncoding.values f).length ≤ 1) →
        (Groupable vectorAxes entries ↔
          Groupable vectorAxes (entries.map Entry.plain) ∧
            ∀ part : List Entry, part.Sublist entries →
              Inseparable unmergedAxes (part.map Residual.ofEntry) →
                (∀ e ∈ part, e.instruction.IsMerged) ∨ ∀ e ∈ part, ¬ e.instruction.IsMerged)) := by
  have unmerged : ∀ e ∈ entries, e.instruction.Unmerged := by
    intro e he
    obtain ⟨templates, p, made⟩ := built e he
    exact Instruction.unmerged_of_build made
  have merged_iff := groupable_iff_of_allFit fun e he => (unmerged e he).fits_encoding
  rw [merged_iff, groupable_plain_iff unmerged]
  have weaker : (∀ part : List Entry, part.Sublist entries →
        ¬ Inseparable vectorAxes (part.map Residual.ofEntry)) →
      ∀ part : List Entry, part.Sublist entries →
        ¬ Inseparable vectorAxes (part.map fun e => .ofEntry e.plain) := by
    intro separable part within inseparable
    exact separable part within
      (inseparable_of_plain (fun e he => unmerged e (within.subset he)) inseparable)
  refine ⟨weaker, fun single => ⟨fun separable => ⟨weaker separable, ?_⟩, ?_⟩⟩
  · intro part within inseparable
    by_contra mixed
    simp only [not_or, not_forall, not_not] at mixed
    obtain ⟨⟨e, he, separate⟩, d, hd, merged⟩ := mixed
    exact separable part within (inseparable_of_mixed
      (fun e he => unmerged e (within.subset he)) hd merged he separate inseparable)
  · rintro ⟨plain, uniform⟩ part within inseparable
    have inside : ∀ e ∈ part, e.instruction.Unmerged := fun e he => unmerged e (within.subset he)
    rcases uniform part within (unmergedAxes_inseparable inseparable) with all | none
    · have few : ∀ e ∈ part, ∀ f ∈ mergedFields,
          (e.instruction.plainEncoding.values f).length ≤ 1 :=
        fun e he => single e (within.subset he) (all e he)
      exact plain part within (plain_inseparable_of_merged inside all few inseparable)
    · exact plain part within (plain_inseparable_of_unmerged inside none inseparable)

theorem built_of_number {lines : List String} :
    ∀ e ∈ Entry.number (instructionsOf lines),
      ∃ templates p, Instruction.build templates p = .ok e.instruction := by
  intro e he
  have built := Specification.built_of_instructionsOf .standard lines
  exact built e.instruction (Specification.instruction_mem_of_mem_entries he)

/-- Two merged instructions of one opcode and one of another opcode that is not merged. -/
def mergedPair : List Entry :=
  Entry.number (instructionsOf
    ["ADD ; ; ; evex m:4 l:0 p:0 nd:1 nf:0 0x01 /r ; v:legacy",
      "SUB ; ; ; evex m:4 l:0 p:0 nd:1 nf:1 0x01 /r ; v:legacy",
      "XOR ; ; ; evex m:4 l:0 p:0 nd:1 0x31 /r ; v:legacy"])

theorem groupable_merged_iff_mergedPair :
    (∀ e ∈ mergedPair, ∃ templates p, Instruction.build templates p = .ok e.instruction) ∧
      (∀ e ∈ mergedPair, e.instruction.IsMerged → ∀ f ∈ mergedFields,
        (e.instruction.plainEncoding.values f).length ≤ 1) ∧
      mergedPair.map (fun e => decide e.instruction.IsMerged) = [true, true, false] ∧
      Groupable vectorAxes mergedPair ∧ Groupable vectorAxes (mergedPair.map Entry.plain) ∧
      ∀ part : List Entry, part.Sublist mergedPair →
        Inseparable unmergedAxes (part.map Residual.ofEntry) →
          (∀ e ∈ part, e.instruction.IsMerged) ∨ ∀ e ∈ part, ¬ e.instruction.IsMerged := by
  have built : ∀ e ∈ mergedPair, ∃ templates p,
      Instruction.build templates p = .ok e.instruction := built_of_number
  obtain ⟨single, kinds⟩ : (∀ e ∈ mergedPair, e.instruction.IsMerged → ∀ f ∈ mergedFields,
      (e.instruction.plainEncoding.values f).length ≤ 1) ∧
      mergedPair.map (fun e => decide e.instruction.IsMerged) = [true, true, false] := by
    decide +kernel
  have grouped : Groupable vectorAxes mergedPair := Traversal.exists_of_isOk (by decide +kernel)
  obtain ⟨weaker, converse⟩ := groupable_merged_iff built
  exact ⟨built, single, kinds, grouped, weaker grouped,
    ((converse single).1 grouped).2⟩

/-- Only the first of these writes all four merged fields. -/
def mixedPair : List Entry :=
  Entry.number (instructionsOf
    ["ADD ; ; ; evex m:4 l:0 p:1 nd:1 nf:1 0x00 /r ; v:legacy",
      "SUB ; ; ; evex m:4 l:0 p:0 nd:1 0x00 /r ; v:legacy"])

/-- Both are merged, and only the second length tells them apart. -/
def repeatedPair : List Entry :=
  Entry.number (instructionsOf
    ["ADD ; ; ; evex m:4 l:0 l:1 p:0 nd:1 nf:0 0x01 /r ; v:legacy",
      "SUB ; ; ; evex m:4 l:0 l:2 p:0 nd:1 nf:0 0x01 /r ; v:legacy"])

theorem confused_of_isOk {entries : List Entry}
    (fails : (group vectorAxes entries).result.isOk = false)
    (plain : (group vectorAxes (entries.map Entry.plain)).result.isOk = true) :
    ¬ (Groupable vectorAxes entries ↔ Groupable vectorAxes (entries.map Entry.plain)) := by
  intro same
  obtain ⟨tree, grouped⟩ := same.2 (Traversal.exists_of_isOk plain)
  rw [grouped] at fails
  cases fails

/-- Merging can leave instructions alike that were not: it takes the prefix away from one of two, or
a second value away from both. -/
theorem merging_can_confuse :
    (¬ ∀ entries : List Entry,
      (∀ e ∈ entries, e.instruction.encoding.isEvex = true ∧
        ∃ templates p, Instruction.build templates p = .ok e.instruction) →
      (Groupable vectorAxes entries ↔ Groupable vectorAxes (entries.map Entry.plain))) ∧
    ¬ ∀ entries : List Entry,
      (∀ e ∈ entries, e.instruction.encoding.isEvex = true ∧ e.instruction.IsMerged ∧
        ∃ templates p, Instruction.build templates p = .ok e.instruction) →
      (Groupable vectorAxes entries ↔ Groupable vectorAxes (entries.map Entry.plain)) := by
  constructor
  · intro every
    have evex : ∀ e ∈ mixedPair, e.instruction.encoding.isEvex = true := by decide +kernel
    have mixed := every mixedPair fun e he => ⟨evex e he, built_of_number e he⟩
    exact confused_of_isOk (by decide +kernel) (by decide +kernel) mixed
  · intro every
    have merged : ∀ e ∈ repeatedPair,
        e.instruction.encoding.isEvex = true ∧ e.instruction.IsMerged := by
      decide +kernel
    have repeated := every repeatedPair fun e he =>
      ⟨(merged e he).1, (merged e he).2, built_of_number e he⟩
    exact confused_of_isOk (by decide +kernel) (by decide +kernel) repeated

end OpcodeAtlas.Dispatch
