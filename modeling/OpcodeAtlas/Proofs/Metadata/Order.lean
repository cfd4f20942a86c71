import Mathlib.Data.List.Nodup
import Mathlib.Data.List.Rotate
import OpcodeAtlas.Instruction.Build
import OpcodeAtlas.Proofs.Traversal

/-!
The order of metadata entries. Every key but one writes a place of its own, so entries with distinct
keys can be recorded in any order; the feature identifier alone is written by two keys and depends
on which of them comes last. `build_metadata_perm` says what that means for an instruction.
-/

namespace OpcodeAtlas

/-- The key of an entry that can be read. -/
def MetaEntry.key? (entry : Text) : Option MetaKey := (parse entry).toOption.map key

/-- The feature that an entry names: its own identifier, or the instruction set. -/
def MetaEntry.namedFeature? (e : MetaEntry) : Option Text :=
  match e.key with
  | .instructionSet | .featureId => some e.value
  | _ => none

theorem MetaEntry.key?_eq_some {entry : Text} {e : MetaEntry} (h : parse entry = .ok e) :
    key? entry = some e.key := by
  rw [key?, h]
  rfl

namespace Metadata

/-! ### Places -/

/-- Both hold the same in the place of a key. The feature identifier belongs to two keys and is left
out. -/
def SameOn (m n : Metadata) : MetaKey → Prop
  | .instructionClass => m.instructionClass = n.instructionClass
  | .category => m.category = n.category
  | .instructionSet => m.instructionSet = n.instructionSet
  | .featureId => True
  | .attributes => m.attributes = n.attributes
  | .prefixes => m.prefixes = n.prefixes
  | .access => m.access = n.access
  | .tuple => m.tuple = n.tuple
  | .evexMode => m.evexMode = n.evexMode
  | .exception => m.exception = n.exception
  | .flags => m.flags = n.flags
  | .fpuFlags => m.fpuFlags = n.fpuFlags
  | .modes => m.modes = n.modes
  | .simdExceptions => m.simdExceptions = n.simdExceptions

theorem SameOn.symm {m n : Metadata} {k : MetaKey} (h : m.SameOn n k) : n.SameOn m k := by
  cases k with
  | featureId => trivial
  | _ => exact Eq.symm h

theorem SameOn.trans {m n r : Metadata} {k : MetaKey} (first : m.SameOn n k)
    (second : n.SameOn r k) : m.SameOn r k := by
  cases k with
  | featureId => trivial
  | _ => exact Eq.trans first second

theorem eq_of_sameOn {m n : Metadata} (same : ∀ k, m.SameOn n k) :
    n = { m with featureId := n.featureId } := by
  cases m
  cases n
  simp only [Metadata.mk.injEq, true_and]
  exact ⟨(same .instructionClass).symm, (same .category).symm, (same .instructionSet).symm,
    (same .attributes).symm, (same .prefixes).symm, (same .access).symm, (same .tuple).symm,
    (same .evexMode).symm, (same .exception).symm, (same .flags).symm, (same .fpuFlags).symm,
    (same .simdExceptions).symm, (same .modes).symm⟩

/-! ### One entry -/

variable {templates : Templates}

/-- An entry writes the place of its own key only. -/
theorem sameOn_of_record {m n : Metadata} {e : MetaEntry} (h : m.record templates e = .ok n)
    {k : MetaKey} (other : k ≠ e.key) : m.SameOn n k := by
  obtain ⟨key, value⟩ := e
  cases key with
  | instructionClass | category | instructionSet | featureId =>
    cases h
    cases k <;> trivial
  | _ =>
    obtain ⟨_, _, made⟩ := Traversal.bind_eq_ok_iff.1 h
    cases made
    cases k <;> trivial

/-- What an entry writes depends on the place of its own key only. -/
theorem exists_record_of_sameOn {m n r : Metadata} {e : MetaEntry} (same : m.SameOn n e.key)
    (h : m.record templates e = .ok r) :
    ∃ s, n.record templates e = .ok s ∧ r.SameOn s e.key := by
  obtain ⟨key, value⟩ := e
  cases key with
  | featureId =>
    cases h
    exact ⟨_, rfl, trivial⟩
  | instructionClass | category | instructionSet =>
    cases h
    exact ⟨_, rfl, rfl⟩
  | tuple | evexMode | exception | modes =>
    obtain ⟨v, read, made⟩ := Traversal.bind_eq_ok_iff.1 h
    cases made
    exact ⟨_, Traversal.bind_eq_ok_iff.2 ⟨v, read, rfl⟩, rfl⟩
  | _ =>
    obtain ⟨v, read, made⟩ := Traversal.bind_eq_ok_iff.1 h
    cases made
    rw [show _ = _ from same] at read
    exact ⟨_, Traversal.bind_eq_ok_iff.2 ⟨v, read, rfl⟩, rfl⟩

theorem featureId_of_record {m n : Metadata} {e : MetaEntry} (h : m.record templates e = .ok n) :
    n.featureId = e.namedFeature?.getD m.featureId := by
  obtain ⟨key, value⟩ := e
  cases key with
  | instructionClass | category | instructionSet | featureId =>
    cases h
    rfl
  | _ =>
    obtain ⟨_, _, made⟩ := Traversal.bind_eq_ok_iff.1 h
    cases made
    rfl

/-! ### Several entries -/

def DistinctKeys (entries : List Text) : Prop := (entries.filterMap MetaEntry.key?).Nodup

instance (entries : List Text) : Decidable (DistinctKeys entries) :=
  inferInstanceAs (Decidable (entries.filterMap MetaEntry.key?).Nodup)

theorem DistinctKeys.perm {entries others : List Text} (distinct : DistinctKeys entries)
    (perm : entries.Perm others) : DistinctKeys others :=
  (perm.filterMap MetaEntry.key?).nodup_iff.1 distinct

theorem distinctKeys_cons_iff {entry : Text} {rest : List Text} {e : MetaEntry}
    (read : MetaEntry.parse entry = .ok e) :
    DistinctKeys (entry :: rest) ↔
      (∀ other ∈ rest, ∀ d, MetaEntry.parse other = .ok d → d.key ≠ e.key) ∧
        DistinctKeys rest := by
  unfold DistinctKeys
  rw [List.filterMap_cons_some (MetaEntry.key?_eq_some read), List.nodup_cons, List.mem_filterMap]
  refine and_congr_left fun _ => ?_
  constructor
  · intro fresh other member d parsed same
    exact fresh ⟨other, member, same ▸ MetaEntry.key?_eq_some parsed⟩
  · rintro fresh ⟨other, member, key⟩
    unfold MetaEntry.key? at key
    cases parsed : MetaEntry.parse other with
    | error error =>
      rw [parsed] at key
      cases key
    | ok d =>
      rw [parsed] at key
      exact fresh other member d parsed (Option.some.inj key)

theorem recordAll_cons {m : Metadata} {entry : Text} {rest : List Text} {n : Metadata} :
    m.recordAll templates (entry :: rest) = .ok n ↔
      ∃ e r, MetaEntry.parse entry = .ok e ∧ m.record templates e = .ok r ∧
        r.recordAll templates rest = .ok n := by
  simp only [recordAll, List.foldlM_cons, Traversal.bind_eq_ok_iff]
  constructor
  · rintro ⟨r, ⟨e, read, recorded⟩, others⟩
    exact ⟨e, r, read, recorded, others⟩
  · rintro ⟨e, r, read, recorded, others⟩
    exact ⟨r, ⟨e, read, recorded⟩, others⟩

theorem recordAll_append (m : Metadata) (entries others : List Text) :
    m.recordAll templates (entries ++ others) =
      m.recordAll templates entries >>= fun n => n.recordAll templates others :=
  List.foldlM_append

/-- The place of a key that no entry has is left as it was. -/
theorem sameOn_of_recordAll {m n : Metadata} {entries : List Text} {k : MetaKey}
    (absent : ∀ entry ∈ entries, MetaEntry.key? entry ≠ some k)
    (h : m.recordAll templates entries = .ok n) : m.SameOn n k := by
  induction entries generalizing m with
  | nil =>
    cases h
    cases k <;> trivial
  | cons entry rest ih =>
    obtain ⟨here, later⟩ := List.forall_mem_cons.1 absent
    obtain ⟨e, r, read, recorded, others⟩ := recordAll_cons.1 h
    have other : k ≠ e.key := by
      rintro rfl
      exact here (MetaEntry.key?_eq_some read)
    exact (sameOn_of_record recorded other).trans (ih later others)

/-- Each entry can be recorded by itself. -/
def EachRecords (templates : Templates) (m : Metadata) (entries : List Text) : Prop :=
  ∀ entry ∈ entries, ∃ e r, MetaEntry.parse entry = .ok e ∧ m.record templates e = .ok r

theorem exists_recordAll {m : Metadata} {entries : List Text} (distinct : DistinctKeys entries)
    (each : EachRecords templates m entries) : ∃ n, m.recordAll templates entries = .ok n := by
  induction entries generalizing m with
  | nil => exact ⟨m, rfl⟩
  | cons entry rest ih =>
    obtain ⟨⟨e, r, read, recorded⟩, others⟩ := List.forall_mem_cons.1 each
    obtain ⟨fresh, distinct⟩ := (distinctKeys_cons_iff read).1 distinct
    -- The first entry leaves alone whatever the others look at.
    have still : EachRecords templates r rest := by
      intro other member
      obtain ⟨d, s, parsed, alone⟩ := others other member
      have same := sameOn_of_record recorded (fresh other member d parsed)
      obtain ⟨s, after, _⟩ := exists_record_of_sameOn same alone
      exact ⟨d, s, parsed, after⟩
    obtain ⟨n, all⟩ := ih distinct still
    exact ⟨n, recordAll_cons.2 ⟨e, r, read, recorded, all⟩⟩

/-- What distinct entries make of metadata, place by place: what the entry with the key of the place
makes of it alone, or nothing. -/
structure Records (templates : Templates) (m : Metadata) (entries : List Text) (n : Metadata) :
    Prop where
  written : ∀ entry ∈ entries, ∃ e r, MetaEntry.parse entry = .ok e ∧
    m.record templates e = .ok r ∧ r.SameOn n e.key
  kept : ∀ k, (∀ entry ∈ entries, ∀ e, MetaEntry.parse entry = .ok e → e.key ≠ k) → m.SameOn n k

theorem records_of_recordAll {m n : Metadata} {entries : List Text}
    (distinct : DistinctKeys entries) (h : m.recordAll templates entries = .ok n) :
    Records templates m entries n := by
  induction entries generalizing m with
  | nil =>
    cases h
    refine ⟨fun _ member => absurd member List.not_mem_nil, fun k _ => ?_⟩
    cases k <;> trivial
  | cons entry rest ih =>
    obtain ⟨e, r, read, recorded, others⟩ := recordAll_cons.1 h
    obtain ⟨fresh, distinct⟩ := (distinctKeys_cons_iff read).1 distinct
    have below := ih distinct others
    constructor
    · rw [List.forall_mem_cons]
      refine ⟨⟨e, r, read, recorded, below.kept e.key fresh⟩, ?_⟩
      intro other member
      obtain ⟨d, s, parsed, after, same⟩ := below.written other member
      have before := (sameOn_of_record recorded (fresh other member d parsed)).symm
      obtain ⟨t, alone, alike⟩ := exists_record_of_sameOn before after
      exact ⟨d, t, parsed, alone, alike.symm.trans same⟩
    · intro k absent
      obtain ⟨here, later⟩ := List.forall_mem_cons.1 absent
      exact (sameOn_of_record recorded (Ne.symm (here e read))).trans (below.kept k later)

theorem Records.sameOn {m n r : Metadata} {entries others : List Text}
    (first : Records templates m entries n) (second : Records templates m others r)
    (perm : entries.Perm others) (k : MetaKey) : n.SameOn r k := by
  by_cases absent : ∀ entry ∈ entries, ∀ e, MetaEntry.parse entry = .ok e → e.key ≠ k
  · have absentToo : ∀ entry ∈ others, ∀ e, MetaEntry.parse entry = .ok e → e.key ≠ k :=
      fun entry member => absent entry (perm.mem_iff.2 member)
    exact (first.kept k absent).symm.trans (second.kept k absentToo)
  · push Not at absent
    obtain ⟨entry, member, e, read, rfl⟩ := absent
    obtain ⟨c, s, readFirst, alone, here⟩ := first.written entry member
    obtain ⟨d, t, readSecond, again, there⟩ := second.written entry (perm.mem_iff.1 member)
    obtain rfl : e = c := Except.ok.inj (read.symm.trans readFirst)
    obtain rfl : e = d := Except.ok.inj (read.symm.trans readSecond)
    obtain rfl : s = t := Except.ok.inj (alone.symm.trans again)
    exact here.symm.trans there

/-! ### The feature identifier -/

/-- The feature that the last entry naming one names. -/
def namedFeature? (entries : List Text) : Option Text :=
  (entries.filterMap fun entry =>
    (MetaEntry.parse entry).toOption.bind MetaEntry.namedFeature?).getLast?

theorem featureId_of_recordAll {m n : Metadata} {entries : List Text}
    (h : m.recordAll templates entries = .ok n) :
    n.featureId = (namedFeature? entries).getD m.featureId := by
  induction entries generalizing m with
  | nil =>
    cases h
    rfl
  | cons entry rest ih =>
    obtain ⟨e, r, read, recorded, others⟩ := recordAll_cons.1 h
    have here := featureId_of_record recorded
    rw [ih others, here]
    unfold namedFeature?
    rw [List.filterMap_cons, read]
    cases named : e.namedFeature? with
    | none => simp [Except.toOption, named]
    | some name => simp [Except.toOption, named, List.getLast?_cons]

theorem namedFeature?_eq_none_perm {entries others : List Text} (perm : entries.Perm others) :
    namedFeature? entries = none ↔ namedFeature? others = none := by
  simp only [namedFeature?, List.getLast?_eq_none_iff]
  rw [← List.length_eq_zero_iff, ← List.length_eq_zero_iff, (perm.filterMap _).length_eq]

theorem named_eq_iff {entries others : List Text} (perm : entries.Perm others) (name : Text) :
    (namedFeature? entries).getD name = (namedFeature? others).getD name ↔
      namedFeature? entries = namedFeature? others := by
  have together := namedFeature?_eq_none_perm perm
  cases first : namedFeature? entries with
  | none => simp [together.1 first]
  | some a =>
    cases second : namedFeature? others with
    | none => cases first.symm.trans (together.2 second)
    | some b => simp

/-! ### Two orders -/

/-- Metadata read in two orders are accepted together. They are the same up to the feature
identifier, which is the same exactly if the same feature is named last. -/
theorem read_perm {mnemonic : Text} {entries others : List Text} (distinct : DistinctKeys entries)
    (perm : entries.Perm others) :
    Traversal.Agree
      (fun m n => n = { m with featureId := n.featureId } ∧
        (m.featureId = n.featureId ↔ namedFeature? entries = namedFeature? others))
      (fun _ _ => True) (read templates mnemonic entries) (read templates mnemonic others) := by
  have accepted : ∀ {some others : List Text} {m : Metadata}, DistinctKeys some →
      some.Perm others → read templates mnemonic some = .ok m →
      ∃ n, read templates mnemonic others = .ok n := by
    intro some others m distinct perm h
    refine exists_recordAll (distinct.perm perm) ?_
    intro entry member
    obtain ⟨e, r, read, alone, _⟩ :=
      (records_of_recordAll distinct h).written entry (perm.mem_iff.2 member)
    exact ⟨e, r, read, alone⟩
  cases first : read templates mnemonic entries with
  | ok m =>
    obtain ⟨n, second⟩ := accepted distinct perm first
    rw [second]
    have same := (records_of_recordAll distinct first).sameOn
      (records_of_recordAll (distinct.perm perm) second) perm
    refine .ok ⟨eq_of_sameOn same, ?_⟩
    rw [featureId_of_recordAll first, featureId_of_recordAll second]
    exact named_eq_iff perm _
  | error d =>
    cases second : read templates mnemonic others with
    | ok n =>
      obtain ⟨m, made⟩ := accepted (distinct.perm perm) perm.symm second
      cases first.symm.trans made
    | error e => exact .error trivial

end Metadata

namespace Instruction

open Metadata (DistinctKeys namedFeature?)

/-- The instructions differ in the feature they name and in nothing else. -/
def SameButFeature (i j : Instruction) : Prop :=
  j = { i with
    metadata := { i.metadata with featureId := j.metadata.featureId }
    feature := j.feature }

/-- With distinct keys, the order of metadata entries never decides whether an instruction is
accepted, and all that can depend on it is the feature: it is the one named last. -/
theorem build_metadata_perm {templates : Templates} {p : Parts} {entries : List Text}
    (distinct : DistinctKeys p.metadata) (perm : p.metadata.Perm entries) :
    Traversal.Agree
      (fun i j => i.SameButFeature j ∧
        (i = j ↔ namedFeature? p.metadata = namedFeature? entries))
      (fun _ _ => True) (build templates p) (build templates { p with metadata := entries }) := by
  unfold build
  dsimp only
  generalize Decorators.strip p.mnemonic = stripped
  generalize withMaskOperand p.explicit = explicit
  obtain ⟨bare, mnemonicDecorators⟩ := stripped
  dsimp only
  refine (Metadata.read_perm distinct perm).bind ?_
  rintro m n ⟨same, named⟩
  obtain ⟨name, rfl⟩ : ∃ name, n = { m with featureId := name } := ⟨n.featureId, same⟩
  refine (Traversal.Agree.same (fun _ => trivial) _).bind ?_
  rintro _ _ rfl
  refine (Traversal.Agree.same (fun _ => trivial) _).bind ?_
  rintro ⟨encoding, attributes⟩ _ rfl
  refine (Traversal.Agree.same (fun _ => trivial) _).bind ?_
  rintro operands _ rfl
  refine (Traversal.Agree.same (fun _ => trivial) _).bind ?_
  rintro implicitOperands _ rfl
  refine (Traversal.Agree.same (fun _ => trivial) _).bind ?_
  rintro mnemonic _ rfl
  refine (Traversal.Agree.same (fun _ => trivial) _).bind ?_
  rintro summary _ rfl
  refine .ok ⟨rfl, ?_⟩
  rw [← named]
  constructor
  · intro equal
    exact congrArg (fun i => i.metadata.featureId) equal
  · rintro rfl
    rfl

/-- An instruction of one set that names a feature of its own. -/
def cmpxchg8b : Parts where
  mnemonic := "CMPXCHG8B"
  explicit := ["Mq".toList]
  implicit := []
  encoding := "0x0F 0xC7 /1:mem"
  metadata := ["s:PENTIUM".toList, "i:CX8".toList, "w:RW".toList, "m:O64".toList]

theorem build_metadata_perm_rotated :
    DistinctKeys cmpxchg8b.metadata ∧
      cmpxchg8b.metadata.Perm (cmpxchg8b.metadata.rotate 2) ∧
      ∃ i, build .standard cmpxchg8b = .ok i ∧
        build .standard { cmpxchg8b with metadata := cmpxchg8b.metadata.rotate 2 } = .ok i := by
  have distinct : DistinctKeys cmpxchg8b.metadata := by decide
  have perm := (List.rotate_perm cmpxchg8b.metadata 2).symm
  refine ⟨distinct, perm, ?_⟩
  obtain ⟨i, built⟩ := Traversal.exists_of_isOk
    (show (build .standard cmpxchg8b).isOk = true by decide)
  have agree := @build_metadata_perm .standard _ _ distinct perm
  rw [built] at agree
  generalize rotated : build .standard
    { cmpxchg8b with metadata := cmpxchg8b.metadata.rotate 2 } = result at agree
  cases agree with
  | ok values =>
    have last : namedFeature? cmpxchg8b.metadata =
        namedFeature? (cmpxchg8b.metadata.rotate 2) := by
      decide
    obtain rfl := values.2.2 last
    exact ⟨i, built, rfl⟩

/-- The instruction set overwrites a feature that was named before it. -/
theorem feature_depends_on_order :
    ¬ ∀ (templates : Templates) (p : Parts) (entries : List Text),
      DistinctKeys p.metadata → p.metadata.Perm entries →
      Traversal.Agree (fun i j => i = j) (fun _ _ => True) (build templates p)
        (build templates { p with metadata := entries }) := by
  intro every
  have agree := every .standard cmpxchg8b cmpxchg8b.metadata.reverse (by decide)
    (List.reverse_perm cmpxchg8b.metadata).symm
  have differ : ((build .standard cmpxchg8b).toOption.map (·.metadata.featureId)) =
        some "CX8".toList ∧
      ((build .standard { cmpxchg8b with
        metadata := cmpxchg8b.metadata.reverse }).toOption.map (·.metadata.featureId)) =
        some "PENTIUM".toList := by
    decide
  generalize build .standard cmpxchg8b = first at agree differ
  generalize build .standard { cmpxchg8b with metadata := cmpxchg8b.metadata.reverse } =
    second at agree differ
  cases agree with
  | ok values =>
    obtain rfl := values
    cases differ.1.symm.trans differ.2
  | error _ => cases differ.1

end Instruction

end OpcodeAtlas
