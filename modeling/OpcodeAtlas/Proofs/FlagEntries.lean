import Mathlib.Data.List.Nodup
import OpcodeAtlas.Flag
import OpcodeAtlas.FpuFlag
import OpcodeAtlas.Proofs.TokenLists

/-!
Accesses to flags read what they write (`add_render`). The entries are written by kind of access
and not in the order they came in, so what a reader has to keep is the order within each kind
(`ofEntries_entries`).
-/

namespace OpcodeAtlas

instance : Vocabulary.Atomic Flag where
  mem_all flag := by cases flag <;> decide
  find?_listed := by decide
  atomic_listed := by decide

instance : Vocabulary.Atomic FlagAccess where
  mem_all access := by cases access <;> decide
  find?_listed := by decide
  atomic_listed := by decide

instance : Vocabulary.Atomic FpuFlag where
  mem_all flag := by cases flag <;> decide
  find?_listed := by decide
  atomic_listed := by decide

instance : Vocabulary.Atomic FpuAccess where
  mem_all access := by cases access <;> decide
  find?_listed := by decide
  atomic_listed := by decide

/-! ### Flags by kind of access -/

namespace FlagsAccess

/-- Groups written one after the other can be told apart by their keys. -/
theorem filter_grouped {κ β : Type} [DecidableEq κ] (group : κ → List β) {keys : List κ}
    (distinct : keys.Nodup) {k : κ} (member : k ∈ keys) :
    ((keys.flatMap fun k => (group k).map (k, ·)).filter (·.1 = k)).map (·.2) = group k := by
  have own : ∀ k' : κ, (((group k').map (k', ·)).filter (·.1 = k)).map (·.2) =
      if k' = k then group k else [] := by
    intro k'
    split
    · next same => simp [same, List.filter_map, Function.comp_def]
    · next other => simp [other, List.filter_map, Function.comp_def]
  have absent : ∀ others : List κ, k ∉ others →
      others.flatMap (fun k' => if k' = k then group k else []) = [] := by
    intro others none
    refine List.flatMap_eq_nil_iff.2 fun k' inside => if_neg ?_
    rintro rfl
    exact none inside
  rw [List.filter_flatMap, List.map_flatMap, List.flatMap_congr fun k' _ => own k']
  obtain ⟨front, back, rfl⟩ := List.append_of_mem member
  obtain ⟨elsewhere, _⟩ := List.nodup_cons.1 (List.nodup_middle.1 distinct)
  rw [List.mem_append, not_or] at elsewhere
  rw [List.flatMap_append, List.flatMap_cons, absent front elsewhere.1, absent back elsewhere.2,
    if_pos rfl, List.nil_append, List.append_nil]

theorem ofEntries_entries (f : FlagsAccess) : ofEntries f.entries = f := by
  have distinct : (Vocabulary.all : List FlagAccess).Nodup := by decide
  have each : (ofEntries f.entries).flags = f.flags :=
    funext fun access => filter_grouped f.flags distinct (Vocabulary.mem_all access)
  exact congrArg FlagsAccess.mk each

theorem renderEntry_eq (entry : FlagAccess × Flag) :
    renderEntry entry = Vocabulary.assignment entry.2 entry.1 := rfl

theorem parseEntry_renderEntry (entry : FlagAccess × Flag) :
    parseEntry (renderEntry entry) = .ok entry := by
  have access := Text.trim_of_solid (Vocabulary.atomic_token entry.1).solid
  have flag := Text.trim_of_solid (Vocabulary.atomic_token entry.2).solid
  rw [renderEntry_eq, parseEntry, Vocabulary.cut_assignment]
  simp only [access, flag, Vocabulary.parse_token]
  rfl

theorem entries_ne_nil {f : FlagsAccess} (filled : f.isEmpty = false) : f.entries ≠ [] := by
  intro none
  have each : ∀ access ∈ (Vocabulary.all : List FlagAccess), f.flags access = [] := by
    intro access member
    exact List.map_eq_nil_iff.1 (List.flatMap_eq_nil_iff.1 none access member)
  have empty : f.isEmpty = true := by
    rw [isEmpty, List.all_eq_true]
    intro access member
    rw [each access member]
    rfl
  cases filled.symm.trans empty

/-- An entry holds an equals sign, so no template is taken for it. -/
theorem expand_render {f : FlagsAccess} (filled : f.isEmpty = false) {t : Templates}
    (unnamed : ∀ name text, t.flags.find? name = some text → '=' ∉ name) :
    Templates.expand t.flags.find? f.render = f.entries.map renderEntry := by
  have solid : ∀ text ∈ f.entries.map renderEntry, Text.Solid text ∧ '|' ∉ text := by
    intro text member
    obtain ⟨entry, _, rfl⟩ := List.mem_map.1 member
    exact Vocabulary.solid_assignment entry.2 entry.1
  have pieces : f.render.trimmedPieces '|' = f.entries.map renderEntry :=
    Text.trimmedPieces_of_solid (by simpa using entries_ne_nil filled) solid
  have plain : ∀ name ∈ f.render.trimmedPieces '|',
      t.flags.find? name = TextTable.empty.find? name := by
    intro name member
    rw [pieces] at member
    obtain ⟨entry, _, rfl⟩ := List.mem_map.1 member
    cases found : t.flags.find? (renderEntry entry) with
    | none => rfl
    | some text =>
      exact absurd (Vocabulary.equals_mem_assignment entry.2 entry.1) (unnamed _ text found)
  rw [Templates.expand_congr plain, Templates.expand_empty, pieces]

theorem parse_render {f : FlagsAccess} (filled : f.isEmpty = false) {t : Templates}
    (unnamed : ∀ name text, t.flags.find? name = some text → '=' ∉ name) :
    parse f.render t = .ok f := by
  rw [parse, expand_render filled unnamed, Traversal.mapM_map_eq_ok parseEntry_renderEntry,
    Except.map, ofEntries_entries]

end FlagsAccess

/-! ### Flags of the x87 -/

namespace FpuFlagsAccess

def entries (access : FpuFlag → FpuAccess) : List (FpuFlag × FpuAccess) :=
  Vocabulary.all.map fun flag => (flag, access flag)

theorem ofEntries_entries (access : FpuFlag → FpuAccess) :
    ofEntries (entries access) = ⟨some access⟩ := by
  have each : (fun flag => ((entries access).reverse.lookup flag).getD .undefined) = access := by
    funext flag
    cases flag <;> rfl
  rw [ofEntries, each]

theorem parseEntry_renderEntry (entry : FpuFlag × FpuAccess) :
    parseEntry (renderEntry entry) = .ok entry := by
  have flag := Text.trim_of_solid (Vocabulary.atomic_token entry.1).solid
  have access := Text.trim_of_solid (Vocabulary.atomic_token entry.2).solid
  have cut : (renderEntry entry).cut '=' = _ := Vocabulary.cut_assignment entry.1 entry.2
  rw [parseEntry, cut]
  simp only [access, flag, Vocabulary.parse_token]
  rfl

theorem parse_render {f : FpuFlagsAccess} (present : f.isPresent = true) :
    parse f.render = .ok f := by
  obtain ⟨access, same⟩ := Option.isSome_iff_exists.1 present
  have written : f.render = ['|'].intercalate ((entries access).map renderEntry) := by
    rw [render, same, entries, List.map_map]
    rfl
  have whole : ∀ text ∈ (entries access).map renderEntry, '|' ∉ text := by
    intro text member
    obtain ⟨entry, _, rfl⟩ := List.mem_map.1 member
    exact (Vocabulary.solid_assignment entry.1 entry.2).2
  rw [parse, written, List.splitOn_intercalate '|' whole (by simp [entries, Vocabulary.all]),
    Traversal.mapM_map_eq_ok parseEntry_renderEntry, Except.map, ofEntries_entries, ← same]

end FpuFlagsAccess

/-- Added to whatever was there before, the text of an access replaces it by the same access: the
same flags in the same order for every kind of access, and the same access to every flag of the
x87. -/
theorem accesses_restored :
    (∀ (f : FlagsAccess) (t : Templates), f.isEmpty = false →
      (∀ name text, t.flags.find? name = some text → '=' ∉ name) →
      ∀ before, (FlagsAccess.add f.render t).outcome before = (.ok (), f)) ∧
    ∀ f : FpuFlagsAccess, f.isPresent = true →
      ∀ before, (FpuFlagsAccess.add f.render).outcome before = (.ok (), f) := by
  refine ⟨fun f t filled unnamed before => ?_, fun f present before => ?_⟩
  · rw [FlagsAccess.add, FlagsAccess.parse_render filled unnamed, Update.outcome_validated]
  · rw [FpuFlagsAccess.add, FpuFlagsAccess.parse_render present, Update.outcome_validated]

/-- A flag tested twice, and one entry that is written in front of those it came behind. -/
def testedTwice : FlagsAccess :=
  .ofEntries [(.tested, .zero), (.tested, .carry), (.modified, .carry), (.tested, .carry)]

def comparison : FpuFlagsAccess :=
  .ofEntries [(.c3, .cleared), (.c1, .modified), (.c3, .set)]

theorem accesses_restored_testedTwice :
    (∀ d ∈ Templates.standard.flags.definitions, '=' ∉ d.1) ∧
      (FlagsAccess.add "CF=m|ZF=t|CF=t|CF=t" .standard).outcome .empty = (.ok (), testedTwice) ∧
      (FpuFlagsAccess.add "C0=u|C1=m|C2=u|C3=1").outcome .absent = (.ok (), comparison) := by
  have names : ∀ d ∈ Templates.standard.flags.definitions, '=' ∉ d.1 := by decide
  have flags : testedTwice.render = "CF=m|ZF=t|CF=t|CF=t" := by decide
  have x87 : comparison.render = "C0=u|C1=m|C2=u|C3=1" := by decide
  obtain ⟨restored, restored'⟩ := accesses_restored
  rw [← flags, ← x87]
  refine ⟨names, restored testedTwice .standard (by decide) ?_ .empty,
    restored' comparison (by decide) .absent⟩
  intro name text found
  obtain ⟨front, back, same, _⟩ := List.lookup_eq_some_iff.1 found
  exact names (name, text) (same ▸ List.mem_append_right front List.mem_cons_self)

end OpcodeAtlas
