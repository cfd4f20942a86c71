import OpcodeAtlas.Proofs.Metadata.Order

/-!
Operand accesses in metadata. `map_token_access_of_read`: the access map holds the accesses that the
entries write, one entry after the other. No entry that cannot be read is taken for an access map
that is too short (`neverTooShort_read`).
-/

namespace OpcodeAtlas

open Traversal (Errors)

/-- The access map of an instruction has too few entries. -/
def SpecError.isTooShort : SpecError → Bool
  | accessMapTooShort _ _ => true
  | _ => false

/-- A result that does not depend on how long an access map is. -/
abbrev NeverTooShort {α : Type} (x : Except SpecError α) : Prop :=
  Errors (fun e => e.isTooShort = false) x

/-! ### Vocabularies -/

namespace Vocabulary

variable {α : Type} [Vocabulary α]

theorem neverTooShort_parse (t : Text) : NeverTooShort (parse t : Except SpecError α) := by
  unfold parse
  split
  · exact .ok _
  · exact .error rfl

theorem neverTooShort_parseList (t : Text) :
    NeverTooShort (parseList t : Except SpecError (List α)) :=
  .mapM fun piece _ => neverTooShort_parse piece

theorem map_token_of_parseList {t : Text} {as : List α} (h : parseList t = .ok as) :
    as.map token = t.trimmedPieces '|' := by
  have related := Traversal.mapM_eq_ok_iff.1 h
  have same : List.Forall₂ (fun piece a => piece = token a) (t.trimmedPieces '|') as :=
    related.imp fun piece a read => (token_of_find? (parse_eq_ok_iff.1 read)).symm
  rw [← List.forall₂_map_right_iff, List.forall₂_eq_eq_eq] at same
  exact same.symm

end Vocabulary

theorem Update.neverTooShort_validated {σ α : Type} {checked : Except SpecError α}
    (h : NeverTooShort checked) (store : α → σ → σ) (s : σ) :
    NeverTooShort ((validated checked store).state? s) := by
  rw [state?_validated]
  exact h.map

/-! ### Values -/

theorem FlagsAccess.neverTooShort_parse (value : Text) (templates : Templates) :
    NeverTooShort (parse value templates) := by
  refine Errors.map (.mapM fun entry _ => ?_)
  unfold parseEntry
  split
  · exact .error rfl
  · exact (Vocabulary.neverTooShort_parse _).bind fun _ _ =>
      (Vocabulary.neverTooShort_parse _).bind fun _ _ => .ok _

theorem FpuFlagsAccess.neverTooShort_parse (value : Text) : NeverTooShort (parse value) := by
  refine Errors.map (.mapM fun entry _ => ?_)
  unfold parseEntry
  split
  · exact .error rfl
  · exact (Vocabulary.neverTooShort_parse _).bind fun _ _ =>
      (Vocabulary.neverTooShort_parse _).bind fun _ _ => .ok _

namespace CpuModes

theorem neverTooShort_parseMode (group : ModeGroup) (t : Text) :
    NeverTooShort (parseMode group t) := by
  unfold parseMode
  split
  · exact .ok _
  · exact .error rfl

theorem neverTooShort_parseTerm (group : ModeGroup) (t : Text) :
    NeverTooShort (parseTerm group t) := by
  unfold parseTerm
  split
  · exact (neverTooShort_parseMode group _).map
  · exact (neverTooShort_parseMode group _).map

theorem neverTooShort_parseClause (clause : Text) : NeverTooShort (parseClause clause) := by
  unfold parseClause
  split
  · exact .error rfl
  · exact (Vocabulary.neverTooShort_parse _).bind fun group _ =>
      .mapM fun t _ => neverTooShort_parseTerm group t

theorem neverTooShort_parse (value : Text) (templates : Templates) :
    NeverTooShort (parse value templates) :=
  (Errors.mapM fun clause _ => neverTooShort_parseClause clause).bind fun _ _ => .ok _

end CpuModes

/-! ### Entries -/

namespace MetaEntry

theorem neverTooShort_parse (entry : Text) : NeverTooShort (parse entry) := by
  unfold parse
  split
  · exact .error rfl
  · split
    · exact .error rfl
    · exact (Vocabulary.neverTooShort_parse _).bind fun _ _ => .ok _

/-- The accesses that an entry writes. -/
def writtenAccesses (e : MetaEntry) : List Text :=
  match e.key with
  | .access => e.value.trimmedPieces '|'
  | _ => []

theorem writtenAccesses_of_key_ne {e : MetaEntry} (other : e.key ≠ .access) :
    e.writtenAccesses = [] := by
  unfold writtenAccesses
  split
  · next same => exact absurd same other
  · rfl

end MetaEntry

namespace Metadata

variable {templates : Templates}

/-- The accesses that entries write, one entry after the other. -/
def writtenAccesses (entries : List Text) : List Text :=
  entries.flatMap fun entry =>
    ((MetaEntry.parse entry).toOption.map MetaEntry.writtenAccesses).getD []

theorem writtenAccesses_cons {entry : Text} {rest : List Text} {e : MetaEntry}
    (read : MetaEntry.parse entry = .ok e) :
    writtenAccesses (entry :: rest) = e.writtenAccesses ++ writtenAccesses rest := by
  rw [writtenAccesses, List.flatMap_cons, read]
  rfl

theorem neverTooShort_record (m : Metadata) (e : MetaEntry) :
    NeverTooShort (m.record templates e) := by
  obtain ⟨key, value⟩ := e
  cases key with
  | instructionClass | category | instructionSet | featureId => exact .ok _
  | tuple => exact (Vocabulary.neverTooShort_parse value).bind fun (_ : Tuple) _ => .ok _
  | evexMode => exact (Vocabulary.neverTooShort_parse value).bind fun (_ : EvexMode) _ => .ok _
  | exception =>
    exact (Vocabulary.neverTooShort_parse value).bind fun (_ : ExceptionType) _ => .ok _
  | modes => exact (CpuModes.neverTooShort_parse _ _).bind fun _ _ => .ok _
  | flags =>
    have read := FlagsAccess.neverTooShort_parse value templates
    exact (Update.neverTooShort_validated read _ _).bind fun _ _ => .ok _
  | fpuFlags =>
    have read := FpuFlagsAccess.neverTooShort_parse value
    exact (Update.neverTooShort_validated read _ _).bind fun _ _ => .ok _
  | attributes | prefixes | access | simdExceptions =>
    refine Errors.bind ?_ fun _ _ => .ok _
    exact Update.neverTooShort_validated (Vocabulary.neverTooShort_parseList value) _ _

theorem neverTooShort_read (mnemonic : Text) (entries : List Text) :
    NeverTooShort (read templates mnemonic entries) :=
  Errors.foldlM (fun m entry =>
    (MetaEntry.neverTooShort_parse entry).bind fun e _ => neverTooShort_record m e) _ entries

theorem map_token_access_of_record {m n : Metadata} {e : MetaEntry}
    (h : m.record templates e = .ok n) :
    n.access.entries.map Vocabulary.token =
      m.access.entries.map Vocabulary.token ++ e.writtenAccesses := by
  by_cases writes : e.key = .access
  · obtain ⟨key, value⟩ := e
    obtain rfl : key = .access := writes
    obtain ⟨access, added, made⟩ := Traversal.bind_eq_ok_iff.1 h
    cases made
    rw [AccessMap.add, Update.state?_validated] at added
    obtain ⟨as, read, rfl⟩ := Traversal.map_eq_ok_iff.1 added
    have written := Vocabulary.map_token_of_parseList read
    rw [List.map_append, written]
    rfl
  · have same : m.access = n.access := sameOn_of_record h (Ne.symm writes)
    rw [MetaEntry.writtenAccesses_of_key_ne writes, List.append_nil, same]

theorem map_token_access_of_recordAll {m n : Metadata} {entries : List Text}
    (h : m.recordAll templates entries = .ok n) :
    n.access.entries.map Vocabulary.token =
      m.access.entries.map Vocabulary.token ++ writtenAccesses entries := by
  induction entries generalizing m with
  | nil =>
    cases h
    rw [writtenAccesses, List.flatMap_nil, List.append_nil]
  | cons entry rest ih =>
    obtain ⟨e, r, read, recorded, others⟩ := recordAll_cons.1 h
    rw [ih others, map_token_access_of_record recorded, writtenAccesses_cons read,
      List.append_assoc]

theorem map_token_access_of_read {mnemonic : Text} {entries : List Text} {m : Metadata}
    (h : read templates mnemonic entries = .ok m) :
    m.access.entries.map Vocabulary.token = writtenAccesses entries :=
  map_token_access_of_recordAll h

theorem size_access_of_read {mnemonic : Text} {entries : List Text} {m : Metadata}
    (h : read templates mnemonic entries = .ok m) :
    m.access.size = (writtenAccesses entries).length := by
  rw [← map_token_access_of_read h, List.length_map]
  rfl

end Metadata

end OpcodeAtlas
