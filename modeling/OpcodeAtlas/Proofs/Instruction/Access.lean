import OpcodeAtlas.Proofs.Instruction.Operands
import OpcodeAtlas.Proofs.Metadata.Access

/-!
Accesses of operands. `access_of_build`: the operands of an accepted instruction, the explicit ones
first, have the accesses that its metadata writes, in order. One check before any operand is read is
the only place where the access map can be found too short; after it the operands never run out of
accesses, at whatever absent marker they stop.
-/

namespace OpcodeAtlas

open Traversal (Errors)

/-! ### Encodings -/

theorem Update.neverTooShort_outcome? {σ α : Type} {u : Update σ α} {s : σ}
    (h : NeverTooShort (u.outcome s).1) : NeverTooShort (u.outcome? s) := by
  unfold outcome?
  generalize u.outcome s = outcome at h
  obtain ⟨result, t⟩ := outcome
  cases result with
  | ok a => exact .ok _
  | error e => exact .error (h e rfl)

namespace Encoding

theorem Token.neverTooShort_parse (word : Text) : NeverTooShort (Token.parse word) := by
  unfold parse
  split
  · exact .ok _
  · split
    · split
      · exact .ok _
      · exact .error rfl
    · split
      · exact .elim (by rfl) _
      · split
        · exact .ok _
        · exact .error rfl

theorem Reading.neverTooShort_readAll (s : Reading) (words : List Text) :
    NeverTooShort (s.readAll words).1 := by
  induction words generalizing s with
  | nil => exact .ok ()
  | cons word rest ih =>
    have first : NeverTooShort ((s.mark word).read word) :=
      (Token.neverTooShort_parse word).bind fun _ _ => .elim (by rfl) _
    unfold readAll
    split
    · next t _ => exact ih t
    · next e failed => exact .error (first e failed)

theorem neverTooShort_parse (raw : Text) (attributes : Attributes) :
    NeverTooShort ((parse raw).outcome? attributes) := by
  apply Update.neverTooShort_outcome?
  rw [parse, Update.outcome_map]
  exact (Reading.neverTooShort_readAll _ raw.words).map.map

end Encoding

/-! ### Operands -/

theorem AccessMap.check_eq_ok_iff {m : AccessMap} {operands : Nat} :
    m.check operands = .ok () ↔ operands ≤ m.size := by
  unfold check
  split
  · next short => simp [short]
  · next enough => simp [Nat.le_of_not_lt enough]

theorem AccessMap.check_of_lt {m : AccessMap} {operands : Nat} (short : m.size < operands) :
    m.check operands = .error (.accessMapTooShort m.size operands) :=
  if_pos short

theorem Operand.neverTooShort_parse (raw : Text) (access : OperandAccess)
    (flags : List OperandFlag) (implicit : Bool) :
    NeverTooShort (parse raw access flags implicit) := by
  intro e h
  rw [parse_eq_error h]
  rfl

theorem AccessSummary.neverTooShort_ofOperands (os : List Operand) :
    NeverTooShort (ofOperands os) := by
  refine Errors.foldlM (fun s o => ?_) _ os
  unfold record
  repeat' split
  all_goals first | exact .ok _ | exact .error rfl

theorem Mnemonic.neverTooShort_complete (mnemonic : Text) (decorators : OrderedSet DecoratorFlag)
    (e : Encoding) : NeverTooShort (complete mnemonic decorators e) := by
  have condition : ∀ placeholder suffix field value,
      NeverTooShort (withCondition mnemonic placeholder suffix field value) := by
    intro placeholder suffix field value
    cases value with
    | none => exact .error rfl
    | some c => exact .ok _
  unfold complete
  split
  · exact condition _ _ _ _
  · split
    · exact condition _ _ _ _
    · exact .ok _

namespace Instruction

open Decorators (maskStart)
open Metadata (writtenAccesses)

variable {access : AccessMap} {offset : Nat} {flags : Nat → List OperandFlag} {implicit : Bool}
  {tokens : List Text} {os : List Operand}

theorem length_of_parseOperands
    (h : parseOperands access offset flags implicit tokens = .ok os) :
    os.length ≤ tokens.length := by
  rw [← List.length_map Operand.raw, raws_of_parseOperands h]
  exact (List.takeWhile_prefix isPresent).length_le

theorem access_of_parseOperands
    (h : parseOperands access offset flags implicit tokens = .ok os) {k : Nat} {o : Operand}
    (here : os[k]? = some o) : access.get? (offset + k) = some o.access := by
  obtain ⟨token, _, read⟩ := Traversal.exists_of_mapM_zipIdx h here
  obtain ⟨a, found, parsed⟩ := Traversal.bind_eq_ok_iff.1 read
  rw [Operand.access_of_parse parsed]
  exact Traversal.elim_eq_ok_iff.1 found

/-- Where every token has an access, none of them is missed. -/
theorem neverTooShort_parseOperands (room : offset + tokens.length ≤ access.size) :
    NeverTooShort (parseOperands access offset flags implicit tokens) := by
  refine Errors.mapM fun token member => ?_
  have taken : (tokens.takeWhile isPresent).length ≤ tokens.length :=
    (List.takeWhile_prefix isPresent).length_le
  have place : token.2 < (tokens.takeWhile isPresent).length + 0 :=
    List.snd_lt_of_mem_zipIdx member
  have inside : offset + token.2 < access.entries.length := by
    unfold AccessMap.size at room
    omega
  have found : access.get? (offset + token.2) = some access.entries[offset + token.2] :=
    List.getElem?_eq_getElem inside
  refine Errors.bind ?_ fun a _ => Operand.neverTooShort_parse _ a _ _
  rw [found]
  exact .ok _

/-- A check of the tokens of both lists leaves room for the operands of both, also where the
explicit ones stop at an absent marker. -/
theorem neverTooShort_of_check (flags : Nat → List OperandFlag) {explicit others : List Text}
    (checked : access.check (explicit.length + others.length) = .ok ()) :
    NeverTooShort (parseOperands access 0 flags false explicit) ∧
      ∀ os, parseOperands access 0 flags false explicit = .ok os →
        NeverTooShort (parseOperands access os.length (fun _ => []) true others) := by
  rw [AccessMap.check_eq_ok_iff] at checked
  refine ⟨neverTooShort_parseOperands (by omega), fun os read => ?_⟩
  have fewer := length_of_parseOperands read
  exact neverTooShort_parseOperands (by omega)

/-! ### Instructions -/

variable {templates : Templates} {p : Parts}

theorem length_withMaskOperand (tokens : List Text) :
    (withMaskOperand tokens).length =
      tokens.length + if tokens.head?.any (Text.occursInside maskStart) then 1 else 0 := by
  cases tokens with
  | nil => rfl
  | cons first rest =>
    by_cases mask : Text.occursInside maskStart first = true
    · rw [withMaskOperand_of_mask mask, List.head?_cons, Option.any_some, if_pos mask]
      rfl
    · rw [withMaskOperand_of_not_mask mask, List.head?_cons, Option.any_some, if_neg mask]
      rfl

theorem access_of_steps {i : Instruction} (built : build templates p = .ok i) {k : Nat}
    {o : Operand} (here : (i.operands ++ i.implicitOperands)[k]? = some o) :
    i.metadata.access.get? k = some o.access := by
  obtain ⟨_, steps⟩ := steps_of_build built
  by_cases explicit : k < i.operands.length
  · rw [List.getElem?_append_left explicit] at here
    simpa using access_of_parseOperands steps.operands here
  · rw [Nat.not_lt] at explicit
    rw [List.getElem?_append_right explicit] at here
    have found := access_of_parseOperands steps.implicitOperands here
    rwa [Nat.add_sub_cancel' explicit] at found

theorem neverTooShort_build {m : Metadata}
    (read : Metadata.read templates (Decorators.strip p.mnemonic).1 p.metadata = .ok m)
    (checked : m.access.check ((withMaskOperand p.explicit).length + p.implicit.length) = .ok ()) :
    NeverTooShort (build templates p) := by
  unfold build
  dsimp only
  refine (Metadata.neverTooShort_read _ _).bind fun n same => ?_
  obtain rfl : m = n := Except.ok.inj (read.symm.trans same)
  refine Errors.bind ?_ fun _ _ => ?_
  · rw [checked]
    exact .ok ()
  refine (Encoding.neverTooShort_parse _ _).bind fun found _ => ?_
  obtain ⟨encoding, attributes⟩ := found
  refine (neverTooShort_of_check _ checked).1.bind fun operands explicit => ?_
  refine ((neverTooShort_of_check _ checked).2 operands explicit).bind fun _ _ => ?_
  refine (Mnemonic.neverTooShort_complete _ _ _).bind fun _ _ => ?_
  exact (AccessSummary.neverTooShort_ofOperands _).bind fun _ _ => .ok _

theorem build_of_read_eq_error {e : SpecError}
    (failed : Metadata.read templates (Decorators.strip p.mnemonic).1 p.metadata = .error e) :
    build templates p = .error e := by
  unfold build
  dsimp only
  rw [failed]
  rfl

theorem build_of_lt {m : Metadata}
    (read : Metadata.read templates (Decorators.strip p.mnemonic).1 p.metadata = .ok m)
    (short : m.access.size < (withMaskOperand p.explicit).length + p.implicit.length) :
    build templates p = .error (.accessMapTooShort m.access.size
      ((withMaskOperand p.explicit).length + p.implicit.length)) := by
  unfold build
  dsimp only
  rw [read]
  change (m.access.check _ >>= _) = _
  rw [AccessMap.check_of_lt short]
  rfl

theorem build_eq_tooShort_iff {provided expected : Nat} :
    build templates p = .error (.accessMapTooShort provided expected) ↔
      (∃ m, Metadata.read templates (Decorators.strip p.mnemonic).1 p.metadata = .ok m) ∧
        provided = (writtenAccesses p.metadata).length ∧
        expected = (withMaskOperand p.explicit).length + p.implicit.length ∧
        provided < expected := by
  constructor
  · intro failed
    cases read : Metadata.read templates (Decorators.strip p.mnemonic).1 p.metadata with
    | error e =>
      cases (build_of_read_eq_error read).symm.trans failed
      cases Metadata.neverTooShort_read _ _ _ read
    | ok m =>
      rw [← Metadata.size_access_of_read read]
      rcases Nat.lt_or_ge m.access.size
        ((withMaskOperand p.explicit).length + p.implicit.length) with short | enough
      · cases (build_of_lt read short).symm.trans failed
        exact ⟨⟨m, rfl⟩, rfl, rfl, short⟩
      · cases neverTooShort_build read (AccessMap.check_eq_ok_iff.2 enough) _ failed
  · rintro ⟨⟨m, read⟩, rfl, rfl, short⟩
    rw [← Metadata.size_access_of_read read] at short ⊢
    exact build_of_lt read short

/-- Each operand has the access written for its place, operands whose tokens have all been counted
never run out of accesses, and the count is the only one that an instruction is refused for. -/
theorem access_of_build (templates : Templates) (p : Parts) :
    (∀ i, build templates p = .ok i →
        ∀ k o, (i.operands ++ i.implicitOperands)[k]? = some o →
          i.metadata.access.get? k = some o.access ∧
            (writtenAccesses p.metadata)[k]? = some (Vocabulary.token o.access)) ∧
      (∀ (access : AccessMap) (flags : Nat → List OperandFlag) (explicit implicit : List Text),
        access.check (explicit.length + implicit.length) = .ok () →
        ∀ provided expected,
          parseOperands access 0 flags false explicit ≠
              .error (.accessMapTooShort provided expected) ∧
            ∀ os, parseOperands access 0 flags false explicit = .ok os →
              parseOperands access os.length (fun _ => []) true implicit ≠
                .error (.accessMapTooShort provided expected)) ∧
      ∀ provided expected, build templates p = .error (.accessMapTooShort provided expected) ↔
        (∃ m, Metadata.read templates (Decorators.strip p.mnemonic).1 p.metadata = .ok m) ∧
          provided = (writtenAccesses p.metadata).length ∧
          expected = p.explicit.length +
            (if p.explicit.head?.any (Text.occursInside maskStart) then 1 else 0) +
            p.implicit.length ∧
          provided < expected := by
  refine ⟨?_, ?_, ?_⟩
  · intro i built k o here
    have found := access_of_steps built here
    obtain ⟨_, steps⟩ := steps_of_build built
    refine ⟨found, ?_⟩
    rw [← Metadata.map_token_access_of_read steps.metadata, List.getElem?_map]
    exact congrArg (Option.map Vocabulary.token) found
  · intro access flags explicit implicit checked provided expected
    obtain ⟨first, second⟩ := neverTooShort_of_check flags checked
    refine ⟨fun failed => ?_, fun os read failed => ?_⟩
    · cases first _ failed
    · cases second os read _ failed
  · intro provided expected
    rw [← length_withMaskOperand]
    exact build_eq_tooShort_iff

/-- A masked addition with an implicit operand, so that five accesses are asked for. -/
def maskedAddition : Parts where
  mnemonic := "VADDPS"
  explicit := ["Vfv{K}{z}".toList, "Hfv".toList, "Wfv".toList]
  implicit := ["EAX".toList]
  encoding := "evex m:1 p:0 l:x w:0 0x58 /r"
  metadata := ["s:AVX512F".toList, "w:W|R|R".toList, "w:R|RW".toList]

def withoutLastAccess : Parts :=
  { maskedAddition with metadata := ["w:W|R|R".toList, "w:R".toList] }

theorem access_of_build_maskedAddition :
    (∃ i o, build .standard maskedAddition = .ok i ∧ i.implicitOperands = [o] ∧
        o.access = .readWrite) ∧
      build .standard withoutLastAccess = .error (.accessMapTooShort 4 5) := by
  constructor
  · obtain ⟨i, built, shape⟩ := Traversal.exists_of_any
      (show (build .standard maskedAddition).toOption.any (fun i =>
        i.operands.length = 4 ∧ i.implicitOperands.length = 1) = true by decide)
    obtain ⟨four, one⟩ := of_decide_eq_true shape
    obtain ⟨o, single⟩ := List.length_eq_one_iff.1 one
    have here : (i.operands ++ i.implicitOperands)[4]? = some o := by
      rw [List.getElem?_append_right (by omega), four, single]
      rfl
    obtain ⟨_, written⟩ := (access_of_build .standard maskedAddition).1 i built 4 o here
    have fifth : (writtenAccesses maskedAddition.metadata)[4]? = some "RW".toList := by
      decide
    have same := written.symm.trans fifth
    refine ⟨i, o, built, single, ?_⟩
    revert same
    cases o.access <;> decide
  · have read : (Metadata.read .standard (Decorators.strip withoutLastAccess.mnemonic).1
        withoutLastAccess.metadata).isOk = true := by
      decide
    exact ((access_of_build .standard withoutLastAccess).2.2 4 5).2
      ⟨Traversal.exists_of_isOk read, by decide, by decide +kernel, by decide⟩

end Instruction

end OpcodeAtlas
