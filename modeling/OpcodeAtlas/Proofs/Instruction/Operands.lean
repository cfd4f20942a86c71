import Mathlib.Data.List.TakeWhile
import OpcodeAtlas.Proofs.Instruction.Build

/-!
The operand tokens of a line. `operands_of_parse`: the operands of an accepted line are its tokens
up to the first absent marker, so all of them exactly if no marker stands among them. A marker among
other tokens is accepted (`not_every_token_kept`).
-/

namespace OpcodeAtlas

namespace Instruction

open Decorators (maskStart)

def isPresent (token : Text) : Bool := !absentMarkers.contains token

theorem isPresent_iff {token : Text} : isPresent token = true ↔ token ∉ absentMarkers := by
  simp [isPresent]

theorem raws_of_parseOperands {access : AccessMap} {offset : Nat} {flags : Nat → List OperandFlag}
    {implicit : Bool} {tokens : List Text} {os : List Operand}
    (h : parseOperands access offset flags implicit tokens = .ok os) :
    os.map Operand.raw = tokens.takeWhile isPresent := by
  have raws : List.Forall₂ (· = ·)
      (((tokens.takeWhile isPresent).zipIdx).map Prod.fst) (os.map Operand.raw) := by
    rw [List.forall₂_map_left_iff, List.forall₂_map_right_iff]
    refine (Traversal.mapM_eq_ok_iff.1 h).imp ?_
    intro token o read
    obtain ⟨a, _, parsed⟩ := Traversal.bind_eq_ok_iff.1 read
    exact (Operand.raw_of_parse parsed).symm
  rw [List.forall₂_eq_eq_eq, List.zipIdx_map_fst] at raws
  exact raws.symm

/-! ### The mask operand -/

theorem isPresent_of_mask {token : Text} (mask : Text.occursInside maskStart token = true) :
    isPresent token = true := by
  have unmasked : ∀ marker ∈ absentMarkers, Text.occursInside maskStart marker = false := by decide
  rw [isPresent_iff]
  intro marker
  cases (unmasked token marker).symm.trans mask

theorem withMaskOperand_of_mask {first : Text} (mask : Text.occursInside maskStart first = true)
    (rest : List Text) : withMaskOperand (first :: rest) = first :: "aKq" :: rest :=
  if_pos mask

theorem withMaskOperand_of_not_mask {first : Text}
    (unmasked : ¬ Text.occursInside maskStart first = true) (rest : List Text) :
    withMaskOperand (first :: rest) = first :: rest :=
  if_neg unmasked

theorem takeWhile_withMaskOperand (tokens : List Text) :
    (withMaskOperand tokens).takeWhile isPresent =
      withMaskOperand (tokens.takeWhile isPresent) := by
  cases tokens with
  | nil => rfl
  | cons first rest =>
    by_cases mask : Text.occursInside maskStart first = true
    · have operand : isPresent ("aKq" : Text) = true := by decide
      rw [withMaskOperand_of_mask mask, List.takeWhile_cons_of_pos (isPresent_of_mask mask),
        List.takeWhile_cons_of_pos operand, List.takeWhile_cons_of_pos (isPresent_of_mask mask),
        withMaskOperand_of_mask mask]
    · rw [withMaskOperand_of_not_mask mask]
      by_cases here : isPresent first = true
      · rw [List.takeWhile_cons_of_pos here, withMaskOperand_of_not_mask mask]
      · rw [List.takeWhile_cons_of_neg here]
        rfl

/-- The tokens without the mask operand at index 1, where the first one asks for it. -/
def withoutMaskOperand : List Text → List Text
  | first :: rest =>
    if Text.occursInside maskStart first then first :: rest.tail else first :: rest
  | [] => []

/-- The raw tokens of the explicit operands, the mask operand left out. -/
def writtenTokens (i : Instruction) : List Text :=
  withoutMaskOperand (i.operands.map Operand.raw)

theorem withoutMaskOperand_withMaskOperand (tokens : List Text) :
    withoutMaskOperand (withMaskOperand tokens) = tokens := by
  cases tokens with
  | nil => rfl
  | cons first rest =>
    by_cases mask : Text.occursInside maskStart first = true
    · rw [withMaskOperand_of_mask mask]
      exact if_pos mask
    · rw [withMaskOperand_of_not_mask mask]
      exact if_neg mask

/-! ### Instructions -/

theorem raws_of_build {templates : Templates} {p : Parts} {i : Instruction}
    (h : build templates p = .ok i) :
    i.operands.map Operand.raw = withMaskOperand (p.explicit.takeWhile isPresent) ∧
      i.implicitOperands.map Operand.raw = p.implicit.takeWhile isPresent := by
  obtain ⟨_, steps⟩ := steps_of_build h
  exact ⟨(raws_of_parseOperands steps.operands).trans (takeWhile_withMaskOperand p.explicit),
    raws_of_parseOperands steps.implicitOperands⟩

end Instruction

namespace Line

open Instruction (isPresent isPresent_iff withMaskOperand absentMarkers)

theorem takeWhile_isPresent_eq_self_iff {tokens : List Text} :
    tokens.takeWhile isPresent = tokens ↔ ∀ token ∈ tokens, token ∉ absentMarkers := by
  simp only [List.takeWhile_eq_self_iff, isPresent_iff]

/-- Tokens become operands up to the first absent marker, and what follows it is dropped. So no
token is lost exactly where no marker is among them; a component that is nothing but a marker has
none. -/
theorem operands_of_parse {templates : Templates} {line : Text} {i : Instruction}
    (h : parse templates line = .ok (some i)) :
    ∃ mnemonic explicit implicit encoding metadata,
      (content line).splitOn ';' = [mnemonic, explicit, implicit, encoding, metadata] ∧
      i.operands.map Operand.raw = withMaskOperand i.writtenTokens ∧
      i.writtenTokens = (operandTokens explicit).takeWhile isPresent ∧
      i.implicitOperands.map Operand.raw = (operandTokens implicit).takeWhile isPresent ∧
      (i.writtenTokens = operandTokens explicit ↔
        ∀ token ∈ operandTokens explicit, token ∉ absentMarkers) ∧
      (i.implicitOperands.map Operand.raw = operandTokens implicit ↔
        ∀ token ∈ operandTokens implicit, token ∉ absentMarkers) := by
  obtain ⟨p, read, built⟩ := build_of_parse h
  obtain ⟨mnemonic, explicit, implicit, encoding, metadata, shape, _, _, rfl⟩ :=
    components_of_parts read
  obtain ⟨raws, implicitRaws⟩ := Instruction.raws_of_build built
  have written : i.writtenTokens = (operandTokens explicit).takeWhile isPresent := by
    rw [Instruction.writtenTokens, raws, Instruction.withoutMaskOperand_withMaskOperand]
  rw [← written] at raws
  refine ⟨mnemonic, explicit, implicit, encoding, metadata, shape, raws, written, implicitRaws,
    ?_, ?_⟩
  · rw [written, takeWhile_isPresent_eq_self_iff]
  · rw [implicitRaws, takeWhile_isPresent_eq_self_iff]

def maskedLine : Text :=
  "VADDPS ; Vfv{K}{z},Hfv,Wfv ; EAX ; evex m:1 p:0 l:x w:0 0x58 /r ; w:W|R|R|R|R"

/-- A line with an absent marker among its operands. -/
def holedLine : Text := "ADD ; Gv,n/a,Ev ; ; 0x01 /r ; w:RW|R|R"

theorem operands_of_parse_maskedLine :
    ∃ i, parse .standard maskedLine = .ok (some i) ∧
      i.operands.map Operand.raw =
        ["Vfv{K}{z}".toList, "aKq".toList, "Hfv".toList, "Wfv".toList] ∧
      i.implicitOperands.map Operand.raw = ["EAX".toList] := by
  obtain ⟨i, parsed⟩ : ∃ i, parse .standard maskedLine = .ok (some i) :=
    exists_parse_of_isSome (by decide)
  obtain ⟨_, _, _, _, _, shape, raws, written, implicitRaws, _, _⟩ := operands_of_parse parsed
  have cut : (content maskedLine).splitOn ';' =
      ["VADDPS ".toList, " Vfv{K}{z},Hfv,Wfv ".toList, " EAX ".toList,
        " evex m:1 p:0 l:x w:0 0x58 /r ".toList, " w:W|R|R|R|R".toList] := by
    decide
  cases shape.symm.trans cut
  rw [written] at raws
  refine ⟨i, parsed, raws.trans (by decide), implicitRaws.trans (by decide +kernel)⟩

/-- A marker among other tokens ends the operands without an error. -/
theorem not_every_token_kept :
    ¬ ∀ (templates : Templates) (line : Text) (i : Instruction),
      parse templates line = .ok (some i) →
      ∃ mnemonic explicit implicit encoding metadata,
        (content line).splitOn ';' = [mnemonic, explicit, implicit, encoding, metadata] ∧
        i.writtenTokens = operandTokens explicit ∧
        i.implicitOperands.map Operand.raw = operandTokens implicit := by
  intro every
  obtain ⟨i, parsed⟩ : ∃ i, parse .standard holedLine = .ok (some i) :=
    exists_parse_of_isSome (by decide)
  obtain ⟨_, _, _, _, _, shape, kept, _⟩ := every _ _ _ parsed
  have lost : ((parse .standard holedLine).toOption.join).all
      fun i => i.writtenTokens = ["Gv".toList] := by
    decide
  rw [parsed] at lost
  have written : i.writtenTokens = ["Gv".toList] := of_decide_eq_true lost
  have cut : (content holedLine).splitOn ';' =
      ["ADD ".toList, " Gv,n/a,Ev ".toList, " ".toList, " 0x01 /r ".toList,
        " w:RW|R|R".toList] := by
    decide
  cases shape.symm.trans cut
  rw [written] at kept
  revert kept
  decide

end Line

end OpcodeAtlas
