import OpcodeAtlas.Operand.Basic

/-!
Reading operand tokens: a fixed name, or an explicit type followed by a size, with decorators
anywhere and one block suffix at the end. The suffix is taken off first, then the decorators.
-/

namespace OpcodeAtlas.Operand

def isDecimalDigit (c : Char) : Bool := decide ('0' ≤ c ∧ c ≤ '9')

/-- A token without its block suffix, and the number of registers the suffix stands for. -/
def stripBlock (t : Text) : Text × Nat :=
  match "+3".toList.isSuffixOf? t, "+1".toList.isSuffixOf? t with
  | some rest, _ => (rest, 4)
  | none, some rest => (rest, 2)
  | none, none =>
    match t with
    | 'X' :: 'M' :: 'M' :: first :: '-' :: last :: _ =>
      if isDecimalDigit first && isDecimalDigit last && first ≤ last then
        (['X', 'M', 'M', first], last.toNat - first.toNat + 1)
      else (t, 0)
    | _ => (t, 0)

/-- The first type a token starts with, and the rest of the token. -/
def typeAndRest? (t : Text) : Option (OperandType × Text) :=
  Vocabulary.all.findSome? fun type =>
    ((Vocabulary.token type).isPrefixOf? t).map fun rest => (type, rest)

/-- The size written after a type. A mask register without a known size has 64 bits, and a default
flags value has no size. -/
def sizeOf? (type : OperandType) (rest : Text) : Option OperandSize :=
  match type, Vocabulary.find? rest with
  | .dfv, _ => some .zero
  | .rK, none | .mK, none | .vK, none | .aK, none => some .q
  | _, size => size

def kindAndSize? (t : Text) : Option (OperandKind × OperandSize) :=
  match FixedOperand.find? t with
  | some (fixed, size) => some (.fixed fixed, size)
  | none => do
    let (type, rest) ← typeAndRest? t
    let size ← sizeOf? type rest
    return (.encoded type, size)

def encodingOf (raw : Text) (kind : OperandKind) : OperandEncoding :=
  let byKind :=
    match kind with
    | .encoded type => OperandEncoding.ofType? type
    | .fixed .one => some .constantOne
    | .fixed _ => none
  (byKind <|> OperandEncoding.ofRaw? raw).getD .implicit

/-- Reads a token. An implicit operand always carries the default flag. -/
def parse (raw : Text) (access : OperandAccess) (flags : List OperandFlag) (implicit : Bool) :
    Except SpecError Operand :=
  let (unblocked, block) := stripBlock raw
  let (bare, decorators) := Decorators.strip unblocked
  match kindAndSize? bare with
  | none => .error (.invalidOperand raw)
  | some (kind, size) =>
    .ok {
      raw, kind, size, decorators, access, block, implicit
      encoding := encodingOf raw kind
      flags := if implicit && !flags.contains .isDefault then flags ++ [.isDefault] else flags }

theorem parse_eq_ok_iff {raw : Text} {access : OperandAccess} {flags : List OperandFlag}
    {implicit : Bool} {o : Operand} :
    parse raw access flags implicit = .ok o ↔
      ∃ kind size,
        kindAndSize? (Decorators.strip (stripBlock raw).1).1 = some (kind, size) ∧
        o = {
          raw, kind, size, access, implicit
          decorators := (Decorators.strip (stripBlock raw).1).2
          block := (stripBlock raw).2
          encoding := encodingOf raw kind
          flags :=
            if implicit && !flags.contains .isDefault then flags ++ [.isDefault] else flags } := by
  unfold parse
  dsimp only
  cases read : kindAndSize? (Decorators.strip (stripBlock raw).1).1 with
  | none => simp
  | some found =>
    constructor
    · intro made
      exact ⟨found.1, found.2, rfl, (Except.ok.inj made).symm⟩
    · rintro ⟨kind, size, same, rfl⟩
      cases same
      rfl

theorem raw_of_parse {raw : Text} {access : OperandAccess} {flags : List OperandFlag}
    {implicit : Bool} {o : Operand} (h : parse raw access flags implicit = .ok o) :
    o.raw = raw := by
  obtain ⟨kind, size, _, rfl⟩ := parse_eq_ok_iff.1 h
  rfl

theorem access_of_parse {raw : Text} {access : OperandAccess} {flags : List OperandFlag}
    {implicit : Bool} {o : Operand} (h : parse raw access flags implicit = .ok o) :
    o.access = access := by
  obtain ⟨kind, size, _, rfl⟩ := parse_eq_ok_iff.1 h
  rfl

theorem flags_of_parse {raw : Text} {access : OperandAccess} {flags : List OperandFlag}
    {implicit : Bool} {o : Operand} (h : parse raw access flags implicit = .ok o) :
    o.flags =
      if implicit && !flags.contains .isDefault then flags ++ [.isDefault] else flags := by
  obtain ⟨kind, size, _, rfl⟩ := parse_eq_ok_iff.1 h
  rfl

theorem parse_eq_error {raw : Text} {access : OperandAccess} {flags : List OperandFlag}
    {implicit : Bool} {e : SpecError} (h : parse raw access flags implicit = .error e) :
    e = .invalidOperand raw := by
  unfold parse at h
  dsimp only at h
  split at h
  · cases h
    rfl
  · cases h

end OpcodeAtlas.Operand
