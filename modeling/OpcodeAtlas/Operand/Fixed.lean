import OpcodeAtlas.Operand.Size

/-!
Fixed operands: registers and memory an instruction uses without encoding them. One register is
written under several names, one for each size.
-/

namespace OpcodeAtlas

/-- The register or memory of a fixed operand. -/
inductive FixedOperand where
  | ah | rAX | rCX | rDX | rBX | rBP | rSP | rSI | rDI | r8 | r9 | r11 | rIP | one | xmm0 | xmm1
  | xmm2 | xmm3 | xmm4 | xmm5 | xmm6 | xmm7 | st0 | stI | cs | ss | ds | es | fs | gs | cr0 | xcr
  | xcr0 | msr | tsc | tscAux | scs | seip | sesp | fsBase | gsBase | kernelGsBase | star | lstar
  | fmask | gdtr | idtr | ldtr | tr | bank | x87Control | x87Tag | x87Status | mxcsr | pkru | ssp
  | smt | dmt | pAX | pCX | pBXAL | pDI | pBP | shadowStack | shadowStack0 | shadowStackPushPop
  | userInterruptFlag
  deriving DecidableEq, Repr

instance : Vocabulary FixedOperand where
  kind := .operandType
  all := [.ah, .rAX, .rCX, .rDX, .rBX, .rBP, .rSP, .rSI, .rDI, .r8, .r9, .r11, .rIP, .one, .xmm0,
    .xmm1, .xmm2, .xmm3, .xmm4, .xmm5, .xmm6, .xmm7, .st0, .stI, .cs, .ss, .ds, .es, .fs, .gs,
    .cr0, .xcr, .xcr0, .msr, .tsc, .tscAux, .scs, .seip, .sesp, .fsBase, .gsBase, .kernelGsBase,
    .star, .lstar, .fmask, .gdtr, .idtr, .ldtr, .tr, .bank, .x87Control, .x87Tag, .x87Status,
    .mxcsr, .pkru, .ssp, .smt, .dmt, .pAX, .pCX, .pBXAL, .pDI, .pBP, .shadowStack, .shadowStack0,
    .shadowStackPushPop, .userInterruptFlag]
  spelling
    | .ah => "AH"
    | .rAX => "rAX"
    | .rCX => "rCX"
    | .rDX => "rDX"
    | .rBX => "rBX"
    | .rBP => "rBP"
    | .rSP => "rSP"
    | .rSI => "rSI"
    | .rDI => "rDI"
    | .r8 => "rR8"
    | .r9 => "rR9"
    | .r11 => "rR11"
    | .rIP => "rIP"
    | .one => "1"
    | .xmm0 => "XMM0"
    | .xmm1 => "XMM1"
    | .xmm2 => "XMM2"
    | .xmm3 => "XMM3"
    | .xmm4 => "XMM4"
    | .xmm5 => "XMM5"
    | .xmm6 => "XMM6"
    | .xmm7 => "XMM7"
    | .st0 => "ST0"
    | .stI => "STi"
    | .cs => "CS"
    | .ss => "SS"
    | .ds => "DS"
    | .es => "ES"
    | .fs => "FS"
    | .gs => "GS"
    | .cr0 => "CR0"
    | .xcr => "XCR"
    | .xcr0 => "XCR0"
    | .msr => "MSR"
    | .tsc => "TSC"
    | .tscAux => "TSCAUX"
    | .scs => "SCS"
    | .seip => "SEIP"
    | .sesp => "SESP"
    | .fsBase => "FSBASE"
    | .gsBase => "GSBASE"
    | .kernelGsBase => "KGSBASE"
    | .star => "STAR"
    | .lstar => "LSTAR"
    | .fmask => "FMASK"
    | .gdtr => "GDTR"
    | .idtr => "IDTR"
    | .ldtr => "LDTR"
    | .tr => "TR"
    | .bank => "BANK"
    | .x87Control => "X87CONTROL"
    | .x87Tag => "X87TAG"
    | .x87Status => "X87STATUS"
    | .mxcsr => "MXCSR"
    | .pkru => "PKRU"
    | .ssp => "SSP"
    | .smt => "SMT"
    | .dmt => "DMT"
    | .pAX => "pAX"
    | .pCX => "pCX"
    | .pBXAL => "pBXAL"
    | .pDI => "pDI"
    | .pBP => "pBP"
    | .shadowStack => "SHS"
    | .shadowStack0 => "SHS0"
    | .shadowStackPushPop => "SHSP"
    | .userInterruptFlag => "UIF"

namespace FixedOperand

/-- The names of the fixed operands. -/
def names : List (String × FixedOperand × OperandSize) :=
  [("AH", .ah, .b),
   ("AL", .rAX, .b),
   ("AX", .rAX, .w),
   ("EAX", .rAX, .d),
   ("RAX", .rAX, .q),
   ("eAX", .rAX, .z),
   ("rAX", .rAX, .v),
   ("yAX", .rAX, .y),
   ("CL", .rCX, .b),
   ("ECX", .rCX, .d),
   ("RCX", .rCX, .q),
   ("eCX", .rCX, .z),
   ("rCX", .rCX, .v),
   ("yCX", .rCX, .y),
   ("aCX", .rCX, .asz),
   ("DX", .rDX, .w),
   ("EDX", .rDX, .d),
   ("RDX", .rDX, .q),
   ("eDX", .rDX, .z),
   ("rDX", .rDX, .v),
   ("yDX", .rDX, .y),
   ("EBX", .rBX, .d),
   ("RBX", .rBX, .q),
   ("rBX", .rBX, .v),
   ("yBX", .rBX, .y),
   ("rBP", .rBP, .v),
   ("sBP", .rBP, .ssz),
   ("rSP", .rSP, .v),
   ("sSP", .rSP, .ssz),
   ("aSI", .rSI, .asz),
   ("aDI", .rDI, .asz),
   ("R8", .r8, .q),
   ("R9", .r9, .q),
   ("R11", .r11, .q),
   ("rIP", .rIP, .v),
   ("yIP", .rIP, .yf),
   ("1", .one, .b),
   ("XMM0", .xmm0, .dq),
   ("XMM1", .xmm1, .dq),
   ("XMM2", .xmm2, .dq),
   ("XMM3", .xmm3, .dq),
   ("XMM4", .xmm4, .dq),
   ("XMM5", .xmm5, .dq),
   ("XMM6", .xmm6, .dq),
   ("XMM7", .xmm7, .dq),
   ("ST(0)", .st0, .ft),
   ("ST(i)", .stI, .ft),
   ("CS", .cs, .v),
   ("SS", .ss, .v),
   ("DS", .ds, .v),
   ("ES", .es, .v),
   ("FS", .fs, .v),
   ("GS", .gs, .v),
   ("CR0", .cr0, .yf),
   ("XCR", .xcr, .q),
   ("XCR0", .xcr0, .q),
   ("MSR", .msr, .q),
   ("TSC", .tsc, .q),
   ("TSCAUX", .tscAux, .q),
   ("SCS", .scs, .q),
   ("SEIP", .seip, .q),
   ("SESP", .sesp, .q),
   ("FSBASE", .fsBase, .q),
   ("GSBASE", .gsBase, .q),
   ("KGSBASE", .kernelGsBase, .q),
   ("STAR", .star, .q),
   ("LSTAR", .lstar, .q),
   ("FMASK", .fmask, .q),
   ("GDTR", .gdtr, .s),
   ("IDTR", .idtr, .s),
   ("LDTR", .ldtr, .w),
   ("TR", .tr, .w),
   ("BANK", .bank, .unspecified),
   ("X87CONTROL", .x87Control, .w),
   ("X87TAG", .x87Tag, .w),
   ("X87STATUS", .x87Status, .w),
   ("MXCSR", .mxcsr, .d),
   ("PKRU", .pkru, .d),
   ("SSP", .ssp, .yf),
   ("SMT", .smt, .b4096),
   ("DMT", .dmt, .b4096),
   ("pAXb", .pAX, .b),
   ("pCXdq", .pCX, .dq),
   ("pBXALb", .pBXAL, .b),
   ("pDIq", .pDI, .q),
   ("pDIdq", .pDI, .dq),
   ("pBP", .pBP, .v),
   ("SHS", .shadowStack, .q),
   ("SHS0", .shadowStack0, .q),
   ("SHSI", .shadowStack, .v2),
   ("SHSS", .shadowStack, .b12),
   ("SHS1", .shadowStackPushPop, .v),
   ("SHS2", .shadowStackPushPop, .v2),
   ("SHS3", .shadowStackPushPop, .v3),
   ("SHS4", .shadowStackPushPop, .v4),
   ("UIF", .userInterruptFlag, .b)]

def find? (t : Text) : Option (FixedOperand × OperandSize) :=
  (names.find? fun entry => entry.1.toList == t).map (·.2)

end FixedOperand

end OpcodeAtlas
