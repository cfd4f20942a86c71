/-!
The templates every specification starts from.
-/

namespace OpcodeAtlas.Templates

/-- Flags access by name. -/
def standardFlags : List (String × String) :=
  [("ARITH", "CF=m|PF=m|AF=m|ZF=m|SF=m|OF=m"),
   ("ARITHC", "CF=t|CF=m|PF=m|AF=m|ZF=m|SF=m|OF=m"),
   ("INCDEC", "PF=m|AF=m|ZF=m|SF=m|OF=m"),
   ("LOGIC", "CF=0|PF=m|AF=u|ZF=m|SF=m|OF=0"),
   ("ROT", "CF=m|OF=m"),
   ("ROTC", "CF=t|CF=m|OF=m"),
   ("SHIFT", "CF=m|PF=m|AF=u|ZF=m|SF=m|OF=m"),
   ("SHIFTD", "CF=u|PF=m|AF=u|ZF=m|SF=m|OF=u"),
   ("MUL", "CF=m|PF=u|AF=u|ZF=u|SF=u|OF=m"),
   ("DIV", "CF=u|PF=u|AF=u|ZF=u|SF=u|OF=u"),
   ("AADM", "CF=u|PF=m|AF=u|ZF=m|SF=m|OF=u"),
   ("AAAS", "CF=m|PF=u|AF=t|AF=m|ZF=u|SF=u|OF=u"),
   ("DAAS", "CF=t|CF=m|PF=m|AF=t|AF=m|ZF=m|OF=u"),
   ("IO", "IOPL=t|VM=t"),
   ("IOS", "DF=t|IOPL=t|VM=t"),
   ("INT", "VM=t|VM=m|IF=m|NT=m|AC=m|RF=m|TF=m"),
   ("CMPS", "CF=m|PF=m|AF=m|ZF=m|SF=m|OF=m|DF=t"),
   ("REPCMPS", "CF=m|PF=m|AF=m|ZF=t|ZF=m|SF=m|OF=m|DF=t"),
   ("PCMPSTR", "CF=m|PF=0|AF=0|ZF=m|SF=m|OF=m"),
   ("MOVCRDR", "CF=u|PF=u|AF=u|ZF=u|SF=u|OF=u"),
   ("VMX", "CF=m|PF=0|AF=0|ZF=m|SF=0|OF=0"),
   ("BT", "CF=m|PF=u|AF=u|SF=u|OF=u"),
   ("COMIS", "CF=m|PF=m|ZF=m"),
   ("VPTEST", "CF=m|PF=0|AF=0|ZF=m|SF=0|OF=0"),
   ("WAITPKG", "CF=m|PF=0|AF=0|ZF=0|SF=0|OF=0"),
   ("ENQCMD", "CF=0|PF=0|AF=0|ZF=m|SF=0|OF=0"),
   ("KORTEST", "CF=m|PF=0|AF=0|ZF=m|SF=0|OF=0"),
   ("CO", "OF=t"),
   ("CNO", "OF=t"),
   ("CC", "CF=t"),
   ("CNC", "CF=t"),
   ("CZ", "ZF=t"),
   ("CNZ", "ZF=t"),
   ("CBE", "CF=t|ZF=t"),
   ("CNBE", "CF=t|ZF=t"),
   ("CS", "SF=t"),
   ("CNS", "SF=t"),
   ("CP", "PF=t"),
   ("CNP", "PF=t"),
   ("CL", "SF=t|OF=t"),
   ("CNL", "SF=t|OF=t"),
   ("CLE", "SF=t|ZF=t|OF=t"),
   ("CNLE", "SF=t|ZF=t|OF=t"),
   ("AESKL", "CF=0|PF=0|AF=0|ZF=m|SF=0|OF=0"),
   ("ZERO", "CF=0|PF=0|AF=0|ZF=0|SF=0|OF=0"),
   ("UINTR", "CF=m|PF=0|AF=0|ZF=0|SF=0|OF=0"),
   ("CMPSFP", "CF=m|PF=m|AF=0|ZF=m|SF=m|OF=m")]

/-- CPU modes by name. -/
def standardModes : List (String × String) :=
  [("VMXROOT", "ring=r0|vmx=vmxr+vmxr_seam|mode=prot+long|other=sgx_off+tsx_off+smm_off"),
   ("VMX", "vmx=!vmx_off"),
   ("VMXNROOT", "vmx=vmxn+vmxn_seam"),
   ("KERNEL", "ring=r0|other=!sgx"),
   ("USER", "ring=r3"),
   ("NOREAL", "mode=!real+!v8086"),
   ("NOV86", "mode=!v8086"),
   ("O64", "mode=long"),
   ("NO64", "mode=!long"),
   ("NOTSX", "other=!tsx"),
   ("NOSGX", "other=!sgx"),
   ("SMM", "other=!smm_off"),
   ("NOSMM", "mode=!real+!v8086|other=!smm"),
   ("SEAMR", "ring=r0|mode=long|vmx=vmxr_seam"),
   ("SEAMN", "mode=long|vmx=vmxr+vmxn+vmxn_seam|other=!smm")]

end OpcodeAtlas.Templates
