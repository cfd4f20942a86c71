import OpcodeAtlas.Vocabulary

/-!
Exception types. The class of a type is read off the start of its spelling.
-/

namespace OpcodeAtlas

/-- The class of faults an instruction may raise. -/
inductive ExceptionType where
  | t1 | t2 | t3 | t4 | t5 | t6 | t7 | t8 | t9 | t10 | t11 | t12 | t13 | t14 | e1 | e1NF | e2 | e3
  | e3NF | e4 | e4nb | e4NF | e4NFnb | e4S | e5 | e5NF | e6 | e6NF | e7NM | e9 | e9NF | e10
  | e10NF | e10S | e11 | e12 | e12NP | k20 | k21 | amxE1 | amxE2 | amxE3 | amxE4 | amxE5 | amxE6
  | amxE7 | amxE8 | amxE9 | amxE10 | amxE11 | amxEvexE1 | amxEvexE2 | amxEvexE3 | amxEvexE4
  | amxEvexE5 | amxEvexE6 | amxEvexE7 | amxEvexE8 | amxEvexE9 | amxEvexE10 | amxEvexE11 | apxBmi
  | apxCcmp | apxCfcmov | apxCmpccxadd | apxEnqcmd | apxInt | apxInvept | apxInvpcid | apxInvvpid
  | apxKeylocker | apxKmov | apxMovrs | apxPp2 | apxRaoint | apxSha | apxUserMsr | apxWrss
  | apxWruss
  deriving DecidableEq, Repr

instance : Vocabulary ExceptionType where
  kind := .exceptionType
  all := [.t1, .t2, .t3, .t4, .t5, .t6, .t7, .t8, .t9, .t10, .t11, .t12, .t13, .t14, .e1, .e1NF,
    .e2, .e3, .e3NF, .e4, .e4nb, .e4NF, .e4NFnb, .e4S, .e5, .e5NF, .e6, .e6NF, .e7NM, .e9, .e9NF,
    .e10, .e10NF, .e10S, .e11, .e12, .e12NP, .k20, .k21, .amxE1, .amxE2, .amxE3, .amxE4, .amxE5,
    .amxE6, .amxE7, .amxE8, .amxE9, .amxE10, .amxE11, .amxEvexE1, .amxEvexE2, .amxEvexE3,
    .amxEvexE4, .amxEvexE5, .amxEvexE6, .amxEvexE7, .amxEvexE8, .amxEvexE9, .amxEvexE10,
    .amxEvexE11, .apxBmi, .apxCcmp, .apxCfcmov, .apxCmpccxadd, .apxEnqcmd, .apxInt, .apxInvept,
    .apxInvpcid, .apxInvvpid, .apxKeylocker, .apxKmov, .apxMovrs, .apxPp2, .apxRaoint, .apxSha,
    .apxUserMsr, .apxWrss, .apxWruss]
  spelling
    | .t1 => "1"
    | .t2 => "2"
    | .t3 => "3"
    | .t4 => "4"
    | .t5 => "5"
    | .t6 => "6"
    | .t7 => "7"
    | .t8 => "8"
    | .t9 => "9"
    | .t10 => "10"
    | .t11 => "11"
    | .t12 => "12"
    | .t13 => "13"
    | .t14 => "14"
    | .e1 => "E1"
    | .e1NF => "E1NF"
    | .e2 => "E2"
    | .e3 => "E3"
    | .e3NF => "E3NF"
    | .e4 => "E4"
    | .e4nb => "E4nb"
    | .e4NF => "E4NF"
    | .e4NFnb => "E4NFnb"
    | .e4S => "E4S"
    | .e5 => "E5"
    | .e5NF => "E5NF"
    | .e6 => "E6"
    | .e6NF => "E6NF"
    | .e7NM => "E7NM"
    | .e9 => "E9"
    | .e9NF => "E9NF"
    | .e10 => "E10"
    | .e10NF => "E10NF"
    | .e10S => "E10S"
    | .e11 => "E11"
    | .e12 => "E12"
    | .e12NP => "E12NP"
    | .k20 => "K20"
    | .k21 => "K21"
    | .amxE1 => "AMX_E1"
    | .amxE2 => "AMX_E2"
    | .amxE3 => "AMX_E3"
    | .amxE4 => "AMX_E4"
    | .amxE5 => "AMX_E5"
    | .amxE6 => "AMX_E6"
    | .amxE7 => "AMX_E7"
    | .amxE8 => "AMX_E8"
    | .amxE9 => "AMX_E9"
    | .amxE10 => "AMX_E10"
    | .amxE11 => "AMX_E11"
    | .amxEvexE1 => "AMX_EVEX_E1"
    | .amxEvexE2 => "AMX_EVEX_E2"
    | .amxEvexE3 => "AMX_EVEX_E3"
    | .amxEvexE4 => "AMX_EVEX_E4"
    | .amxEvexE5 => "AMX_EVEX_E5"
    | .amxEvexE6 => "AMX_EVEX_E6"
    | .amxEvexE7 => "AMX_EVEX_E7"
    | .amxEvexE8 => "AMX_EVEX_E8"
    | .amxEvexE9 => "AMX_EVEX_E9"
    | .amxEvexE10 => "AMX_EVEX_E10"
    | .amxEvexE11 => "AMX_EVEX_E11"
    | .apxBmi => "APX_EVEX_BMI"
    | .apxCcmp => "APX_EVEX_CCMP"
    | .apxCfcmov => "APX_EVEX_CFCMOV"
    | .apxCmpccxadd => "APX_EVEX_CMPCCXADD"
    | .apxEnqcmd => "APX_EVEX_ENQCMD"
    | .apxInt => "APX_EVEX_INT"
    | .apxInvept => "APX_EVEX_INVEPT"
    | .apxInvpcid => "APX_EVEX_INVPCID"
    | .apxInvvpid => "APX_EVEX_INVVPID"
    | .apxKeylocker => "APX_EVEX_KEYLOCKER"
    | .apxKmov => "APX_EVEX_KMOV"
    | .apxMovrs => "APX_EVEX_MOVRS"
    | .apxPp2 => "APX_EVEX_PP2"
    | .apxRaoint => "APX_EVEX_RAOINT"
    | .apxSha => "APX_EVEX_SHA"
    | .apxUserMsr => "APX_EVEX_USER_MSR"
    | .apxWrss => "APX_EVEX_WRSS"
    | .apxWruss => "APX_EVEX_WRUSS"

inductive ExceptionClass where
  | sseAvx | evex | opmask | amx | apx
  deriving DecidableEq, Repr

def ExceptionClass.name : ExceptionClass → Text
  | sseAvx => "SSE/AVX"
  | evex => "EVEX"
  | opmask => "OPMASK"
  | amx => "AMX"
  | apx => "APX"

def ExceptionType.exceptionClass (e : ExceptionType) : ExceptionClass :=
  let t := Vocabulary.token e
  if "AMX_".toList.isPrefixOf t then .amx
  else if "APX_".toList.isPrefixOf t then .apx
  else if "K".toList.isPrefixOf t then .opmask
  else if "E".toList.isPrefixOf t then .evex
  else .sseAvx

end OpcodeAtlas
