import OpcodeAtlas.OrderedSet

/-!
SIMD floating-point exceptions.
-/

namespace OpcodeAtlas

/-- A SIMD floating-point exception. -/
inductive SimdException where
  | invalid | denormal | divideByZero | overflow | underflow | precision
  deriving DecidableEq, Repr

instance : Vocabulary SimdException where
  kind := .simdException
  all := [.invalid, .denormal, .divideByZero, .overflow, .underflow, .precision]
  spelling
    | .invalid => "IE"
    | .denormal => "DE"
    | .divideByZero => "ZE"
    | .overflow => "OE"
    | .underflow => "UE"
    | .precision => "PE"

abbrev SimdExceptions := OrderedSet SimdException

end OpcodeAtlas
