import OpcodeAtlas.OrderedSet

/-!
Legacy prefixes an instruction accepts.
-/

namespace OpcodeAtlas

/-- A legacy prefix. -/
inductive LegacyPrefix where
  | rep | conditionalRep | hle | bnd | lock | branchHint | xacquire | xrelease | hleWithoutLock
  | doNotTrack
  deriving DecidableEq, Repr

instance : Vocabulary LegacyPrefix where
  kind := .legacyPrefix
  all := [.rep, .conditionalRep, .hle, .bnd, .lock, .branchHint, .xacquire, .xrelease,
    .hleWithoutLock, .doNotTrack]
  spelling
    | .rep => "REP"
    | .conditionalRep => "REPC"
    | .hle => "HLE"
    | .bnd => "BND"
    | .lock => "LOCK"
    | .branchHint => "BH"
    | .xacquire => "XACQUIRE"
    | .xrelease => "XRELEASE"
    | .hleWithoutLock => "HLEWOL"
    | .doNotTrack => "DNT"

abbrev LegacyPrefixes := OrderedSet LegacyPrefix

end OpcodeAtlas
