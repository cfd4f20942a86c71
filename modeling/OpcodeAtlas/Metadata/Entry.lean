import OpcodeAtlas.Vocabulary

/-!
Metadata entries, a key and a value around the only colon of the entry.
-/

namespace OpcodeAtlas

/-- The key of a metadata entry. -/
inductive MetaKey where
  | instructionClass | category | instructionSet | featureId | attributes | prefixes | access
  | tuple | evexMode | exception | flags | fpuFlags | modes | simdExceptions
  deriving DecidableEq, Repr

instance : Vocabulary MetaKey where
  kind := .metaKey
  all := [.instructionClass, .category, .instructionSet, .featureId, .attributes, .prefixes,
    .access, .tuple, .evexMode, .exception, .flags, .fpuFlags, .modes, .simdExceptions]
  spelling
    | .instructionClass => "c"
    | .category => "t"
    | .instructionSet => "s"
    | .featureId => "i"
    | .attributes => "a"
    | .prefixes => "p"
    | .access => "w"
    | .tuple => "l"
    | .evexMode => "v"
    | .exception => "e"
    | .flags => "f"
    | .fpuFlags => "u"
    | .modes => "m"
    | .simdExceptions => "x"

structure MetaEntry where
  key : MetaKey
  value : Text
  deriving DecidableEq, Repr

def MetaEntry.parse (entry : Text) : Except SpecError MetaEntry :=
  match entry.trim.cut ':' with
  | none => .error (.malformed .metadataEntry entry.trim)
  | some (key, value) =>
    if ':' ∈ value then .error (.malformed .metadataEntry entry.trim)
    else do
      let key ← Vocabulary.parse key.trim
      return ⟨key, value.trim⟩

end OpcodeAtlas
