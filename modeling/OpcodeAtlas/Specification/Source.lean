import OpcodeAtlas.Text.Basic

/-!
Sources of a specification: texts under a name. A source is held in memory or is a file, which may
be missing or hold bytes that are no text.
-/

namespace OpcodeAtlas.Specification

inductive Content where
  | memory (text : Text)
  /-- The bytes of a file, if there is such a file. -/
  | file (bytes : Option ByteArray)

structure Source where
  name : Text
  content : Content

/-- Why a source cannot be read. -/
inductive ReadError where
  | missing
  | notUtf8
  deriving DecidableEq, Repr

def ReadError.message : ReadError → Text
  | missing => "No such file or directory (os error 2)"
  | notUtf8 => "stream did not contain valid UTF-8"

/-- The text of a content; a byte order mark belongs to the text. -/
def Content.read : Content → Except ReadError Text
  | memory text => .ok text
  | file none => .error .missing
  | file (some bytes) =>
    match String.fromUTF8? bytes with
    | some s => .ok s.toList
    | none => .error .notUtf8

end OpcodeAtlas.Specification
