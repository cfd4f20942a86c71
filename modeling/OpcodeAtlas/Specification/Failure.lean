import OpcodeAtlas.Dispatch.Residual
import OpcodeAtlas.Specification.Source

/-!
Failures of loading a specification and of building its decision trees, with the place they
happened: a source, a line of a source, or an encoding family.
-/

namespace OpcodeAtlas.Specification

inductive Failure where
  | unreadable (name : Text) (error : ReadError)
  /-- A line that cannot be read; lines count from one. -/
  | line (name : Text) (number : Nat) (error : SpecError)
  | tree (family : Family) (error : Dispatch.GroupError)
  deriving DecidableEq, Repr

namespace Failure

/-- The source or the family. -/
def place : Failure → Text
  | unreadable name _ => name
  | line name _ _ => name
  | tree family _ => family.name

def lineNumber? : Failure → Option Nat
  | line _ number _ => some number
  | _ => none

/-- What is wrong with the specification, if the failure is about its content. -/
def specError? : Failure → Option SpecError
  | unreadable _ _ => none
  | line _ _ e => some e
  | tree _ e => e.specError?

/-- What went wrong, without the place. -/
def reason : Failure → Text
  | unreadable _ e => e.message
  | line _ _ e => e.message
  | tree _ e => e.message

def message (f : Failure) : Text :=
  match f with
  | unreadable name _ => "failed to read source file \"" ++ name ++ "\", " ++ f.reason
  | line name number _ =>
    "parsing failed at " ++ name ++ ":" ++ Text.decimal number ++ ": " ++ f.reason
  | tree family _ => "failed to build " ++ family.name ++ " decode tree, " ++ f.reason

end Failure

end OpcodeAtlas.Specification
