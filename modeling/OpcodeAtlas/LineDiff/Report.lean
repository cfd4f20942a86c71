import OpcodeAtlas.LineDiff.Alignment
import OpcodeAtlas.Text.Number

/-!
Comparing an expected with an actual text, and reporting their difference with line numbers.
-/

namespace OpcodeAtlas.LineDiff

/-- Blanks at the end of a line are made visible. -/
def showBlank (c : Char) : Char :=
  if c = '\t' then '→' else if c = ' ' then '•' else c

def showLine (line : Text) : Text :=
  let content := line.trimEnd
  content ++ (line.drop content.length).map showBlank

structure Comparison where
  file : Text
  /-- The line of the file that the expected text starts on. -/
  line : Nat
  expected : Text
  actual : Text
  deriving DecidableEq, Repr

namespace Comparison

/-- Why the comparison fails, if it does. -/
def failure? (c : Comparison) : Option Text :=
  if c.expected = c.actual then none else some "invalid result"

def entryLine (number : Nat) (mark : Char) (line : Text) : Text :=
  Text.padLeft 5 ' ' (Text.decimal number) ++ [' ', mark, ' '] ++ showLine line ++ "↴"

/-- The lines of a report. `expected` numbers the next expected line; actual lines without an
expected one count on from `actual`, the line after the last shared one. -/
def entryLines (expected actual : Nat) : List (Edit Text) → List Text
  | [] => []
  | .left l :: es => entryLine expected '-' l :: entryLines (expected + 1) actual es
  | .both l :: es => entryLine expected '|' l :: entryLines (expected + 1) (expected + 1) es
  | .right l :: es => entryLine actual '+' l :: entryLines expected (actual + 1) es

/-- Where the comparison belongs, unless it has no file. -/
def heading (c : Comparison) : List Text :=
  if c.file.isEmpty then []
  else ["     --> " ++ c.file ++ ":" ++ Text.decimal c.line]

def report (c : Comparison) : Text :=
  let first := max c.line 1
  Text.unlines (c.heading ++ entryLines first first (lineEdits c.expected c.actual))

end Comparison

end OpcodeAtlas.LineDiff
