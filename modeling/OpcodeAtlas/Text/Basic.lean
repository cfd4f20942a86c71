/-!
Texts as lists of characters, with the cuts the specification format needs: trimming, words, lines,
the first separator, and literal search and replacement. Blanks are the characters with the Unicode
property `White_Space`.
-/

namespace OpcodeAtlas

abbrev Text := List Char

instance : Coe String Text := ⟨String.toList⟩

namespace Text

/-! ### Trimming -/

/-- The ranges of code points with the property `White_Space`, ends included. -/
def blankRanges : List (Nat × Nat) :=
  [(0x09, 0x0D), (0x20, 0x20), (0x85, 0x85), (0xA0, 0xA0), (0x1680, 0x1680), (0x2000, 0x200A),
    (0x2028, 0x2029), (0x202F, 0x202F), (0x205F, 0x205F), (0x3000, 0x3000)]

def isBlank (c : Char) : Bool :=
  blankRanges.any fun range => range.1 ≤ c.toNat && c.toNat ≤ range.2

def trimStart (t : Text) : Text := t.dropWhile isBlank

def trimEnd (t : Text) : Text := (t.reverse.dropWhile isBlank).reverse

def trim (t : Text) : Text := trimEnd (trimStart t)

def isBlankText (t : Text) : Bool := t.all isBlank

/-- Blank lines and lines that start with a hash, after blanks, hold no data. -/
def isComment (line : Text) : Bool :=
  match line.trim with
  | [] => true
  | c :: _ => c = '#'

/-! ### Cutting -/

/-- The parts before and after the first `sep`. -/
def cut (sep : Char) : Text → Option (Text × Text)
  | [] => none
  | c :: r => if c = sep then some ([], r) else (cut sep r).map fun p => (c :: p.1, p.2)

/-- The pieces between separators, each trimmed. -/
def trimmedPieces (sep : Char) (t : Text) : List Text := (t.splitOn sep).map trim

/-- The maximal runs of characters that are not blank. -/
def words (t : Text) : List Text := (t.splitOnP isBlank).filter (!·.isEmpty)

/-- Drops one carriage return from the end. -/
def dropReturn (t : Text) : Text := if t.getLast? = some '\r' then t.dropLast else t

/-- The lines of a text. A line feed ends a line, together with one carriage return before it; what
follows the last line feed is a line only if it is not empty, and keeps its carriage return. -/
def lines (t : Text) : List Text :=
  let pieces := t.splitOn '\n'
  let rest := pieces.getLastD []
  pieces.dropLast.map dropReturn ++ if rest.isEmpty then [] else [rest]

/-- Every line followed by a line feed. -/
def unlines (ls : List Text) : Text := ls.flatMap (· ++ ['\n'])

/-! ### Literal search -/

def occurs (pattern : Text) : Text → Bool
  | [] => pattern.isEmpty
  | c :: r => pattern.isPrefixOf (c :: r) || occurs pattern r

/-- Whether the first occurrence of `pattern` is there and not at the very start. -/
def occursInside (pattern t : Text) : Bool := occurs pattern t && !pattern.isPrefixOf t

/-- Replaces the occurrences of a pattern found from left to right, after `skip` characters that the
last occurrence still covers. -/
def replaceFrom (pattern new : Text) : Nat → Text → Text
  | _, [] => []
  | skip + 1, _ :: r => replaceFrom pattern new skip r
  | 0, c :: r =>
    if pattern.isPrefixOf (c :: r) then new ++ replaceFrom pattern new (pattern.length - 1) r
    else c :: replaceFrom pattern new 0 r

/-- Replaces every occurrence of a non-empty pattern, from left to right and without overlaps. -/
def replace (pattern new t : Text) : Text := replaceFrom pattern new 0 t

theorem occurs_iff {pattern t : Text} : occurs pattern t = true ↔ pattern <:+: t := by
  induction t with
  | nil => simp [occurs]
  | cons c r ih => simp [occurs, List.infix_cons_iff, ih]

theorem occursInside_iff {pattern t : Text} :
    occursInside pattern t = true ↔ pattern <:+: t ∧ ¬ pattern <+: t := by
  rw [occursInside, Bool.and_eq_true, occurs_iff, Bool.not_eq_true', ← Bool.not_eq_true,
    List.isPrefixOf_iff_prefix]

end Text

end OpcodeAtlas
