import OpcodeAtlas.Text.Number

/-!
The child that an encoding value selects. Symbolic values have fixed indices; every other value is a
hexadecimal number of at most 64 bits, with or without its marker.
-/

namespace OpcodeAtlas.Dispatch

def symbolicIndices : List (String × Nat) :=
  [("None", 0),
   ("mem", 0), ("reg", 1),
   ("PNP", 0), ("P0x66", 1), ("P0xF3", 2), ("P0xF2", 3),
   ("repz", 1), ("rep", 2), ("rexb", 3), ("rexw", 4), ("mo64", 5), ("riprel", 6), ("rex2", 7),
   ("rex2w", 8),
   ("m16", 1), ("m32", 2), ("m64", 3),
   ("as16", 1), ("as32", 2), ("as64", 3),
   ("ds16", 1), ("ds32", 2), ("ds64", 3), ("dd64", 4), ("df64", 5),
   ("any", 0), ("intel", 1), ("amd", 2),
   ("mpx", 1), ("cet", 2), ("cldm", 3), ("piti", 4), ("movrs", 5), ("bhi", 6)]

def symbolicIndex? (value : Text) : Option Nat :=
  (symbolicIndices.find? fun entry => entry.1.toList == value).map (·.2)

def numericIndex? (value : Text) : Option Nat :=
  Text.numberBelow? 16 (Nat.pow 2 64) (("0x".toList.isPrefixOf? value).getD value)

def childIndex? (value : Text) : Option Nat := symbolicIndex? value <|> numericIndex? value

end OpcodeAtlas.Dispatch
