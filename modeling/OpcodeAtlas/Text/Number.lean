import OpcodeAtlas.Text.Basic

/-!
Unsigned numbers as texts. A numeral is a non-empty run of digits with at most one leading plus;
`number?` reads it as a number of any size and `numberBelow?` refuses values past a bound.
-/

namespace OpcodeAtlas.Text

/-- The value of an ASCII digit or letter in `base`, both cases of a letter alike. -/
def digit? (base : Nat) (c : Char) : Option Nat :=
  let value :=
    if '0' ≤ c ∧ c ≤ '9' then some (c.toNat - '0'.toNat)
    else if 'a' ≤ c ∧ c ≤ 'z' then some (c.toNat - 'a'.toNat + 10)
    else if 'A' ≤ c ∧ c ≤ 'Z' then some (c.toNat - 'A'.toNat + 10)
    else none
  value.filter (· < base)

def ofDigits (base : Nat) (digits : List Nat) : Nat :=
  digits.foldl (fun n d => base * n + d) 0

/-- A numeral without a sign. -/
def digits? (base : Nat) (t : Text) : Option Nat :=
  if t.isEmpty then none else (t.mapM (digit? base)).map (ofDigits base)

def number? (base : Nat) : Text → Option Nat
  | '+' :: r => digits? base r
  | t => digits? base t

def numberBelow? (base bound : Nat) (t : Text) : Option Nat :=
  (number? base t).filter (· < bound)

def decimal (n : Nat) : Text := Nat.toDigits 10 n

/-- Lower case, without a marker. -/
def hex (n : Nat) : Text := Nat.toDigits 16 n

/-- Fills up to `width` from the left. -/
def padLeft (width : Nat) (fill : Char) (t : Text) : Text :=
  List.replicate (width - t.length) fill ++ t

end OpcodeAtlas.Text
