import Mathlib.Data.List.Basic
import Mathlib.Data.Nat.Digits.Defs
import OpcodeAtlas.Proofs.Text.Words
import OpcodeAtlas.Text.Number

/-!
Written texts that can be read back: numbers (`number?_of_digits?`, `digits?_toDigits`), filled up
with zeros or not (`digits?_padLeft_hex`), the two sides of a separator (`cut_append_cons`), joined
pieces (`trimmedPieces_intercalate`), and lines (`splitOn_unlines`).
-/

namespace OpcodeAtlas.Text

/-! ### Numbers -/

theorem ofDigits_concat (base : Nat) (digits : List Nat) (d : Nat) :
    ofDigits base (digits ++ [d]) = base * ofDigits base digits + d := by
  simp [ofDigits]

theorem ofDigits_zero_cons (base : Nat) (digits : List Nat) :
    ofDigits base (0 :: digits) = ofDigits base digits := by
  simp [ofDigits]

theorem digit?_digitChar {base d : Nat} (small : d < base) (few : base ≤ 16) :
    digit? base d.digitChar = some d := by
  have all : ∀ d < 16, digit? 16 (Nat.digitChar d) = some d := by decide
  have hexadecimal := Option.filter_eq_some_iff.1 (all d (by omega))
  exact Option.filter_eq_some_iff.2 ⟨hexadecimal.1, decide_eq_true small⟩

theorem digits?_zero_cons {base n : Nat} (positive : 0 < base) {t : Text}
    (read : digits? base t = some n) : digits? base ('0' :: t) = some n := by
  have zero : digit? base '0' = some 0 := by simp [digit?, positive]
  unfold digits? at read ⊢
  split at read
  · cases read
  · obtain ⟨digits, digitwise, rfl⟩ := Option.map_eq_some_iff.1 read
    simp [List.mapM_cons, zero, digitwise, ofDigits_zero_cons]

theorem digits?_toDigits {base : Nat} (two : 1 < base) (few : base ≤ 16) (n : Nat) :
    digits? base (Nat.toDigits base n) = some n := by
  have digitwise : ∃ digits,
      (Nat.toDigits base n).mapM (digit? base) = some digits ∧ ofDigits base digits = n := by
    induction n using Nat.strongRecOn with
    | ind n ih =>
      by_cases small : n < base
      · rw [Nat.toDigits_of_lt_base small]
        exact ⟨[n], by simp [List.mapM_cons, digit?_digitChar small few], by simp [ofDigits]⟩
      · have positive : 0 < n := by omega
        rw [Nat.toDigits_of_base_le two (Nat.le_of_not_lt small)]
        obtain ⟨digits, front, value⟩ := ih (n / base) (Nat.div_lt_self positive two)
        have last := digit?_digitChar (Nat.mod_lt n (show base > 0 by omega)) few
        refine ⟨digits ++ [n % base], ?_, ?_⟩
        · simp [List.mapM_append, List.mapM_cons, front, last]
        · rw [ofDigits_concat, value]
          exact Nat.div_add_mod n base
  obtain ⟨digits, made, value⟩ := digitwise
  have written : (Nat.toDigits base n).isEmpty = false := by
    rw [List.isEmpty_eq_false_iff]
    exact Nat.toDigits_ne_nil
  simp [digits?, written, made, value]

theorem digits?_hex (n : Nat) : digits? 16 (hex n) = some n :=
  digits?_toDigits (by decide) (by decide) n

theorem digits?_decimal (n : Nat) : digits? 10 (decimal n) = some n :=
  digits?_toDigits (by decide) (by decide) n

/-- Zeros in front do not change the number. -/
theorem digits?_padLeft_hex (width n : Nat) : digits? 16 (padLeft width '0' (hex n)) = some n := by
  unfold padLeft
  induction width - (hex n).length with
  | zero => exact digits?_hex n
  | succ zeros ih => exact digits?_zero_cons (by decide) ih

theorem notMem_of_mapM {f : Char → Option Nat} {c : Char} (alien : f c = none) {t : Text}
    {digits : List Nat} (made : t.mapM f = some digits) : c ∉ t := by
  induction t generalizing digits with
  | nil => simp
  | cons d t ih =>
    obtain ⟨v, first, rest, others, _⟩ : ∃ v, f d = some v ∧
        ∃ rest, t.mapM f = some rest ∧ v :: rest = digits := by
      simpa [List.mapM_cons, Option.bind_eq_some_iff] using made
    rw [List.mem_cons, not_or]
    refine ⟨?_, ih others⟩
    rintro rfl
    cases alien.symm.trans first

/-- A numeral holds nothing but digits. -/
theorem notMem_of_digits? {base n : Nat} {c : Char} (alien : digit? base c = none) {t : Text}
    (read : digits? base t = some n) : c ∉ t := by
  unfold digits? at read
  split at read
  · cases read
  · obtain ⟨digits, made, _⟩ := Option.map_eq_some_iff.1 read
    exact notMem_of_mapM alien made

theorem isBlank_of_digit? {base d : Nat} {c : Char} (read : digit? base c = some d) :
    isBlank c = false := by
  obtain ⟨value, _⟩ := Option.filter_eq_some_iff.1 read
  have run : ∀ low high : Nat, low ≤ c.toNat → c.toNat ≤ high → 0x20 < low → high < 0x85 →
      isBlank c = false := by
    intro low high above below start stop
    simp [isBlank, blankRanges]
    omega
  split at value
  · next range => exact run 48 57 range.1 range.2 (by decide) (by decide)
  · split at value
    · next range => exact run 97 122 range.1 range.2 (by decide) (by decide)
    · split at value
      · next range => exact run 65 90 range.1 range.2 (by decide) (by decide)
      · cases value

theorem solid_of_digits? {base n : Nat} {t : Text} (read : digits? base t = some n) : Solid t := by
  intro c member
  cases digit : digit? base c with
  | some d => exact isBlank_of_digit? digit
  | none => exact absurd member (notMem_of_digits? digit read)

theorem number?_of_digits? {base n : Nat} {t : Text} (read : digits? base t = some n) :
    number? base t = some n := by
  have sign : digit? base '+' = none := by simp [digit?]
  have unsigned : '+' ∉ t := notMem_of_digits? sign read
  rw [number?.eq_2 base t (fun r same => unsigned (same ▸ List.mem_cons_self))]
  exact read

theorem numberBelow?_eq_some_iff {base bound n : Nat} {t : Text} :
    numberBelow? base bound t = some n ↔ number? base t = some n ∧ n < bound := by
  simp [numberBelow?]

/-! ### Trimming -/

theorem trim_of_solid {t : Text} (solid : Solid t) : trim t = t := by
  have kept : ∀ {t : Text}, Solid t → t.dropWhile isBlank = t := by
    intro t solid
    cases t with
    | nil => rfl
    | cons c t => rw [List.dropWhile_cons_of_neg (by simp [solid c List.mem_cons_self])]
  have backwards : Solid t.reverse := fun c member => solid c (List.mem_reverse.1 member)
  rw [trim, trimStart, kept solid, trimEnd, kept backwards, List.reverse_reverse]

theorem trim_cons {c : Char} (blank : isBlank c = true) (t : Text) : trim (c :: t) = trim t := by
  rw [trim, trimStart, List.dropWhile_cons_of_pos blank]
  rfl

theorem mem_of_mem_trim {t : Text} {c : Char} (member : c ∈ trim t) : c ∈ t := by
  have started := (List.dropWhile_sublist isBlank).subset (List.mem_reverse.1 member)
  exact (List.dropWhile_sublist isBlank).subset (List.mem_reverse.1 started)

/-! ### Separators -/

theorem cut_append_cons {sep : Char} {front : Text} (none : sep ∉ front) (rest : Text) :
    cut sep (front ++ sep :: rest) = some (front, rest) := by
  induction front with
  | nil => simp [cut]
  | cons c front ih =>
    rw [List.mem_cons, not_or] at none
    simp [cut, Ne.symm none.1, ih none.2]

theorem notMem_of_cut {sep : Char} {t front rest : Text} (h : t.cut sep = some (front, rest)) :
    sep ∉ front := by
  induction t generalizing front with
  | nil => cases h
  | cons c t ih =>
    rw [cut] at h
    split at h
    · cases h
      exact List.not_mem_nil
    · next other =>
      obtain ⟨parts, found, same⟩ := Option.map_eq_some_iff.1 h
      cases same
      exact List.not_mem_cons_of_ne_of_not_mem (Ne.symm other) (ih found)

theorem cut_eq_none_iff {sep : Char} {t : Text} : t.cut sep = none ↔ sep ∉ t := by
  constructor
  · rintro none member
    obtain ⟨front, rest, rfl, leftmost⟩ := List.eq_append_cons_of_mem member
    cases none.symm.trans (cut_append_cons leftmost rest)
  · intro missing
    rw [Option.eq_none_iff_forall_ne_some]
    rintro ⟨front, rest⟩ found
    rw [eq_of_cut found] at missing
    simp at missing

/-- Texts without the separator are the pieces they are joined to. -/
theorem trimmedPieces_intercalate {sep : Char} {texts : List Text} (some : texts ≠ [])
    (whole : ∀ t ∈ texts, sep ∉ t) :
    trimmedPieces sep ([sep].intercalate texts) = texts.map trim := by
  rw [trimmedPieces, List.splitOn_intercalate sep whole some]

/-! ### Lines -/

theorem splitOn_unlines_append {ls : List Text} {last : Text}
    (unbroken : ∀ line ∈ ls, '\n' ∉ line) (rest : '\n' ∉ last) :
    (unlines ls ++ last).splitOn '\n' = ls ++ [last] := by
  induction ls with
  | nil => exact List.splitOn_eq_singleton rest
  | cons line ls ih =>
    rw [List.forall_mem_cons] at unbroken
    have first : unlines (line :: ls) ++ last = line ++ '\n' :: (unlines ls ++ last) := by
      simp [unlines]
    rw [first, List.splitOn_append_cons_self_of_not_mem unbroken.1, ih unbroken.2, List.cons_append]

theorem splitOn_unlines {ls : List Text} (unbroken : ∀ line ∈ ls, '\n' ∉ line) :
    (unlines ls).splitOn '\n' = ls ++ [[]] := by
  rw [← List.append_nil (unlines ls)]
  exact splitOn_unlines_append unbroken List.not_mem_nil

/-- Lines without line breaks can be told from their text. -/
theorem unlines_inj {ls ms : List Text} (unbroken : ∀ line ∈ ls, '\n' ∉ line)
    (unbroken' : ∀ line ∈ ms, '\n' ∉ line) (same : unlines ls = unlines ms) : ls = ms := by
  have pieces := congrArg (List.splitOn '\n') same
  rw [splitOn_unlines unbroken, splitOn_unlines unbroken'] at pieces
  exact List.append_cancel_right pieces

end OpcodeAtlas.Text
