import OpcodeAtlas.Proofs.Encoding.Position

/-!
What becomes of the values that the words of an encoding contribute. Before merging they are all
there (`values_of_parsePlain`). Merging packs the first value of each of four fields into one number
and drops the others, so they can be read back exactly if no field is merged or each of the four has
one value (`readsBack_of_parse`).
-/

namespace OpcodeAtlas.Encoding

/-- The values that words contribute to a field, in order. -/
def contributed (attributes : Attributes) (raw : Text) (f : Field) : List Text :=
  ((contributions attributes raw).filter (·.1 = f)).map (·.2)

theorem values_of_parsePlain {raw : Text} {attributes rest : Attributes} {e : Encoding}
    (h : (parsePlain raw).outcome attributes = (.ok e, rest)) (f : Field) :
    e.values f = contributed attributes raw f := by
  obtain ⟨result, _⟩ := Prod.mk.inj h
  obtain ⟨u, success, rfl⟩ := Traversal.map_eq_ok_iff.1 result
  have after := (Reading.After.start attributes).readAll success
  rw [Reading.encoding, after.values, List.reverse_reverse]
  rfl

/-! ### Digits of the merged fields -/

/-- The digits that the merged fields hold. -/
def packedDigits : Text := "0123"

theorem exists_of_mem_contributionsAfter {attributes : Attributes} {before words : List Text}
    {p : Field × Text} (member : p ∈ contributionsAfter attributes before words) :
    ∃ word token place, Token.parse word = .ok token ∧ p ∈ token.contributions place := by
  induction words generalizing before with
  | nil => cases member
  | cons word rest ih =>
    rcases List.mem_append.1 member with here | later
    · cases parsed : Token.parse word with
      | error e =>
        rw [parsed] at here
        cases here
      | ok token =>
        rw [parsed] at here
        exact ⟨word, token, _, parsed, here⟩
    · exact ih later

/-- A value for a merged field comes from a key with a digit. -/
theorem everyWord_digit : EveryWord fun _ token => ∀ place f v,
    (f, v) ∈ token.contributions place → f ∈ mergedFields → ∃ c ∈ packedDigits, v = [c] := by
  have foreign : ∀ {token : Token}, (∀ f ∈ token.fields, f ∉ mergedFields) → ∀ place f v,
      (f, v) ∈ token.contributions place → f ∈ mergedFields → ∃ c ∈ packedDigits, v = [c] :=
    fun others place f v member merged => absurd merged (others f (Token.field_mem_fields member))
  refine ⟨?field, ?keyword, ?modrm, ?named, ?width, ?digit, ?byte⟩
  case field =>
    intro row member k _
    have known : ∀ row ∈ Token.fieldKeywords, row.1 ∉ mergedFields := by decide
    exact foreign (List.forall_mem_singleton.2 (known row member))
  case keyword =>
    intro row member
    have known : ∀ row ∈ Token.keywords, ∀ f ∈ row.2.fields, f ∉ mergedFields := by decide
    exact foreign (known row member)
  case modrm => exact fun _ _ _ => foreign (by simp [Token.fields, mergedFields])
  case named =>
    intro row member
    have known : ∀ row ∈ Token.namedValues, ∀ f ∈ row.2.2.fields, f ∉ mergedFields := by decide
    exact foreign (known row member)
  case width => exact fun _ _ => foreign (by simp [Token.fields, mergedFields])
  case digit =>
    intro row listed v written place f w member merged
    obtain ⟨rfl, rfl⟩ := Prod.mk.inj (List.mem_singleton.1 member)
    have known : ∀ row ∈ Token.digitKeys, row.2.1 ∈ mergedFields →
        row.2.2 < 16 ∧ upperDigits.take (row.2.2 + 1) ⊆ packedDigits := by
      decide
    obtain ⟨small, digits⟩ := known row listed merged
    obtain ⟨c, inside, same⟩ := (digitUpTo?_isSome_iff small).1 written
    exact ⟨c, digits inside, same⟩
  case byte => exact fun _ _ => foreign (by simp [Token.fields, mergedFields])

theorem digit_of_contributed {attributes : Attributes} {raw v : Text} {f : Field}
    (member : v ∈ contributed attributes raw f) (merged : f ∈ mergedFields) :
    ∃ c ∈ packedDigits, v = [c] := by
  obtain ⟨⟨g, w⟩, inside, rfl⟩ := List.mem_map.1 member
  obtain ⟨listed, same⟩ := List.mem_filter.1 inside
  obtain rfl : g = f := of_decide_eq_true same
  obtain ⟨word, token, place, parsed, stored⟩ := exists_of_mem_contributionsAfter listed
  exact everyWord_digit.of_parse parsed place g w stored merged

/-! ### First numbers -/

/-- The merged fields hold digits only. -/
def HoldsDigits (e : Encoding) : Prop :=
  ∀ f ∈ mergedFields, ∀ v ∈ e.values f, ∃ c ∈ packedDigits, v = [c]

theorem HoldsDigits.head? {e : Encoding} (digits : HoldsDigits e) {f : Field}
    (merged : f ∈ mergedFields) {n : Nat} (first : e.firstNumber? f = some n) :
    (e.values f).head? = some (Text.hex n) := by
  obtain ⟨v, head, number⟩ := Option.bind_eq_some_iff.1 first
  obtain ⟨c, member, rfl⟩ := digits f merged v (List.mem_of_mem_head? head)
  have written : ∀ c ∈ packedDigits, ∀ n ∈ Text.numberBelow? 16 256 [c], [c] = Text.hex n := by
    decide
  rw [head, written c member n number]

theorem HoldsDigits.eq_nil {e : Encoding} (digits : HoldsDigits e) {f : Field}
    (merged : f ∈ mergedFields) (missing : e.firstNumber? f = none) : e.values f = [] := by
  cases values : e.values f with
  | nil => rfl
  | cons v vs =>
    obtain ⟨c, member, rfl⟩ := digits f merged v (values ▸ List.mem_cons_self)
    have written : ∀ c ∈ packedDigits, Text.numberBelow? 16 256 [c] ≠ none := by decide
    rw [firstNumber?, values] at missing
    exact absurd missing (written c member)

theorem exists_of_lpdf?_eq_none {e : Encoding} (h : e.lpdf? = none) :
    ∃ f ∈ mergedFields, e.firstNumber? f = none := by
  by_contra all
  have number : ∀ f ∈ mergedFields, ∃ n, e.firstNumber? f = some n := by
    intro f merged
    exact Option.ne_none_iff_exists'.1 fun none => all ⟨f, merged, none⟩
  obtain ⟨l, hl⟩ := number .length (by decide)
  obtain ⟨p, hp⟩ := number .pp (by decide)
  obtain ⟨d, hd⟩ := number .newDataDestination (by decide)
  obtain ⟨n, hn⟩ := number .noFlags (by decide)
  rw [lpdf?, hl, hp, hd, hn] at h
  cases h

/-! ### Reading back -/

/-- Contributions can be read back from an encoding, those to the merged fields from one number as
far as `reads` tells: a list of contributions and the value found in the number. -/
structure ReadsBack (reads : List Text → Text → Prop) (contributed : Field → List Text)
    (e : Encoding) : Prop where
  others : ∀ f, f ∉ mergedFields → f ≠ .lpdf → e.values f = contributed f
  merged : (∀ f ∈ mergedFields, e.values f = contributed f) ∧ e.values .lpdf = [] ∨
    ∃ n, e.values .lpdf = [Text.hex n] ∧ reads (contributed .length) (Text.hex (n / 16)) ∧
      reads (contributed .pp) (Text.hex (n / 4 % 4)) ∧
      reads (contributed .newDataDestination) (Text.hex (n / 2 % 2)) ∧
      reads (contributed .noFlags) (Text.hex (n % 2))

def IsFirst (vs : List Text) (v : Text) : Prop := vs.head? = some v

def IsOnly (vs : List Text) (v : Text) : Prop := vs = [v]

theorem IsFirst.isOnly {vs : List Text} {v : Text} (first : IsFirst vs v) (one : vs.length = 1) :
    IsOnly vs v := by
  obtain ⟨w, rfl⟩ := List.length_eq_one_iff.1 one
  obtain rfl := Option.some.inj first
  rfl

theorem readsBack_of_unmerged (reads : List Text → Text → Prop) {e : Encoding}
    (blank : e.values .lpdf = []) : ReadsBack reads e.values e :=
  ⟨fun _ _ _ => rfl, .inl ⟨fun _ _ => rfl, blank⟩⟩

section Merged

variable {e : Encoding} {n : Nat}

theorem readsBack_of_merged {reads : List Text → Text → Prop} (blank : e.values .lpdf = [])
    (merged : e.lpdf? = some n) (length : reads (e.values .length) (Text.hex (n / 16)))
    (pp : reads (e.values .pp) (Text.hex (n / 4 % 4)))
    (destination : reads (e.values .newDataDestination) (Text.hex (n / 2 % 2)))
    (flags : reads (e.values .noFlags) (Text.hex (n % 2))) : ReadsBack reads e.values e.merge := by
  refine ⟨fun f plain other => ?_, .inr ⟨n, ?_, length, pp, destination, flags⟩⟩
  · rw [values_merge merged, if_neg other, if_neg plain]
  · rw [values_merge merged, if_pos rfl, blank, List.nil_append]

/-- The packed number holds the first value of each of the four fields. -/
theorem HoldsDigits.first_of_merged (digits : HoldsDigits e) (fits : AllFit e)
    (merged : e.lpdf? = some n) :
    IsFirst (e.values .length) (Text.hex (n / 16)) ∧ IsFirst (e.values .pp) (Text.hex (n / 4 % 4)) ∧
      IsFirst (e.values .newDataDestination) (Text.hex (n / 2 % 2)) ∧
      IsFirst (e.values .noFlags) (Text.hex (n % 2)) := by
  obtain ⟨l, _, p, _, d, _, f, _, hl, hp, hd, hf, packed⟩ := numbers_of_lpdf? fits merged
  have parts : n / 16 = l ∧ n / 4 % 4 = p ∧ n / 2 % 2 = d ∧ n % 2 = f := by omega
  rw [parts.1, parts.2.1, parts.2.2.1, parts.2.2.2]
  exact ⟨digits.head? (by decide) hl, digits.head? (by decide) hp, digits.head? (by decide) hd,
    digits.head? (by decide) hf⟩

/-- Nothing is lost in merging if each of the four fields has one value. -/
theorem HoldsDigits.readsBack_only_iff (digits : HoldsDigits e) (fits : AllFit e)
    (blank : e.values .lpdf = []) (merged : e.lpdf? = some n) :
    ReadsBack IsOnly e.values e.merge ↔ ∀ f ∈ mergedFields, (e.values f).length = 1 := by
  constructor
  · intro back
    have number : e.merge.values .lpdf ≠ [] := by
      rw [values_merge merged, if_pos rfl, blank]
      exact List.cons_ne_nil _ _
    rcases back.merged with ⟨_, empty⟩ | ⟨_, _, length, pp, destination, flags⟩
    · exact absurd empty number
    · have single : ∀ {vs : List Text} {v : Text}, IsOnly vs v → vs.length = 1 := by
        rintro _ v rfl
        rfl
      simp only [mergedFields, List.forall_mem_cons]
      exact ⟨single length, single pp, single destination, single flags, by simp⟩
  · intro one
    obtain ⟨length, pp, destination, flags⟩ := digits.first_of_merged fits merged
    exact readsBack_of_merged blank merged (length.isOnly (one _ (by decide)))
      (pp.isOnly (one _ (by decide))) (destination.isOnly (one _ (by decide)))
      (flags.isOnly (one _ (by decide)))

end Merged

theorem exists_plain_of_parse {raw : Text} {attributes rest : Attributes} {e : Encoding}
    (h : (parse raw).outcome? attributes = .ok (e, rest)) :
    ∃ plain, e = plain.merge ∧ plain.values = contributed attributes raw ∧ AllFit plain ∧
      HoldsDigits plain ∧ plain.values .lpdf = [] := by
  rw [Update.outcome?_eq_ok_iff, parse, Update.outcome_map] at h
  obtain ⟨result, state⟩ := Prod.mk.inj h
  obtain ⟨plain, read, rfl⟩ := Traversal.map_eq_ok_iff.1 result
  have before : (parsePlain raw).outcome attributes = (.ok plain, rest) := Prod.ext read state
  refine ⟨plain, rfl, funext (values_of_parsePlain before), allFit_of_parsePlain before, ?_,
    values_lpdf_of_parsePlain before⟩
  intro f merged v member
  rw [values_of_parsePlain before] at member
  exact digit_of_contributed member merged

/-- Merging keeps the first value of each of its fields, and a second one is lost. -/
theorem readsBack_of_parse {raw : Text} {attributes rest : Attributes} {e : Encoding}
    (h : (parse raw).outcome? attributes = .ok (e, rest)) :
    ReadsBack IsFirst (contributed attributes raw) e ∧
      (ReadsBack IsOnly (contributed attributes raw) e ↔
        (∃ f ∈ mergedFields, contributed attributes raw f = []) ∨
          ∀ f ∈ mergedFields, (contributed attributes raw f).length = 1) := by
  obtain ⟨plain, rfl, values, fits, digits, blank⟩ := exists_plain_of_parse h
  rw [← values]
  cases merged : plain.lpdf? with
  | none =>
    obtain ⟨f, member, missing⟩ := exists_of_lpdf?_eq_none merged
    have absent := digits.eq_nil member missing
    rw [merge_of_none merged]
    exact ⟨readsBack_of_unmerged _ blank, fun _ => .inl ⟨f, member, absent⟩,
      fun _ => readsBack_of_unmerged _ blank⟩
  | some n =>
    obtain ⟨length, pp, destination, flags⟩ := digits.first_of_merged fits merged
    refine ⟨readsBack_of_merged blank merged length pp destination flags, ?_⟩
    have present : ¬ ∃ f ∈ mergedFields, plain.values f = [] := by
      rintro ⟨f, member, absent⟩
      simp only [mergedFields, List.mem_cons, List.not_mem_nil, or_false] at member
      rcases member with rfl | rfl | rfl | rfl
      · simp [IsFirst, absent] at length
      · simp [IsFirst, absent] at pp
      · simp [IsFirst, absent] at destination
      · simp [IsFirst, absent] at flags
    rw [digits.readsBack_only_iff fits blank merged, or_iff_right present]

/-- A move with flags unchanged, its four fields given once each. -/
def packedOnce : Text := "evex m:4 l:0 p:1 nd:0 nf:1 w:0 0x88 /r"

theorem readsBack_of_parse_packedOnce :
    ∃ e rest, (parse packedOnce).outcome? ∅ = .ok (e, rest) ∧
      ReadsBack IsOnly (contributed ∅ packedOnce) e := by
  obtain ⟨⟨e, rest⟩, made⟩ := Traversal.exists_of_isOk
    (show ((parse packedOnce).outcome? ∅).isOk = true by decide)
  exact ⟨e, rest, made, (readsBack_of_parse made).2.2 (.inr (by decide))⟩

/-- Two compressed prefixes, of which the second is lost. -/
theorem not_every_value_kept :
    ¬ ∀ (raw : Text) (attributes rest : Attributes) (e : Encoding),
      (parse raw).outcome? attributes = .ok (e, rest) →
        ReadsBack IsOnly (contributed attributes raw) e := by
  intro kept
  obtain ⟨⟨e, rest⟩, made⟩ := Traversal.exists_of_isOk
    (show ((parse "evex m:4 l:0 p:1 p:2 nd:0 nf:0 0x00 /r").outcome? ∅).isOk = true by decide)
  have number : ∀ x ∈ ((parse "evex m:4 l:0 p:1 p:2 nd:0 nf:0 0x00 /r").outcome? ∅).toOption,
      x.1.values .lpdf ≠ [] := by
    decide
  rcases (kept _ ∅ rest e made).merged with ⟨_, empty⟩ | ⟨n, _, _, pp, _⟩
  · rw [made] at number
    exact number _ rfl empty
  · have two : (contributed ∅ "evex m:4 l:0 p:1 p:2 nd:0 nf:0 0x00 /r" .pp).length = 2 := by decide
    rw [pp] at two
    cases two

end OpcodeAtlas.Encoding
