import OpcodeAtlas.Proofs.Encoding.Shorthand

/-!
Words that may change places. A word is free unless it names a family, is `NP` or a byte, or stands
after a slash. Two neighbours that are free and write different fields can be exchanged
(`parse_exchange`): the encoding is the same one, and so are the attributes but for their order.
-/

namespace OpcodeAtlas.Encoding

open Traversal (Agree)

/-! ### Free words -/

/-- What the word means does not hang on the words around it, nor theirs on it. -/
structure IsFree (word : Text) : Prop where
  unnamed : word ∉ familyWords
  notNP : word ≠ "NP"
  notByte : ¬ HexPair word
  unslashed : Token.isSlashed word = false

instance (word : Text) : Decidable (HexPair word) :=
  inferInstanceAs (Decidable (∃ a ∈ hexDigits, ∃ b ∈ hexDigits, word = ['0', 'x', a, b]))

instance (word : Text) : Decidable (IsFree word) :=
  decidable_of_iff
    (word ∉ familyWords ∧ word ≠ "NP" ∧ ¬ HexPair word ∧ Token.isSlashed word = false)
    ⟨fun h => ⟨h.1, h.2.1, h.2.2.1, h.2.2.2⟩, fun h => ⟨h.1, h.2, h.3, h.4⟩⟩

/-- The fields that a word stores values in behind the words `before`. -/
def writtenFields (attributes : Attributes) (before : List Text) (word : Text) : List Field :=
  (contributionsAfter attributes before [word]).map (·.1)

theorem writtenFields_of_parse {attributes : Attributes} {before : List Text} {word : Text}
    {token : Token} (parsed : Token.parse word = .ok token) :
    writtenFields attributes before word =
      (token.contributions (.behind attributes before)).map (·.1) := by
  rw [writtenFields, contributionsAfter, parsed, contributionsAfter, List.append_nil]
  rfl

theorem everyWord_noPrefix : EveryWord fun word token => token = .noPrefix → word = "NP" where
  field := by simp
  keyword := by decide
  modrm := by simp
  named := by decide
  width := by simp
  digit := by simp
  byte := by simp

theorem prefixBytes_hexPair : ∀ word ∈ Reading.prefixBytes, HexPair word := by decide

/-- What free words mean. -/
structure Token.IsFree (token : Token) : Prop where
  unnamed : token.family? = none
  notNP : token ≠ .noPrefix
  notPrefix : ∀ word, token = .byte word → word ∉ Reading.prefixBytes

theorem IsFree.token {word : Text} (free : IsFree word) {token : Token}
    (parsed : Token.parse word = .ok token) : token.IsFree where
  unnamed := by
    cases token with
    | family f => exact absurd (spelledBy_of_parse parsed).2 free.unnamed
    | _ => rfl
  notNP := fun same => free.notNP (everyWord_noPrefix.of_parse parsed same)
  notPrefix := by
    rintro w rfl listed
    obtain ⟨rfl, _⟩ := spelledBy_of_parse parsed
    exact free.notByte (prefixBytes_hexPair w listed)

/-! ### Free tokens -/

namespace Token

/-- Whether a mandatory prefix may come does not bear on what a free token contributes. -/
theorem IsFree.contributions_congr {token : Token} (free : token.IsFree) {p q : Place}
    (past : p.pastModrm = q.pastModrm) (width : p.widthIgnored = q.widthIgnored) :
    token.contributions p = token.contributions q := by
  cases token with
  | byte word =>
    have unlisted : Reading.prefixBytes.contains word = false := by
      rw [← Bool.not_eq_true, List.contains_iff_mem]
      exact free.notPrefix word rfl
    rw [contributions, contributions, unlisted, Bool.false_and, Bool.false_and, past]
  | width v => rw [contributions, contributions, width]
  | _ => rfl

end Token

namespace Reading

theorem take?_of_free {token : Token} (free : token.IsFree) (s : Reading) :
    s.take? token = some (s.extend token) := by
  rw [take?_eq, if_neg fun misplaced => free.notNP misplaced.1]

theorem mark_of_unslashed {word : Text} (unslashed : Token.isSlashed word = false) (s : Reading) :
    s.mark word = s := by
  rw [mark, unslashed]
  rfl

/-- Readings with the same values for every field and the same attributes, in whatever order. -/
structure Equivalent (s t : Reading) : Prop where
  encoding : s.encoding = t.encoding
  attributes : ∀ a, a ∈ s.attributes ↔ a ∈ t.attributes
  sawModrm : s.sawModrm = t.sawModrm

theorem mem_attributes_extend {s : Reading} {token : Token} {a : Attribute} :
    a ∈ (s.extend token).attributes ↔ a ∈ s.attributes ∨ token.property? = some a := by
  rw [extend]
  cases token.property? with
  | none => simp
  | some p => simp only [Option.elim_some, OrderedSet.mem_insert, Option.some.injEq, eq_comm]

theorem Equivalent.place {s t : Reading} (same : Equivalent s t) : s.place = t.place := by
  have width : s.attributes.contains .widthIgnoredOutside64 =
      t.attributes.contains .widthIgnoredOutside64 := by
    rw [Bool.eq_iff_iff, OrderedSet.contains_eq_true_iff, OrderedSet.contains_eq_true_iff]
    exact same.attributes _
  rw [Reading.place, Reading.place, acceptsPrefix_eq, acceptsPrefix_eq, same.encoding, width,
    same.sawModrm]

theorem Equivalent.mark {s t : Reading} (same : Equivalent s t) (word : Text) :
    Equivalent (s.mark word) (t.mark word) := by
  unfold Reading.mark
  split
  · refine ⟨same.encoding, fun a => ?_, rfl⟩
    exact OrderedSet.mem_insert.trans
      ((or_congr_left (same.attributes a)).trans OrderedSet.mem_insert.symm)
  · exact same

theorem Equivalent.extend {s t : Reading} (same : Equivalent s t) (token : Token) :
    Equivalent (s.extend token) (t.extend token) := by
  refine ⟨?_, fun a => ?_, same.sawModrm⟩
  · rw [encoding_extend, encoding_extend, same.encoding, same.place]
  · rw [mem_attributes_extend, mem_attributes_extend, same.attributes]

theorem Equivalent.read {s t : Reading} (same : Equivalent s t) (word : Text) :
    Agree Equivalent (· = ·) (s.read word) (t.read word) := by
  have accepts : s.acceptsPrefix = t.acceptsPrefix := congrArg Place.prefixOpen same.place
  refine (Agree.same (fun _ => rfl) (Token.parse word)).bind ?_
  rintro token _ rfl
  rw [take?_eq, take?_eq, accepts]
  split
  · exact .error rfl
  · exact .ok (same.extend token)

theorem Equivalent.readAll {s t : Reading} (same : Equivalent s t) (words : List Text) :
    (s.readAll words).1 = (t.readAll words).1 ∧
      Equivalent (s.readAll words).2 (t.readAll words).2 :=
  readAll_lockstep (fun word same => Equivalent.mark same word)
    (fun word same => Equivalent.read same word) same words

/-! ### Exchanging two words -/

/-- One of two sets of values without a common field has nothing for the field. -/
theorem values_eq_nil_or (family : Family) {vs ws : List (Field × Text)}
    (apart : ∀ f ∈ vs.map (·.1), f ∉ ws.map (·.1)) (f : Field) :
    (ofValues family vs).values f = [] ∨ (ofValues family ws).values f = [] := by
  by_cases written : f ∈ vs.map (·.1)
  · right
    rw [ofValues, List.map_eq_nil_iff, List.filter_eq_nil_iff]
    intro p member same
    exact apart f written (of_decide_eq_true same ▸ List.mem_map_of_mem member)
  · left
    rw [ofValues, List.map_eq_nil_iff, List.filter_eq_nil_iff]
    intro p member same
    exact written (of_decide_eq_true same ▸ List.mem_map_of_mem member)

section Pair

variable {first second : Text} {a b : Token} {s : Reading}

theorem contributions_extend (parsed : Token.parse first = .ok a) (free : b.IsFree) :
    b.contributions (s.extend a).place = b.contributions s.place :=
  free.contributions_congr rfl (widthIgnored_extend parsed)

/-- Free tokens that write different fields lead to the same reading in either order. -/
theorem extend_comm (freeFirst : a.IsFree) (freeSecond : b.IsFree)
    (parsedFirst : Token.parse first = .ok a) (parsedSecond : Token.parse second = .ok b)
    (apart : ∀ f ∈ (a.contributions s.place).map (·.1), f ∉ (b.contributions s.place).map (·.1)) :
    Equivalent ((s.extend a).extend b) ((s.extend b).extend a) := by
  refine ⟨?_, fun p => ?_, rfl⟩
  · simp only [encoding_extend, freeFirst.unnamed, freeSecond.unnamed, Option.getD_none,
      contributions_extend parsedFirst freeSecond, contributions_extend parsedSecond freeFirst,
      List.append_assoc]
    refine congrArg (Encoding.mk s.encoding.family) (funext fun f => ?_)
    rcases values_eq_nil_or s.encoding.family apart f with absent | absent
    · rw [absent, List.nil_append, List.append_nil]
    · rw [absent, List.nil_append, List.append_nil]
  · rw [mem_attributes_extend, mem_attributes_extend, mem_attributes_extend, mem_attributes_extend,
      or_right_comm]

theorem readAll_of_free (free : IsFree first) (parsed : Token.parse first = .ok a)
    (rest : List Text) : s.readAll (first :: rest) = (s.extend a).readAll rest := by
  refine readAll_of_take? parsed ?_ rest
  rw [mark_of_unslashed free.unslashed]
  exact take?_of_free (free.token parsed) s

theorem exists_parse_of_readAll {rest : List Text} {u : Unit}
    (success : (s.readAll (first :: rest)).1 = .ok u) : ∃ token, Token.parse first = .ok token := by
  rw [readAll] at success
  split at success
  · next made =>
    obtain ⟨token, parsed, _⟩ := read_eq_ok_iff.1 made
    exact ⟨token, parsed⟩
  · cases success

theorem readAll_exchange {after : List Text} {u : Unit} (freeFirst : IsFree first)
    (freeSecond : IsFree second)
    (apart : ∀ token other, Token.parse first = .ok token → Token.parse second = .ok other →
      ∀ f ∈ (token.contributions s.place).map (·.1), f ∉ (other.contributions s.place).map (·.1))
    (success : (s.readAll (first :: second :: after)).1 = .ok u) :
    (s.readAll (second :: first :: after)).1 = .ok u ∧
      Equivalent (s.readAll (second :: first :: after)).2
        (s.readAll (first :: second :: after)).2 := by
  obtain ⟨a, parsedFirst⟩ := exists_parse_of_readAll success
  rw [readAll_of_free freeFirst parsedFirst] at success ⊢
  obtain ⟨b, parsedSecond⟩ := exists_parse_of_readAll success
  rw [readAll_of_free freeSecond parsedSecond] at success ⊢
  rw [readAll_of_free freeSecond parsedSecond, readAll_of_free freeFirst parsedFirst]
  have same := extend_comm (freeSecond.token parsedSecond) (freeFirst.token parsedFirst)
    parsedSecond parsedFirst fun f written => fun also =>
      apart a b parsedFirst parsedSecond f also written
  obtain ⟨results, readings⟩ := same.readAll after
  exact ⟨results.trans success, readings⟩

theorem readAll_exchange_behind {attributes : Attributes} {before after : List Text}
    (freeFirst : IsFree first) (freeSecond : IsFree second)
    (apart : ∀ f ∈ writtenFields attributes before first,
      f ∉ writtenFields attributes before second)
    (success : ((start attributes).readAll (before ++ first :: second :: after)).1 = .ok ()) :
    ((start attributes).readAll (before ++ second :: first :: after)).1 = .ok () ∧
      Equivalent ((start attributes).readAll (before ++ second :: first :: after)).2
        ((start attributes).readAll (before ++ first :: second :: after)).2 := by
  have behind : ∀ u, ((start attributes).readAll before).1 = .ok u →
      ((start attributes).readAll before).2.After attributes before :=
    fun u read => (After.start attributes).readAll read
  rw [readAll_append] at success ⊢
  rw [readAll_append]
  generalize (start attributes).readAll before = run at success behind ⊢
  obtain ⟨error | u, s⟩ := run
  · cases success
  · refine readAll_exchange freeFirst freeSecond ?_ success
    intro token other parsedFirst parsedSecond
    rw [(behind u rfl).place, ← writtenFields_of_parse parsedFirst,
      ← writtenFields_of_parse parsedSecond]
    exact apart

end Pair

end Reading

theorem parse_eq_ok_iff {raw : Text} {attributes rest : Attributes} {e : Encoding} :
    (parse raw).outcome? attributes = .ok (e, rest) ↔
      ((Reading.start attributes).readAll raw.words).1 = .ok () ∧
        ((Reading.start attributes).readAll raw.words).2.encoding.merge = e ∧
        ((Reading.start attributes).readAll raw.words).2.attributes = rest := by
  rw [Update.outcome?_eq_ok_iff, outcome_parse, Prod.mk.injEq]
  rcases (Reading.start attributes).readAll raw.words with ⟨error | u, s⟩
  · simp [Except.map]
  · simp [Except.map]

/-- Two free neighbours that write different fields can be exchanged. The attributes may come in
another order. -/
theorem parse_exchange {raw exchanged first second : Text} {before after : List Text}
    {attributes rest : Attributes} {e : Encoding}
    (h : (parse raw).outcome? attributes = .ok (e, rest))
    (given : raw.words = before ++ first :: second :: after)
    (swapped : exchanged.words = before ++ second :: first :: after)
    (freeFirst : IsFree first) (freeSecond : IsFree second)
    (apart : ∀ f ∈ writtenFields attributes before first,
      f ∉ writtenFields attributes before second) :
    ∃ reordered, (parse exchanged).outcome? attributes = .ok (e, reordered) ∧
      ∀ a, a ∈ reordered ↔ a ∈ rest := by
  obtain ⟨success, rfl, rfl⟩ := parse_eq_ok_iff.1 h
  rw [given] at success ⊢
  obtain ⟨read, same⟩ := Reading.readAll_exchange_behind freeFirst freeSecond apart success
  refine ⟨_, parse_eq_ok_iff.2 ⟨swapped ▸ read, ?_, rfl⟩, ?_⟩
  · rw [swapped, same.encoding]
  · rw [swapped]
    exact same.attributes

/-- A gather with two of its words in either order. -/
def gather (first second : Text) : Text :=
  "evex m:2 p:1 " ++ first ++ " " ++ second ++ " 0x90 /r:mem"

/-- The width is stored as `wi` here, and the scaled index adds a value and an attribute. -/
theorem parse_exchange_gather :
    ∃ e rest reordered, IsFree "w:1" ∧ IsFree "vsib" ∧
      (parse (gather "w:1" "vsib")).outcome? (.ofList [.widthIgnoredOutside64]) = .ok (e, rest) ∧
        (parse (gather "vsib" "w:1")).outcome? (.ofList [.widthIgnoredOutside64]) =
          .ok (e, reordered) ∧
        ∀ a, a ∈ reordered ↔ a ∈ rest := by
  obtain ⟨⟨e, rest⟩, read⟩ := Traversal.exists_of_isOk
    (show ((parse (gather "w:1" "vsib")).outcome?
      (.ofList [.widthIgnoredOutside64])).isOk = true by decide)
  have given : (gather "w:1" "vsib").words = (["evex", "m:2", "p:1"] : List Text) ++
      ("w:1" : Text) :: ("vsib" : Text) :: (["0x90", "/r:mem"] : List Text) := by
    decide
  have swapped : (gather "vsib" "w:1").words = (["evex", "m:2", "p:1"] : List Text) ++
      ("vsib" : Text) :: ("w:1" : Text) :: (["0x90", "/r:mem"] : List Text) := by
    decide
  obtain ⟨reordered, again, same⟩ :=
    parse_exchange read given swapped (by decide) (by decide) (by decide)
  exact ⟨e, rest, reordered, by decide, by decide, read, again, same⟩

end OpcodeAtlas.Encoding
