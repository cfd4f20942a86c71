import OpcodeAtlas.OrderedSet
import OpcodeAtlas.Proofs.Text.Lines
import OpcodeAtlas.Templates.Load

/-!
The tables of templates. Whatever calls insert and load, a name has the meaning that was given to it
last, features have distinct names and stay where their name came up first, and texts may be loaded
one by one or as one (`last_definition_counts`).
-/

namespace OpcodeAtlas.Templates

inductive Kind where
  | flags | modes | features
  deriving DecidableEq, Repr

/-- What gives a name a meaning in one of the tables. -/
inductive Definition where
  | flags (name value : Text)
  | modes (name value : Text)
  | feature (feature : CpuidFeature)
  deriving DecidableEq, Repr

namespace Definition

def kind : Definition → Kind
  | flags _ _ => .flags
  | modes _ _ => .modes
  | feature _ => .features

def name : Definition → Text
  | flags name _ => name
  | modes name _ => name
  | feature f => f.name

end Definition

/-- What the line of a text for a table defines, if it is no comment and well-formed. -/
def Kind.definition? (k : Kind) (line : Text) : Option Definition :=
  if Text.isComment line then none
  else
    match k with
    | flags => (templateLine? line).map fun d => .flags d.1 d.2
    | modes => (templateLine? line).map fun d => .modes d.1 d.2
    | features => (CpuidFeature.parse line).toOption.map .feature

/-! ### Calls -/

def insert (t : Templates) : Definition → Templates
  | .flags name value => t.insertFlags name value
  | .modes name value => t.insertModes name value
  | .feature f => t.insertFeature f

def load (t : Templates) : Kind → Text → Loaded
  | .flags => t.loadFlags
  | .modes => t.loadModes
  | .features => t.loadFeatures

/-- What a name means in a table. -/
def find? (t : Templates) : Kind → Text → Option Definition
  | .flags, name => (t.flags.find? name).map (.flags name)
  | .modes, name => (t.modes.find? name).map (.modes name)
  | .features, name => (t.feature? name).map .feature

def names (t : Templates) : List Text := t.features.map (·.name)

inductive Call where
  | insert (d : Definition)
  | load (k : Kind) (text : Text)

def Call.run (t : Templates) : Call → Templates
  | insert d => t.insert d
  | load k text => (t.load k text).templates

def Call.definitions : Call → List Definition
  | insert d => [d]
  | load k text => text.lines.filterMap k.definition?

/-- The templates after calls, the first one first. -/
def after (t : Templates) (calls : List Call) : Templates := calls.foldl Call.run t

/-! ### Features -/

theorem find?_placeFeature (f : CpuidFeature) (fs : List CpuidFeature) (name : Text) :
    (placeFeature f fs).find? (·.name = name) =
      if f.name = name then some f else fs.find? (·.name = name) := by
  induction fs with
  | nil => by_cases own : f.name = name <;> simp [placeFeature, own]
  | cons g fs ih =>
    rw [placeFeature]
    split
    · next same => by_cases own : f.name = name <;> simp [same, own]
    · next other =>
      by_cases own : f.name = name
      · have apart : g.name ≠ name := fun here => other (here.trans own.symm)
        simp [ih, own, apart]
      · simp [List.find?_cons, ih, own]

theorem map_name_placeFeature (f : CpuidFeature) (fs : List CpuidFeature) :
    (placeFeature f fs).map (·.name) =
      if f.name ∈ fs.map (·.name) then fs.map (·.name) else fs.map (·.name) ++ [f.name] := by
  induction fs with
  | nil => rfl
  | cons g fs ih =>
    rw [placeFeature]
    split
    · next same => simp [same]
    · next other =>
      rw [List.map_cons, ih, List.map_cons]
      simp only [List.mem_cons, Ne.symm other, false_or]
      split <;> rfl

/-! ### One definition -/

theorem map_find?_insert (table : TextTable) (make : Text → Text → Definition)
    (own value name : Text) :
    ((table.insert own value).find? name).map (make name) =
      if own = name then some (make own value) else (table.find? name).map (make name) := by
  rw [TextTable.find?_insert]
  by_cases same : own = name
  · simp [same]
  · simp [same, Ne.symm same]

theorem find?_insert (t : Templates) (d : Definition) (k : Kind) (name : Text) :
    (t.insert d).find? k name = if d.kind = k ∧ d.name = name then some d else t.find? k name := by
  cases d with
  | flags own value =>
    cases k with
    | flags =>
      simp only [Definition.kind, true_and]
      exact map_find?_insert t.flags .flags own value name
    | modes => rfl
    | features => rfl
  | modes own value =>
    cases k with
    | flags => rfl
    | modes =>
      simp only [Definition.kind, true_and]
      exact map_find?_insert t.modes .modes own value name
    | features => rfl
  | feature f =>
    cases k with
    | flags => rfl
    | modes => rfl
    | features =>
      simp only [insert, insertFeature, find?, feature?, find?_placeFeature, Definition.kind,
        Definition.name, true_and]
      split <;> rfl

theorem names_insert (t : Templates) (d : Definition) :
    (t.insert d).names =
      if d.kind = .features ∧ d.name ∉ t.names then t.names ++ [d.name] else t.names := by
  cases d with
  | flags own value => rfl
  | modes own value => rfl
  | feature f =>
    simp only [names, insert, insertFeature, map_name_placeFeature, Definition.kind,
      Definition.name, true_and, ite_not]

/-! ### Many definitions -/

def insertAll (t : Templates) (ds : List Definition) : Templates := ds.foldl insert t

theorem find?_insertAll (t : Templates) (ds : List Definition) (k : Kind) (name : Text) :
    (t.insertAll ds).find? k name =
      (ds.filter fun d => d.kind = k ∧ d.name = name).getLast?.or (t.find? k name) := by
  induction ds generalizing t with
  | nil => rfl
  | cons d ds ih =>
    change ((t.insert d).insertAll ds).find? k name = _
    rw [ih, find?_insert, List.filter_cons]
    by_cases meant : d.kind = k ∧ d.name = name
    · simp [meant, List.getLast?_cons]
    · simp [meant]

theorem names_insertAll {t : Templates} {s : OrderedSet Text} (same : t.names = s.elements)
    (ds : List Definition) :
    (t.insertAll ds).names =
      (s.insertAll ((ds.filter (·.kind = .features)).map Definition.name)).elements := by
  -- The set follows the names: it grows exactly where a feature has a new one.
  induction ds generalizing t s with
  | nil => exact same
  | cons d ds ih =>
    change ((t.insert d).insertAll ds).names = _
    by_cases feature : d.kind = .features
    · have next : (t.insert d).names = (s.insert d.name).elements := by
        rw [names_insert, OrderedSet.elements_insert, same]
        by_cases known : d.name ∈ s.elements <;> simp [known, feature]
      rw [ih next, List.filter_cons_of_pos (by simpa using feature)]
      rfl
    · have next : (t.insert d).names = s.elements := by
        rw [names_insert, if_neg fun both => feature both.1, same]
      rw [ih next, List.filter_cons_of_neg (by simpa using feature)]

/-! ### Loading -/

theorem defined_readLines {ε α : Type} (read : Text → Except ε α) (warning : ε → Text → Nat → Text)
    (text : Text) :
    (readLines read warning text).defined =
      text.lines.filterMap fun line =>
        if Text.isComment line then none else (read line).toOption := by
  have numbered : text.lines = (text.lines.zipIdx 1).map Prod.fst := (List.zipIdx_map_fst 1 _).symm
  conv => rhs; rw [numbered]
  rw [readLines, List.filterMap_map, List.filterMap_filter]
  refine List.filterMap_congr fun row _ => ?_
  rw [Function.comp_apply]
  cases Text.isComment row.1 <;> rfl

theorem insertAll_flags (t : Templates) (ds : List (Text × Text)) :
    { t with flags := t.flags.insertAll ds } = t.insertAll (ds.map fun d => .flags d.1 d.2) := by
  induction ds generalizing t with
  | nil => rfl
  | cons d ds ih => exact ih (t.insertFlags d.1 d.2)

theorem insertAll_modes (t : Templates) (ds : List (Text × Text)) :
    { t with modes := t.modes.insertAll ds } = t.insertAll (ds.map fun d => .modes d.1 d.2) := by
  induction ds generalizing t with
  | nil => rfl
  | cons d ds ih => exact ih (t.insertModes d.1 d.2)

theorem map_defined_templateLines (make : Text × Text → Definition) (what text : Text) :
    (templateLines what text).defined.map make =
      text.lines.filterMap fun line =>
        if Text.isComment line then none else (templateLine? line).map make := by
  rw [templateLines, defined_readLines, List.map_filterMap]
  refine List.filterMap_congr fun line _ => ?_
  split
  · rfl
  · cases templateLine? line <;> rfl

theorem map_defined_featureLines (text : Text) :
    (featureLines text).defined.map Definition.feature =
      text.lines.filterMap (Kind.definition? .features) := by
  rw [featureLines, defined_readLines, List.map_filterMap]
  refine List.filterMap_congr fun line _ => ?_
  unfold Kind.definition?
  split <;> rfl

/-- A load inserts what the lines define, in their order, and counts it. -/
theorem load_eq (t : Templates) (k : Kind) (text : Text) :
    (t.load k text).templates = t.insertAll (text.lines.filterMap k.definition?) ∧
      (t.load k text).count = (text.lines.filterMap k.definition?).length := by
  cases k with
  | flags =>
    have defined := map_defined_templateLines (fun d => .flags d.1 d.2) "flags access" text
    change _ = text.lines.filterMap (Kind.definition? .flags) at defined
    rw [← defined, List.length_map]
    exact ⟨insertAll_flags t _, rfl⟩
  | modes =>
    have defined := map_defined_templateLines (fun d => .modes d.1 d.2) "CPU modes" text
    change _ = text.lines.filterMap (Kind.definition? .modes) at defined
    rw [← defined, List.length_map]
    exact ⟨insertAll_modes t _, rfl⟩
  | features =>
    rw [← map_defined_featureLines, List.length_map, insertAll, List.foldl_map]
    exact ⟨rfl, rfl⟩

/-! ### Calls in a row -/

theorem insertAll_append (t : Templates) (ds es : List Definition) :
    t.insertAll (ds ++ es) = (t.insertAll ds).insertAll es :=
  List.foldl_append

/-- Calls come to the same as the definitions they make. -/
theorem after_eq (t : Templates) (calls : List Call) :
    t.after calls = t.insertAll (calls.flatMap Call.definitions) := by
  induction calls generalizing t with
  | nil => rfl
  | cons call calls ih =>
    have step : Call.run t call = t.insertAll call.definitions := by
      cases call with
      | insert d => rfl
      | load k text => exact (load_eq t k text).1
    change (Call.run t call).after calls = _
    rw [ih, step, List.flatMap_cons, insertAll_append]

/-! ### Texts one behind the other -/

theorem templateLine?_dropReturn (line : Text) :
    templateLine? line.dropReturn = templateLine? line := by
  rcases Text.dropReturn_eq_or line with same | longer
  · rw [same]
  · have blank : Text.isBlank '\r' = true := by decide
    conv => rhs; rw [longer]
    unfold templateLine?
    rw [Text.cut_concat (by decide)]
    cases line.dropReturn.cut ':' with
    | none => rfl
    | some parts => simp only [Option.map_some, Text.trim_concat blank]

theorem parse_dropReturn (line : Text) :
    CpuidFeature.parse line.dropReturn = CpuidFeature.parse line := by
  rcases Text.dropReturn_eq_or line with same | longer
  · rw [same]
  · have blank : Text.isBlank '\r' = true := by decide
    conv => rhs; rw [longer]
    unfold CpuidFeature.parse
    rw [Text.cut_concat (by decide), Text.trim_concat blank]
    cases line.dropReturn.cut ':' with
    | none => rfl
    | some parts =>
      have fields := Text.trimmedPieces_concat (show '\r' ≠ ',' by decide) blank parts.2
      simp only [Option.map_some, fields]

theorem Kind.definition?_dropReturn (k : Kind) (line : Text) :
    k.definition? line.dropReturn = k.definition? line := by
  unfold Kind.definition? Text.isComment
  rw [Text.trim_dropReturn, templateLine?_dropReturn, parse_dropReturn]

theorem Kind.definition?_nil (k : Kind) : k.definition? [] = none := by
  cases k <;> rfl

/-- The last line of a text defines the same whether or not a line feed ends it. -/
theorem filterMap_lines_append (k : Kind) (a b : Text) :
    (a ++ '\n' :: b : Text).lines.filterMap k.definition? =
      a.lines.filterMap k.definition? ++ b.lines.filterMap k.definition? := by
  obtain ⟨ls, last, _, rest, rfl⟩ := Text.exists_unlines_append a
  have ended : (last ++ '\n' :: b : Text).lines = last.dropReturn :: b.lines :=
    Text.lines_line rest b
  have unended : last.lines = if last.isEmpty then [] else [last] := Text.lines_of_unbroken rest
  rw [List.append_assoc, Text.lines_append (Text.whole_unlines ls),
    Text.lines_append (Text.whole_unlines ls), ended, unended, List.filterMap_append,
    List.filterMap_append, List.append_assoc]
  congr 1
  cases last with
  | nil =>
    rw [List.filterMap_cons, k.definition?_dropReturn, k.definition?_nil]
    rfl
  | cons c last =>
    rw [List.filterMap_cons, k.definition?_dropReturn]
    cases found : k.definition? (c :: last) <;> simp [found]

theorem after_load_load (t : Templates) (k : Kind) (a b : Text) :
    t.after [.load k a, .load k b] = t.after [.load k (a ++ '\n' :: b)] := by
  simp only [after_eq, List.flatMap_cons, List.flatMap_nil, List.append_nil, Call.definitions,
    filterMap_lines_append]

/-! ### Whole histories -/

/-- A load is a row of insertions, one for each line that defines something. -/
theorem load_eq_after (t : Templates) (k : Kind) (text : Text) :
    (t.load k text).templates = t.after ((text.lines.filterMap k.definition?).map .insert) := by
  rw [(load_eq t k text).1, after_eq]
  simp only [List.flatMap_map, Call.definitions]
  exact congrArg t.insertAll (List.flatMap_singleton' _).symm

/-- The last definition of a name counts, in the order of the calls and of the lines in each text.
Features stay where their name came up first, a load counts what its lines define and does nothing
else, and a text may be loaded in two parts. -/
theorem last_definition_counts (t : Templates) (distinct : t.names.Nodup) (calls : List Call) :
    let defined := calls.flatMap Call.definitions
    (∀ k name, (t.after calls).find? k name =
      (defined.filter fun d => d.kind = k ∧ d.name = name).getLast?.or (t.find? k name)) ∧
    (t.after calls).names.Nodup ∧
    (t.after calls).names = (OrderedSet.insertAll ⟨t.names, distinct⟩
      ((defined.filter (·.kind = .features)).map Definition.name)).elements ∧
    (∀ k text,
      (t.load k text).count = text.lines.countP (fun line => (k.definition? line).isSome) ∧
      (t.load k text).templates =
        t.after ((text.lines.filterMap k.definition?).map .insert)) ∧
    ∀ k a b, t.after [.load k a, .load k b] = t.after [.load k (a ++ '\n' :: b)] := by
  intro defined
  have names : (t.after calls).names = (OrderedSet.insertAll ⟨t.names, distinct⟩
      ((defined.filter (·.kind = .features)).map Definition.name)).elements := by
    rw [after_eq]
    exact names_insertAll rfl defined
  refine ⟨fun k name => ?_, ?_, names, fun k text => ⟨?_, load_eq_after t k text⟩,
    after_load_load t⟩
  · rw [after_eq, find?_insertAll]
  · rw [names]
    exact OrderedSet.nodup _
  · rw [(load_eq t k text).2, List.length_filterMap_eq_countP]

/-- Two features, one of them defined twice, a comment and a line that defines nothing. -/
def vectorFeatures : Text :=
  "# vectors\nSSE : 0x1, 0xFFFFFFFF, EDX, 25\nAVX : 0x1, 0xFFFFFFFF, ECX, 28\nnothing\n" ++
    "AVX : 0x1, 0x0, ECX, 27"

/-- A standard template gets another text between two loads of features. -/
def redefinitions : List Call :=
  [.load .features vectorFeatures, .insert (.flags "ROT" "CF=m"),
    .load .features "\nSSE2 : 0x1, 0xFFFFFFFF, EDX, 26\n"]

theorem last_definition_counts_redefinitions :
    standard.names.Nodup ∧
      (standard.after redefinitions).find? .features "AVX" =
        some (.feature ⟨"AVX", 1, some 0, .ecx, 27⟩) ∧
      (standard.after redefinitions).find? .flags "ROT" = some (.flags "ROT" "CF=m") ∧
      (standard.after redefinitions).names = ["SSE".toList, "AVX".toList, "SSE2".toList] ∧
      (standard.load .features vectorFeatures).count = 3 := by
  have distinct : standard.names.Nodup := List.nodup_nil
  obtain ⟨found, _, names, loaded, _⟩ := last_definition_counts standard distinct redefinitions
  have defined : redefinitions.flatMap Call.definitions =
      [.feature ⟨"SSE", 1, none, .edx, 25⟩, .feature ⟨"AVX", 1, none, .ecx, 28⟩,
        .feature ⟨"AVX", 1, some 0, .ecx, 27⟩, .flags "ROT" "CF=m",
        .feature ⟨"SSE2", 1, none, .edx, 26⟩] := by
    decide +kernel
  rw [defined] at found names
  refine ⟨distinct, ?_, ?_, names.trans (by rfl), ?_⟩
  · rw [found]
    rfl
  · rw [found]
    rfl
  · rw [(loaded .features vectorFeatures).1]
    decide +kernel

end OpcodeAtlas.Templates
