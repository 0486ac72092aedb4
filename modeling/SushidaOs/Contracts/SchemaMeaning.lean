import SushidaOs.Contracts.SchemaCheck

/-!
# SushidaOs.Contracts.SchemaMeaning

What the checker's silence says about a document.

`Valid` is the meaning of a schema in JSON Schema, for the keywords of
`SUPPORTED_SCHEMA_KEYWORDS`.  A document that passes is valid exactly when
`UnseenMet` holds (`passed_valid_iff`): it collects the keywords that the
checker passes over where they stand — a schema in `additionalProperties`,
`type`, `const` and `enum` of the whole document, the fields of an object
whose schema has no `properties`, arrays in arrays, everything beside a
`const`, a `pattern` that `re.search` finds and the dialect of JSON Schema does
not, a `not` or an `if` that its evaluators decide in another way.
-/

namespace SushidaOs

open PyStr

namespace Contracts

/-! ## JSON Schema -/

/-- A dialect of regular expressions: where a pattern is found.  JSON Schema means that
of ECMA-262, in which `$` stands for the end of the string alone. -/
abbrev Dialect := PyStr → PyStr → Bool

/-- The types of JSON Schema; `whole` says whether `1.0` is an integer. -/
def SimpleType.admits (whole : Bool) : SimpleType → Json → Bool
  | .array, .arr _ => true
  | .object, .obj _ => true
  | .string, .str _ => true
  | .integer, .int _ => true
  | .integer, .float q => whole && q.den == 1
  | .number, .int _ => true
  | .number, .float _ => true
  | .boolean, .bool _ => true
  | .null, .null => true
  | _, _ => false

def TypeKeyword.admits (whole : Bool) : TypeKeyword → Json → Bool
  | .single t, v => t.admits whole v
  | .union ts, v => ts.any fun t => t.admits whole v

section Meaning

variable (P : Python) (D : Dialect) (whole : Bool)

/-- The keywords without schemas, `required` aside. -/
structure Keywords.Valid (own : Keywords) (v : Json) : Prop where
  type : ∀ t, own.type = some t → t.admits whole v = true
  const : ∀ c, own.const = some c → Json.jsonEq v c = true
  enum : ∀ es, own.enum = some es → es.any (Json.jsonEq v) = true
  minimum : ∀ m q, own.minimum = some m → v.number false = some q → m.toRat ≤ q
  maximum : ∀ m q, own.maximum = some m → v.number false = some q → q ≤ m.toRat
  minLength : ∀ ml s, own.minLength = some ml → v = .str s → ml ≤ s.length
  pattern : ∀ pat s, own.pattern = some pat → v = .str s → D pat s = true
  minItems : ∀ mi items, own.minItems = some mi → v = .arr items → mi ≤ items.length
  uniqueItems : ∀ items, own.uniqueItems = true → v = .arr items →
    items.Pairwise fun x y => Json.jsonEq x y = false

/-- **Validity** of a value. -/
def Valid (s : Schema) (v : Json) : Prop :=
  s.own.Valid D whole v ∧
  ((∀ c ∈ s.allOf, Valid c v) ∧
    (∀ n, s.not = some n → ¬ Valid n v) ∧
    (∀ c, s.ifCond = some c →
      (Valid c v → ∀ t, s.thenCase = some t → Valid t v) ∧
      (¬ Valid c v → ∀ e, s.elseCase = some e → Valid e v))) ∧
  ((∀ fields, v = .obj fields →
      (∀ f ∈ s.own.required, (Json.lookup f fields).isSome = true) ∧
      (∀ f ∈ fields,
        (∀ pd, Schema.lookup f.1 s.properties = some pd → Valid pd f.2) ∧
        (Schema.lookup f.1 s.properties = none →
          s.additionalProperties ≠ some (.inl false) ∧
          ∀ a, s.additionalProperties = some (.inr a) → Valid a f.2))) ∧
    (∀ it items, s.items = some it → v = .arr items → ∀ x ∈ items, Valid it x))
termination_by sizeOf s
decreasing_by
  · exact (Schema.Sub.allOf ‹_›).sizeOf_lt
  · exact (Schema.Sub.not ‹_›).sizeOf_lt
  · exact (Schema.Sub.ifCond ‹_›).sizeOf_lt
  · exact (Schema.Sub.thenCase ‹_›).sizeOf_lt
  · exact (Schema.Sub.elseCase ‹_›).sizeOf_lt
  · exact (Schema.Sub.of_lookup ‹_›).sizeOf_lt
  · exact (Schema.Sub.additional ‹_›).sizeOf_lt
  · exact (Schema.Sub.items ‹_›).sizeOf_lt

/-- `allOf`, `not` and `if`. -/
def CombinedValid (s : Schema) (v : Json) : Prop :=
  (∀ c ∈ s.allOf, Valid D whole c v) ∧
  (∀ n, s.not = some n → ¬ Valid D whole n v) ∧
  (∀ c, s.ifCond = some c →
    (Valid D whole c v → ∀ t, s.thenCase = some t → Valid D whole t v) ∧
    (¬ Valid D whole c v → ∀ e, s.elseCase = some e → Valid D whole e v))

/-- `required`, `properties`, `additionalProperties` and `items`. -/
def PartsValid (s : Schema) (v : Json) : Prop :=
  (∀ fields, v = .obj fields →
    (∀ f ∈ s.own.required, (Json.lookup f fields).isSome = true) ∧
    (∀ f ∈ fields,
      (∀ pd, Schema.lookup f.1 s.properties = some pd → Valid D whole pd f.2) ∧
      (Schema.lookup f.1 s.properties = none →
        s.additionalProperties ≠ some (.inl false) ∧
        ∀ a, s.additionalProperties = some (.inr a) → Valid D whole a f.2))) ∧
  (∀ it items, s.items = some it → v = .arr items → ∀ x ∈ items, Valid D whole it x)

theorem valid_iff (s : Schema) (v : Json) :
    Valid D whole s v ↔
      s.own.Valid D whole v ∧ CombinedValid D whole s v ∧ PartsValid D whole s v := by
  rw [Valid, CombinedValid, PartsValid]

/-! ## what the checker does not see -/

/-- The types that `_validate_type` tests. -/
def TypeKeyword.isTested : TypeKeyword → Bool
  | .single t => t != .null
  | .union _ => false

/-- What `_validate_value` leaves open of the keywords without schemas: all of
them beside a constant, a constant `null`, the types without a test, `enum`
where `==` is not equality, a `pattern` that only `re.search` finds, items that differ only
in writing. -/
def UnseenOwn (own : Keywords) (v : Json) : Prop :=
  match own.constValue with
  | some _ => own.Valid D whole v
  | none =>
      (own.const = some .null → Json.jsonEq v .null = true) ∧
      (∀ t, own.type = some t → t.isTested = false → t.admits whole v = true) ∧
      (∀ es, own.enum = some es → (es = [] ∨ es.any (Json.pyEq v) = true) →
        es.any (Json.jsonEq v) = true) ∧
      (∀ pat s, own.pattern = some pat → v = .str s → P.search pat s = true → D pat s = true) ∧
      (∀ items, own.uniqueItems = true → v = .arr items →
        items.Pairwise fun x y => signature P x ≠ signature P y → Json.jsonEq x y = false)

/-- What `_validate_value` leaves open of `allOf`, `not` and `if`: the parts of
an object or an array below them, and conditions that it decides in another
way. -/
def UnseenCombined (s : Schema) (v : Json) : Prop :=
  match s.own.constValue with
  | some _ => CombinedValid D whole s v
  | none =>
      (∀ c ∈ s.allOf,
        UnseenOwn P D whole c.own v ∧ UnseenCombined c v ∧ PartsValid D whole c v) ∧
      (∀ n, s.not = some n → (n.isEmpty = false → ¬ ValuePasses P n v) → ¬ Valid D whole n v) ∧
      (∀ c, s.ifCond = some c →
        (Valid D whole c v → ∀ t, s.thenCase = some t →
          if c.isEmpty = false ∧ valueMatches c v = true then
            UnseenOwn P D whole t.own v ∧ UnseenCombined t v ∧ PartsValid D whole t v
          else Valid D whole t v) ∧
        (¬ Valid D whole c v → ∀ e, s.elseCase = some e →
          if c.isEmpty = false ∧ valueMatches c v = false then
            UnseenOwn P D whole e.own v ∧ UnseenCombined e v ∧ PartsValid D whole e v
          else Valid D whole e v))
termination_by sizeOf s
decreasing_by
  · exact (Schema.Sub.allOf ‹_›).sizeOf_lt
  · exact (Schema.Sub.thenCase ‹_›).sizeOf_lt
  · exact (Schema.Sub.elseCase ‹_›).sizeOf_lt

/-- What is open at a value that `_validate_value` has seen; `inner` is what
`_check_schema` leaves open, which descends only if there are `properties`. -/
def UnseenNode (s : Schema) (v : Json) (inner : List (PyStr × Json) → Prop) : Prop :=
  UnseenOwn P D whole s.own v ∧
  ((∀ fs, v ≠ .obj fs) → UnseenCombined P D whole s v) ∧
  (∀ fs, v = .obj fs →
    if s.properties = [] then UnseenCombined P D whole s v ∧ PartsValid D whole s v else inner fs)

/-- What `_check_schema` leaves open of an object, the keywords `type`,
`const` and `enum` of its own schema aside: a schema in
`additionalProperties`, those keywords in `allOf` and in the branches,
conditions that it decides in another way, and what is open below. -/
def UnseenFields (s : Schema) (fields : List (PyStr × Json)) : Prop :=
  (∀ f ∈ fields, Schema.lookup f.1 s.properties = none →
    ∀ a, s.additionalProperties = some (.inr a) → Valid D whole a f.2) ∧
  (∀ c ∈ s.allOf, c.own.Valid D whole (.obj fields) ∧ UnseenFields c fields) ∧
  (∀ n, s.not = some n → (n.isEmpty = false → condMatches P fields n = false) →
    ¬ Valid D whole n (.obj fields)) ∧
  (∀ c, s.ifCond = some c →
    (Valid D whole c (.obj fields) → ∀ t, s.thenCase = some t →
      if c.isEmpty = false ∧ condMatches P fields c = true then
        t.own.Valid D whole (.obj fields) ∧ UnseenFields t fields
      else Valid D whole t (.obj fields)) ∧
    (¬ Valid D whole c (.obj fields) → ∀ e, s.elseCase = some e →
      if c.isEmpty = false ∧ condMatches P fields c = false then
        e.own.Valid D whole (.obj fields) ∧ UnseenFields e fields
      else Valid D whole e (.obj fields))) ∧
  (∀ f ∈ fields, ∀ pd, Schema.lookup f.1 s.properties = some pd →
    UnseenNode P D whole pd f.2 (fun fs => UnseenFields pd fs) ∧
    (∀ it items, pd.items = some it → it.isEmpty = false → f.2 = .arr items → ∀ x ∈ items,
      UnseenNode P D whole it x (fun fs => UnseenFields it fs) ∧
      ∀ xs, x = .arr xs → PartsValid D whole it x))
termination_by sizeOf s
decreasing_by
  · exact (Schema.Sub.allOf ‹_›).sizeOf_lt
  · exact (Schema.Sub.thenCase ‹_›).sizeOf_lt
  · exact (Schema.Sub.elseCase ‹_›).sizeOf_lt
  · exact (Schema.Sub.of_lookup ‹_›).sizeOf_lt
  · exact (Schema.Sub.items ‹_›).sizeOf_lt.trans (Schema.Sub.of_lookup ‹_›).sizeOf_lt

/-- **What a run on a document leaves open.** -/
def UnseenMet (s : Schema) (fields : List (PyStr × Json)) : Prop :=
  s.own.Valid D whole (.obj fields) ∧ UnseenFields P D whole s fields

end Meaning

section Passed

variable {P : Python} {D : Dialect} {whole : Bool}

/-! ## values that pass -/

theorem number_true_of_false {v : Json} {q : Rat} (h : v.number false = some q) :
    v.number true = some q := by
  cases v <;> simp_all [Json.number]

/-- A type that the checker tests is a type of the value. -/
theorem admits_of_passes {t : TypeKeyword} {v : Json} (htested : t.isTested = true)
    (h : t.passes v = true) : t.admits whole v = true := by
  cases t with
  | union ts => contradiction
  | single t =>
      revert htested h
      cases t <;> cases v <;> simp [TypeKeyword.isTested, TypeKeyword.passes, TypeKeyword.admits,
        SimpleType.isInstance, SimpleType.admits]

/-- The keywords without schemas. -/
theorem own_valid_iff {own : Keywords} {v : Json} (hconst : own.constValue = none)
    (htype : ∀ t, own.type = some t → t.passes v = true) (hpass : KeywordsPass P own v) :
    own.Valid D whole v ↔ UnseenOwn P D whole own v := by
  rw [UnseenOwn, hconst]
  constructor
  · intro h
    refine ⟨h.const .null, fun t ht _ => h.type t ht, fun es hes _ => h.enum es hes,
      fun pat s hpat hv _ => h.pattern pat s hpat hv, ?_⟩
    intro items hunique hv
    apply (h.uniqueItems items hunique hv).imp
    intro x y hne _
    exact hne
  · intro h
    obtain ⟨hnull, huntested, henum, hpattern, hunique⟩ := h
    constructor
    · intro t ht
      cases htested : t.isTested with
      | true => exact admits_of_passes htested (htype t ht)
      | false => exact huntested t ht htested
    · intro c hc
      rw [Keywords.constValue, hc] at hconst
      cases c with
      | null => exact hnull hc
      | _ => contradiction
    · intro es hes
      apply henum es hes
      by_cases hnil : es = []
      · exact .inl hnil
      · exact .inr (hpass.enum es hes hnil)
    · exact fun m q hm hq => hpass.minimum m q hm (number_true_of_false hq)
    · exact fun m q hm hq => hpass.maximum m q hm (number_true_of_false hq)
    · exact hpass.minLength
    · exact fun pat s hpat hv => hpattern pat s hpat hv (hpass.pattern pat s hpat hv)
    · exact hpass.minItems
    · intro items hitems hv
      have hdistinct := List.pairwise_map.mp (hpass.uniqueItems items hitems hv)
      exact (hdistinct.and (hunique items hitems hv)).imp fun h => h.2 h.1

/-- The branches of a condition, where a passed schema is valid exactly when
what it leaves open is met. -/
theorem branch_iff {Holds : Prop} {taken : Prop} [Decidable taken] {o : Option Schema}
    {V U : Schema → Prop} (h : ∀ t, o = some t → taken → (V t ↔ U t)) :
    (Holds → ∀ t, o = some t → V t) ↔ (Holds → ∀ t, o = some t → if taken then U t else V t) := by
  refine forall_congr' fun _ => forall₂_congr fun t ht => ?_
  by_cases htaken : taken
  · rw [if_pos htaken]
    exact h t ht htaken
  · rw [if_neg htaken]

/-- **A value that passes**: its keywords without schemas, and `allOf`, `not`
and `if`, hold exactly when what is open of them is met. -/
theorem value_passed_iff {s : Schema} {v : Json} (h : ValuePasses P s v) :
    (s.own.Valid D whole v ↔ UnseenOwn P D whole s.own v) ∧
      (CombinedValid D whole s v ↔ UnseenCombined P D whole s v) := by
  induction s using Schema.induction with
  | step s ih =>
      rw [UnseenCombined]
      cases hconst : s.own.constValue with
      | some c =>
          rw [UnseenOwn, hconst]
          exact ⟨Iff.rfl, Iff.rfl⟩
      | none =>
          rw [ValuePasses, hconst] at h
          obtain ⟨hall, hnot, hif, htype, hkeywords⟩ := h
          refine ⟨own_valid_iff hconst htype hkeywords, ?_⟩
          have hvalid : ∀ c, Schema.Inside c s → ValuePasses P c v → (Valid D whole c v ↔
              UnseenOwn P D whole c.own v ∧ UnseenCombined P D whole c v ∧
                PartsValid D whole c v) := by
            intro c hc hpass
            obtain ⟨hown, hcombined⟩ := ih c hc hpass
            rw [valid_iff, hown, hcombined]
          refine and_congr ?_ (and_congr ?_ ?_)
          · exact forall₂_congr fun c hc => hvalid c (.single (.allOf hc)) (hall c hc)
          · refine forall₂_congr fun n hn => ?_
            exact ⟨fun hinvalid _ => hinvalid, fun hopen => hopen (hnot n hn)⟩
          · refine forall₂_congr fun c hc => and_congr ?_ ?_
            · exact branch_iff fun t ht htaken =>
                hvalid t (.single (.thenCase ht)) ((hif c hc htaken.1).1 htaken.2 t ht)
            · exact branch_iff fun e he htaken =>
                hvalid e (.single (.elseCase he)) ((hif c hc htaken.1).2 htaken.2 e he)

/-! ## objects that pass -/

/-- A schema without keywords admits everything. -/
theorem valid_of_isEmpty {s : Schema} (h : s.isEmpty = true) (v : Json) : Valid D whole s v := by
  simp only [Schema.isEmpty, Bool.and_eq_true, Bool.not_eq_true', Option.isNone_iff_eq_none,
    List.isEmpty_iff] at h
  rw [valid_iff, CombinedValid, PartsValid]
  refine ⟨⟨?_, ?_, ?_, ?_, ?_, ?_, ?_, ?_, ?_⟩, ?_, ?_⟩
  all_goals simp [h, Schema.lookup]

/-- The parts of a value are those of an object or of an array. -/
theorem partsValid_scalar {s : Schema} {v : Json} (hobj : ∀ fs, v ≠ .obj fs)
    (harr : ∀ items, v ≠ .arr items) : PartsValid D whole s v :=
  ⟨fun fs h => absurd h (hobj fs), fun _ items _ h => absurd h (harr items)⟩

/-- A value that passes, below a schema: what is open of it, and what is open
of its `rest` if it is no object. -/
theorem node_passed_iff {s : Schema} {v : Json} {inner : List (PyStr × Json) → Prop} {rest : Prop}
    (h : ValuePasses P s v)
    (hinner : ∀ fs, v = .obj fs → s.properties ≠ [] →
      (CombinedValid D whole s v ∧ PartsValid D whole s v ↔ inner fs))
    (hobj : ∀ fs, v = .obj fs → rest)
    (hother : (∀ fs, v ≠ .obj fs) → (PartsValid D whole s v ↔ rest)) :
    Valid D whole s v ↔ UnseenNode P D whole s v inner ∧ rest := by
  have hvalue : (s.own.Valid D whole v ↔ UnseenOwn P D whole s.own v) ∧
      (CombinedValid D whole s v ↔ UnseenCombined P D whole s v) := value_passed_iff h
  rw [valid_iff, hvalue.1, UnseenNode, and_assoc]
  refine and_congr_right fun _ => ?_
  by_cases hobject : ∃ fs, v = .obj fs
  · obtain ⟨fs, hfs⟩ := hobject
    have hnot : ¬ ∀ fs, v ≠ .obj fs := fun hne => hne fs hfs
    simp only [hnot, false_implies, true_and, hobj fs hfs, and_true]
    by_cases hprops : s.properties = []
    · simp only [hprops, if_true, ← hvalue.2]
      exact ⟨fun hvalid _ _ => hvalid, fun hvalid => hvalid fs hfs⟩
    · simp only [hprops, if_false, hinner fs hfs hprops]
      constructor
      · intro hfields fs' hfs'
        rw [hfs, Json.obj.injEq] at hfs'
        rwa [← hfs']
      · exact fun hfields => hfields fs hfs
  · have hne : ∀ fs, v ≠ .obj fs := fun fs hfs => hobject ⟨fs, hfs⟩
    rw [hother hne, hvalue.2]
    constructor
    · exact fun hopen => ⟨⟨fun _ => hopen.1, fun fs hfs => absurd hfs (hne fs)⟩, hopen.2⟩
    · exact fun hopen => ⟨hopen.1.1 hne, hopen.2⟩

/-- The items of an array that passes. -/
theorem item_passed_iff {it : Schema} {x : Json} (h : ValuePasses P it x)
    (hinner : ∀ fs, x = .obj fs → it.properties ≠ [] →
      (CombinedValid D whole it x ∧ PartsValid D whole it x ↔ UnseenFields P D whole it fs)) :
    Valid D whole it x ↔
      UnseenNode P D whole it x (fun fs => UnseenFields P D whole it fs) ∧
        ∀ xs, x = .arr xs → PartsValid D whole it x := by
  refine node_passed_iff h hinner ?_ ?_
  · intro fs hfs xs hxs
    rw [hfs] at hxs
    contradiction
  · intro hne
    constructor
    · exact fun hparts _ _ => hparts
    · intro hopen
      by_cases harr : ∃ xs, x = .arr xs
      · obtain ⟨xs, hxs⟩ := harr
        exact hopen xs hxs
      · exact partsValid_scalar hne fun items hitems => harr ⟨items, hitems⟩

/-- The parts of an array that passes. -/
theorem items_passed_iff {pd : Schema} {v : Json} (hne : ∀ fs, v ≠ .obj fs)
    (hpass : ∀ it items, pd.items = some it → it.isEmpty = false → v = .arr items →
      ∀ x ∈ items, ValuePasses P it x ∧
        ∀ fs, x = .obj fs → it.properties ≠ [] →
          (CombinedValid D whole it x ∧ PartsValid D whole it x ↔ UnseenFields P D whole it fs)) :
    PartsValid D whole pd v ↔
      ∀ it items, pd.items = some it → it.isEmpty = false → v = .arr items → ∀ x ∈ items,
        UnseenNode P D whole it x (fun fs => UnseenFields P D whole it fs) ∧
          ∀ xs, x = .arr xs → PartsValid D whole it x := by
  constructor
  · intro hparts it items hit hempty hv x hx
    obtain ⟨hvalue, hinner⟩ := hpass it items hit hempty hv x hx
    exact (item_passed_iff hvalue hinner).mp (hparts.2 it items hit hv x hx)
  · intro hopen
    refine ⟨fun fs hfs => absurd hfs (hne fs), fun it items hit hv x hx => ?_⟩
    cases hempty : it.isEmpty with
    | true => exact valid_of_isEmpty hempty x
    | false =>
        obtain ⟨hvalue, hinner⟩ := hpass it items hit hempty hv x hx
        exact (item_passed_iff hvalue hinner).mpr (hopen it items hit hempty hv x hx)

/-- **An object that passes**: the keywords of its schema that have schemas
hold exactly when what is open of them is met. -/
theorem fields_passed_iff {s : Schema} {fields : List (PyStr × Json)}
    (h : ObjectPasses P s fields) :
    CombinedValid D whole s (.obj fields) ∧ PartsValid D whole s (.obj fields) ↔
      UnseenFields P D whole s fields := by
  induction s using Schema.induction generalizing fields with
  | step s ih =>
      rw [ObjectPasses] at h
      obtain ⟨-, hrequired, hunknown, hall, hnot, hif, hfields⟩ := h
      have hvalid : ∀ c, Schema.Inside c s → ObjectPasses P c fields →
          (Valid D whole c (.obj fields) ↔
            c.own.Valid D whole (.obj fields) ∧ UnseenFields P D whole c fields) := by
        intro c hc hpass
        rw [valid_iff, ih c hc hpass]
      have hcombined : CombinedValid D whole s (.obj fields) ↔
          (∀ c ∈ s.allOf, c.own.Valid D whole (.obj fields) ∧ UnseenFields P D whole c fields) ∧
          (∀ n, s.not = some n → (n.isEmpty = false → condMatches P fields n = false) →
            ¬ Valid D whole n (.obj fields)) ∧
          (∀ c, s.ifCond = some c →
            (Valid D whole c (.obj fields) → ∀ t, s.thenCase = some t →
              if c.isEmpty = false ∧ condMatches P fields c = true then
                t.own.Valid D whole (.obj fields) ∧ UnseenFields P D whole t fields
              else Valid D whole t (.obj fields)) ∧
            (¬ Valid D whole c (.obj fields) → ∀ e, s.elseCase = some e →
              if c.isEmpty = false ∧ condMatches P fields c = false then
                e.own.Valid D whole (.obj fields) ∧ UnseenFields P D whole e fields
              else Valid D whole e (.obj fields))) := by
        refine and_congr ?_ (and_congr ?_ ?_)
        · exact forall₂_congr fun c hc => hvalid c (.single (.allOf hc)) (hall c hc)
        · refine forall₂_congr fun n hn => ?_
          exact ⟨fun hinvalid _ => hinvalid, fun hopen => hopen (hnot n hn)⟩
        · refine forall₂_congr fun c hc => and_congr ?_ ?_
          · exact branch_iff fun t ht htaken =>
              hvalid t (.single (.thenCase ht)) ((hif c hc htaken.1).1 htaken.2 t ht)
          · exact branch_iff fun e he htaken =>
              hvalid e (.single (.elseCase he)) ((hif c hc htaken.1).2 htaken.2 e he)
      have hfield : ∀ f ∈ fields, ∀ pd, Schema.lookup f.1 s.properties = some pd →
          (Valid D whole pd f.2 ↔
            UnseenNode P D whole pd f.2 (fun fs => UnseenFields P D whole pd fs) ∧
            (∀ it items, pd.items = some it → it.isEmpty = false → f.2 = .arr items →
              ∀ x ∈ items, UnseenNode P D whole it x (fun fs => UnseenFields P D whole it fs) ∧
                ∀ xs, x = .arr xs → PartsValid D whole it x)) := by
        intro f hf pd hpd
        obtain ⟨hvalue, hobject, hitems⟩ := hfields f hf pd hpd
        refine node_passed_iff hvalue ?_ ?_ ?_
        · intro fs hfs hprops
          rw [hfs]
          exact ih pd (.single (.of_lookup hpd)) (hobject fs hfs hprops)
        · intro fs hfs it items _ _ hv
          rw [hfs] at hv
          contradiction
        · intro hne
          refine items_passed_iff hne fun it items hit hempty hv x hx => ?_
          obtain ⟨hitem, hinner⟩ := hitems it items hit hempty hv x hx
          refine ⟨hitem, fun fs hfs hprops => ?_⟩
          rw [hfs]
          exact ih it (.tail (.single (.items hit)) (.of_lookup hpd)) (hinner fs hfs hprops)
      have hparts : PartsValid D whole s (.obj fields) ↔
          (∀ f ∈ fields, Schema.lookup f.1 s.properties = none →
            ∀ a, s.additionalProperties = some (.inr a) → Valid D whole a f.2) ∧
          (∀ f ∈ fields, ∀ pd, Schema.lookup f.1 s.properties = some pd →
            UnseenNode P D whole pd f.2 (fun fs => UnseenFields P D whole pd fs) ∧
            (∀ it items, pd.items = some it → it.isEmpty = false → f.2 = .arr items →
              ∀ x ∈ items, UnseenNode P D whole it x (fun fs => UnseenFields P D whole it fs) ∧
                ∀ xs, x = .arr xs → PartsValid D whole it x)) := by
        constructor
        · intro hvalid
          have hall := (hvalid.1 fields rfl).2
          exact ⟨fun f hf hnone => ((hall f hf).2 hnone).2,
            fun f hf pd hpd => (hfield f hf pd hpd).mp ((hall f hf).1 pd hpd)⟩
        · intro hopen
          refine ⟨fun fields' heq => ?_, fun it items _ hv => by contradiction⟩
          cases heq
          refine ⟨hrequired, fun f hf => ⟨fun pd hpd => ?_, fun hnone => ⟨?_, hopen.1 f hf hnone⟩⟩⟩
          · exact (hfield f hf pd hpd).mpr (hopen.2 f hf pd hpd)
          · intro hfalse
            have hsome := hunknown hfalse f hf
            rw [hnone] at hsome
            contradiction
      rw [hcombined, hparts, UnseenFields]
      -- the same five parts, `additionalProperties` in front
      constructor
      · intro h
        exact ⟨h.2.1, h.1.1, h.1.2.1, h.1.2.2, h.2.2⟩
      · intro h
        exact ⟨⟨h.2.1, h.2.2.1, h.2.2.2.1⟩, h.1, h.2.2.2.2⟩

/-- **A document that passes is valid exactly when what the checker does not
see is met.** -/
theorem passed_valid_iff (P : Python) (D : Dialect) (whole : Bool) (s : Schema)
    (fields : List (PyStr × Json)) (ctx : PyStr) (h : checkSchema P s fields ctx = []) :
    Valid D whole s (.obj fields) ↔ UnseenMet P D whole s fields := by
  rw [checkSchema_eq_nil_iff] at h
  rw [valid_iff, fields_passed_iff h, UnseenMet]

end Passed

/-! ## the metadata of a release -/

section Validity

variable {D : Dialect} {whole : Bool} {s : Schema} {fields : List (PyStr × Json)}

/-- A declared field is valid for its schema. -/
theorem valid_property (h : Valid D whole s (.obj fields)) {key : PyStr} {v : Json} {pd : Schema}
    (hf : (key, v) ∈ fields) (hpd : Schema.lookup key s.properties = some pd) :
    Valid D whole pd v := by
  rw [valid_iff] at h
  exact ((h.2.2.1 fields rfl).2 (key, v) hf).1 pd hpd

/-- A field that is not declared is valid for `additionalProperties`. -/
theorem valid_additional (h : Valid D whole s (.obj fields)) {key : PyStr} {v : Json} {a : Schema}
    (hf : (key, v) ∈ fields) (hnone : Schema.lookup key s.properties = none)
    (ha : s.additionalProperties = some (.inr a)) : Valid D whole a v := by
  rw [valid_iff] at h
  exact (((h.2.2.1 fields rfl).2 (key, v) hf).2 hnone).2 a ha

end Validity

/-- `re.search` for patterns without metacharacters, and values without
floats. -/
def plainPython : Python where
  search := contains
  repr := Json.dumps fun _ => []
  floatRepr _ := []
  search_nil s := by cases s <;> rfl

/-- A schema with a type and no schema inside. -/
def Schema.ofType (t : SimpleType) : Schema :=
  .node { type := some (.single t) } [] none none [] none none none none

/-- The schema of `metadata` in `release-contract.schema.json`. -/
def metadataSchema : Schema :=
  .node { type := some (.single .object),
          required := [lit "required_fields", lit "static_values", lit "formats"] }
    [(lit "required_fields", .node { type := some (.single .array), uniqueItems := true } [] none
        (some (.ofType .string)) [] none none none none),
     (lit "static_values", .node { type := some (.single .object) } []
        (some (.inr (.ofType .string))) none [] none none none none),
     (lit "formats", .node { type := some (.single .object) } []
        (some (.inr (.ofType .string))) none [] none none none none)]
    (some (.inl false)) none [] none none none none

/-- The schema of a release, as far as `metadata`. -/
def releaseSchema : Schema :=
  .node { type := some (.single .object), required := [lit "metadata"] }
    [(lit "metadata", metadataSchema)] (some (.inl false)) none [] none none none none

/-- A release whose static value is a number. -/
def numericRelease : List (PyStr × Json) :=
  [(lit "metadata", .obj
    [(lit "required_fields", .arr []), (lit "static_values", .obj [(lit "build", .int 1)]),
     (lit "formats", .obj [])])]

/-- The checker reports nothing. -/
theorem numericRelease_passes :
    checkSchema plainPython releaseSchema numericRelease (lit "release-contract.schema.json") =
      [] := by
  decide

theorem numericRelease_invalid : ¬ Valid contains true releaseSchema (.obj numericRelease) := by
  intro h
  have hmetadata := valid_property h List.mem_cons_self rfl
  have hstatic := valid_property hmetadata (List.mem_cons_of_mem _ List.mem_cons_self) rfl
  have hbuild := valid_additional hstatic List.mem_cons_self rfl rfl
  rw [valid_iff] at hbuild
  exact absurd (hbuild.1.type _ rfl) (by decide)

/-- What is open of the document is its static value. -/
theorem numericRelease_unseen : checkSchema plainPython releaseSchema numericRelease
    (lit "release-contract.schema.json") = [] ∧
    ¬ UnseenMet plainPython contains true releaseSchema numericRelease := by
  refine ⟨numericRelease_passes, fun h => numericRelease_invalid ?_⟩
  exact (passed_valid_iff plainPython contains true releaseSchema numericRelease
    (lit "release-contract.schema.json") numericRelease_passes).mpr h

/-- The document passes and is not valid. -/
theorem numeric_static_value_passes :
    checkSchema plainPython releaseSchema numericRelease (lit "release-contract.schema.json") =
      [] ∧ ¬ Valid contains true releaseSchema (.obj numericRelease) :=
  ⟨numericRelease_passes, numericRelease_invalid⟩

end Contracts

end SushidaOs
