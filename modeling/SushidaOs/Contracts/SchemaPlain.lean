import SushidaOs.Contracts.SchemaMeaning

/-!
# SushidaOs.Contracts.SchemaPlain

Plain schemas: objects with properties, arrays of objects or of single values,
and strings, numbers and booleans with their bounds.  On these the two passes of
the checker leave nothing open, and it is exact (`plain_exact`), for a dialect
that finds the patterns in the strings of the document where `re.search` does.

An integer is what `json.loads` reads as an `int`, so `1e2` is none.
-/

namespace SushidaOs

open PyStr

namespace Contracts

/-- The keywords of a string; `others` allows for annotations. -/
def stringKeywords (others : Bool) (enum : Option (List PyStr)) (pattern : Option PyStr)
    (minLength : Option Nat) : Keywords where
  others := others
  type := some (.single .string)
  enum := enum.map (List.map Json.str)
  pattern := pattern
  minLength := minLength

/-- The keywords of a value of another type. -/
def typeKeywords (others : Bool) (t : SimpleType) (required : List PyStr)
    (minimum maximum : Option Json.Num) : Keywords where
  others := others
  type := some (.single t)
  required := required
  minimum := minimum
  maximum := maximum

/-- The keywords of a single value. -/
inductive Leaf : Keywords → Prop
  | string (others : Bool) {enum : Option (List PyStr)} (pattern : Option PyStr)
      (minLength : Option Nat) (hne : enum ≠ some []) :
      Leaf (stringKeywords others enum pattern minLength)
  | number (others : Bool) {t : SimpleType} (minimum maximum : Option Json.Num)
      (ht : t = .integer ∨ t = .number) : Leaf (typeKeywords others t [] minimum maximum)
  | boolean (others : Bool) : Leaf (typeKeywords others .boolean [] none none)

theorem Leaf.required_eq_nil {own : Keywords} (h : Leaf own) : own.required = [] := by
  cases h <;> rfl

/-- A plain schema. -/
inductive Plain : Schema → Prop
  | leaf {own : Keywords} (h : Leaf own) : Plain (.node own [] none none [] none none none none)
  | object (others : Bool) (required : List PyStr) {properties : List (PyStr × Schema)}
      {additional : Option (Bool ⊕ Schema)} (hne : properties ≠ [])
      (hadditional : additional = none ∨ additional = some (.inl false))
      (h : ∀ p ∈ properties, Plain p.2) :
      Plain (.node (typeKeywords others .object required none none) properties additional none []
        none none none none)
  | array (others : Bool) {it : Schema} (h : Plain it) (hflat : it.items = none) :
      Plain (.node (typeKeywords others .array [] none none) [] none (some it) [] none none none
        none)

/-- The root of a document. -/
def PlainRoot (s : Schema) : Prop := Plain s ∧ s.own.type = some (.single .object)

variable {P : Python} {own : Keywords} {s : Schema} {v : Json}

/-! ## single values -/

/-- Among strings both equalities are that of strings. -/
theorem any_str_iff (bools : Bool) (enum : List PyStr) (s : PyStr) :
    (enum.map Json.str).any (Json.eqBy bools (.str s)) = true ↔ s ∈ enum := by
  have heq : ∀ t, Json.eqBy bools (.str s) (.str t) = (s == t) := fun t => by rw [Json.eqBy]
  simp only [List.any_map, List.any_eq_true, Function.comp_apply, heq, beq_iff_eq,
    exists_eq_right']

/-- On a string the checker and the keywords agree, with one search for `pattern`. -/
theorem string_passes_iff {others : Bool} {enum : Option (List PyStr)} {pattern : Option PyStr}
    {minLength : Option Nat} (hne : enum ≠ some []) (s : PyStr) :
    KeywordsPass P (stringKeywords others enum pattern minLength) (.str s) ↔
      (stringKeywords others enum pattern minLength).Valid P.search false (.str s) := by
  have henum : ∀ es, enum.map (List.map Json.str) = some es → es ≠ [] ∧
      (es.any (Json.pyEq (.str s)) = true ↔ es.any (Json.jsonEq (.str s)) = true) := by
    intro es hes
    rw [Option.map_eq_some_iff] at hes
    obtain ⟨strs, hstrs, rfl⟩ := hes
    have hnonempty : strs ≠ [] := fun h => hne (h ▸ hstrs)
    refine ⟨by simpa using hnonempty, ?_⟩
    exact (any_str_iff true strs s).trans (any_str_iff false strs s).symm
  constructor
  · intro h
    constructor
    case minLength => exact h.minLength
    case pattern => exact h.pattern
    case enum => exact fun es hes => (henum es hes).2.mp (h.enum es hes (henum es hes).1)
    case type =>
      rintro t ht
      cases ht
      rfl
    all_goals (intros; contradiction)
  · intro h
    constructor
    case minLength => exact h.minLength
    case pattern => exact h.pattern
    case enum => exact fun es hes _ => (henum es hes).2.mpr (h.enum es hes)
    all_goals (intros; contradiction)

/-- Values of the right type for which Python and JSON Schema know the same
number. -/
theorem type_passes_iff {others : Bool} {t : SimpleType} {required : List PyStr}
    {minimum maximum : Option Json.Num} (hv : t.admits false v = true)
    (hnumber : v.number true = v.number false ∨ minimum = none ∧ maximum = none) :
    KeywordsPass P (typeKeywords others t required minimum maximum) v ↔
      (typeKeywords others t required minimum maximum).Valid P.search false v := by
  have hmin : ∀ m, minimum = some m → v.number true = v.number false := by
    rintro m rfl
    exact hnumber.resolve_right fun h => by cases h.1
  have hmax : ∀ m, maximum = some m → v.number true = v.number false := by
    rintro m rfl
    exact hnumber.resolve_right fun h => by cases h.2
  constructor
  · intro h
    constructor
    case minimum => exact fun m q hm hq => h.minimum m q hm ((hmin m hm).trans hq)
    case maximum => exact fun m q hm hq => h.maximum m q hm ((hmax m hm).trans hq)
    case type =>
      rintro t' ht
      cases ht
      exact hv
    all_goals (intros; contradiction)
  · intro h
    constructor
    case minimum => exact fun m q hm hq => h.minimum m q hm ((hmin m hm).symm.trans hq)
    case maximum => exact fun m q hm hq => h.maximum m q hm ((hmax m hm).symm.trans hq)
    all_goals (intros; contradiction)

/-- A type without bounds is met by its values. -/
theorem typeKeywords_valid {D : Dialect} {whole others : Bool} {t : SimpleType}
    {required : List PyStr} (hv : t.admits whole v = true) :
    (typeKeywords others t required none none).Valid D whole v := by
  constructor
  case type =>
    rintro t' ht
    cases ht
    exact hv
  all_goals (intros; contradiction)

/-- Where the keywords agree on values of the right type, they agree. -/
theorem passes_iff_of_type {t : SimpleType} (htype : own.type = some (.single t))
    (htested : t ≠ .null)
    (h : t.admits false v = true → (KeywordsPass P own v ↔ own.Valid P.search false v)) :
    ((∀ t, own.type = some t → t.passes v = true) ∧ KeywordsPass P own v) ↔
      own.Valid P.search false v := by
  have hpasses : t.isInstance v = t.admits false v := by
    cases t <;> cases v <;> simp_all [SimpleType.isInstance, SimpleType.admits]
  constructor
  · rintro ⟨hinstance, hkeywords⟩
    exact (h (hpasses ▸ hinstance _ htype)).mp hkeywords
  · intro hvalid
    have hadmits : t.admits false v = true := hvalid.type _ htype
    refine ⟨fun t' ht' => ?_, (h hadmits).mpr hvalid⟩
    rw [htype] at ht'
    cases ht'
    exact hpasses.trans hadmits

/-- A plain leaf is checked as it is meant. -/
theorem leaf_passes_iff (h : Leaf own) :
    ((∀ t, own.type = some t → t.passes v = true) ∧ KeywordsPass P own v) ↔
      own.Valid P.search false v := by
  cases h with
  | string others pattern minLength hne =>
      refine passes_iff_of_type (t := .string) rfl (by decide) fun hv => ?_
      cases v with
      | str s => exact string_passes_iff hne s
      | _ => contradiction
  | number others minimum maximum ht =>
      refine passes_iff_of_type rfl ?_ fun hv => type_passes_iff hv (.inl ?_)
      · rcases ht with rfl | rfl <;> decide
      · rcases ht with rfl | rfl <;> cases v <;> first | rfl | contradiction
  | boolean others =>
      exact passes_iff_of_type rfl (by decide) fun hv => type_passes_iff hv (.inr ⟨rfl, rfl⟩)

/-! ## what is seen of a value -/

/-- A value below a property records nothing, in both passes. -/
structure FieldPasses (P : Python) (s : Schema) (v : Json) : Prop where
  value : ValuePasses P s v
  object : ∀ fs, v = .obj fs → s.properties ≠ [] → ObjectPasses P s fs
  items : ∀ it items, s.items = some it → it.isEmpty = false → v = .arr items → ∀ x ∈ items,
    ValuePasses P it x ∧ ∀ fs, x = .obj fs → it.properties ≠ [] → ObjectPasses P it fs

/-- A schema with a type has a keyword. -/
theorem isEmpty_of_type {t : TypeKeyword} (h : s.own.type = some t) : s.isEmpty = false := by
  simp [Schema.isEmpty, h]

/-- Every plain node has a type. -/
theorem Plain.type_isSome (h : Plain s) : ∃ t, s.own.type = some (.single t) := by
  cases h with
  | leaf h => cases h <;> exact ⟨_, rfl⟩
  | object => exact ⟨_, rfl⟩
  | array => exact ⟨_, rfl⟩

/-- A node without `const`, `allOf`, `not` and `if`. -/
structure Uncombined (s : Schema) : Prop where
  const : s.own.const = none
  allOf : s.allOf = []
  not : s.not = none
  ifCond : s.ifCond = none

theorem Plain.uncombined (h : Plain s) : Uncombined s := by
  cases h with
  | leaf h => cases h <;> exact ⟨rfl, rfl, rfl, rfl⟩
  | object => exact ⟨rfl, rfl, rfl, rfl⟩
  | array => exact ⟨rfl, rfl, rfl, rfl⟩

/-- Without combined schemas a value is checked by its own keywords. -/
theorem Uncombined.valuePasses_iff (h : Uncombined s) : ValuePasses P s v ↔
    (∀ t, s.own.type = some t → t.passes v = true) ∧ KeywordsPass P s.own v := by
  have hconst : s.own.constValue = none := by rw [Keywords.constValue, h.const]
  rw [ValuePasses, hconst]
  simp [h.allOf, h.not, h.ifCond]

/-- So is its meaning, but for its parts. -/
theorem Uncombined.valid_iff {D : Dialect} {whole : Bool} (h : Uncombined s) :
    Valid D whole s v ↔ s.own.Valid D whole v ∧ PartsValid D whole s v := by
  rw [Contracts.valid_iff, CombinedValid]
  simp [h.allOf, h.not, h.ifCond]

/-- The first pass on a plain schema. -/
theorem Plain.valuePasses_iff (h : Plain s) : ValuePasses P s v ↔ s.own.Valid P.search false v := by
  rw [h.uncombined.valuePasses_iff]
  cases h with
  | leaf h => exact leaf_passes_iff h
  | object others required =>
      exact passes_iff_of_type rfl (by decide) fun hv => type_passes_iff hv (.inr ⟨rfl, rfl⟩)
  | array others =>
      exact passes_iff_of_type rfl (by decide) fun hv => type_passes_iff hv (.inr ⟨rfl, rfl⟩)

/-- The second pass on an object. -/
theorem objectPasses_iff {s : Schema} (h : Uncombined s) (hunsupported : s.own.unsupported = [])
    (hadditional : s.additionalProperties = none ∨ s.additionalProperties = some (.inl false))
    (hfields : ∀ p ∈ s.properties, ∀ v, FieldPasses P p.2 v ↔ Valid P.search false p.2 v)
    (fields : List (PyStr × Json)) :
    ObjectPasses P s fields ↔ PartsValid P.search false s (.obj fields) := by
  have hfield : ∀ (f : PyStr × Json) pd, Schema.lookup f.1 s.properties = some pd →
      (FieldPasses P pd f.2 ↔ Valid P.search false pd f.2) :=
    fun f pd hpd => hfields (f.1, pd) (Schema.mem_of_lookup hpd) f.2
  rw [ObjectPasses]
  constructor
  · rintro ⟨-, hrequired, hunknown, -, -, -, hvalues⟩
    refine ⟨?_, fun it items _ hv => by cases hv⟩
    rintro fields' heq
    cases heq
    refine ⟨hrequired, fun f hf => ⟨fun pd hpd => ?_, fun hnone => ⟨fun hfalse => ?_, ?_⟩⟩⟩
    · obtain ⟨hvalue, hobject, hitems⟩ := hvalues f hf pd hpd
      exact (hfield f pd hpd).mp ⟨hvalue, hobject, hitems⟩
    · have hsome := hunknown hfalse f hf
      rw [hnone] at hsome
      contradiction
    · intro a ha
      rcases hadditional with hadd | hadd <;> rw [hadd] at ha <;> cases ha
  · intro hparts
    obtain ⟨hrequired, hvalues⟩ := hparts.1 fields rfl
    refine ⟨hunsupported, hrequired, fun hfalse f hf => ?_, ?_, ?_, ?_, fun f hf pd hpd => ?_⟩
    · cases hlookup : Schema.lookup f.1 s.properties with
      | none => exact absurd hfalse ((hvalues f hf).2 hlookup).1
      | some pd => rfl
    · simp [h.allOf]
    · simp [h.not]
    · simp [h.ifCond]
    · have hpasses := (hfield f pd hpd).mpr ((hvalues f hf).1 pd hpd)
      exact ⟨hpasses.value, hpasses.object, hpasses.items⟩

theorem eq_obj_of_admits (h : SimpleType.object.admits false v = true) : ∃ fs, v = .obj fs := by
  cases v with
  | obj fs => exact ⟨fs, rfl⟩
  | _ => contradiction

theorem eq_arr_of_admits (h : SimpleType.array.admits false v = true) :
    ∃ items, v = .arr items := by
  cases v with
  | arr items => exact ⟨items, rfl⟩
  | _ => contradiction

/-- **Plain values**: what the two passes see of a value is its validity. -/
theorem plain_iff (h : Plain s) (v : Json) : FieldPasses P s v ↔ Valid P.search false s v := by
  induction h generalizing v with
  | leaf hleaf =>
      have h := Plain.leaf hleaf
      have hrequired := hleaf.required_eq_nil
      rw [h.uncombined.valid_iff]
      constructor
      · intro hpasses
        refine ⟨h.valuePasses_iff.mp hpasses.value, fun fields _ => ?_, by intros; contradiction⟩
        simp [Schema.own, Schema.properties, Schema.additionalProperties, Schema.lookup, hrequired]
      · intro hvalid
        exact ⟨h.valuePasses_iff.mpr hvalid.1, fun _ _ hne => absurd rfl hne,
          by intros; contradiction⟩
  | object others required hne hadditional hprops ih =>
      have h := Plain.object others required hne hadditional hprops
      have hobject := objectPasses_iff h.uncombined rfl hadditional ih
      rw [h.uncombined.valid_iff]
      constructor
      · intro hpasses
        have hown := h.valuePasses_iff.mp hpasses.value
        obtain ⟨fs, rfl⟩ := eq_obj_of_admits (hown.type _ rfl)
        exact ⟨hown, (hobject fs).mp (hpasses.object fs rfl hne)⟩
      · rintro ⟨hown, hparts⟩
        refine ⟨h.valuePasses_iff.mpr hown, ?_, by intros; contradiction⟩
        rintro fs rfl _
        exact (hobject fs).mpr hparts
  | array others hit hflat ih =>
      rename_i it
      have h := Plain.array others hit hflat
      have hempty := isEmpty_of_type hit.type_isSome.choose_spec
      rw [h.uncombined.valid_iff]
      constructor
      · intro hpasses
        have hown := h.valuePasses_iff.mp hpasses.value
        obtain ⟨items, rfl⟩ := eq_arr_of_admits (hown.type _ rfl)
        refine ⟨hown, by intros; contradiction, ?_⟩
        rintro it' items' hit' hitems x hx
        cases hit'
        cases hitems
        obtain ⟨hvalue, hobject⟩ := hpasses.items it items rfl hempty rfl x hx
        refine (ih x).mp ⟨hvalue, hobject, fun _ _ hsome => ?_⟩
        rw [hflat] at hsome
        contradiction
      · rintro ⟨hown, hparts⟩
        refine ⟨h.valuePasses_iff.mpr hown, fun _ _ hne => absurd rfl hne, ?_⟩
        rintro it' items hit' _ hv x hx
        cases hit'
        have hpasses := (ih x).mpr (hparts.2 it items rfl hv x hx)
        exact ⟨hpasses.value, hpasses.object⟩

/-- The checker against the meaning of a schema in the dialect of `re.search`. -/
theorem checkSchema_plain_iff {s : Schema} (h : PlainRoot s) (fields : List (PyStr × Json))
    (ctx : PyStr) : checkSchema P s fields ctx = [] ↔ Valid P.search false s (.obj fields) := by
  obtain ⟨hplain, htype⟩ := h
  rw [checkSchema_eq_nil_iff]
  cases hplain with
  | leaf hleaf => cases hleaf with
    | number others minimum maximum ht => rcases ht with rfl | rfl <;> cases htype
    | _ => cases htype
  | array => cases htype
  | object others required hne hadditional hprops =>
      have hplain := Plain.object others required hne hadditional hprops
      have hown : (typeKeywords others .object required none none).Valid P.search false
          (.obj fields) := typeKeywords_valid rfl
      rw [hplain.uncombined.valid_iff, objectPasses_iff hplain.uncombined rfl hadditional
        fun p hp v => plain_iff (hprops p hp) v]
      exact (and_iff_right hown).symm

/-! ## dialects -/

/-- Below a value that is held against a schema, a pattern is looked for in a string. -/
inductive Searched : Schema → Json → PyStr → PyStr → Prop
  | here {s : Schema} {pat t : PyStr} (h : s.own.pattern = some pat) : Searched s (.str t) pat t
  | field {s pd : Schema} {fields : List (PyStr × Json)} {f : PyStr × Json} {pat t : PyStr}
      (hf : f ∈ fields) (hpd : Schema.lookup f.1 s.properties = some pd)
      (h : Searched pd f.2 pat t) : Searched s (.obj fields) pat t
  | item {s it : Schema} {items : List Json} {x : Json} {pat t : PyStr} (hit : s.items = some it)
      (hx : x ∈ items) (h : Searched it x pat t) : Searched s (.arr items) pat t

section Dialects

variable {D D' : Dialect} {whole : Bool}

/-- The dialect of `pattern` matters only where a string is searched. -/
theorem own_valid_of_alike (h : s.own.Valid D whole v)
    (halike : ∀ pat t, Searched s v pat t → D pat t = D' pat t) : s.own.Valid D' whole v where
  type := h.type
  const := h.const
  enum := h.enum
  minimum := h.minimum
  maximum := h.maximum
  minLength := h.minLength
  pattern pat t hpat hv := (halike pat t (hv ▸ .here hpat)).symm.trans (h.pattern pat t hpat hv)
  minItems := h.minItems
  uniqueItems := h.uniqueItems

/-- Where the parts of a value stay valid, so do they together. -/
theorem PartsValid.congr (h : PartsValid D whole s v)
    (hadditional : s.additionalProperties = none ∨ s.additionalProperties = some (.inl false))
    (hprops : ∀ fields f pd, v = .obj fields → f ∈ fields →
      Schema.lookup f.1 s.properties = some pd → Valid D whole pd f.2 → Valid D' whole pd f.2)
    (hitems : ∀ it items x, s.items = some it → v = .arr items → x ∈ items →
      Valid D whole it x → Valid D' whole it x) : PartsValid D' whole s v := by
  refine ⟨fun fields hv => ?_, fun it items hit hv x hx =>
    hitems it items x hit hv hx (h.2 it items hit hv x hx)⟩
  obtain ⟨hrequired, hfields⟩ := h.1 fields hv
  refine ⟨hrequired, fun f hf => ⟨fun pd hpd =>
    hprops fields f pd hv hf hpd ((hfields f hf).1 pd hpd), fun hnone =>
    ⟨((hfields f hf).2 hnone).1, fun a ha => ?_⟩⟩⟩
  rcases hadditional with hadd | hadd <;> rw [hadd] at ha <;> cases ha

/-- The dialect of a plain schema counts only for the strings in which it looks for a
pattern. -/
theorem Plain.valid_of_alike (h : Plain s) {v : Json} (hvalid : Valid D whole s v)
    (halike : ∀ pat t, Searched s v pat t → D pat t = D' pat t) : Valid D' whole s v := by
  induction h generalizing v with
  | leaf hleaf =>
      have h := Plain.leaf hleaf
      rw [h.uncombined.valid_iff] at hvalid ⊢
      exact ⟨own_valid_of_alike hvalid.1 halike, hvalid.2.congr (.inl rfl)
        (by intros; contradiction) (by intros; contradiction)⟩
  | object others required hne hadditional hprops ih =>
      have h := Plain.object others required hne hadditional hprops
      rw [h.uncombined.valid_iff] at hvalid ⊢
      refine ⟨own_valid_of_alike hvalid.1 halike,
        hvalid.2.congr hadditional ?_ (by intros; contradiction)⟩
      rintro fields f pd rfl hf hpd hfield
      exact ih (f.1, pd) (Schema.mem_of_lookup hpd) hfield fun pat t hs =>
        halike pat t (.field hf hpd hs)
  | array others hit hflat ih =>
      have h := Plain.array others hit hflat
      rw [h.uncombined.valid_iff] at hvalid ⊢
      refine ⟨own_valid_of_alike hvalid.1 halike,
        hvalid.2.congr (.inl rfl) (by intros; contradiction) ?_⟩
      rintro it items x hit' rfl hx hitem
      cases hit'
      exact ih hitem fun pat t hs => halike pat t (.item rfl hx hs)

end Dialects

/-- **The plain fragment**: on a plain schema the checker records no error exactly for
the valid documents, where `re.search` finds its patterns as the dialect does. -/
theorem plain_exact (P : Python) (D : Dialect) {s : Schema} (h : PlainRoot s)
    (fields : List (PyStr × Json)) (ctx : PyStr)
    (halike : ∀ pat t, Searched s (.obj fields) pat t → P.search pat t = D pat t) :
    checkSchema P s fields ctx = [] ↔ Valid D false s (.obj fields) := by
  rw [checkSchema_plain_iff h]
  constructor
  · exact fun hvalid => h.1.valid_of_alike hvalid halike
  · exact fun hvalid => h.1.valid_of_alike hvalid fun pat t hs => (halike pat t hs).symm

/-! ## the services of a release -/

/-- The pattern of a unit's name. -/
def unitPattern : PyStr := lit "\\.(service|mount|target|timer)$"

/-- What a unit's name may end with. -/
def unitSuffixes : List PyStr := [lit ".service", lit ".mount", lit ".target", lit ".timer"]

/-- The pattern of units, and patterns without metacharacters. -/
def unitDialect : Dialect := fun pat s =>
  if pat = unitPattern then unitSuffixes.any (·.isSuffixOf s) else contains pat s

/-- In `re.search` a line feed may follow. -/
def unitPython : Python where
  search pat s := unitDialect pat s ||
    (pat = unitPattern && s.getLast? = some 0x0a && unitDialect pat s.dropLast)
  repr := plainPython.repr
  floatRepr := plainPython.floatRepr
  search_nil s := by
    have hnil : unitDialect [] s = true := by cases s <;> rfl
    rw [hnil, Bool.true_or]

/-- `required_services` of the release contract, without its `uniqueItems`. -/
def servicesSchema : Schema :=
  .node (typeKeywords true .object [lit "required_services"] none none)
    [(lit "required_services", .node (typeKeywords false .array [] none none) [] none
      (some (.node (typeKeywords false .object [lit "name", lit "state"] none none)
        [(lit "name", .node (stringKeywords false none (some unitPattern) none) [] none none []
            none none none none),
         (lit "state", .node (stringKeywords false
            (some [lit "enabled", lit "masked", lit "disabled"]) none none) [] none none [] none
            none none none)]
        (some (.inl false)) none [] none none none none))
      [] none none none none)]
    none none [] none none none none

theorem servicesSchema_plain : PlainRoot servicesSchema := by
  refine ⟨.object true _ (List.cons_ne_nil _ _) (.inl rfl) ?_, rfl⟩
  rintro p hp
  rw [List.mem_singleton] at hp
  subst hp
  refine .array false (.object false _ (List.cons_ne_nil _ _) (.inr rfl) ?_) rfl
  rintro q hq
  simp only [List.mem_cons, List.not_mem_nil, or_false] at hq
  rcases hq with rfl | rfl
  · exact .leaf (.string false _ none (by simp))
  · exact .leaf (.string false none none (by simp))

/-- One service. -/
def serviceDocument (name state : PyStr) : List (PyStr × Json) :=
  [(lit "required_services", .arr [.obj [(lit "name", .str name), (lit "state", .str state)]])]

/-- The pattern is looked for in the name. -/
theorem searched_serviceDocument {name state pat t : PyStr}
    (h : Searched servicesSchema (.obj (serviceDocument name state)) pat t) : t = name := by
  cases h with
  | field hf hpd h =>
      rw [serviceDocument, List.mem_singleton] at hf
      subst hf
      cases Option.some.inj hpd
      cases h with
      | item hit hx h =>
          rw [List.mem_singleton] at hx
          subst hx
          cases Option.some.inj hit
          cases h with
          | field hf hpd h =>
              simp only [List.mem_cons, List.not_mem_nil, or_false] at hf
              rcases hf with rfl | rfl
              · cases Option.some.inj hpd
                cases h
                rfl
              · cases Option.some.inj hpd
                cases h
                contradiction

/-- A name with a suffix passes, and one without does not, as the dialect has it. -/
theorem services_exact :
    Valid unitDialect false servicesSchema
        (.obj (serviceDocument (lit "NetworkManager.service") (lit "enabled"))) ∧
      ¬ Valid unitDialect false servicesSchema
        (.obj (serviceDocument (lit "NetworkManager") (lit "enabled"))) := by
  have halike : ∀ name state : PyStr, name.getLast? ≠ some 0x0a → ∀ pat t,
      Searched servicesSchema (.obj (serviceDocument name state)) pat t →
        unitPython.search pat t = unitDialect pat t := by
    intro name state hlast pat t h
    rw [searched_serviceDocument h]
    simp [unitPython, hlast]
  constructor
  · exact (plain_exact unitPython unitDialect servicesSchema_plain _ (lit "release-contract")
      (halike _ _ (by decide))).mp (by decide)
  · exact (plain_exact unitPython unitDialect servicesSchema_plain _ (lit "release-contract")
      (halike _ _ (by decide))).not.mp (by decide)

/-! ## an integer with an exponent -/

/-- An integer. -/
def integerSchema : Schema :=
  .node (typeKeywords false .integer [] none none) [] none none [] none none none none

/-- An object with an integer. -/
def countSchema : Schema :=
  .node (typeKeywords false .object [] none none) [(lit "n", integerSchema)] none none [] none none
    none none

theorem countSchema_plain : PlainRoot countSchema := by
  refine ⟨.object false [] (List.cons_ne_nil _ _) (.inl rfl) ?_, rfl⟩
  rintro p hp
  rw [List.mem_singleton] at hp
  subst hp
  exact .leaf (.number false none none (.inl rfl))

/-- The document `{"n": 1e2}`: a hundred is written without fraction and read as a `float`. -/
def exponentDocument : List (PyStr × Json) := [(lit "n", .float 100)]

/-- The document is valid, a number without fraction being an integer, and is reported. -/
theorem exponent_integer_reported :
    PlainRoot countSchema ∧ Valid contains true countSchema (.obj exponentDocument) ∧
      checkSchema plainPython countSchema exponentDocument (lit "runtime-contract") ≠ [] := by
  refine ⟨countSchema_plain, ?_, by decide⟩
  rw [countSchema_plain.1.uncombined.valid_iff]
  refine ⟨typeKeywords_valid rfl, fun fields hv => ?_, by intros; contradiction⟩
  cases hv
  refine ⟨fun f hf => absurd hf (List.not_mem_nil), fun f hf => ⟨fun pd hpd => ?_, fun hnone => ?_⟩⟩
  · rw [exponentDocument, List.mem_singleton] at hf
    subst hf
    cases Option.some.inj hpd
    have hplain : Plain integerSchema := .leaf (.number false none none (.inl rfl))
    rw [hplain.uncombined.valid_iff]
    exact ⟨typeKeywords_valid (by decide), partsValid_scalar (by simp) (by simp)⟩
  · exact ⟨by simp [countSchema, Schema.additionalProperties], by intros; contradiction⟩

end Contracts

end SushidaOs
