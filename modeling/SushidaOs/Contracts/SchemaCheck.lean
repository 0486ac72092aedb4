import Mathlib.Logic.Relation
import SushidaOs.Contracts.Schema

/-!
# SushidaOs.Contracts.SchemaCheck

When the checker records no error.

`ValuePasses` and `ObjectPasses` say it of a schema and a value without the
names and paths that only the messages use; `validateValue_eq_nil_iff` and
`checkSchema_eq_nil_iff` connect them to the functions.
-/

namespace SushidaOs

open PyStr

namespace Contracts

namespace Schema

/-! ## subschemas -/

/-- `c` is a schema in a keyword of `s`. -/
inductive Sub (c s : Schema) : Prop
  | property {key : PyStr} (h : (key, c) ∈ s.properties)
  | additional (h : s.additionalProperties = some (.inr c))
  | items (h : s.items = some c)
  | allOf (h : c ∈ s.allOf)
  | not (h : s.not = some c)
  | ifCond (h : s.ifCond = some c)
  | thenCase (h : s.thenCase = some c)
  | elseCase (h : s.elseCase = some c)

/-- A subschema is smaller, so a schema can be gone through by its size. -/
theorem Sub.sizeOf_lt {c s : Schema} (h : Sub c s) : sizeOf c < sizeOf s := by
  cases s with
  | node own properties additionalProperties items allOf not ifCond thenCase elseCase =>
      rw [node.sizeOf_spec]
      cases h with
      | property h =>
          have hlt := List.sizeOf_lt_of_mem h
          rw [Prod.mk.sizeOf_spec] at hlt
          simp only [Schema.properties] at hlt
          omega
      | additional h => simp only [Schema.additionalProperties] at h; subst h; simp; omega
      | items h => simp only [Schema.items] at h; subst h; simp; omega
      | allOf h =>
          have hlt := List.sizeOf_lt_of_mem h
          simp only [Schema.allOf] at hlt
          omega
      | not h => simp only [Schema.not] at h; subst h; simp; omega
      | ifCond h => simp only [Schema.ifCond] at h; subst h; simp; omega
      | thenCase h => simp only [Schema.thenCase] at h; subst h; simp; omega
      | elseCase h => simp only [Schema.elseCase] at h; subst h; simp; omega

/-- `c` is in `s`, at any depth. -/
abbrev Inside : Schema → Schema → Prop := Relation.TransGen Sub

theorem Inside.sizeOf_lt {c s : Schema} (h : Inside c s) : sizeOf c < sizeOf s := by
  induction h with
  | single h => exact h.sizeOf_lt
  | tail _ h ih => exact ih.trans h.sizeOf_lt

/-- Induction over the schemas in a schema. -/
theorem induction {motive : Schema → Prop}
    (step : ∀ s, (∀ c, Inside c s → motive c) → motive s) (s : Schema) : motive s :=
  step s fun c _ => induction step c
termination_by sizeOf s
decreasing_by exact Inside.sizeOf_lt ‹_›

theorem mem_of_lookup {key : PyStr} {properties : List (PyStr × Schema)} {pd : Schema}
    (h : lookup key properties = some pd) : (key, pd) ∈ properties := by
  induction properties with
  | nil => contradiction
  | cons p rest ih =>
      obtain ⟨k, s⟩ := p
      rw [lookup] at h
      split at h
      · next hk =>
          rw [hk, Option.some.inj h]
          exact List.mem_cons_self
      · exact List.mem_cons_of_mem _ (ih h)

theorem Sub.of_lookup {s c : Schema} {key : PyStr} (h : lookup key s.properties = some c) :
    Sub c s := .property (mem_of_lookup h)

end Schema

/-! ## values -/

/-- The keywords after `type` record nothing. -/
structure KeywordsPass (P : Python) (own : Keywords) (v : Json) : Prop where
  minLength : ∀ ml s, own.minLength = some ml → v = .str s → ml ≤ s.length
  pattern : ∀ pat s, own.pattern = some pat → v = .str s → P.search pat s = true
  format : ∀ s, own.format = some (lit "uri") → v = .str s → looksLikeUri s = true
  enum : ∀ es, own.enum = some es → es ≠ [] → es.any (Json.pyEq v) = true
  minimum : ∀ m q, own.minimum = some m → v.number true = some q → m.toRat ≤ q
  maximum : ∀ m q, own.maximum = some m → v.number true = some q → q ≤ m.toRat
  minItems : ∀ mi items, own.minItems = some mi → v = .arr items → mi ≤ items.length
  uniqueItems : ∀ items, own.uniqueItems = true → v = .arr items →
    (items.map (signature P)).Nodup

/-- `uniqueItems`: the signatures are all different. -/
theorem duplicateErrors_eq_nil_iff (P : Python) (e : ContractError) (seen : List PyStr)
    (items : List Json) :
    duplicateErrors P e seen items = [] ↔
      (items.map (signature P)).Nodup ∧ ∀ item ∈ items, signature P item ∉ seen := by
  induction items generalizing seen with
  | nil => simp [duplicateErrors]
  | cons item rest ih =>
      rw [duplicateErrors, List.append_eq_nil_iff, ih, List.map_cons, List.nodup_cons,
        List.forall_mem_cons]
      simp only [ite_eq_right_iff, List.cons_ne_nil, imp_false, List.contains_iff_mem,
        List.mem_map, List.mem_cons, not_or, not_exists, not_and]
      constructor
      · intro h
        exact ⟨⟨fun x hx => (h.2.2 x hx).1, h.2.1⟩, h.1, fun x hx => (h.2.2 x hx).2⟩
      · intro h
        exact ⟨h.2.1, h.1.2, fun x hx => ⟨h.1.1 x hx, h.2.2 x hx⟩⟩

/-- The keywords of a node itself. -/
theorem keywordErrors_eq_nil_iff (P : Python) (own : Keywords) (v : Json)
    (contractName ctx key : PyStr) :
    keywordErrors P own v contractName ctx key = [] ↔ KeywordsPass P own v := by
  simp only [keywordErrors, List.append_eq_nil_iff]
  constructor
  · intro h
    obtain ⟨⟨⟨⟨⟨⟨hlen, hpat⟩, hfmt⟩, henum⟩, hmin⟩, hmax⟩, harr⟩ := h
    constructor
    · intro ml s hml hv
      simpa [hml, hv] using hlen
    · intro pat s hpatEq hv
      cases pat with
      | nil => exact P.search_nil s
      | cons c cs => simpa [hpatEq, hv] using hpat
    · intro s hfmtEq hv
      simpa [hfmtEq, hv] using hfmt
    · intro es hes hne
      simpa [hes, hne] using henum
    · intro m q hm hq
      simpa [hm, hq] using hmin
    · intro m q hm hq
      simpa [hm, hq] using hmax
    · intro mi items hmi hv
      rw [hv] at harr
      simp only [List.append_eq_nil_iff] at harr
      simpa [hmi] using harr.1
    · intro items hunique hv
      rw [hv] at harr
      simp only [List.append_eq_nil_iff, hunique, if_true, duplicateErrors_eq_nil_iff] at harr
      exact harr.2.1
  · intro h
    refine ⟨⟨⟨⟨⟨⟨?_, ?_⟩, ?_⟩, ?_⟩, ?_⟩, ?_⟩, ?_⟩
    · split
      · next ml s hml => rw [if_neg (Nat.not_lt.mpr (h.minLength ml s hml rfl))]
      · rfl
    · split
      · next pat s hpat => simp [h.pattern pat s hpat rfl]
      · rfl
    · split
      · next fmt s hfmt =>
          by_cases huri : fmt = lit "uri"
          · rw [huri] at hfmt
            simp [h.format s hfmt rfl]
          · simp [huri]
      · rfl
    · split
      · next es hes =>
          cases es with
          | nil => rfl
          | cons e es => rw [h.enum _ hes (List.cons_ne_nil e es)]; simp
      · rfl
    · split
      · next m q hm hq => rw [if_neg (not_lt.mpr (h.minimum m q hm hq))]
      · rfl
    · split
      · next m q hm hq => rw [if_neg (not_lt.mpr (h.maximum m q hm hq))]
      · rfl
    · split
      · next items =>
          rw [List.append_eq_nil_iff]
          constructor
          · split
            · next mi hmi => rw [if_neg (Nat.not_lt.mpr (h.minItems mi items hmi rfl))]
            · rfl
          · split
            · next hunique =>
                rw [duplicateErrors_eq_nil_iff]
                exact ⟨h.uniqueItems items hunique rfl, fun _ _ => List.not_mem_nil⟩
            · rfl
      · rfl

def TypeKeyword.passes : TypeKeyword → Json → Bool
  | .union _, _ => true
  | .single t, v => t.isInstance v

/-- `_validate_value` records nothing. -/
def ValuePasses (P : Python) (s : Schema) (v : Json) : Prop :=
  match s.own.constValue with
  | some c => Json.pyEq v c = true
  | none =>
      (∀ c ∈ s.allOf, ValuePasses P c v) ∧
      (∀ n, s.not = some n → n.isEmpty = false → ¬ ValuePasses P n v) ∧
      (∀ c, s.ifCond = some c → c.isEmpty = false →
        (valueMatches c v = true → ∀ t, s.thenCase = some t → ValuePasses P t v) ∧
        (valueMatches c v = false → ∀ e, s.elseCase = some e → ValuePasses P e v)) ∧
      (∀ t, s.own.type = some t → t.passes v = true) ∧
      KeywordsPass P s.own v
termination_by sizeOf s
decreasing_by
  · exact (Schema.Sub.allOf ‹_›).sizeOf_lt
  · exact (Schema.Sub.not ‹_›).sizeOf_lt
  · exact (Schema.Sub.thenCase ‹_›).sizeOf_lt
  · exact (Schema.Sub.elseCase ‹_›).sizeOf_lt

/-- `allOf` of a value: the errors of its members. -/
theorem validateAll_eq (P : Python) (cs : List Schema) (v : Json) (contractName ctx key : PyStr) :
    validateAll P cs v contractName ctx key =
      cs.flatMap fun c => validateValue P c v contractName ctx key := by
  induction cs with
  | nil => simp [validateAll]
  | cons c cs ih => rw [validateAll, ih, List.flatMap_cons]

/-- `type`: nothing is reported of a value of the type. -/
theorem validateType_eq_nil_iff (v : Json) (t : TypeKeyword) (path : PyStr) :
    validateType v t path = [] ↔ t.passes v = true := by
  cases t with
  | union ts => simp [validateType, TypeKeyword.passes]
  | single t => simp [validateType, TypeKeyword.passes]

/-- The type first, then the keywords. -/
theorem typeErrors_eq_nil_iff (P : Python) (own : Keywords) (v : Json)
    (contractName ctx key : PyStr) :
    typeErrors P own v contractName ctx key = [] ↔
      (∀ t, own.type = some t → t.passes v = true) ∧ KeywordsPass P own v := by
  rw [typeErrors]
  cases own.type with
  | none => simp [keywordErrors_eq_nil_iff]
  | some et =>
      have hpasses := validateType_eq_nil_iff v et (ctx ++ lit "." ++ key)
      dsimp only
      cases herrs : validateType v et (ctx ++ lit "." ++ key) with
      | nil =>
          rw [herrs] at hpasses
          simp [keywordErrors_eq_nil_iff, hpasses.mp rfl]
      | cons e es =>
          rw [herrs] at hpasses
          simp [← hpasses]

/-- A schema that may be absent. -/
theorem validateOption_eq_nil_iff {P : Python} {o : Option Schema} {v : Json}
    {contractName ctx key : PyStr} :
    validateOption P o v contractName ctx key = [] ↔
      ∀ s, o = some s → validateValue P s v contractName ctx key = [] := by
  cases o with
  | none => simp [validateOption]
  | some s => simp [validateOption]

theorem guarded_eq_nil_iff {b : Bool} {e : ContractError} :
    (if b = true then [e] else []) = [] ↔ b = false := by
  cases b <;> simp

/-- The errors under `if`: those of the branch that is taken. -/
theorem conditional_eq_nil_iff {ifCond : Option Schema} {matched : Schema → Bool}
    {thenErrors elseErrors : List ContractError} :
    (if isCondition ifCond = false then []
      else if ifCond.any matched then thenErrors else elseErrors) = [] ↔
      ∀ c, ifCond = some c → c.isEmpty = false →
        (matched c = true → thenErrors = []) ∧ (matched c = false → elseErrors = []) := by
  cases ifCond with
  | none => simp [isCondition]
  | some c =>
      cases hempty : c.isEmpty with
      | true => simp [isCondition, hempty]
      | false =>
          cases hmatched : matched c with
          | true => simp [isCondition, hempty, hmatched]
          | false => simp [isCondition, hempty, hmatched]

/-- **A value** passes where `_validate_value` reports nothing. -/
theorem validateValue_eq_nil_iff (P : Python) (s : Schema) (v : Json)
    (contractName ctx key : PyStr) :
    validateValue P s v contractName ctx key = [] ↔ ValuePasses P s v := by
  induction s using Schema.induction generalizing contractName ctx key with
  | step s ih =>
      have hall : ∀ cn cx k, validateAll P s.allOf v cn cx k = [] ↔
          ∀ c ∈ s.allOf, ValuePasses P c v := by
        intro cn cx k
        rw [validateAll_eq, List.flatMap_eq_nil_iff]
        exact forall₂_congr fun c hc => ih c (.single (.allOf hc)) cn cx k
      have hnot : ∀ cn cx k,
          (isCondition s.not && (validateOption P s.not v cn cx k).isEmpty) = false ↔
          ∀ n, s.not = some n → n.isEmpty = false → ¬ ValuePasses P n v := by
        intro cn cx k
        cases hn : s.not with
        | none => simp [isCondition]
        | some n =>
            have hpasses := ih n (.single (.not hn)) cn cx k
            cases hempty : n.isEmpty with
            | true => simp [isCondition, hempty]
            | false => simp [isCondition, validateOption, hempty, ← hpasses]
      have hthen : ∀ cn cx k, validateOption P s.thenCase v cn cx k = [] ↔
          ∀ t, s.thenCase = some t → ValuePasses P t v := by
        intro cn cx k
        rw [validateOption_eq_nil_iff]
        exact forall₂_congr fun t ht => ih t (.single (.thenCase ht)) cn cx k
      have helse : ∀ cn cx k, validateOption P s.elseCase v cn cx k = [] ↔
          ∀ e, s.elseCase = some e → ValuePasses P e v := by
        intro cn cx k
        rw [validateOption_eq_nil_iff]
        exact forall₂_congr fun e he => ih e (.single (.elseCase he)) cn cx k
      rw [ValuePasses]
      cases s with
      | node own properties additionalProperties items allOf not ifCond thenCase elseCase =>
          simp only [Schema.own, Schema.allOf, Schema.not, Schema.ifCond, Schema.thenCase,
            Schema.elseCase] at hall hnot hthen helse ⊢
          rw [validateValue]
          cases own.constValue with
          | some c => simp
          | none =>
              simp only [List.append_eq_nil_iff, hall, guarded_eq_nil_iff, hnot,
                conditional_eq_nil_iff, hthen, helse, typeErrors_eq_nil_iff, and_assoc]

/-! ## objects -/

/-- `_check_schema` records nothing. -/
def ObjectPasses (P : Python) (s : Schema) (fields : List (PyStr × Json)) : Prop :=
  s.own.unsupported = [] ∧
  (∀ f ∈ s.own.required, (Json.lookup f fields).isSome = true) ∧
  (s.additionalProperties = some (.inl false) →
    ∀ f ∈ fields, (Schema.lookup f.1 s.properties).isSome = true) ∧
  (∀ c ∈ s.allOf, ObjectPasses P c fields) ∧
  (∀ n, s.not = some n → n.isEmpty = false → condMatches P fields n = false) ∧
  (∀ c, s.ifCond = some c → c.isEmpty = false →
    (condMatches P fields c = true → ∀ t, s.thenCase = some t → ObjectPasses P t fields) ∧
    (condMatches P fields c = false → ∀ e, s.elseCase = some e → ObjectPasses P e fields)) ∧
  (∀ f ∈ fields, ∀ pd, Schema.lookup f.1 s.properties = some pd →
    ValuePasses P pd f.2 ∧
    (∀ fs, f.2 = .obj fs → pd.properties ≠ [] → ObjectPasses P pd fs) ∧
    (∀ it items, pd.items = some it → it.isEmpty = false → f.2 = .arr items →
      ∀ x ∈ items, ValuePasses P it x ∧
        ∀ fs, x = .obj fs → it.properties ≠ [] → ObjectPasses P it fs))
termination_by sizeOf s
decreasing_by
  · exact (Schema.Sub.allOf ‹_›).sizeOf_lt
  · exact (Schema.Sub.thenCase ‹_›).sizeOf_lt
  · exact (Schema.Sub.elseCase ‹_›).sizeOf_lt
  · exact (Schema.Sub.of_lookup ‹_›).sizeOf_lt
  · exact (Schema.Sub.items ‹_›).sizeOf_lt.trans (Schema.Sub.of_lookup ‹_›).sizeOf_lt

/-- `allOf` of an object: the errors of its members. -/
theorem checkAll_eq (P : Python) (cs : List Schema) (fields : List (PyStr × Json)) (ctx : PyStr) :
    checkAll P cs fields ctx = cs.flatMap fun c => checkSchema P c fields ctx := by
  induction cs with
  | nil => simp [checkAll]
  | cons c cs ih => rw [checkAll, ih, List.flatMap_cons]

/-- A schema that may be absent, for an object. -/
theorem checkOption_eq_nil_iff {P : Python} {o : Option Schema} {fields : List (PyStr × Json)}
    {ctx : PyStr} :
    checkOption P o fields ctx = [] ↔ ∀ s, o = some s → checkSchema P s fields ctx = [] := by
  cases o with
  | none => simp [checkOption]
  | some s => simp [checkOption]

/-- A field without a schema passes. -/
theorem validateField_eq_nil_iff (P : Python) (properties : List (PyStr × Schema))
    (key : PyStr) (v : Json) (contractName ctx : PyStr) :
    validateField P properties key v contractName ctx = [] ↔
      ∀ pd, Schema.lookup key properties = some pd → ValuePasses P pd v := by
  induction properties with
  | nil => simp [validateField, Schema.lookup]
  | cons p rest ih =>
      obtain ⟨k, s⟩ := p
      rw [validateField, Schema.lookup]
      split
      · simp [validateValue_eq_nil_iff]
      · exact ih

theorem ifObject_eq_nil_iff {v : Json} {check : List (PyStr × Json) → List ContractError} :
    ifObject v check = [] ↔ ∀ fs, v = .obj fs → check fs = [] := by
  cases v <;> simp [ifObject]

theorem forItems_eq_nil_iff {v : Json} {check : Json → Nat → List ContractError}
    {Passes : Json → Prop} (h : ∀ x i, check x i = [] ↔ Passes x) :
    forItems v check = [] ↔ ∀ items, v = .arr items → ∀ x ∈ items, Passes x := by
  cases v with
  | arr items =>
      simp only [forItems, List.flatMap_eq_nil_iff, h, Json.arr.injEq, forall_eq']
      constructor
      · intro hall x hx
        obtain ⟨i, hi, rfl⟩ := List.mem_iff_getElem.mp hx
        exact hall (items[i], i) (List.mk_mem_zipIdx_iff_getElem?.mpr (by simp [hi]))
      · intro hall p hp
        exact hall p.1 (List.fst_mem_of_mem_zipIdx hp)
  | _ => simp [forItems]

/-- `additionalProperties: false`: every field is declared. -/
theorem unknownErrors_eq_nil_iff (s : Schema) (fields : List (PyStr × Json))
    (contractName ctx : PyStr) :
    unknownErrors s.additionalProperties s.properties fields contractName ctx = [] ↔
      (s.additionalProperties = some (.inl false) →
        ∀ f ∈ fields, (Schema.lookup f.1 s.properties).isSome = true) := by
  unfold unknownErrors
  split
  · next h => simp [h, Option.isSome_iff_ne_none]
  · next h => exact iff_of_true rfl fun hfalse => absurd hfalse h

/-- What `descend` does with the schema of a field. -/
theorem descend_eq_nil_iff (P : Python) (properties : List (PyStr × Schema)) (key : PyStr)
    (v : Json) (contractName ctx : PyStr) :
    descend P properties key v contractName ctx = [] ↔
      ∀ pd, Schema.lookup key properties = some pd →
        (∀ fs, v = .obj fs → pd.properties ≠ [] →
          checkSchema P pd fs (ctx ++ lit "." ++ key) = []) ∧
        descendItems P pd.items key v contractName (ctx ++ lit "." ++ key) = [] := by
  induction properties with
  | nil => simp [descend, Schema.lookup]
  | cons p rest ih =>
      obtain ⟨k, s⟩ := p
      cases s with
      | node own props additionalProperties items allOf not ifCond thenCase elseCase =>
          rw [descend, Schema.lookup]
          split
          · simp [List.append_eq_nil_iff, ifObject_eq_nil_iff, Schema.properties, Schema.items]
          · exact ih

/-- The objects of an array, each with the schema of the items. -/
theorem descendItems_eq_nil_iff {P : Python} {o : Option Schema}
    (h : ∀ it, o = some it → ∀ fs cx, checkSchema P it fs cx = [] ↔ ObjectPasses P it fs)
    (key : PyStr) (v : Json) (contractName ctx : PyStr) :
    descendItems P o key v contractName ctx = [] ↔
      ∀ it items, o = some it → it.isEmpty = false → v = .arr items →
        ∀ x ∈ items, ValuePasses P it x ∧
          ∀ fs, x = .obj fs → it.properties ≠ [] → ObjectPasses P it fs := by
  cases o with
  | none => simp [descendItems]
  | some it =>
      have hitem : ∀ x i, (validateValue P it x contractName ctx
          (key ++ lit "[" ++ ofNat i ++ lit "]") ++
          ifObject x fun fields => if it.properties.isEmpty then []
            else checkSchema P it fields (ctx ++ lit "[" ++ ofNat i ++ lit "]")) = [] ↔
          ValuePasses P it x ∧
            ∀ fs, x = .obj fs → it.properties ≠ [] → ObjectPasses P it fs := by
        intro x i
        rw [List.append_eq_nil_iff, validateValue_eq_nil_iff, ifObject_eq_nil_iff]
        simp [h it rfl]
      rw [descendItems]
      cases hempty : it.isEmpty with
      | true =>
          refine iff_of_true (if_pos rfl) fun it' items hit hne => ?_
          rw [← Option.some.inj hit, hempty] at hne
          contradiction
      | false =>
          simp only [Bool.false_eq_true, if_false, forItems_eq_nil_iff hitem]
          constructor
          · intro hall it' items hit _ hv
            rw [← Option.some.inj hit]
            exact hall items hv
          · intro hall items hv
            exact hall it items rfl hempty hv

/-- **An object** passes where `_check_schema` reports nothing. -/
theorem checkSchema_eq_nil_iff (P : Python) (s : Schema) (fields : List (PyStr × Json))
    (ctx : PyStr) : checkSchema P s fields ctx = [] ↔ ObjectPasses P s fields := by
  induction s using Schema.induction generalizing fields ctx with
  | step s ih =>
      have hrequired : ∀ contractName : PyStr,
          ((s.own.required.filter fun field => (Json.lookup field fields).isNone).map fun field =>
            (⟨.schemaRequired, contractName, field, ctx,
              lit "missing required field: " ++ field⟩ : ContractError)) = [] ↔
          ∀ f ∈ s.own.required, (Json.lookup f fields).isSome = true := by
        intro contractName
        simp [Option.isSome_iff_ne_none]
      have hall : checkAll P s.allOf fields ctx = [] ↔ ∀ c ∈ s.allOf, ObjectPasses P c fields := by
        rw [checkAll_eq, List.flatMap_eq_nil_iff]
        exact forall₂_congr fun c hc => ih c (.single (.allOf hc)) fields ctx
      have hnot : (isCondition s.not && s.not.any (condMatches P fields)) = false ↔
          ∀ n, s.not = some n → n.isEmpty = false → condMatches P fields n = false := by
        cases s.not with
        | none => simp [isCondition]
        | some n =>
            cases hempty : n.isEmpty with
            | true => simp [isCondition, hempty]
            | false => simp [isCondition, hempty]
      have hthen : checkOption P s.thenCase fields ctx = [] ↔
          ∀ t, s.thenCase = some t → ObjectPasses P t fields := by
        rw [checkOption_eq_nil_iff]
        exact forall₂_congr fun t ht => ih t (.single (.thenCase ht)) fields ctx
      have helse : checkOption P s.elseCase fields ctx = [] ↔
          ∀ e, s.elseCase = some e → ObjectPasses P e fields := by
        rw [checkOption_eq_nil_iff]
        exact forall₂_congr fun e he => ih e (.single (.elseCase he)) fields ctx
      have hfields : ∀ contractName : PyStr,
          ((fields.flatMap fun f => validateField P s.properties f.1 f.2 contractName ctx) = [] ∧
            (fields.flatMap fun f => descend P s.properties f.1 f.2 contractName ctx) = []) ↔
          ∀ f ∈ fields, ∀ pd, Schema.lookup f.1 s.properties = some pd →
            ValuePasses P pd f.2 ∧
            (∀ fs, f.2 = .obj fs → pd.properties ≠ [] → ObjectPasses P pd fs) ∧
            (∀ it items, pd.items = some it → it.isEmpty = false → f.2 = .arr items →
              ∀ x ∈ items, ValuePasses P it x ∧
                ∀ fs, x = .obj fs → it.properties ≠ [] → ObjectPasses P it fs) := by
        intro contractName
        simp only [List.flatMap_eq_nil_iff, validateField_eq_nil_iff, descend_eq_nil_iff,
          ← forall_and]
        refine forall₄_congr fun f hf pd hpd => and_congr_right fun _ => and_congr ?_ ?_
        · exact forall₃_congr fun fs _ _ => ih pd (.single (.of_lookup hpd)) fs _
        · exact descendItems_eq_nil_iff
            (fun it hit fs cx => ih it (.tail (.single (.items hit)) (.of_lookup hpd)) fs cx)
            _ _ _ _
      rw [ObjectPasses]
      cases s with
      | node own properties additionalProperties items allOf not ifCond thenCase elseCase =>
          have hunknown := unknownErrors_eq_nil_iff (.node own properties additionalProperties items
            allOf not ifCond thenCase elseCase) fields
          simp only [Schema.own, Schema.allOf, Schema.not, Schema.ifCond, Schema.thenCase,
            Schema.elseCase, Schema.properties, Schema.additionalProperties]
            at hrequired hall hnot hthen helse hfields hunknown ⊢
          rw [checkSchema]
          simp only [List.append_eq_nil_iff, List.map_eq_nil_iff, hrequired, hunknown, hall,
            guarded_eq_nil_iff, hnot, conditional_eq_nil_iff, hthen, helse, and_assoc, hfields]

end Contracts

end SushidaOs
