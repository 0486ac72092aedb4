import SushidaOs.Contracts.SchemaMeaning

/-!
# SushidaOs.Contracts.SchemaKeywords

Which unsupported keywords the checker notices: those of the schemas that
`_check_schema` itself visits for a document.  `_validate_value` looks for none,
and there is no pass over the schema besides.
-/

namespace SushidaOs

open PyStr

namespace Contracts

/-- An unsupported keyword is among the errors. -/
def Notices (errors : List ContractError) : Prop := ∃ e ∈ errors, e.code = .unsupportedKeyword

section Notices

variable {errors errors' : List ContractError}

@[simp] theorem not_notices_nil : ¬ Notices [] := by simp [Notices]

@[simp] theorem notices_append_iff :
    Notices (errors ++ errors') ↔ Notices errors ∨ Notices errors' := by
  simp only [Notices, List.mem_append, or_and_right, exists_or]

@[simp] theorem notices_singleton_iff {e : ContractError} :
    Notices [e] ↔ e.code = .unsupportedKeyword := by
  simp [Notices]

/-- A list of such errors notices a keyword unless it is empty. -/
theorem notices_map_iff {α : Type} {l : List α} {f : α → ContractError}
    (h : ∀ a, (f a).code = .unsupportedKeyword) : Notices (l.map f) ↔ l ≠ [] := by
  simp only [Notices, List.mem_map, exists_exists_and_eq_and, h, and_true]
  cases l <;> simp

theorem not_notices_map {α : Type} {l : List α} {f : α → ContractError}
    (h : ∀ a, (f a).code ≠ .unsupportedKeyword) : ¬ Notices (l.map f) := by
  simp only [Notices, List.mem_map, exists_exists_and_eq_and, h, and_false, exists_false,
    not_false_eq_true]

/-- A keyword is noticed in one of the lists. -/
theorem notices_flatMap_iff {α : Type} {l : List α} {f : α → List ContractError} :
    Notices (l.flatMap f) ↔ ∃ a ∈ l, Notices (f a) := by
  simp only [Notices, List.mem_flatMap]
  constructor
  · rintro ⟨e, ⟨a, ha, he⟩, hcode⟩
    exact ⟨a, ha, e, he, hcode⟩
  · rintro ⟨a, ha, e, he, hcode⟩
    exact ⟨e, ⟨a, ha, he⟩, hcode⟩

/-- An error of another kind. -/
theorem not_notices_guarded {b : Prop} [Decidable b] {e : ContractError}
    (he : e.code ≠ .unsupportedKeyword) : ¬ Notices (if b then [e] else []) := by
  split
  · simpa using he
  · simp

end Notices

/-! ## values -/

section Values

variable (P : Python) (own : Keywords) (v : Json) (contractName ctx key : PyStr)

/-- Duplicates are another error. -/
theorem not_notices_duplicateErrors {e : ContractError} (he : e.code ≠ .unsupportedKeyword)
    (seen : List PyStr) (items : List Json) : ¬ Notices (duplicateErrors P e seen items) := by
  induction items generalizing seen with
  | nil => simp [duplicateErrors]
  | cons item rest ih =>
      rw [duplicateErrors, notices_append_iff, not_or]
      exact ⟨not_notices_guarded he, ih _⟩

/-- So is whatever is wrong with a value. -/
theorem not_notices_keywordErrors :
    ¬ Notices (keywordErrors P own v contractName ctx key) := by
  simp only [keywordErrors, notices_append_iff, not_or]
  refine ⟨⟨⟨⟨⟨⟨?_, ?_⟩, ?_⟩, ?_⟩, ?_⟩, ?_⟩, ?_⟩
  case refine_7 =>
    split
    · rw [notices_append_iff, not_or]
      refine ⟨?_, ?_⟩
      · split
        · exact not_notices_guarded (by simp)
        · exact not_notices_nil
      · split
        · exact not_notices_duplicateErrors P (by simp) _ _
        · exact not_notices_nil
    · exact not_notices_nil
  all_goals
    split
    · exact not_notices_guarded (by simp)
    · exact not_notices_nil

theorem not_notices_typeErrors : ¬ Notices (typeErrors P own v contractName ctx key) := by
  rw [typeErrors]
  split
  · exact not_notices_keywordErrors P own v contractName ctx key
  · split
    · exact not_notices_keywordErrors P own v contractName ctx key
    · exact not_notices_map fun _ => by simp

end Values

/-- A value is checked without a look at unsupported keywords. -/
theorem not_notices_validateValue (P : Python) (s : Schema) (v : Json)
    (contractName ctx key : PyStr) : ¬ Notices (validateValue P s v contractName ctx key) := by
  induction s using Schema.induction generalizing contractName ctx key with
  | step s ih =>
      have hoption : ∀ o : Option Schema, (∀ c, o = some c → Schema.Inside c s) →
          ∀ cn cx k, ¬ Notices (validateOption P o v cn cx k) := by
        intro o ho cn cx k
        cases o with
        | none => exact not_notices_nil
        | some c => exact ih c (ho c rfl) cn cx k
      have hall : ∀ cn cx k, ¬ Notices (validateAll P s.allOf v cn cx k) := by
        intro cn cx k
        rw [validateAll_eq, notices_flatMap_iff]
        rintro ⟨c, hc, hnotices⟩
        exact ih c (.single (.allOf hc)) cn cx k hnotices
      have hthen := hoption s.thenCase fun c hc => .single (.thenCase hc)
      have helse := hoption s.elseCase fun c hc => .single (.elseCase hc)
      cases s with
      | node own properties additionalProperties items allOf not ifCond thenCase elseCase =>
          simp only [Schema.allOf, Schema.thenCase, Schema.elseCase] at hall hthen helse
          rw [validateValue]
          cases own.constValue with
          | some c =>
              dsimp only
              split
              · exact not_notices_nil
              · simp
          | none =>
              simp only [notices_append_iff, not_or]
              refine ⟨⟨⟨hall _ _ _, not_notices_guarded (by simp)⟩, ?_⟩,
                not_notices_typeErrors P own v contractName ctx key⟩
              split
              · exact not_notices_nil
              · split
                · exact hthen _ _ _
                · exact helse _ _ _

/-- So is whatever is wrong with a field. -/
theorem not_notices_validateField (P : Python) (properties : List (PyStr × Schema))
    (key : PyStr) (v : Json) (contractName ctx : PyStr) :
    ¬ Notices (validateField P properties key v contractName ctx) := by
  induction properties with
  | nil => simp [validateField]
  | cons p rest ih =>
      rw [validateField]
      split
      · exact not_notices_validateValue P p.2 v contractName ctx key
      · exact ih

/-! ## objects -/

/-- `_check_schema` on the first schema and the fields visits the second: it
follows `allOf`, the branch that is taken, the objects of a property that has
`properties`, and the objects of an array whose `items` have. -/
inductive Visits (P : Python) : Schema → List (PyStr × Json) → Schema → Prop
  | self {s : Schema} {fields : List (PyStr × Json)} : Visits P s fields s
  | allOf {s c d : Schema} {fields : List (PyStr × Json)} (hc : c ∈ s.allOf)
      (h : Visits P c fields d) : Visits P s fields d
  | thenCase {s c t d : Schema} {fields : List (PyStr × Json)} (hif : s.ifCond = some c)
      (hne : c.isEmpty = false) (htaken : condMatches P fields c = true)
      (ht : s.thenCase = some t) (h : Visits P t fields d) : Visits P s fields d
  | elseCase {s c e d : Schema} {fields : List (PyStr × Json)} (hif : s.ifCond = some c)
      (hne : c.isEmpty = false) (htaken : condMatches P fields c = false)
      (he : s.elseCase = some e) (h : Visits P e fields d) : Visits P s fields d
  | property {s pd d : Schema} {fields fs : List (PyStr × Json)} {key : PyStr}
      (hf : (key, .obj fs) ∈ fields) (hpd : Schema.lookup key s.properties = some pd)
      (hne : pd.properties ≠ []) (h : Visits P pd fs d) : Visits P s fields d
  | item {s pd it d : Schema} {fields fs : List (PyStr × Json)} {key : PyStr} {items : List Json}
      (hf : (key, .arr items) ∈ fields) (hpd : Schema.lookup key s.properties = some pd)
      (hit : pd.items = some it) (hne : it.properties ≠ []) (hx : .obj fs ∈ items)
      (h : Visits P it fs d) : Visits P s fields d

/-- Some visited schema has an unsupported keyword. -/
def VisitsUnsupported (P : Python) (s : Schema) (fields : List (PyStr × Json)) : Prop :=
  ∃ c, Visits P s fields c ∧ c.own.unsupported ≠ []

/-- One step of a visit. -/
theorem visitsUnsupported_iff {P : Python} {s : Schema} {fields : List (PyStr × Json)} :
    VisitsUnsupported P s fields ↔
      s.own.unsupported ≠ [] ∨
      (∃ c ∈ s.allOf, VisitsUnsupported P c fields) ∨
      (∃ c, s.ifCond = some c ∧ c.isEmpty = false ∧
        ((condMatches P fields c = true ∧
            ∃ t, s.thenCase = some t ∧ VisitsUnsupported P t fields) ∨
          (condMatches P fields c = false ∧
            ∃ e, s.elseCase = some e ∧ VisitsUnsupported P e fields))) ∨
      ∃ f ∈ fields, ∃ pd, Schema.lookup f.1 s.properties = some pd ∧
        ((∃ fs, f.2 = .obj fs ∧ pd.properties ≠ [] ∧ VisitsUnsupported P pd fs) ∨
          ∃ it items, pd.items = some it ∧ f.2 = .arr items ∧
            ∃ x ∈ items, ∃ fs, x = .obj fs ∧ it.properties ≠ [] ∧
              VisitsUnsupported P it fs) := by
  constructor
  · rintro ⟨d, hvisits, hd⟩
    cases hvisits with
    | self => exact .inl hd
    | allOf hc h => exact .inr (.inl ⟨_, hc, d, h, hd⟩)
    | thenCase hif hne htaken ht h =>
        exact .inr (.inr (.inl ⟨_, hif, hne, .inl ⟨htaken, _, ht, d, h, hd⟩⟩))
    | elseCase hif hne htaken he h =>
        exact .inr (.inr (.inl ⟨_, hif, hne, .inr ⟨htaken, _, he, d, h, hd⟩⟩))
    | property hf hpd hne h =>
        exact .inr (.inr (.inr ⟨_, hf, _, hpd, .inl ⟨_, rfl, hne, d, h, hd⟩⟩))
    | item hf hpd hit hne hx h =>
        exact .inr (.inr (.inr
          ⟨_, hf, _, hpd, .inr ⟨_, _, hit, rfl, _, hx, _, rfl, hne, d, h, hd⟩⟩))
  · rintro (hown | ⟨c, hc, d, h, hd⟩ |
      ⟨c, hif, hne, ⟨htaken, t, ht, d, h, hd⟩ | ⟨htaken, e, he, d, h, hd⟩⟩ |
      ⟨⟨key, v⟩, hf, pd, hpd, ⟨fs, hv, hne, d, h, hd⟩ |
        ⟨it, items, hit, hv, x, hx, fs, hfs, hne, d, h, hd⟩⟩)
    · exact ⟨s, .self, hown⟩
    · exact ⟨d, .allOf hc h, hd⟩
    · exact ⟨d, .thenCase hif hne htaken ht h, hd⟩
    · exact ⟨d, .elseCase hif hne htaken he h, hd⟩
    · simp only at hv
      rw [hv] at hf
      exact ⟨d, .property hf hpd hne h, hd⟩
    · simp only at hv
      rw [hv] at hf
      rw [hfs] at hx
      exact ⟨d, .item hf hpd hit hne hx h, hd⟩

/-- Only an object is looked into. -/
theorem notices_ifObject_iff {v : Json} {check : List (PyStr × Json) → List ContractError} :
    Notices (ifObject v check) ↔ ∃ fs, v = .obj fs ∧ Notices (check fs) := by
  cases v <;> simp [ifObject]

/-- Only an array is gone through. -/
theorem notices_forItems_iff {v : Json} {check : Json → Nat → List ContractError}
    {Seen : Json → Prop} (h : ∀ x i, Notices (check x i) ↔ Seen x) :
    Notices (forItems v check) ↔ ∃ items, v = .arr items ∧ ∃ x ∈ items, Seen x := by
  cases v with
  | arr items =>
      simp only [forItems, notices_flatMap_iff, h, Json.arr.injEq, exists_eq_left']
      constructor
      · rintro ⟨p, hp, hseen⟩
        exact ⟨p.1, List.fst_mem_of_mem_zipIdx hp, hseen⟩
      · rintro ⟨x, hx, hseen⟩
        obtain ⟨i, hi, rfl⟩ := List.mem_iff_getElem.mp hx
        exact ⟨(items[i], i), List.mk_mem_zipIdx_iff_getElem?.mpr (by simp [hi]), hseen⟩
  | _ => simp [forItems]

/-- Below a field a keyword is noticed in an object with properties of its own, or in an item.
-/
theorem notices_descend_iff (P : Python) (properties : List (PyStr × Schema)) (key : PyStr)
    (v : Json) (contractName ctx : PyStr) :
    Notices (descend P properties key v contractName ctx) ↔
      ∃ pd, Schema.lookup key properties = some pd ∧
        ((∃ fs, v = .obj fs ∧ pd.properties ≠ [] ∧
            Notices (checkSchema P pd fs (ctx ++ lit "." ++ key))) ∨
          Notices (descendItems P pd.items key v contractName (ctx ++ lit "." ++ key))) := by
  induction properties with
  | nil => simp [descend, Schema.lookup]
  | cons p rest ih =>
      obtain ⟨k, s⟩ := p
      cases s with
      | node own props additionalProperties items allOf not ifCond thenCase elseCase =>
          rw [descend, Schema.lookup]
          split
          · simp only [notices_append_iff, notices_ifObject_iff, Option.some.injEq,
              exists_eq_left', Schema.properties, Schema.items]
            refine or_congr (exists_congr fun fs => and_congr_right fun _ => ?_) Iff.rfl
            cases props <;> simp
          · exact ih

/-- Below an array a keyword is noticed in an item that is an object. -/
theorem notices_descendItems_iff {P : Python} {o : Option Schema}
    (h : ∀ it, o = some it → ∀ fs cx, Notices (checkSchema P it fs cx) ↔ VisitsUnsupported P it fs)
    (key : PyStr) (v : Json) (contractName ctx : PyStr) :
    Notices (descendItems P o key v contractName ctx) ↔
      ∃ it items, o = some it ∧ v = .arr items ∧
        ∃ x ∈ items, ∃ fs, x = .obj fs ∧ it.properties ≠ [] ∧ VisitsUnsupported P it fs := by
  cases o with
  | none => simp [descendItems]
  | some it =>
      have hitem : ∀ x i, Notices (validateValue P it x contractName ctx
          (key ++ lit "[" ++ ofNat i ++ lit "]") ++
          ifObject x fun fields => if it.properties.isEmpty then []
            else checkSchema P it fields (ctx ++ lit "[" ++ ofNat i ++ lit "]")) ↔
          ∃ fs, x = .obj fs ∧ it.properties ≠ [] ∧ VisitsUnsupported P it fs := by
        intro x i
        simp only [notices_append_iff, not_notices_validateValue, false_or, notices_ifObject_iff]
        refine exists_congr fun fs => and_congr_right fun _ => ?_
        rw [← h it rfl fs (ctx ++ lit "[" ++ ofNat i ++ lit "]")]
        cases it.properties <;> simp
      rw [descendItems]
      simp only [Option.some.injEq, exists_and_left, exists_eq_left']
      cases hempty : it.isEmpty with
      | true =>
          have hnil : it.properties = [] := by
            simp only [Schema.isEmpty, Bool.and_eq_true, List.isEmpty_iff] at hempty
            tauto
          simp [hnil]
      | false =>
          simp only [Bool.false_eq_true, if_false, notices_forItems_iff hitem]

/-- An unknown field is another error. -/
theorem not_notices_unknownErrors (additionalProperties : Option (Bool ⊕ Schema))
    (properties : List (PyStr × Schema)) (fields : List (PyStr × Json))
    (contractName ctx : PyStr) :
    ¬ Notices (unknownErrors additionalProperties properties fields contractName ctx) := by
  unfold unknownErrors
  split
  · exact not_notices_map fun _ => by simp
  · exact not_notices_nil

/-- The branch that is taken. -/
theorem notices_conditional_iff {ifCond : Option Schema} {matched : Schema → Bool}
    {thenErrors elseErrors : List ContractError} :
    Notices (if isCondition ifCond = false then []
      else if ifCond.any matched then thenErrors else elseErrors) ↔
      ∃ c, ifCond = some c ∧ c.isEmpty = false ∧
        ((matched c = true ∧ Notices thenErrors) ∨ (matched c = false ∧ Notices elseErrors)) := by
  cases ifCond with
  | none => simp [isCondition]
  | some c =>
      cases hempty : c.isEmpty with
      | true => simp [isCondition, hempty]
      | false => cases hmatched : matched c <;> simp [isCondition, hempty, hmatched]

/-- **A keyword is noticed** exactly in the nodes that `_check_schema` goes to. -/
theorem notices_checkSchema_iff (P : Python) (s : Schema) (fields : List (PyStr × Json))
    (ctx : PyStr) : Notices (checkSchema P s fields ctx) ↔ VisitsUnsupported P s fields := by
  induction s using Schema.induction generalizing fields ctx with
  | step s ih =>
      have hall : Notices (checkAll P s.allOf fields ctx) ↔
          ∃ c ∈ s.allOf, VisitsUnsupported P c fields := by
        rw [checkAll_eq, notices_flatMap_iff]
        exact exists_congr fun c => and_congr_right fun hc =>
          ih c (.single (.allOf hc)) fields ctx
      have hoption : ∀ o : Option Schema, (∀ c, o = some c → Schema.Inside c s) →
          (Notices (checkOption P o fields ctx) ↔
            ∃ c, o = some c ∧ VisitsUnsupported P c fields) := by
        intro o ho
        cases o with
        | none => simp [checkOption]
        | some c => simpa [checkOption] using ih c (ho c rfl) fields ctx
      have hthen := hoption s.thenCase fun c hc => .single (.thenCase hc)
      have helse := hoption s.elseCase fun c hc => .single (.elseCase hc)
      have hdescend : ∀ (contractName : PyStr) (f : PyStr × Json),
          Notices (descend P s.properties f.1 f.2 contractName ctx) ↔
          ∃ pd, Schema.lookup f.1 s.properties = some pd ∧
            ((∃ fs, f.2 = .obj fs ∧ pd.properties ≠ [] ∧ VisitsUnsupported P pd fs) ∨
              ∃ it items, pd.items = some it ∧ f.2 = .arr items ∧
                ∃ x ∈ items, ∃ fs, x = .obj fs ∧ it.properties ≠ [] ∧
                  VisitsUnsupported P it fs) := by
        intro contractName f
        rw [notices_descend_iff]
        refine exists_congr fun pd => and_congr_right fun hpd => or_congr ?_ ?_
        · exact exists_congr fun fs => and_congr_right fun _ => and_congr_right fun _ =>
            ih pd (.single (.of_lookup hpd)) fs _
        · exact notices_descendItems_iff
            (fun it hit fs cx => ih it (.tail (.single (.items hit)) (.of_lookup hpd)) fs cx)
            _ _ _ _
      rw [visitsUnsupported_iff]
      cases s with
      | node own properties additionalProperties items allOf not ifCond thenCase elseCase =>
          simp only [Schema.own, Schema.allOf, Schema.ifCond, Schema.thenCase,
            Schema.elseCase, Schema.properties] at hall hthen helse hdescend ⊢
          rw [checkSchema]
          have hown : ∀ contractName : PyStr, Notices (own.unsupported.map fun key =>
              (⟨.unsupportedKeyword, contractName, key, ctx,
                lit "keyword " ++ P.repr (.str key) ++ lit " is not implemented"⟩ :
                ContractError)) ↔ own.unsupported ≠ [] :=
            fun _ => notices_map_iff fun _ => rfl
          have hrequired : ∀ contractName : PyStr, ¬ Notices
              ((own.required.filter fun field => (Json.lookup field fields).isNone).map fun field =>
                (⟨.schemaRequired, contractName, field, ctx,
                  lit "missing required field: " ++ field⟩ : ContractError)) :=
            fun _ => not_notices_map fun _ => by simp
          have hnot : ¬ Notices (if isCondition not && not.any (condMatches P fields) then
              [⟨.schemaNot, removeAll (lit ".schema.json") 0 (basename ctx), [], ctx,
                lit "contract matches a 'not' constraint"⟩] else []) :=
            not_notices_guarded (by simp)
          simp only [notices_append_iff, hown, hrequired, not_notices_unknownErrors, hall, hnot,
            notices_conditional_iff, hthen, helse, notices_flatMap_iff, not_notices_validateField,
            hdescend, and_false, exists_false, or_false, or_assoc]

/-- `c` is `s` or a schema in it, at any depth. -/
abbrev Schema.Within : Schema → Schema → Prop := Relation.ReflTransGen Schema.Sub

/-- **Unsupported keywords**: one that is anywhere in the schema is noticed exactly
if there is none, or one in a schema that is visited for the document. -/
theorem unsupported_noticed_iff (P : Python) (s : Schema) (fields : List (PyStr × Json))
    (ctx : PyStr) :
    ((∃ c, Schema.Within c s ∧ c.own.unsupported ≠ []) → Notices (checkSchema P s fields ctx)) ↔
      (∀ c, Schema.Within c s → c.own.unsupported = []) ∨ VisitsUnsupported P s fields := by
  rw [notices_checkSchema_iff, imp_iff_not_or]
  refine or_congr_left ?_
  simp only [not_exists, not_and, not_not, ne_eq]

/-- A schema with `multipleOf` under `properties`. -/
def multipleSchema : Schema :=
  .node { type := some (.single .object) }
    [(lit "count", .node { type := some (.single .integer), unsupported := [lit "multipleOf"] } []
      none none [] none none none none)] none none [] none none none none

/-- `multipleOf` is not noticed. -/
theorem multipleOf_unnoticed :
    (∃ c, Schema.Within c multipleSchema ∧ c.own.unsupported ≠ []) ∧
      ¬ Notices (checkSchema plainPython multipleSchema [(lit "count", .int 3)]
        (lit "release-contract")) := by
  have hnone : checkSchema plainPython multipleSchema [(lit "count", .int 3)]
      (lit "release-contract") = [] := by decide
  refine ⟨⟨_, .single (.property List.mem_cons_self), List.cons_ne_nil _ _⟩, ?_⟩
  rw [hnone]
  exact not_notices_nil

end Contracts

end SushidaOs
