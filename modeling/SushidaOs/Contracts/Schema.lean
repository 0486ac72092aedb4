import SushidaOs.Json
import SushidaOs.Contracts.Report

/-!
# SushidaOs.Contracts.Schema

The schemas of the contracts, and the checker of `tools/check-contracts.py`.

Four functions share the work:

* `checkSchema` — an object against a schema: its fields, and the fields of
  the objects below it;
* `validateValue` — one value against the keywords that need no descent;
* `condMatches`, `valueMatches` — two evaluators of conditions, one for
  objects checked by `checkSchema`, one for values checked by
  `validateValue`.

All of them are recursive in the schema; the document is walked as the schema
says.
-/

namespace SushidaOs

open PyStr

namespace Contracts

/-- The values of `type`. -/
inductive SimpleType where
  | array
  | object
  | string
  | integer
  | number
  | boolean
  | null
  deriving DecidableEq, Repr

/-- `type`: a name or a list of names. -/
inductive TypeKeyword where
  | single (t : SimpleType)
  | union (ts : List SimpleType)
  deriving DecidableEq, Repr

/-- The keywords of a schema that hold no schema.

`others` says that there are keywords besides, with no effect: annotations,
or `required: []`, `properties: {}`, `allOf: []`, `uniqueItems: false`. -/
structure Keywords where
  unsupported : List PyStr := []
  others : Bool := false
  type : Option TypeKeyword := none
  required : List PyStr := []
  const : Option Json := none
  enum : Option (List Json) := none
  minimum : Option Json.Num := none
  maximum : Option Json.Num := none
  minLength : Option Nat := none
  pattern : Option PyStr := none
  format : Option PyStr := none
  minItems : Option Nat := none
  uniqueItems : Bool := false

/-- A schema that is an object. -/
inductive Schema where
  | node (own : Keywords) (properties : List (PyStr × Schema))
      (additionalProperties : Option (Bool ⊕ Schema)) (items : Option Schema)
      (allOf : List Schema) (not ifCond thenCase elseCase : Option Schema)

namespace Schema

def own : Schema → Keywords
  | node own .. => own

def properties : Schema → List (PyStr × Schema)
  | node _ properties .. => properties

def additionalProperties : Schema → Option (Bool ⊕ Schema)
  | node _ _ additionalProperties .. => additionalProperties

def items : Schema → Option Schema
  | node _ _ _ items .. => items

def allOf : Schema → List Schema
  | node _ _ _ _ allOf .. => allOf

def not : Schema → Option Schema
  | node _ _ _ _ _ not .. => not

def ifCond : Schema → Option Schema
  | node _ _ _ _ _ _ ifCond .. => ifCond

def thenCase : Schema → Option Schema
  | node _ _ _ _ _ _ _ thenCase _ => thenCase

def elseCase : Schema → Option Schema
  | node _ _ _ _ _ _ _ _ elseCase => elseCase

/-- `props.get(key)`. -/
def lookup (key : PyStr) : List (PyStr × Schema) → Option Schema
  | [] => none
  | (k, s) :: rest => if k = key then some s else lookup key rest

/-- `not schema`: the object has no key. -/
def isEmpty (s : Schema) : Bool :=
  s.own.unsupported.isEmpty && !s.own.others && s.own.type.isNone && s.own.required.isEmpty &&
    s.own.const.isNone && s.own.enum.isNone && s.own.minimum.isNone && s.own.maximum.isNone &&
    s.own.minLength.isNone && s.own.pattern.isNone && s.own.format.isNone &&
    s.own.minItems.isNone && !s.own.uniqueItems && s.properties.isEmpty &&
    s.additionalProperties.isNone && s.items.isNone && s.allOf.isEmpty && s.not.isNone &&
    s.ifCond.isNone && s.thenCase.isNone && s.elseCase.isNone

end Schema

/-- `pd.get("const")`: a constant `null` is as good as none. -/
def Keywords.constValue (own : Keywords) : Option Json :=
  match own.const with
  | some .null => none
  | const => const

/-- What the checker takes from Python: `re.search`, `repr` for its messages,
and `float.__repr__` for `json.dumps`. -/
structure Python where
  search : PyStr → PyStr → Bool
  repr : Json → PyStr
  floatRepr : Rat → PyStr
  search_nil : ∀ s : PyStr, search [] s = true

/-! ## single values -/

/-- The name of a type. -/
def SimpleType.name : SimpleType → PyStr
  | .array => lit "array"
  | .object => lit "object"
  | .string => lit "string"
  | .integer => lit "integer"
  | .number => lit "number"
  | .boolean => lit "boolean"
  | .null => lit "null"

/-- The `isinstance` tests; there is none for `null`. -/
def SimpleType.isInstance : SimpleType → Json → Bool
  | .array, .arr _ => true
  | .object, .obj _ => true
  | .string, .str _ => true
  | .integer, .int _ => true
  | .number, .int _ => true
  | .number, .float _ => true
  | .boolean, .bool _ => true
  | .null, _ => true
  | _, _ => false

/-- `_validate_type`; a list of types is compared with the names and equals
none. -/
def validateType (value : Json) (expected : TypeKeyword) (path : PyStr) : List PyStr :=
  match expected with
  | .union _ => []
  | .single t =>
      if t.isInstance value then []
      else [path ++ lit ": expected " ++ t.name ++ lit ", got " ++ value.typeName]

/-- `sig`. -/
def signature (P : Python) : Json → PyStr
  | .str s => s
  | item => item.dumps P.floatRepr

/-- The errors for items whose signature was seen before. -/
def duplicateErrors (P : Python) (e : ContractError) (seen : List PyStr) :
    List Json → List ContractError
  | [] => []
  | item :: rest =>
      (if seen.contains (signature P item) then [e] else []) ++
        duplicateErrors P e (signature P item :: seen) rest

/-- The test of `format: uri`. -/
def looksLikeUri (s : PyStr) : Bool :=
  (lit "http").isPrefixOf s || (lit "file").isPrefixOf s || (lit "/").isPrefixOf s ||
    (lit "chrome").isPrefixOf s

/-- The keywords after `type`. -/
def keywordErrors (P : Python) (own : Keywords) (val : Json) (contractName ctx key : PyStr) :
    List ContractError :=
  let error (code : ErrorCode) (message : PyStr) : ContractError :=
    ⟨code, contractName, key, ctx, message⟩
  (match own.minLength, val with
    | some ml, .str s =>
        if s.length < ml then
          [error .schemaMinLength (lit "len " ++ ofNat s.length ++ lit " < min " ++ ofNat ml)]
        else []
    | _, _ => []) ++
  (match own.pattern, val with
    | some pat, .str s =>
        if !pat.isEmpty && !P.search pat s then
          [error .schemaPattern (lit "value " ++ P.repr val ++ lit " does not match " ++
            P.repr (.str pat))]
        else []
    | _, _ => []) ++
  (match own.format, val with
    | some fmt, .str s =>
        if fmt == lit "uri" && !looksLikeUri s then
          [error .schemaFormat (lit "value " ++ P.repr val ++ lit " is not a valid URI")]
        else []
    | _, _ => []) ++
  (match own.enum with
    | some enum =>
        if !enum.isEmpty && !enum.any (Json.pyEq val) then
          [error .schemaEnum (lit "value " ++ P.repr val ++ lit " not in " ++ P.repr (.arr enum))]
        else []
    | none => []) ++
  (match own.minimum, val.number true with
    | some pmin, some q =>
        if q < pmin.toRat then
          [error .schemaBound (P.repr val ++ lit " < min " ++ P.repr pmin.toJson)]
        else []
    | _, _ => []) ++
  (match own.maximum, val.number true with
    | some pmax, some q =>
        if pmax.toRat < q then
          [error .schemaBound (P.repr val ++ lit " > max " ++ P.repr pmax.toJson)]
        else []
    | _, _ => []) ++
  (match val with
    | .arr items =>
        (match own.minItems with
          | some mi =>
              if items.length < mi then
                [error .schemaMinItems (lit "expected >= " ++ ofNat mi ++ lit ", got " ++
                  ofNat items.length)]
              else []
          | none => []) ++
        (if own.uniqueItems then
          duplicateErrors P (error .schemaDuplicate (lit "duplicate in array")) [] items
        else [])
    | _ => [])

/-- `type`, and the keywords after it if the type is right. -/
def typeErrors (P : Python) (own : Keywords) (val : Json) (contractName ctx key : PyStr) :
    List ContractError :=
  match own.type with
  | none => keywordErrors P own val contractName ctx key
  | some et =>
      match validateType val et (ctx ++ lit "." ++ key) with
      | [] => keywordErrors P own val contractName ctx key
      | errs => errs.map fun e => ⟨.schemaType, contractName, key, ctx, e⟩

/-- The condition of `if` in `_validate_value`; a value that is no object
matches. -/
def valueMatches (cond : Schema) (val : Json) : Bool :=
  match val with
  | .obj fields =>
      cond.own.required.all (fun f => (Json.lookup f fields).isSome) &&
        cond.properties.all fun p =>
          match Json.lookup p.1 fields with
          | none => true
          | some .null => true
          | some fv =>
              match p.2.own.constValue with
              | none => true
              | some fc => Json.pyEq fv fc
  | _ => true

/-- The truth of `pd.get("not")` and `pd.get("if")`. -/
def isCondition : Option Schema → Bool
  | some cond => !cond.isEmpty
  | none => false

mutual

/-- `_validate_value`. -/
def validateValue (P : Python) :
    Schema → Json → (contractName ctx key : PyStr) → List ContractError
  | .node own _ _ _ allOf not ifCond thenCase elseCase, val, contractName, ctx, key =>
      let fctx := ctx ++ lit "." ++ key
      match own.constValue with
      | some c =>
          if Json.pyEq val c then []
          else [⟨.schemaConst, contractName, key, ctx,
            lit "expected const " ++ P.repr c ++ lit ", got " ++ P.repr val⟩]
      | none =>
          validateAll P allOf val contractName fctx key ++
          (if isCondition not && (validateOption P not val contractName fctx key).isEmpty then
            [⟨.schemaNot, contractName, key, ctx, lit "value matches 'not' constraint"⟩]
          else []) ++
          (if isCondition ifCond = false then []
          else if ifCond.any (valueMatches · val) then
            validateOption P thenCase val contractName fctx key
          else validateOption P elseCase val contractName fctx key) ++
          typeErrors P own val contractName ctx key

/-- The loop over `allOf` in `_validate_value`. -/
def validateAll (P : Python) :
    List Schema → Json → (contractName ctx key : PyStr) → List ContractError
  | [], _, _, _, _ => []
  | c :: cs, val, contractName, ctx, key =>
      validateValue P c val contractName ctx key ++ validateAll P cs val contractName ctx key

/-- A value against a keyword that may be absent. -/
def validateOption (P : Python) :
    Option Schema → Json → (contractName ctx key : PyStr) → List ContractError
  | none, _, _, _, _ => []
  | some s, val, contractName, ctx, key => validateValue P s val contractName ctx key

end

/-! ## objects -/

/-- `os.path.basename(path)`. -/
def basename (path : PyStr) : PyStr := (path.reverse.takeWhile (· ≠ 0x2f)).reverse

/-- `s.replace(sub, "")`, with `skip` characters of a match still to drop. -/
def removeAll (sub : PyStr) (skip : Nat) : PyStr → PyStr
  | [] => []
  | c :: cs =>
      if 0 < skip then removeAll sub (skip - 1) cs
      else if sub.isPrefixOf (c :: cs) then removeAll sub (sub.length - 1) cs
      else c :: removeAll sub 0 cs

/-- `_schema_cond_matches`. -/
def condMatches (P : Python) (fields : List (PyStr × Json)) (cond : Schema) : Bool :=
  cond.own.required.all (fun f => (Json.lookup f fields).isSome) &&
    cond.properties.all fun p =>
      match Json.lookup p.1 fields with
      | none => false
      | some val =>
          (match p.2.own.constValue with
            | some c => Json.pyEq val c
            | none => true) &&
          (match p.2.own.enum with
            | some enum => enum.isEmpty || enum.any (Json.pyEq val)
            | none => true) &&
          (match p.2.own.pattern, val with
            | some pat, .str s => pat.isEmpty || P.search pat s
            | _, _ => true)

/-- The test of `additionalProperties`, which looks for `False` only. -/
def unknownErrors (additionalProperties : Option (Bool ⊕ Schema))
    (properties : List (PyStr × Schema)) (fields : List (PyStr × Json))
    (contractName ctx : PyStr) : List ContractError :=
  match additionalProperties with
  | some (.inl false) =>
      (fields.filter fun f => (Schema.lookup f.1 properties).isNone).map fun f =>
        ⟨.schemaUnknown, contractName, f.1, ctx, lit "unknown field: " ++ f.1⟩
  | _ => []

/-- `if isinstance(val, dict)`. -/
def ifObject (val : Json) (check : List (PyStr × Json) → List ContractError) :
    List ContractError :=
  match val with
  | .obj fields => check fields
  | _ => []

/-- `for item in enumerate(val)`, if `val` is a list. -/
def forItems (val : Json) (check : Json → Nat → List ContractError) : List ContractError :=
  match val with
  | .arr items => items.zipIdx.flatMap fun item => check item.1 item.2
  | _ => []

mutual

/-- `_check_schema`. -/
def checkSchema (P : Python) :
    Schema → (fields : List (PyStr × Json)) → (ctx : PyStr) → List ContractError
  | .node own properties additionalProperties _ allOf not ifCond thenCase elseCase, fields, ctx =>
      let contractName := removeAll (lit ".schema.json") 0 (basename ctx)
      (own.unsupported.map fun key =>
        ⟨.unsupportedKeyword, contractName, key, ctx,
          lit "keyword " ++ P.repr (.str key) ++ lit " is not implemented"⟩) ++
      ((own.required.filter fun field => (Json.lookup field fields).isNone).map fun field =>
        ⟨.schemaRequired, contractName, field, ctx, lit "missing required field: " ++ field⟩) ++
      unknownErrors additionalProperties properties fields contractName ctx ++
      checkAll P allOf fields ctx ++
      (if isCondition not && not.any (condMatches P fields) then
        [⟨.schemaNot, contractName, [], ctx, lit "contract matches a 'not' constraint"⟩]
      else []) ++
      (if isCondition ifCond = false then []
      else if ifCond.any (condMatches P fields) then checkOption P thenCase fields ctx
      else checkOption P elseCase fields ctx) ++
      (fields.flatMap fun f => validateField P properties f.1 f.2 contractName ctx) ++
      (fields.flatMap fun f => descend P properties f.1 f.2 contractName ctx)

/-- The loop over `allOf` in `_check_schema`. -/
def checkAll (P : Python) :
    List Schema → (fields : List (PyStr × Json)) → (ctx : PyStr) → List ContractError
  | [], _, _ => []
  | c :: cs, fields, ctx => checkSchema P c fields ctx ++ checkAll P cs fields ctx

/-- An object against a keyword that may be absent. -/
def checkOption (P : Python) :
    Option Schema → (fields : List (PyStr × Json)) → (ctx : PyStr) → List ContractError
  | none, _, _ => []
  | some s, fields, ctx => checkSchema P s fields ctx

/-- A field against `props[key]`. -/
def validateField (P : Python) :
    List (PyStr × Schema) → (key : PyStr) → Json → (contractName ctx : PyStr) →
    List ContractError
  | [], _, _, _, _ => []
  | (k, pd) :: rest, key, val, contractName, ctx =>
      if k = key then validateValue P pd val contractName ctx key
      else validateField P rest key val contractName ctx

/-- The objects in a field, and the items of an array, against `props[key]`. -/
def descend (P : Python) :
    List (PyStr × Schema) → (key : PyStr) → Json → (contractName ctx : PyStr) →
    List ContractError
  | [], _, _, _, _ => []
  | (k, .node own properties additionalProperties items allOf not ifCond thenCase elseCase) ::
        rest, key, val, contractName, ctx =>
      if k = key then
        (ifObject val fun fields =>
          if properties.isEmpty then []
          else checkSchema P
            (.node own properties additionalProperties items allOf not ifCond thenCase elseCase)
            fields (ctx ++ lit "." ++ key)) ++
        descendItems P items key val contractName (ctx ++ lit "." ++ key)
      else descend P rest key val contractName ctx

/-- The items of an array against `pd.get("items")`. -/
def descendItems (P : Python) :
    Option Schema → (key : PyStr) → Json → (contractName ctx : PyStr) → List ContractError
  | none, _, _, _, _ => []
  | some itemsDef, key, val, contractName, ctx =>
      if itemsDef.isEmpty then []
      else forItems val fun item i =>
        validateValue P itemsDef item contractName ctx (key ++ lit "[" ++ ofNat i ++ lit "]") ++
        ifObject item fun fields =>
          if itemsDef.properties.isEmpty then []
          else checkSchema P itemsDef fields (ctx ++ lit "[" ++ ofNat i ++ lit "]")

end

end Contracts

end SushidaOs
