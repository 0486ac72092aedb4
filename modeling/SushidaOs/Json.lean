import Mathlib.Data.List.Sort
import Mathlib.Data.Rat.Defs
import SushidaOs.Decimal

/-!
# SushidaOs.Json

The values `json.loads` returns.

A number without fraction and exponent is an `int`, any other a `float`: the
nearest double, which is a rational.  The infinity that is read for a number
beyond all doubles is left out.  An object is a `dict`: its keys are distinct.

Python compares values with `pyEq`, in which `True` is `1`; as JSON values
(`jsonEq`) a boolean equals no number.
-/

namespace SushidaOs

/-- A JSON value in Python's types. -/
inductive Json where
  | null
  | bool (b : Bool)
  | int (n : Int)
  | float (q : Rat)
  | str (s : PyStr)
  | arr (items : List Json)
  | obj (fields : List (PyStr × Json))
  deriving Repr

namespace Json

/-- `data.get(key)` on the fields of an object. -/
def lookup (key : PyStr) : List (PyStr × Json) → Option Json
  | [] => none
  | (k, value) :: rest => if k = key then some value else lookup key rest

/-- `value == n`: a `bool` is an `int`, and numbers are compared by value. -/
def eqInt (n : Int) : Json → Bool
  | bool b => (if b then 1 else 0) = n
  | int m => m = n
  | float q => q = n
  | _ => false

/-- A number as JSON writes it. -/
inductive Num where
  | int (n : Int)
  | float (q : Rat)
  deriving DecidableEq, Repr

def Num.toRat : Num → Rat
  | .int n => n
  | .float q => q

def Num.toJson : Num → Json
  | .int n => Json.int n
  | .float q => Json.float q

/-- `type(value).__name__`. -/
def typeName : Json → PyStr
  | null => .lit "NoneType"
  | bool _ => .lit "bool"
  | int _ => .lit "int"
  | float _ => .lit "float"
  | str _ => .lit "str"
  | arr _ => .lit "list"
  | obj _ => .lit "dict"

/-! ## equality -/

/-- The number that a value is; `bools` counts the booleans as well. -/
def number (bools : Bool) : Json → Option Rat
  | bool b => if bools then some (if b then 1 else 0) else none
  | int n => some n
  | float q => some q
  | _ => none

mutual

/-- Equality of values, of objects in any order. -/
def eqBy (bools : Bool) : Json → Json → Bool
  | null, null => true
  | bool a, bool b => a == b
  | str s, str t => s == t
  | arr xs, arr ys => eqItems bools xs ys
  | obj xs, obj ys => xs.length == ys.length && eqFields bools xs ys
  | x, y =>
      match number bools x, number bools y with
      | some p, some q => p == q
      | _, _ => false

def eqItems (bools : Bool) : List Json → List Json → Bool
  | [], [] => true
  | x :: xs, y :: ys => eqBy bools x y && eqItems bools xs ys
  | _, _ => false

def eqFields (bools : Bool) : List (PyStr × Json) → List (PyStr × Json) → Bool
  | [], _ => true
  | (key, x) :: xs, ys =>
      (match lookup key ys with
        | some y => eqBy bools x y
        | none => false) && eqFields bools xs ys

end

/-- `x == y` in Python. -/
def pyEq (x y : Json) : Bool := eqBy true x y

/-- Equality in JSON Schema. -/
def jsonEq (x y : Json) : Bool := eqBy false x y

/-! ## text -/

/-- `"{0:04x}".format(n)` for `n` below 65536. -/
def hex4 (n : Nat) : PyStr :=
  [n / 4096, n / 256 % 16, n / 16 % 16, n % 16].map fun d => CodePoint.ofChar (Nat.digitChar d)

/-- The escapes of `json.dumps`. -/
def escapeAscii (c : CodePoint) : PyStr :=
  if c = 0x22 || c = 0x5c then [0x5c, c]
  else if c = 0x08 then .lit "\\b"
  else if c = 0x09 then .lit "\\t"
  else if c = 0x0a then .lit "\\n"
  else if c = 0x0c then .lit "\\f"
  else if c = 0x0d then .lit "\\r"
  else if 0x20 ≤ c.val && c.val ≤ 0x7e then [c]
  else if c.val < 0x10000 then .lit "\\u" ++ hex4 c.val
  else .lit "\\u" ++ hex4 (0xd800 + (c.val - 0x10000) / 0x400) ++
    (.lit "\\u" ++ hex4 (0xdc00 + (c.val - 0x10000) % 0x400))

def quoteAscii (s : PyStr) : PyStr := [0x22] ++ s.flatMap escapeAscii ++ [0x22]

mutual

/-- `json.dumps(value, sort_keys=True, separators=(",", ":"))`; `floatRepr` is
`float.__repr__`. -/
def dumps (floatRepr : Rat → PyStr) : Json → PyStr
  | null => .lit "null"
  | bool b => if b then .lit "true" else .lit "false"
  | int n => PyStr.ofInt n
  | float q => floatRepr q
  | str s => quoteAscii s
  | arr items => .lit "[" ++ PyStr.join (.lit ",") (dumpsItems floatRepr items) ++ .lit "]"
  | obj fields =>
      let sorted := (dumpsFields floatRepr fields).insertionSort fun a b => !PyStr.lt b.1 a.1
      .lit "\x7b" ++ PyStr.join (.lit ",") (sorted.map fun field =>
        quoteAscii field.1 ++ .lit ":" ++ field.2) ++ .lit "\x7d"

def dumpsItems (floatRepr : Rat → PyStr) : List Json → List PyStr
  | [] => []
  | item :: items => dumps floatRepr item :: dumpsItems floatRepr items

def dumpsFields (floatRepr : Rat → PyStr) : List (PyStr × Json) → List (PyStr × PyStr)
  | [] => []
  | (key, value) :: fields => (key, dumps floatRepr value) :: dumpsFields floatRepr fields

end

end Json

end SushidaOs
