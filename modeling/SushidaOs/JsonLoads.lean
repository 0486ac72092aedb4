import Mathlib.Data.Rat.Defs
import SushidaOs.PyStr

/-!
# SushidaOs.JsonLoads

`json.loads` of CPython: from a text to Python values.

Beyond JSON the scanner knows `NaN` and the infinities, and a float literal may
be too large for a finite float.  Three things can go wrong, in the order in
which the text is read: the text is not JSON (`JSONDecodeError`), an integer
has more than `intMaxStrDigits` digits (a plain `ValueError` of `int`), or the
values nest deeper than the interpreter's recursion limit.

A scanner for the values inside a container is given to the functions for
arrays and objects, so the recursion is on the nesting that is left
(`scanOnce`).  The loops inside one container have fuel, which never runs out
(`loads_ne_outOfFuel`).
-/

namespace SushidaOs

open PyStr

/-- A `float`. -/
inductive PyFloat where
  | finite (q : Rat)
  | infinity (negative : Bool)
  | nan
  deriving DecidableEq, Repr

/-- A value that `json.loads` returns; the keys of a `dict` are distinct. -/
inductive PyValue where
  | none
  | bool (b : Bool)
  | int (n : Int)
  | float (x : PyFloat)
  | str (s : PyStr)
  | list (items : List PyValue)
  | dict (fields : List (PyStr × PyValue))
  deriving Repr

namespace PyValue

/-- `data.get(key)`. -/
def get (key : PyStr) : List (PyStr × PyValue) → Option PyValue
  | [] => Option.none
  | (k, value) :: rest => if k = key then some value else get key rest

/-- `data[key] = value`. -/
def setItem (key : PyStr) (value : PyValue) :
    List (PyStr × PyValue) → List (PyStr × PyValue)
  | [] => [(key, value)]
  | (k, v) :: rest => if k = key then (k, value) :: rest else (k, v) :: setItem key value rest

/-- The `dict` of the pairs of an object: the last value of a key counts. -/
def ofPairs (pairs : List (PyStr × PyValue)) : List (PyStr × PyValue) :=
  pairs.foldl (fun fields pair => setItem pair.1 pair.2 fields) []

/-- `value == n`: a `bool` is an `int`, and numbers are compared by value. -/
def eqInt (n : Int) : PyValue → Bool
  | bool b => (if b then 1 else 0) = n
  | int m => m = n
  | float (.finite q) => q = n
  | _ => false

end PyValue

namespace JsonLoads

/-- What `json.loads` raises; the last one is no exception of Python. -/
inductive LoadError where
  | decodeError
  | valueError
  | recursionError
  | outOfFuel
  deriving DecidableEq, Repr

/-- A scanner reads a value from the front of a text and leaves the rest. -/
abbrev Scanner := PyStr → Except LoadError (PyValue × PyStr)

/-! ## characters -/

/-- `WHITESPACE`. -/
def isWhitespace (c : CodePoint) : Bool := c == 0x20 || c == 0x09 || c == 0x0a || c == 0x0d

def skipWs (text : PyStr) : PyStr := text.dropWhile isWhitespace

def isDigit (c : CodePoint) : Bool := 0x30 ≤ c.val && c.val ≤ 0x39

/-- The value of a hexadecimal digit. -/
def hexValue (c : CodePoint) : Option Nat :=
  if 0x30 ≤ c.val && c.val ≤ 0x39 then some (c.val - 0x30)
  else if 0x61 ≤ c.val && c.val ≤ 0x66 then some (c.val - 0x57)
  else if 0x41 ≤ c.val && c.val ≤ 0x46 then some (c.val - 0x37)
  else none

/-- The code unit of four hexadecimal digits. -/
def hexUnit (a b c d : CodePoint) : Option CodePoint :=
  match hexValue a, hexValue b, hexValue c, hexValue d with
  | some a, some b, some c, some d => some (Fin.ofNat _ (a * 4096 + b * 256 + c * 16 + d))
  | _, _, _, _ => none

/-! ## strings -/

/-- The character of a one-letter escape. -/
def simpleEscape (c : CodePoint) : Option CodePoint :=
  if c = 0x22 || c = 0x5c || c = 0x2f then some c
  else if c = 0x62 then some 0x08
  else if c = 0x66 then some 0x0c
  else if c = 0x6e then some 0x0a
  else if c = 0x72 then some 0x0d
  else if c = 0x74 then some 0x09
  else none

/-- A character put before the part of a string that was read. -/
def consChar (c : CodePoint) (unit : Bool) :
    Option (List (CodePoint × Bool) × PyStr) → Option (List (CodePoint × Bool) × PyStr)
  | some (chars, rest) => some ((c, unit) :: chars, rest)
  | none => none

/-- The characters up to the closing quote, each with whether it was written as
`\uXXXX`, and the rest behind the quote. -/
def scanChars : PyStr → Option (List (CodePoint × Bool) × PyStr)
  | [] => none
  | c :: cs =>
      if c = 0x22 then some ([], cs)
      else if c = 0x5c then
        match cs with
        | [] => none
        | e :: cs =>
            if e = 0x75 then
              match cs with
              | h₁ :: h₂ :: h₃ :: h₄ :: cs =>
                  match hexUnit h₁ h₂ h₃ h₄ with
                  | some unit => consChar unit true (scanChars cs)
                  | none => none
              | _ => none
            else match simpleEscape e with
              | some d => consChar d false (scanChars cs)
              | none => none
      else if c.val ≤ 0x1f then none
      else consChar c false (scanChars cs)

def isHighSurrogate (c : CodePoint) : Bool := 0xd800 ≤ c.val && c.val ≤ 0xdbff

def isLowSurrogate (c : CodePoint) : Bool := 0xdc00 ≤ c.val && c.val ≤ 0xdfff

/-- Two escapes in a row that are a surrogate pair are one character. -/
def joinSurrogates : List (CodePoint × Bool) → PyStr
  | [] => []
  | [(c, _)] => [c]
  | (c, unit) :: (d, unit') :: rest =>
      if unit && unit' && isHighSurrogate c && isLowSurrogate d then
        Fin.ofNat _ (0x10000 + (c.val - 0xd800) * 0x400 + (d.val - 0xdc00)) :: joinSurrogates rest
      else c :: joinSurrogates ((d, unit') :: rest)

/-- `scanstring` behind the opening quote. -/
def scanString (text : PyStr) : Except LoadError (PyStr × PyStr) :=
  match scanChars text with
  | some (chars, rest) => .ok (joinSurrogates chars, rest)
  | none => .error .decodeError

/-! ## numbers -/

/-- A number cut into its sign, its integer digits, the rest of the literal,
which is empty for an `int`, and the text behind it. -/
structure NumberText where
  negative : Bool
  digits : PyStr
  fraction : PyStr
  rest : PyStr
  deriving DecidableEq, Repr

/-- `(\.\d+)?` at the front. -/
def takeFraction : PyStr → PyStr × PyStr
  | 0x2e :: rest =>
      if (rest.takeWhile isDigit).isEmpty then ([], 0x2e :: rest)
      else (0x2e :: rest.takeWhile isDigit, rest.dropWhile isDigit)
  | rest => ([], rest)

/-- `([eE][-+]?\d+)?` at the front. -/
def takeExponent : PyStr → PyStr × PyStr
  | [] => ([], [])
  | e :: rest =>
      if e = 0x65 || e = 0x45 then
        let sign := rest.takeWhile fun c => c == 0x2b || c == 0x2d
        let digits := (rest.drop sign.length).takeWhile isDigit
        if sign.length ≤ 1 && !digits.isEmpty then
          (e :: sign ++ digits, (rest.drop sign.length).dropWhile isDigit)
        else ([], e :: rest)
      else ([], e :: rest)

/-- `(0|[1-9]\d*)?` at the front. -/
def integerDigits (text : PyStr) : PyStr :=
  if text.head? = some 0x30 then [0x30] else text.takeWhile isDigit

/-- A number behind its sign. -/
def takeUnsigned (negative : Bool) (text : PyStr) : Option NumberText :=
  if (integerDigits text).isEmpty then none
  else
    let (fraction, rest) := takeFraction (text.drop (integerDigits text).length)
    let (exponent, rest) := takeExponent rest
    some ⟨negative, integerDigits text, fraction ++ exponent, rest⟩

/-- `-?(0|[1-9]\d*)` and what follows it. -/
def takeNumber (text : PyStr) : Option NumberText :=
  if text.head? = some 0x2d then takeUnsigned true (text.drop 1) else takeUnsigned false text

/-- The value of decimal digits. -/
def digitsValue (digits : PyStr) : Nat := digits.foldl (fun n c => 10 * n + (c.val - 0x30)) 0

/-- The literal of a number. -/
def NumberText.literal (n : NumberText) : PyStr :=
  (if n.negative then [0x2d] else []) ++ n.digits ++ n.fraction

/-- `_match_number`; `toFloat` is `float` of a literal. -/
def scanNumber (toFloat : PyStr → PyFloat) (text : PyStr) :
    Except LoadError (PyValue × PyStr) :=
  match takeNumber text with
  | none => .error .decodeError
  | some n =>
      if n.fraction.isEmpty then
        if intMaxStrDigits < n.digits.length then .error .valueError
        else .ok (.int (if n.negative then -digitsValue n.digits else digitsValue n.digits), n.rest)
      else .ok (.float (toFloat n.literal), n.rest)

/-- The words that stand for a value. -/
def constants : List (PyStr × PyValue) :=
  [ (lit "null", .none), (lit "true", .bool true), (lit "false", .bool false),
    (lit "NaN", .float .nan), (lit "Infinity", .float (.infinity false)),
    (lit "-Infinity", .float (.infinity true)) ]

/-- A word or a number. -/
def scanAtom (toFloat : PyStr → PyFloat) (text : PyStr) :
    Except LoadError (PyValue × PyStr) :=
  match constants.find? fun word => word.1.isPrefixOf text with
  | some (word, value) => .ok (value, text.drop word.length)
  | none => scanNumber toFloat text

/-! ## containers -/

/-- The loop of `_parse_array`. -/
def scanItems (scan : Scanner) : Nat → PyStr → Except LoadError (List PyValue × PyStr)
  | 0, _ => .error .outOfFuel
  | fuel + 1, text =>
      match scan text with
      | .error e => .error e
      | .ok (value, rest) =>
          match skipWs rest with
          | [] => .error .decodeError
          | c :: rest =>
              if c = 0x5d then .ok ([value], rest)
              else if c = 0x2c then
                match scanItems scan fuel (skipWs rest) with
                | .error e => .error e
                | .ok (values, rest) => .ok (value :: values, rest)
              else .error .decodeError

/-- `_parse_array` behind the bracket. -/
def scanArray (scan : Scanner) (text : PyStr) : Except LoadError (PyValue × PyStr) :=
  if (skipWs text).head? = some 0x5d then .ok (.list [], (skipWs text).drop 1)
  else match scanItems scan (text.length + 1) (skipWs text) with
    | .error e => .error e
    | .ok (values, rest) => .ok (.list values, rest)

/-- A key and the colon behind it; the rest starts with the value. -/
def scanKey : PyStr → Except LoadError (PyStr × PyStr)
  | [] => .error .decodeError
  | c :: rest =>
      if c = 0x22 then
        match scanString rest with
        | .error e => .error e
        | .ok (key, rest) =>
            if (skipWs rest).head? = some 0x3a then .ok (key, skipWs ((skipWs rest).drop 1))
            else .error .decodeError
      else .error .decodeError

/-- The loop of `_parse_object`. -/
def scanFields (scan : Scanner) :
    Nat → PyStr → Except LoadError (List (PyStr × PyValue) × PyStr)
  | 0, _ => .error .outOfFuel
  | fuel + 1, text =>
      match scanKey text with
      | .error e => .error e
      | .ok (key, rest) =>
          match scan rest with
          | .error e => .error e
          | .ok (value, rest) =>
              match skipWs rest with
              | [] => .error .decodeError
              | c :: rest =>
                  if c = 0x7d then .ok ([(key, value)], rest)
                  else if c = 0x2c then
                    match scanFields scan fuel (skipWs rest) with
                    | .error e => .error e
                    | .ok (fields, rest) => .ok ((key, value) :: fields, rest)
                  else .error .decodeError

/-- `_parse_object` behind the brace. -/
def scanObject (scan : Scanner) (text : PyStr) : Except LoadError (PyValue × PyStr) :=
  if (skipWs text).head? = some 0x7d then .ok (.dict [], (skipWs text).drop 1)
  else match scanFields scan (text.length + 1) (skipWs text) with
    | .error e => .error e
    | .ok (fields, rest) => .ok (.dict (PyValue.ofPairs fields), rest)

/-! ## values -/

/-- `scan_once` with the scanner for inner values, none when the recursion
limit is reached. -/
def scanWith (toFloat : PyStr → PyFloat) (inner : Option Scanner) : Scanner
  | [] => .error .decodeError
  | c :: rest =>
      if c = 0x22 then
        match scanString rest with
        | .error e => .error e
        | .ok (s, rest) => .ok (.str s, rest)
      else if c = 0x7b then
        match inner with
        | none => .error .recursionError
        | some scan => scanObject scan rest
      else if c = 0x5b then
        match inner with
        | none => .error .recursionError
        | some scan => scanArray scan rest
      else scanAtom toFloat (c :: rest)

/-- `scan_once`, with `depth` containers that may still be entered. -/
def scanOnce (toFloat : PyStr → PyFloat) : Nat → Scanner
  | 0 => scanWith toFloat none
  | depth + 1 => scanWith toFloat (some (scanOnce toFloat depth))

/-- `json.loads` of a `str`. -/
def loads (toFloat : PyStr → PyFloat) (limit : Nat) (text : PyStr) :
    Except LoadError PyValue :=
  if text.head? = some 0xfeff then .error .decodeError
  else match scanOnce toFloat limit (skipWs text) with
    | .error e => .error e
    | .ok (value, rest) => if (skipWs rest).isEmpty then .ok value else .error .decodeError

/-! ## fuel -/

/-- A scanner reads at least one character, and does not run out of fuel. -/
structure Advances (scan : Scanner) : Prop where
  rest : ∀ {text value rest}, scan text = .ok (value, rest) → rest.length < text.length
  fuel : ∀ text, scan text ≠ .error .outOfFuel

theorem length_skipWs_le (text : PyStr) : (skipWs text).length ≤ text.length :=
  (List.dropWhile_sublist _).length_le

theorem consChar_eq_some {c : CodePoint} {unit : Bool}
    {read : Option (List (CodePoint × Bool) × PyStr)} {chars : List (CodePoint × Bool)}
    {rest : PyStr} (h : consChar c unit read = some (chars, rest)) :
    ∃ chars', read = some (chars', rest) := by
  cases read with
  | none => simp [consChar] at h
  | some p =>
      obtain ⟨chars', rest'⟩ := p
      simp only [consChar, Option.some.injEq, Prod.mk.injEq] at h
      exact ⟨chars', by rw [h.2]⟩

/-- A string ends before the text does. -/
theorem length_scanChars_lt {text : PyStr} {chars : List (CodePoint × Bool)} {rest : PyStr}
    (h : scanChars text = some (chars, rest)) : rest.length < text.length := by
  induction hlen : text.length using Nat.strong_induction_on generalizing text chars rest with
  | _ n ih =>
      have hstep : ∀ {c unit tail}, tail.length < n →
          consChar c unit (scanChars tail) = some (chars, rest) → rest.length < n := by
        intro c unit tail hlt hcons
        obtain ⟨chars', hread⟩ := consChar_eq_some hcons
        exact (ih tail.length hlt hread rfl).trans hlt
      cases text with
      | nil => simp [scanChars] at h
      | cons c cs =>
          rw [List.length_cons] at hlen
          rw [scanChars.eq_def] at h
          simp only at h
          split at h
          · simp only [Option.some.injEq, Prod.mk.injEq] at h
            rw [← h.2]
            omega
          split at h
          · cases cs with
            | nil => simp at h
            | cons e cs =>
                simp only [List.length_cons] at hlen
                simp only at h
                split at h
                · split at h
                  · simp only [List.length_cons] at hlen
                    split at h
                    · exact hstep (by omega) h
                    · simp at h
                  · simp at h
                · split at h
                  · exact hstep (by omega) h
                  · simp at h
          split at h
          · simp at h
          · exact hstep (by omega) h

theorem length_scanString_lt {text key rest : PyStr} (h : scanString text = .ok (key, rest)) :
    rest.length < text.length := by
  rw [scanString] at h
  split at h
  · next chars rest' hread =>
      simp only [Except.ok.injEq, Prod.mk.injEq] at h
      rw [← h.2]
      exact length_scanChars_lt hread
  · simp at h

theorem scanString_ne_outOfFuel (text : PyStr) : scanString text ≠ .error .outOfFuel := by
  rw [scanString]
  split
  · simp
  · simp

theorem length_takeFraction_le (text : PyStr) :
    (takeFraction text).2.length ≤ text.length := by
  unfold takeFraction
  split
  · next rest =>
      have hdrop : (rest.dropWhile isDigit).length ≤ rest.length :=
        (List.dropWhile_sublist _).length_le
      split
      · exact Nat.le_refl _
      · simp only [List.length_cons]
        omega
  · exact Nat.le_refl _

theorem length_takeExponent_le (text : PyStr) :
    (takeExponent text).2.length ≤ text.length := by
  unfold takeExponent
  split
  · exact Nat.le_refl _
  · next e rest =>
      split
      · simp only
        split
        · have hdrop := (List.dropWhile_sublist isDigit (l := rest.drop
            (rest.takeWhile fun c => c == 0x2b || c == 0x2d).length)).length_le
          simp only [List.length_drop] at hdrop
          simp only [List.length_cons]
          omega
        · exact Nat.le_refl _
      · exact Nat.le_refl _

/-- A number has at least one digit. -/
theorem length_takeUnsigned_lt {negative : Bool} {text : PyStr} {n : NumberText}
    (h : takeUnsigned negative text = some n) : n.rest.length < text.length := by
  simp only [takeUnsigned] at h
  split at h
  · simp at h
  · next hdigits =>
      simp only [Option.some.injEq] at h
      have hexponent := length_takeExponent_le
        (takeFraction (text.drop (integerDigits text).length)).2
      have hfraction := length_takeFraction_le (text.drop (integerDigits text).length)
      have hpos : 0 < (integerDigits text).length := by
        simpa [List.length_pos_iff] using hdigits
      have htext : text ≠ [] := by
        rintro rfl
        simp [integerDigits] at hdigits
      have hlen : 0 < text.length := List.length_pos_iff.mpr htext
      rw [List.length_drop] at hfraction
      rw [← h]
      show (takeExponent (takeFraction (text.drop (integerDigits text).length)).2).2.length < _
      omega

theorem length_takeNumber_lt {text : PyStr} {n : NumberText} (h : takeNumber text = some n) :
    n.rest.length < text.length := by
  rw [takeNumber] at h
  split at h
  · have hlt := length_takeUnsigned_lt h
    rw [List.length_drop] at hlt
    omega
  · exact length_takeUnsigned_lt h

/-- Numbers are read forwards. -/
theorem advances_scanNumber (toFloat : PyStr → PyFloat) : Advances (scanNumber toFloat) where
  rest := by
    intro text value rest h
    rw [scanNumber] at h
    split at h
    · simp at h
    · next n hn =>
        have hlt := length_takeNumber_lt hn
        split at h
        · split at h
          · simp at h
          · simp only [Except.ok.injEq, Prod.mk.injEq] at h
            rwa [← h.2]
        · simp only [Except.ok.injEq, Prod.mk.injEq] at h
          rwa [← h.2]
  fuel := by
    intro text
    rw [scanNumber]
    split
    · simp
    · split
      · split
        · simp
        · simp
      · simp

/-- So are words. -/
theorem advances_scanAtom (toFloat : PyStr → PyFloat) : Advances (scanAtom toFloat) where
  rest := by
    intro text value rest h
    rw [scanAtom] at h
    split at h
    · next word value' hfind =>
        simp only [Except.ok.injEq, Prod.mk.injEq] at h
        have hprefix : word.isPrefixOf text = true := by simpa using List.find?_some hfind
        have hmem := List.mem_of_find?_eq_some hfind
        have hpos : 0 < word.length := by
          have hall : constants.all (fun word => 0 < word.1.length) = true := by decide
          simpa using List.all_eq_true.mp hall _ hmem
        have hle := (List.isPrefixOf_iff_prefix.mp hprefix).length_le
        rw [← h.2, List.length_drop]
        omega
    · exact (advances_scanNumber toFloat).rest h
  fuel := by
    intro text
    rw [scanAtom]
    split
    · simp
    · exact (advances_scanNumber toFloat).fuel text

section Containers

variable {scan : Scanner} (hscan : Advances scan)

include hscan

/-- An array ends before the text does. -/
theorem length_scanItems_lt {fuel : Nat} {text rest : PyStr} {values : List PyValue}
    (h : scanItems scan fuel text = .ok (values, rest)) : rest.length < text.length := by
  induction fuel generalizing text values rest with
  | zero => simp [scanItems] at h
  | succ fuel ih =>
      rw [scanItems] at h
      split at h
      · simp at h
      · next value rest₁ hvalue =>
          have hlt := hscan.rest hvalue
          have hskip := length_skipWs_le rest₁
          split at h
          · simp at h
          · next c rest₂ hrest =>
              rw [hrest, List.length_cons] at hskip
              split at h
              · simp only [Except.ok.injEq, Prod.mk.injEq] at h
                rw [← h.2]
                omega
              · split at h
                · split at h
                  · simp at h
                  · next values' rest₃ hitems =>
                      have hmore := ih hitems
                      have hskip₂ := length_skipWs_le rest₂
                      simp only [Except.ok.injEq, Prod.mk.injEq] at h
                      rw [← h.2]
                      omega
                · simp at h

/-- The fuel of an array is its text. -/
theorem scanItems_ne_outOfFuel {fuel : Nat} {text : PyStr} (hfuel : text.length < fuel) :
    scanItems scan fuel text ≠ .error .outOfFuel := by
  induction fuel generalizing text with
  | zero => omega
  | succ fuel ih =>
      rw [scanItems]
      split
      · next e hvalue =>
          intro heq
          rw [Except.error.injEq] at heq
          exact hscan.fuel text (by rw [hvalue, heq])
      · next value rest₁ hvalue =>
          have hlt := hscan.rest hvalue
          have hskip := length_skipWs_le rest₁
          split
          · simp
          · next c rest₂ hrest =>
              rw [hrest, List.length_cons] at hskip
              have hskip₂ := length_skipWs_le rest₂
              split
              · simp
              · split
                · have hmore := @ih (skipWs rest₂) (by omega)
                  split
                  · next e hitems =>
                      intro heq
                      rw [Except.error.injEq] at heq
                      exact hmore (by rw [hitems, heq])
                  · simp
                · simp

/-- Arrays are read forwards. -/
theorem advances_scanArray : Advances (scanArray scan) where
  rest := by
    intro text value rest h
    have hskip := length_skipWs_le text
    rw [scanArray] at h
    split at h
    · next hclose =>
        simp only [Except.ok.injEq, Prod.mk.injEq] at h
        have hne : skipWs text ≠ [] := by
          intro hnil
          rw [hnil] at hclose
          contradiction
        have hpos := List.length_pos_iff.mpr hne
        rw [← h.2, List.length_drop]
        omega
    · split at h
      · simp at h
      · next values rest' hitems =>
          have hlt := length_scanItems_lt hscan hitems
          simp only [Except.ok.injEq, Prod.mk.injEq] at h
          rw [← h.2]
          omega
  fuel := by
    intro text
    have hskip := length_skipWs_le text
    rw [scanArray]
    split
    · simp
    · split
      · next e hitems =>
          intro heq
          rw [Except.error.injEq] at heq
          have hfuel : (skipWs text).length < text.length + 1 := by omega
          exact scanItems_ne_outOfFuel hscan hfuel (by rw [hitems, heq])
      · simp

omit hscan in
theorem length_scanKey_lt {text key rest : PyStr} (h : scanKey text = .ok (key, rest)) :
    rest.length < text.length := by
  unfold scanKey at h
  split at h
  · simp at h
  · next c tail =>
      split at h
      · split at h
        · simp at h
        · next key' rest' hkey =>
            have hlt := length_scanString_lt hkey
            have hskip := length_skipWs_le rest'
            split at h
            · simp only [Except.ok.injEq, Prod.mk.injEq] at h
              have hskip₂ := length_skipWs_le ((skipWs rest').drop 1)
              rw [List.length_drop] at hskip₂
              rw [← h.2, List.length_cons]
              omega
            · simp at h
      · simp at h

omit hscan in
theorem scanKey_ne_outOfFuel (text : PyStr) : scanKey text ≠ .error .outOfFuel := by
  unfold scanKey
  split
  · simp
  · next c tail =>
      split
      · split
        · next e hkey =>
            intro heq
            rw [Except.error.injEq] at heq
            exact scanString_ne_outOfFuel tail (by rw [hkey, heq])
        · split
          · simp
          · simp
      · simp

/-- An object ends before the text does. -/
theorem length_scanFields_lt {fuel : Nat} {text rest : PyStr} {fields : List (PyStr × PyValue)}
    (h : scanFields scan fuel text = .ok (fields, rest)) : rest.length < text.length := by
  induction fuel generalizing text fields rest with
  | zero => simp [scanFields] at h
  | succ fuel ih =>
      rw [scanFields] at h
      split at h
      · simp at h
      · next key rest₀ hkey =>
          have hlt₀ := length_scanKey_lt hkey
          split at h
          · simp at h
          · next value rest₁ hvalue =>
              have hlt := hscan.rest hvalue
              have hskip := length_skipWs_le rest₁
              split at h
              · simp at h
              · next c rest₂ hrest =>
                  rw [hrest, List.length_cons] at hskip
                  split at h
                  · simp only [Except.ok.injEq, Prod.mk.injEq] at h
                    rw [← h.2]
                    omega
                  · split at h
                    · split at h
                      · simp at h
                      · next fields' rest₃ hfields =>
                          have hmore := ih hfields
                          have hskip₂ := length_skipWs_le rest₂
                          simp only [Except.ok.injEq, Prod.mk.injEq] at h
                          rw [← h.2]
                          omega
                    · simp at h

/-- The fuel of an object is its text. -/
theorem scanFields_ne_outOfFuel {fuel : Nat} {text : PyStr} (hfuel : text.length < fuel) :
    scanFields scan fuel text ≠ .error .outOfFuel := by
  induction fuel generalizing text with
  | zero => omega
  | succ fuel ih =>
      rw [scanFields]
      split
      · next e hkey =>
          intro heq
          rw [Except.error.injEq] at heq
          exact scanKey_ne_outOfFuel text (by rw [hkey, heq])
      · next key rest₀ hkey =>
          have hlt₀ := length_scanKey_lt hkey
          split
          · next e hvalue =>
              intro heq
              rw [Except.error.injEq] at heq
              exact hscan.fuel rest₀ (by rw [hvalue, heq])
          · next value rest₁ hvalue =>
              have hlt := hscan.rest hvalue
              have hskip := length_skipWs_le rest₁
              split
              · simp
              · next c rest₂ hrest =>
                  rw [hrest, List.length_cons] at hskip
                  have hskip₂ := length_skipWs_le rest₂
                  split
                  · simp
                  · split
                    · have hmore := @ih (skipWs rest₂) (by omega)
                      split
                      · next e hfields =>
                          intro heq
                          rw [Except.error.injEq] at heq
                          exact hmore (by rw [hfields, heq])
                      · simp
                    · simp

/-- Objects are read forwards. -/
theorem advances_scanObject : Advances (scanObject scan) where
  rest := by
    intro text value rest h
    have hskip := length_skipWs_le text
    rw [scanObject] at h
    split at h
    · next hclose =>
        simp only [Except.ok.injEq, Prod.mk.injEq] at h
        have hne : skipWs text ≠ [] := by
          intro hnil
          rw [hnil] at hclose
          contradiction
        have hpos := List.length_pos_iff.mpr hne
        rw [← h.2, List.length_drop]
        omega
    · split at h
      · simp at h
      · next fields rest' hfields =>
          have hlt := length_scanFields_lt hscan hfields
          simp only [Except.ok.injEq, Prod.mk.injEq] at h
          rw [← h.2]
          omega
  fuel := by
    intro text
    have hskip := length_skipWs_le text
    rw [scanObject]
    split
    · simp
    · split
      · next e hfields =>
          intro heq
          rw [Except.error.injEq] at heq
          have hfuel : (skipWs text).length < text.length + 1 := by omega
          exact scanFields_ne_outOfFuel hscan hfuel (by rw [hfields, heq])
      · simp

end Containers

theorem advances_scanWith (toFloat : PyStr → PyFloat) {inner : Option Scanner}
    (hinner : ∀ scan, inner = some scan → Advances scan) : Advances (scanWith toFloat inner) where
  rest := by
    intro text value rest h
    unfold scanWith at h
    split at h
    · simp at h
    · next c tail =>
        rw [List.length_cons]
        split at h
        · split at h
          · simp at h
          · next s rest' hs =>
              have hlt := length_scanString_lt hs
              simp only [Except.ok.injEq, Prod.mk.injEq] at h
              rw [← h.2]
              omega
        split at h
        · cases inner with
          | none => simp at h
          | some scan => exact ((advances_scanObject (hinner scan rfl)).rest h).trans (by omega)
        split at h
        · cases inner with
          | none => simp at h
          | some scan => exact ((advances_scanArray (hinner scan rfl)).rest h).trans (by omega)
        · exact (advances_scanAtom toFloat).rest h
  fuel := by
    intro text
    unfold scanWith
    split
    · simp
    · next c tail =>
        split
        · split
          · next e hs =>
              intro heq
              rw [Except.error.injEq] at heq
              exact scanString_ne_outOfFuel tail (by rw [hs, heq])
          · simp
        split
        · cases inner with
          | none => simp
          | some scan => exact (advances_scanObject (hinner scan rfl)).fuel tail
        split
        · cases inner with
          | none => simp
          | some scan => exact (advances_scanArray (hinner scan rfl)).fuel tail
        · exact (advances_scanAtom toFloat).fuel (c :: tail)

/-- **No fuel runs out**: values of any depth are read forwards. -/
theorem advances_scanOnce (toFloat : PyStr → PyFloat) (depth : Nat) :
    Advances (scanOnce toFloat depth) := by
  induction depth with
  | zero => exact advances_scanWith toFloat fun scan h => nomatch h
  | succ depth ih =>
      refine advances_scanWith toFloat fun scan h => ?_
      rw [← Option.some.inj h]
      exact ih

/-- The fuel of the loops never runs out. -/
theorem loads_ne_outOfFuel (toFloat : PyStr → PyFloat) (limit : Nat) (text : PyStr) :
    loads toFloat limit text ≠ .error .outOfFuel := by
  rw [loads]
  split
  · simp
  · split
    · next e hscan =>
        intro heq
        rw [Except.error.injEq] at heq
        exact (advances_scanOnce toFloat limit).fuel _ (by rw [hscan, heq])
    · split
      · simp
      · simp

/-! ## reading what was written -/

/-- The text `esc c` is read as the character `c`, which is not the first half
of an escaped pair. -/
def Escapes (esc : CodePoint → PyStr) (c : CodePoint) : Prop :=
  ∃ unit, (unit && isHighSurrogate c) = false ∧
    ∀ rest, scanChars (esc c ++ rest) = consChar c unit (scanChars rest)

/-- A character that stands for itself. -/
def isPlain (c : CodePoint) : Bool := 0x20 ≤ c.val && c != 0x22 && c != 0x5c

/-- A plain character is read as it is. -/
theorem scanChars_plain {c : CodePoint} (hc : isPlain c = true) (rest : PyStr) :
    scanChars (c :: rest) = consChar c false (scanChars rest) := by
  simp only [isPlain, Bool.and_eq_true, decide_eq_true_eq, bne_iff_ne] at hc
  rw [scanChars.eq_def]
  simp only
  rw [if_neg hc.1.2, if_neg hc.2, if_neg (by omega)]

/-- A plain character that is not escaped is read back. -/
theorem escapes_plain {esc : CodePoint → PyStr} {c : CodePoint} (hc : isPlain c = true)
    (hesc : esc c = [c]) : Escapes esc c := by
  refine ⟨false, rfl, fun rest => ?_⟩
  rw [hesc]
  exact scanChars_plain hc rest

/-- A one-letter escape. -/
theorem scanChars_simple {e c : CodePoint} (h : simpleEscape e = some c) (rest : PyStr) :
    scanChars (0x5c :: e :: rest) = consChar c false (scanChars rest) := by
  have hne : e ≠ 0x75 := by
    rintro rfl
    contradiction
  rw [scanChars.eq_def]
  simp only
  rw [if_neg (by decide), if_pos trivial, if_neg hne, h]

/-- A `\uXXXX` is read as its unit. -/
theorem scanChars_unit {a b c d unit : CodePoint} (h : hexUnit a b c d = some unit)
    (rest : PyStr) :
    scanChars (0x5c :: 0x75 :: a :: b :: c :: d :: rest) =
      consChar unit true (scanChars rest) := by
  rw [scanChars.eq_def]
  simp only
  rw [if_neg (by decide), if_pos trivial, if_pos trivial, h]

/-- Without an escaped high surrogate nothing is joined. -/
theorem joinSurrogates_eq {chars : List (CodePoint × Bool)}
    (h : ∀ p ∈ chars, (p.2 && isHighSurrogate p.1) = false) :
    joinSurrogates chars = chars.map Prod.fst := by
  induction chars with
  | nil => rfl
  | cons p rest ih =>
      obtain ⟨c, unit⟩ := p
      have hrest := ih fun q hq => h q (List.mem_cons_of_mem _ hq)
      have hc := h (c, unit) List.mem_cons_self
      cases rest with
      | nil => rfl
      | cons q rest =>
          obtain ⟨d, unit'⟩ := q
          have hpair : (unit && unit' && isHighSurrogate c && isLowSurrogate d) = false := by
            cases unit with
            | false => rfl
            | true =>
                have hhigh : isHighSurrogate c = false := by simpa using hc
                rw [hhigh, Bool.and_false, Bool.false_and]
          rw [joinSurrogates, hpair, hrest]
          rfl

/-- **Round trip** of a string that was escaped character by character. -/
theorem scanString_flatMap {esc : CodePoint → PyStr} {s : PyStr} (h : ∀ c ∈ s, Escapes esc c)
    (rest : PyStr) : scanString (s.flatMap esc ++ 0x22 :: rest) = .ok (s, rest) := by
  have hread : ∃ chars : List (CodePoint × Bool),
      scanChars (s.flatMap esc ++ 0x22 :: rest) = some (chars, rest) ∧ chars.map Prod.fst = s ∧
        ∀ p ∈ chars, (p.2 && isHighSurrogate p.1) = false := by
    induction s with
    | nil =>
        refine ⟨[], ?_, rfl, fun p hp => nomatch hp⟩
        rw [List.flatMap_nil, List.nil_append, scanChars.eq_def]
        rfl
    | cons c cs ih =>
        obtain ⟨chars, hchars, hmap, hunits⟩ := ih fun d hd => h d (List.mem_cons_of_mem c hd)
        obtain ⟨unit, hunit, hesc⟩ := h c List.mem_cons_self
        refine ⟨(c, unit) :: chars, ?_, by rw [List.map_cons, hmap], ?_⟩
        · rw [List.flatMap_cons, List.append_assoc, hesc, hchars]
          rfl
        · intro p hp
          cases List.mem_cons.mp hp with
          | inl heq => rw [heq]; exact hunit
          | inr hmem => exact hunits p hmem
  obtain ⟨chars, hchars, hmap, hunits⟩ := hread
  rw [scanString, hchars]
  simp only
  rw [joinSurrogates_eq hunits, hmap]

theorem skipWs_of_head {c : CodePoint} (hc : isWhitespace c = false) (rest : PyStr) :
    skipWs (c :: rest) = c :: rest := by
  rw [skipWs, List.dropWhile_cons_of_neg (by simp [hc])]

/-- A plain key with its quotes and the colon. -/
theorem scanKey_plain {key : PyStr} (hkey : key.all isPlain = true) {c : CodePoint}
    (hc : isWhitespace c = false) (rest : PyStr) :
    scanKey (0x22 :: (key ++ 0x22 :: 0x3a :: c :: rest)) = .ok (key, c :: rest) := by
  have hread : scanString (key ++ 0x22 :: 0x3a :: c :: rest) = .ok (key, 0x3a :: c :: rest) := by
    have hchars : ∀ c ∈ key, Escapes (fun c => [c]) c := fun c hc =>
      escapes_plain (List.all_eq_true.mp hkey c hc) rfl
    simpa using scanString_flatMap hchars (0x3a :: c :: rest)
  rw [scanKey, if_pos rfl, hread]
  simp only
  rw [skipWs_of_head (by decide), List.head?_cons, if_pos rfl, List.drop_one, List.tail_cons,
    skipWs_of_head hc]

section Fields

variable {scan : Scanner} {fuel : Nat} {text key rest rest' : PyStr} {value : PyValue}

/-- A field with another one behind it. -/
theorem scanFields_next {fields : List (PyStr × PyValue)} {rest'' : PyStr}
    (hkey : scanKey text = .ok (key, rest))
    (hvalue : scan rest = .ok (value, 0x2c :: 0x22 :: rest'))
    (hnext : scanFields scan fuel (0x22 :: rest') = .ok (fields, rest'')) :
    scanFields scan (fuel + 1) text = .ok ((key, value) :: fields, rest'') := by
  rw [scanFields, hkey]
  simp only [hvalue]
  rw [skipWs_of_head (by decide)]
  simp only
  rw [if_neg (by decide), if_pos trivial, skipWs_of_head (by decide), hnext]

/-- The last field. -/
theorem scanFields_last (hkey : scanKey text = .ok (key, rest))
    (hvalue : scan rest = .ok (value, 0x7d :: rest')) :
    scanFields scan (fuel + 1) text = .ok ([(key, value)], rest') := by
  rw [scanFields, hkey]
  simp only [hvalue]
  rw [skipWs_of_head (by decide)]
  simp only
  rw [if_pos trivial]

end Fields

/-- A written string is read back. -/
theorem scanOnce_string (toFloat : PyStr → PyFloat) (depth : Nat) {esc : CodePoint → PyStr}
    {s : PyStr} (h : ∀ c ∈ s, Escapes esc c) (rest : PyStr) :
    scanOnce toFloat depth (0x22 :: (s.flatMap esc ++ 0x22 :: rest)) = .ok (.str s, rest) := by
  cases depth with
  | zero => rw [scanOnce, scanWith, if_pos rfl, scanString_flatMap h]
  | succ depth => rw [scanOnce, scanWith, if_pos rfl, scanString_flatMap h]

/-- A field that was written: its key, its value and the value's text. -/
structure Field where
  key : PyStr
  text : PyStr
  value : PyValue

namespace Field

/-- The field is read back, before a comma or the closing brace. -/
structure Reads (scan : Scanner) (field : Field) : Prop where
  key : field.key.all isPlain = true
  head : ∃ c rest, field.text = c :: rest ∧ isWhitespace c = false
  value : ∀ c rest, c = 0x2c ∨ c = 0x7d →
    scan (field.text ++ c :: rest) = .ok (field.value, c :: rest)

/-- The fields of an object with the commas between them and the brace. -/
def write : List Field → PyStr → PyStr
  | [], rest => 0x7d :: rest
  | [field], rest => 0x22 :: (field.key ++ 0x22 :: 0x3a :: (field.text ++ 0x7d :: rest))
  | field :: next :: fields, rest =>
      0x22 :: (field.key ++ 0x22 :: 0x3a :: (field.text ++ 0x2c :: write (next :: fields) rest))

theorem write_eq_quote {fields : List Field} (hne : fields ≠ []) (rest : PyStr) :
    ∃ tail, write fields rest = 0x22 :: tail := by
  cases fields with
  | nil => contradiction
  | cons field fields =>
      cases fields with
      | nil => exact ⟨_, rfl⟩
      | cons => exact ⟨_, rfl⟩

theorem length_le_write (fields : List Field) (rest : PyStr) :
    fields.length ≤ (write fields rest).length := by
  induction fields with
  | nil => simp
  | cons field fields ih =>
      cases fields with
      | nil => simp [write]
      | cons next fields =>
          simp only [write, List.length_cons, List.length_append] at ih ⊢
          omega

variable {scan : Scanner}

/-- The key of a field is read back. -/
theorem Reads.scanKey {field : Field} (h : field.Reads scan) (rest : PyStr) :
    scanKey (0x22 :: (field.key ++ 0x22 :: 0x3a :: (field.text ++ rest))) =
      .ok (field.key, field.text ++ rest) := by
  obtain ⟨c, tail, htext, hc⟩ := h.head
  rw [htext]
  exact scanKey_plain h.key hc (tail ++ rest)

/-- **Round trip** of the fields of an object. -/
theorem scanFields_write {fields : List Field} (hne : fields ≠ [])
    (h : ∀ field ∈ fields, field.Reads scan) {fuel : Nat} (hfuel : fields.length ≤ fuel)
    (rest : PyStr) :
    scanFields scan fuel (write fields rest) =
      .ok (fields.map fun field => (field.key, field.value), rest) := by
  induction fields generalizing fuel with
  | nil => contradiction
  | cons field fields ih =>
      have hfield := h field List.mem_cons_self
      obtain ⟨fuel, rfl⟩ := Nat.exists_eq_add_of_le' (Nat.succ_le_of_lt
        (Nat.lt_of_lt_of_le (Nat.succ_pos fields.length) hfuel))
      rw [List.length_cons] at hfuel
      cases fields with
      | nil => exact scanFields_last (hfield.scanKey _) (hfield.value _ _ (.inr rfl))
      | cons next fields =>
          have hnext := ih (by simp) (fun f hf => h f (List.mem_cons_of_mem _ hf))
            (Nat.le_of_succ_le_succ hfuel)
          obtain ⟨tail, htail⟩ := write_eq_quote (List.cons_ne_nil next fields) rest
          rw [htail] at hnext
          rw [write, htail, List.map_cons]
          exact scanFields_next (hfield.scanKey _) (hfield.value _ _ (.inl rfl)) hnext

end Field

/-! The values that are written: strings, the number one and booleans. -/

theorem Field.Reads.str (toFloat : PyStr → PyFloat) (depth : Nat) {esc : CodePoint → PyStr}
    {key s : PyStr} (hkey : key.all isPlain = true) (hs : ∀ c ∈ s, Escapes esc c) :
    Field.Reads (scanOnce toFloat depth) ⟨key, 0x22 :: (s.flatMap esc ++ [0x22]), .str s⟩ where
  key := hkey
  head := ⟨0x22, _, rfl, by decide⟩
  value c rest _ := by
    have htext : 0x22 :: (s.flatMap esc ++ [0x22]) ++ c :: rest =
        0x22 :: (s.flatMap esc ++ 0x22 :: c :: rest) := by simp
    rw [htext]
    exact scanOnce_string toFloat depth hs (c :: rest)

theorem Field.Reads.one (toFloat : PyStr → PyFloat) (depth : Nat) {key : PyStr}
    (hkey : key.all isPlain = true) :
    Field.Reads (scanOnce toFloat depth) ⟨key, [0x31], .int 1⟩ where
  key := hkey
  head := ⟨0x31, [], rfl, by decide⟩
  value c rest hc := by
    cases depth <;> rcases hc with rfl | rfl <;> rfl

theorem Field.Reads.bool (toFloat : PyStr → PyFloat) (depth : Nat) {key : PyStr}
    (hkey : key.all isPlain = true) (b : Bool) :
    Field.Reads (scanOnce toFloat depth)
      ⟨key, if b then lit "true" else lit "false", .bool b⟩ where
  key := hkey
  head := by
    cases b with
    | false => exact ⟨0x66, lit "alse", rfl, by decide⟩
    | true => exact ⟨0x74, lit "rue", rfl, by decide⟩
  value c rest hc := by
    cases b <;> cases depth <;> rcases hc with rfl | rfl <;> rfl

/-- An object with at least one field. -/
theorem loads_write (toFloat : PyStr → PyFloat) (depth : Nat) {fields : List Field} {rest : PyStr}
    (hne : fields ≠ []) (h : ∀ field ∈ fields, field.Reads (scanOnce toFloat depth))
    (hrest : skipWs rest = []) :
    loads toFloat (depth + 1) (0x7b :: Field.write fields rest) =
      .ok (.dict (PyValue.ofPairs (fields.map fun field => (field.key, field.value)))) := by
  have hlength := Nat.le_succ_of_le (Field.length_le_write fields rest)
  have hfields := Field.scanFields_write hne h hlength rest
  obtain ⟨tail, htail⟩ := Field.write_eq_quote hne rest
  rw [htail] at hfields ⊢
  have hscan : scanOnce toFloat (depth + 1) (0x7b :: 0x22 :: tail) =
      .ok (.dict (PyValue.ofPairs (fields.map fun field => (field.key, field.value))), rest) := by
    rw [scanOnce, scanWith, if_neg (by decide), if_pos rfl, scanObject,
      skipWs_of_head (by decide), List.head?_cons, if_neg (by decide), hfields]
  rw [loads, List.head?_cons, if_neg (by decide), skipWs_of_head (by decide), hscan]
  simp only [hrest, List.isEmpty_nil, if_true]

end JsonLoads

/-- The interpreter: `float` of a literal, and how many containers inside each
other `json.loads` may enter. -/
structure JsonLimits where
  toFloat : PyStr → PyFloat
  depth : Nat
  depth_pos : 0 < depth

/-- An interpreter for texts without floats. -/
def JsonLimits.default : JsonLimits where
  toFloat _ := .nan
  depth := 1000
  depth_pos := by decide

end SushidaOs
