import SushidaOs.Lines
import SushidaOs.Url
import SushidaOs.Utf8

/-!
# SushidaOs.Wifi.Form

A request to the setup page as CPython hands it to `SetupHandler`: the headers
(`email.message.Message`) and the posted form (`urllib.parse.parse_qs`).

Whatever bytes are posted, the fields of the form can be encoded again
(`encodable_parseQsl`).
-/

namespace SushidaOs

open PyStr

namespace Web

/-! ## headers -/

/-- The header lines, in order. -/
abbrev Headers := List (PyStr × PyStr)

/-- `headers.get(name)` for a name in lower case. -/
def Headers.get (D : UrlData) (headers : Headers) (name : PyStr) : Option PyStr :=
  (headers.find? fun header => D.lower header.1 == name).map Prod.snd

/-- `headers.get_content_type()`. -/
def Headers.contentType (D : UrlData) (headers : Headers) : PyStr :=
  match headers.get D (lit "content-type") with
  | none => lit "text/plain"
  | some value =>
      let ctype := D.lower (partition 0x3b value).1.strip
      if ctype.count 0x2f ≠ 1 then lit "text/plain" else ctype

/-! ## `urllib.parse.unquote_plus` -/

/-- The value of a hexadecimal digit. -/
def hexDigit? (c : CodePoint) : Option Nat :=
  if 0x30 ≤ c.val ∧ c.val ≤ 0x39 then some (c.val - 0x30)
  else if 0x41 ≤ c.val ∧ c.val ≤ 0x46 then some (c.val - 0x37)
  else if 0x61 ≤ c.val ∧ c.val ≤ 0x66 then some (c.val - 0x57)
  else none

/-- `unquote_to_bytes` of an ASCII string; `skip` characters belong to the escape
that has just been read. -/
def unquoteToBytes (skip : Nat) : PyStr → List UInt8
  | [] => []
  | c :: cs =>
      match skip with
      | skip + 1 => unquoteToBytes skip cs
      | 0 =>
          match c == 0x25, cs.head?.bind hexDigit?, (cs.drop 1).head?.bind hexDigit? with
          | true, some high, some low => UInt8.ofNat (16 * high + low) :: unquoteToBytes 2 cs
          | _, _, _ => UInt8.ofNat c.val :: unquoteToBytes 0 cs

/-- The ASCII parts of a string are unquoted; `ascii` is the one being read. -/
def unquoteParts (ascii : PyStr) : PyStr → PyStr
  | [] => Utf8.decodeReplace (unquoteToBytes 0 ascii)
  | c :: cs =>
      if c.val < 0x80 then unquoteParts (ascii ++ [c]) cs
      else Utf8.decodeReplace (unquoteToBytes 0 ascii) ++ c :: unquoteParts [] cs

/-- `unquote(string, "utf-8", "replace")`. -/
def unquote (s : PyStr) : PyStr := if s.any (· == 0x25) then unquoteParts [] s else s

/-- `unquote_plus`. -/
def unquotePlus (s : PyStr) : PyStr := unquote (s.map fun c => if c = 0x2b then 0x20 else c)

/-! ## `urllib.parse.parse_qs` -/

/-- A field of the query. -/
def parseField (field : PyStr) : Except PyExc (PyStr × PyStr) :=
  match partition 0x3d field with
  | (name, true, value) => .ok (unquotePlus name, unquotePlus value)
  | (_, false, _) => .error .valueError

/-- `parse_qsl(qs, keep_blank_values=True, strict_parsing=True, max_num_fields=n)`. -/
def parseQsl (maxNumFields : Nat) (qs : PyStr) : Except PyExc (List (PyStr × PyStr)) :=
  if qs.isEmpty then .ok []
  else if maxNumFields < 1 + qs.count 0x26 then .error .valueError
  else (splitSep 0x26 qs).mapM parseField

/-- `parse_qs(...).get(name, [""])` of the fields. -/
def formValues (fields : List (PyStr × PyStr)) (name : PyStr) : List PyStr :=
  match (fields.filter fun field => field.1 == name).map Prod.snd with
  | [] => [[]]
  | value :: values => value :: values

/-! ## fields can be encoded -/

theorem encodable_decodeWith {onError : List UInt8 → Option PyStr}
    (herr : ∀ bad t, onError bad = some t → t.Encodable) {skip : Nat} {bs : List UInt8} {s : PyStr}
    (h : Utf8.decodeWith onError skip bs = some s) : s.Encodable := by
  induction bs generalizing skip s with
  | nil =>
      rw [Utf8.decodeWith, Option.some.injEq] at h
      rw [← h]
      exact List.forall_mem_nil _
  | cons b bs ih =>
      rw [Utf8.decodeWith] at h
      by_cases hskip : 0 < skip
      · rw [if_pos hskip] at h
        exact ih h
      · rw [if_neg hskip] at h
        cases hseq : Utf8.sequence b bs with
        | char c n =>
            simp only [hseq, Option.map_eq_some_iff] at h
            obtain ⟨t, ht, rfl⟩ := h
            exact List.forall_mem_cons.mpr ⟨(Utf8.sequence_sound hseq).1, ih ht⟩
        | malformed n =>
            simp only [hseq] at h
            cases herror : onError ((b :: bs).take n) with
            | none =>
                simp only [herror] at h
                contradiction
            | some bad =>
                simp only [herror, Option.map_eq_some_iff] at h
                obtain ⟨t, ht, rfl⟩ := h
                exact (herr _ bad herror).append (ih ht)

/-- Bytes that do not decode become characters that can be encoded. -/
theorem encodable_decodeReplace (bs : List UInt8) : (Utf8.decodeReplace bs).Encodable := by
  rw [Utf8.decodeReplace]
  cases h : Utf8.decodeWith (fun _ => some [0xfffd]) 0 bs with
  | none => exact List.forall_mem_nil _
  | some s =>
      refine encodable_decodeWith ?_ h
      rintro bad t ht
      rw [Option.some.injEq] at ht
      rw [← ht]
      exact forall_of_all (by decide)

theorem encodable_unquoteParts (ascii : PyStr) {s : PyStr} (h : s.Encodable) :
    (unquoteParts ascii s).Encodable := by
  induction s generalizing ascii with
  | nil => exact encodable_decodeReplace _
  | cons c cs ih =>
      have hcs : PyStr.Encodable cs := fun d hd => h d (List.mem_cons_of_mem c hd)
      rw [unquoteParts]
      split
      · exact ih _ hcs
      · refine (encodable_decodeReplace _).append ?_
        exact List.forall_mem_cons.mpr ⟨h c List.mem_cons_self, ih [] hcs⟩

/-- Unquoting makes no surrogates. -/
theorem encodable_unquotePlus {s : PyStr} (h : s.Encodable) : (unquotePlus s).Encodable := by
  have hplus : PyStr.Encodable (s.map fun c => if c = 0x2b then 0x20 else c) := by
    intro c hc
    obtain ⟨d, hd, rfl⟩ := List.mem_map.mp hc
    split
    · decide
    · exact h d hd
  rw [unquotePlus, unquote]
  split
  · exact encodable_unquoteParts [] hplus
  · exact hplus

theorem encodable_parseField {text : PyStr} {field : PyStr × PyStr} (h : text.Encodable)
    (hfield : parseField text = .ok field) : field.1.Encodable ∧ field.2.Encodable := by
  rw [parseField] at hfield
  cases hcut : partition 0x3d text with
  | mk name rest =>
      obtain ⟨found, value⟩ := rest
      cases found with
      | false =>
          simp only [hcut] at hfield
          contradiction
      | true =>
          simp only [hcut, Except.ok.injEq] at hfield
          have htext := (partition_found.mp hcut).1
          rw [← hfield]
          refine ⟨encodable_unquotePlus fun c hc => h c ?_,
            encodable_unquotePlus fun c hc => h c ?_⟩
          · rw [htext]
            exact List.mem_append_left _ hc
          · rw [htext]
            exact List.mem_append_right _ (List.mem_cons_of_mem _ hc)

/-- Nor does reading a form. -/
theorem encodable_fields {texts : List PyStr} {fields : List (PyStr × PyStr)}
    (htexts : ∀ text ∈ texts, text.Encodable) (h : texts.mapM parseField = .ok fields) :
    ∀ field ∈ fields, field.1.Encodable ∧ field.2.Encodable := by
  induction texts generalizing fields with
  | nil =>
      rw [List.mapM_nil] at h
      cases h
      exact List.forall_mem_nil _
  | cons text texts ih =>
      rw [List.mapM_cons] at h
      cases hfield : parseField text with
      | error e =>
          rw [hfield] at h
          contradiction
      | ok field =>
          cases hrest : texts.mapM parseField with
          | error e =>
              rw [hfield, hrest] at h
              contradiction
          | ok rest =>
              rw [hfield, hrest] at h
              cases h
              exact List.forall_mem_cons.mpr
                ⟨encodable_parseField (htexts text List.mem_cons_self) hfield,
                  ih (fun t ht => htexts t (List.mem_cons_of_mem text ht)) hrest⟩

/-- The fields of a text that was decoded. -/
theorem encodable_parseQsl {n : Nat} {qs : PyStr} {fields : List (PyStr × PyStr)}
    (hqs : qs.Encodable) (h : parseQsl n qs = .ok fields) :
    ∀ field ∈ fields, field.1.Encodable ∧ field.2.Encodable := by
  rw [parseQsl] at h
  split at h
  · cases h
    exact List.forall_mem_nil _
  split at h
  · contradiction
  · refine encodable_fields (fun text htext c hc => ?_) h
    exact hqs c (mem_splitWhere htext c hc).2

/-- A single value of a field. -/
theorem encodable_formValues {fields : List (PyStr × PyStr)} {name : PyStr}
    (h : ∀ field ∈ fields, field.2.Encodable) :
    ∀ value ∈ formValues fields name, value.Encodable := by
  intro value hvalue
  rw [formValues] at hvalue
  split at hvalue
  · rw [List.mem_singleton.mp hvalue]
    exact List.forall_mem_nil _
  · next v vs hvalues =>
      rw [← hvalues] at hvalue
      obtain ⟨field, hfield, rfl⟩ := List.mem_map.mp hvalue
      exact h field (List.mem_of_mem_filter hfield)

end Web

end SushidaOs
