import Mathlib.Data.List.Sort
import SushidaOs.Wifi.Types

/-!
# SushidaOs.Wifi.Scan

Reading `nmcli` output: the terse table of `scan_networks` and the security
classification (`sushida_os/wifi/nmcli.py`).

Everything here is a function of the text `nmcli` printed; the calls
themselves are in `SushidaOs.Wifi.Nmcli`.
-/

namespace SushidaOs

/-! ## the terse table -/

/-- The loop of `_split_escaped`; `current` is the field in reverse. -/
def splitEscapedAux (current : PyStr) (escaped : Bool) : PyStr → List PyStr
  | [] => [(if escaped then 0x5c :: current else current).reverse]
  | c :: cs =>
      if escaped then splitEscapedAux (c :: current) false cs
      else if c = 0x5c then splitEscapedAux current true cs
      else if c = 0x3a then current.reverse :: splitEscapedAux [] false cs
      else splitEscapedAux (c :: current) false cs

/-- `_split_escaped`. -/
def splitEscaped (line : PyStr) : List PyStr := splitEscapedAux [] false (line.rstrip 0x0a)

/-- An entry of the result of `scan_networks`. -/
structure Network where
  ssid : PyStr
  signal : Int
  security : PyStr
  deriving DecidableEq, Repr

/-- The body of the loop of `scan_networks` up to the update of `strongest`;
`none` is `continue`. -/
def networkOfLine (U : UnicodeData) (line : PyStr) : Except PyExc (Option Network) :=
  match splitEscaped line with
  | [ssid, rawSignal, security] =>
      if ssid.isEmpty || PyStr.contains [0xfffd] ssid then .ok none
      else match ssid.encodeUtf8 with
        | .error e => .error e
        | .ok bytes =>
            if 32 < bytes.length then .ok none
            else if ssid.any isControl then .ok none
            else match rawSignal.toInt U with
              | .error _ => .ok none
              | .ok n => .ok (some ⟨ssid, max 0 (min 100 n), security⟩)
  | _ => .ok none

/-- The update of the dictionary `strongest`, kept in insertion order. -/
def strengthen (n : Network) : List Network → List Network
  | [] => [n]
  | m :: ms =>
      if m.ssid = n.ssid then (if m.signal < n.signal then n :: ms else m :: ms)
      else m :: strengthen n ms

/-- The loop of `scan_networks`. -/
def collectNetworks (U : UnicodeData) (strongest : List Network) :
    List PyStr → Except PyExc (List Network)
  | [] => .ok strongest
  | line :: lines =>
      match networkOfLine U line with
      | .error e => .error e
      | .ok none => collectNetworks U strongest lines
      | .ok (some n) => collectNetworks U (strengthen n strongest) lines

/-- The order of the sort key `(-item[1], item[0].casefold())`. -/
def networkLe (U : UnicodeData) (a b : Network) : Bool :=
  !(-b.signal < -a.signal ||
    (-b.signal = -a.signal && PyStr.lt (b.ssid.casefold U) (a.ssid.casefold U)))

/-- `scan_networks` after a successful `nmcli` call. -/
def parseScan (U : UnicodeData) (stdout : PyStr) : Except PyExc (List Network) :=
  match collectNetworks U [] stdout.splitlines with
  | .error e => .error e
  | .ok strongest => .ok (strongest.insertionSort fun a b => networkLe U a b = true)

/-! ## security classification -/

/-- The results of `classify_security`. -/
inductive SecurityMode where
  | openNetwork
  | wep
  | enterprise
  | owe
  | unsupported
  | wpaPersonal
  deriving DecidableEq, Repr

/-- `classify_security`. -/
def classifySecurity (U : UnicodeData) (security : PyStr) : SecurityMode :=
  let normalized := PyStr.join [0x20] (security.upper U).split
  let tokens := normalized.split
  let wpaFallback := tokens.any fun t => t ∈ [PyStr.lit "WPA", .lit "WPA1", .lit "WPA2"]
  if normalized = [] ∨ normalized = .lit "--" then .openNetwork
  else if PyStr.contains (.lit "WEP") normalized then .wep
  else if PyStr.contains (.lit "802.1X") normalized || PyStr.contains (.lit "802-1X") normalized ||
      PyStr.contains (.lit "EAP") normalized || PyStr.contains (.lit "ENTERPRISE") normalized then
    .enterprise
  else if PyStr.contains (.lit "OWE") normalized then .owe
  else if .lit "SAE" ∈ tokens ∧ wpaFallback = false then .unsupported
  else if wpaFallback then .wpaPersonal
  else if .lit "WPA3" ∈ tokens then .unsupported
  else .unsupported

end SushidaOs
