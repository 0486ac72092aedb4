import SushidaOs.Decimal
import SushidaOs.Html
import SushidaOs.Lines
import SushidaOs.Wifi.Scan

/-!
# SushidaOs.Wifi.Page

The setup page (`render_page` of `sushida_os/wifi/web.py`).

The names of the networks come from the air.  Their markup is the same whatever
they are, and the browser posts back the name that was scanned
(`page_not_injectable`).
-/

namespace SushidaOs

open PyStr

namespace Web

/-- What a page shows. -/
structure PageData where
  message : PyStr
  success : Bool
  connected : Bool
  storageReady : Bool
  /-- The answer of `scan_networks`. -/
  scan : List Network
  /-- The answer of `csrf_token`. -/
  token : PyStr
  deriving DecidableEq, Repr

namespace PageData

/-- `networks`: there is no scan after a success. -/
def networks (d : PageData) : List Network := if d.success then [] else d.scan

/-- An element of `network_choices`. -/
def choice (n : Network) : PyStr :=
  let escapedSsid := Html.escape n.ssid
  let security := if n.security.isEmpty then lit "オープン" else n.security
  let details := lit "電波 " ++ ofInt n.signal ++ lit "% — " ++ security
  lit "<label class=\"network\">" ++
    (lit "<input type=\"radio\" name=\"ssid\" value=\"" ++ escapedSsid ++ lit "\" required>") ++
    lit "<span>" ++
    (lit "<strong>" ++ Html.escape n.ssid ++ lit "</strong>") ++
    (lit "<small>" ++ Html.escape details ++ lit "</small>") ++
    lit "</span></label>"

/-- `network_list`. -/
def networkList (d : PageData) : PyStr :=
  if d.success then
    lit "<p class=\"success\">接続が完了しました。寿司打画面への切り替えを待っています。</p>"
  else if !(d.networks.map choice).isEmpty then (d.networks.map choice).flatten
  else
    lit "<p class=\"empty\">Wi-Fiネットワークが見つかりません。再スキャンしてください。</p>"

/-- `status`. -/
def status (d : PageData) : PyStr :=
  (if d.connected then lit "有線またはWi-Fiで接続済みです。"
    else lit "ネットワーク未接続です。") ++
  if d.storageReady then []
    else lit " 設定保存領域を利用できないため、この起動中だけ接続できます。"

/-- `alert`. -/
def alert (d : PageData) : PyStr :=
  if d.message.isEmpty then []
  else lit "<p class=\"" ++ (if d.success then lit "success" else lit "error") ++ lit "\">" ++
    Html.escape d.message ++ lit "</p>"

/-- `submit_disabled`. -/
def submitDisabled (d : PageData) : PyStr :=
  if d.networks.isEmpty then lit " disabled" else []

/-- `submit_label`. -/
def submitLabel (d : PageData) : PyStr :=
  if d.storageReady then lit "接続して保存" else lit "この起動中だけ接続"

/-- `persistence_note`. -/
def persistenceNote (d : PageData) : PyStr :=
  if d.storageReady then lit "設定はこの端末の専用領域に保存されます。"
  else lit "この起動中は接続できますが、設定は再起動後に残りません。"

/-- The document up to the status. -/
def head : PyStr := lit "<!doctype html>
<html lang=\"ja\"><head><meta charset=\"utf-8\">
<meta name=\"viewport\" content=\"width=device-width,initial-scale=1\">
<title>ネットワーク設定</title>
<style>
html,body\x7bmargin:0;min-height:100%;background:#111;color:#f4f4f4;font-family:sans-serif\x7d
main\x7bmax-width:720px;margin:0 auto;padding:7vh 6vw\x7dh1\x7bfont-size:2rem\x7d
form\x7bdisplay:grid;gap:1rem\x7dlabel\x7bdisplay:grid;gap:.4rem\x7d
input,button\x7bfont:inherit;padding:.8rem;border-radius:.4rem;border:1px solid #777\x7d
button\x7bbackground:#fff;color:#111;font-weight:bold\x7d" ++
  lit ".error\x7bcolor:#ff9b9b\x7d.success\x7bcolor:#9bffb1\x7d
.networks\x7bborder:0;margin:0;padding:0;display:grid;gap:.65rem\x7d
.networks legend\x7bfont-weight:bold;margin-bottom:.6rem\x7d
.network\x7bdisplay:grid;grid-template-columns:auto 1fr;align-items:center;gap:.8rem;
padding:.85rem;border:1px solid #777;border-radius:.5rem;background:#222;cursor:pointer\x7d
.network:has(input:checked)\x7bborder-color:#fff;background:#3a3a3a\x7d
.network input\x7bwidth:1.35rem;height:1.35rem;margin:0\x7d
.network span\x7bdisplay:grid;gap:.2rem\x7d.network strong\x7boverflow-wrap:anywhere\x7d
.network small,.note,.empty\x7bcolor:#bbb\x7d.empty\x7bmargin:.2rem 0\x7d
.note\x7bfont-size:.9rem\x7d
</style></head><body><main><h1>ネットワーク設定</h1>
<p>"

/-- Between the alert and the token. -/
def formStart : PyStr := lit "
<form method=\"post\" action=\"/connect\">
<input type=\"hidden\" name=\"csrf\" value=\""

/-- Between the token and the networks. -/
def listStart : PyStr := lit "\">
<fieldset class=\"networks\"><legend>Wi-Fiネットワークを選択</legend>"

/-- Between the networks and the button. -/
def passwordField : PyStr := lit "</fieldset>
<label>パスワード<input name=\"password\" type=\"password\" maxlength=\"64\"" ++
  lit " autocomplete=\"new-password\"></label>
<button type=\"submit\""

/-- Between the button and the note. -/
def rescanForm : PyStr := lit "</button></form>
<form method=\"get\" action=\"/\"><button type=\"submit\">再スキャン</button></form>
<p class=\"note\">有線LANが接続されると自動的に寿司打画面へ移動します。"

/-- The end of the document. -/
def foot : PyStr := lit "</p>
</main></body></html>"

/-- `document`. -/
def document (d : PageData) : PyStr :=
  head ++ Html.escape d.status ++ lit "</p>" ++ d.alert ++ formStart ++ Html.escape d.token ++
    listStart ++ d.networkList ++ passwordField ++ d.submitDisabled ++ lit ">" ++ d.submitLabel ++
    rescanForm ++ d.persistenceNote ++ foot

/-- `render_page` from its answers on. -/
def render (d : PageData) : Except PyExc (List UInt8) := d.document.encodeUtf8

/-! ## the markup -/

/-- The characters with a meaning in the markup. -/
def skeleton (s : PyStr) : PyStr := s.filter Html.isMarkup

/-- The skeleton of a text, part by part. -/
theorem skeleton_append (s t : PyStr) : skeleton (s ++ t) = skeleton s ++ skeleton t :=
  List.filter_append s t

/-- Escaped text has no markup. -/
theorem skeleton_escape (s : PyStr) : skeleton (Html.escape s) = [] := by
  rw [skeleton, List.filter_eq_nil_iff]
  intro c hc
  rw [Html.escape_free s c hc]
  decide

/-- Every choice has the same markup. -/
theorem skeleton_choice (m n : Network) : skeleton (choice m) = skeleton (choice n) := by
  simp only [choice, skeleton_append, skeleton_escape]

/-- The markup of the options depends on their number only. -/
theorem skeleton_choices {l l' : List Network} (h : l.length = l'.length) :
    skeleton (l.map choice).flatten = skeleton (l'.map choice).flatten := by
  induction l generalizing l' with
  | nil =>
      cases l' with
      | nil => rfl
      | cons n l' => contradiction
  | cons m l ih =>
      cases l' with
      | nil => contradiction
      | cons n l' =>
          rw [List.map_cons, List.map_cons, List.flatten_cons, List.flatten_cons,
            skeleton_append, skeleton_append, skeleton_choice m n, ih (Nat.succ.inj h)]

/-- Two pages that differ in what is inserted only. -/
structure SameShape (d e : PageData) : Prop where
  success : d.success = e.success
  connected : d.connected = e.connected
  storageReady : d.storageReady = e.storageReady
  token : d.token = e.token
  length : d.scan.length = e.scan.length
  message : d.message ≠ [] ∧ e.message ≠ []

theorem SameShape.networks {d e : PageData} (h : SameShape d e) :
    d.networks.length = e.networks.length := by
  rw [PageData.networks, PageData.networks, h.success]
  split
  · rfl
  · exact h.length

theorem isEmpty_congr {α : Type} {l l' : List α} (h : l.length = l'.length) :
    l.isEmpty = l'.isEmpty := by
  rw [Bool.eq_iff_iff, List.isEmpty_iff_length_eq_zero, List.isEmpty_iff_length_eq_zero, h]

/-- The list of networks has the same markup. -/
theorem SameShape.networkList {d e : PageData} (h : SameShape d e) :
    skeleton d.networkList = skeleton e.networkList := by
  have hempty : (d.networks.map choice).isEmpty = (e.networks.map choice).isEmpty :=
    isEmpty_congr (by rw [List.length_map, List.length_map, h.networks])
  rw [PageData.networkList, PageData.networkList, h.success, hempty]
  split
  · rfl
  split
  · exact skeleton_choices h.networks
  · rfl

/-- So has the message. -/
theorem SameShape.alert {d e : PageData} (h : SameShape d e) :
    skeleton d.alert = skeleton e.alert := by
  have hd : d.message.isEmpty = false := by simpa using h.message.1
  have he : e.message.isEmpty = false := by simpa using h.message.2
  simp only [PageData.alert, hd, he, Bool.false_eq_true, if_false, h.success, skeleton_append,
    skeleton_escape]

/-- So has the page. -/
theorem SameShape.skeleton {d e : PageData} (h : SameShape d e) :
    skeleton d.document = skeleton e.document := by
  have hdisabled : d.submitDisabled = e.submitDisabled := by
    rw [submitDisabled, submitDisabled, isEmpty_congr h.networks]
  have hlabel : d.submitLabel = e.submitLabel := by
    rw [submitLabel, submitLabel, h.storageReady]
  have hnote : d.persistenceNote = e.persistenceNote := by
    rw [persistenceNote, persistenceNote, h.storageReady]
  simp only [document, skeleton_append, skeleton_escape, h.alert, h.networkList, hdisabled,
    hlabel, hnote]

/-! ## the radio buttons -/

/-- The start of the tag of a network, behind its `<`. -/
def radioMark : PyStr := lit "input type=\"radio\" name=\"ssid\" value=\""

/-- The value of a tag that is the radio button of a network; the tag is what
stands between two `<`. -/
def radioValue (tag : PyStr) : Option PyStr :=
  if radioMark.isPrefixOf tag then some ((tag.drop radioMark.length).takeWhile (· != 0x22))
  else none

/-- The tags of a text. -/
def tags (text : PyStr) : List PyStr := (splitSep 0x3c text).tail

/-- The values of the radio buttons of the networks, in order. -/
def radioValues (text : PyStr) : List PyStr := (tags text).filterMap radioValue

/-- A tag begins at every `<`. -/
theorem tags_append (a b : PyStr) : tags (a ++ 0x3c :: b) = tags a ++ splitSep 0x3c b := by
  rw [tags, tags, splitSep, splitWhere_append_sep a b (by decide)]
  exact List.tail_append_of_ne_nil (splitWhere_ne_nil a)

/-- In front of any text it adds these radio buttons, and does not end in the
middle of one. -/
def Shows (a : PyStr) (values : List PyStr) : Prop :=
  ∀ s : PyStr, radioValues (a ++ s) = values ++ radioValues s

/-- The radio values of two parts, one after the other. -/
theorem Shows.append {a b : PyStr} {values values' : List PyStr} (ha : Shows a values)
    (hb : Shows b values') : Shows (a ++ b) (values ++ values') := by
  intro s
  rw [List.append_assoc, ha, hb, List.append_assoc]

/-- A part without radio buttons. -/
theorem Shows.text {a b : PyStr} {values : List PyStr} (ha : Shows a values) (hb : Shows b []) :
    Shows (a ++ b) values := by
  have happend := ha.append hb
  rwa [List.append_nil] at happend

theorem Shows.radioValues {a : PyStr} {values : List PyStr} (h : Shows a values) :
    radioValues a = values := by
  have hend := h []
  rw [List.append_nil] at hend
  rw [hend]
  exact List.append_nil values

/-- Text without `<` goes to the first piece. -/
theorem splitSep_free_append {t : PyStr} (h : ∀ c ∈ t, (c == 0x3c) = false) (s : PyStr) :
    ∃ first rest, splitSep 0x3c s = first :: rest ∧
      splitSep 0x3c (t ++ s) = (t ++ first) :: rest := by
  cases hs : splitSep 0x3c s with
  | nil => exact absurd hs (splitWhere_ne_nil s)
  | cons first rest =>
      refine ⟨first, rest, rfl, ?_⟩
      induction t with
      | nil => exact hs
      | cons c t ih =>
          rw [List.cons_append, splitSep, splitWhere, h c List.mem_cons_self]
          have htail := ih fun d hd => h d (List.mem_cons_of_mem c hd)
          rw [splitSep] at htail
          rw [htail]
          rfl

/-- Text without `<` shows nothing. -/
theorem shows_free {a : PyStr} (h : ∀ c ∈ a, (c == 0x3c) = false) : Shows a [] := by
  intro s
  obtain ⟨first, rest, hs, has⟩ := splitSep_free_append h s
  rw [PageData.radioValues, tags, has, PageData.radioValues, tags, hs]
  rfl

/-- What comes behind does not change what the tag is. -/
def Settled (tag : PyStr) : Prop := ∀ s : PyStr, radioValue (tag ++ s) = radioValue tag

/-- A tag that is complete shows the same whatever follows it. -/
theorem shows_of_settled (front : PyStr) {tag : PyStr} (h : ∀ c ∈ tag, (c == 0x3c) = false)
    (hsettled : Settled tag) :
    Shows (front ++ 0x3c :: tag) (radioValues (front ++ 0x3c :: tag)) := by
  intro s
  obtain ⟨first, rest, hs, htag⟩ := splitSep_free_append h s
  have hself : splitSep 0x3c tag = [tag] := splitWhere_free h
  have htags : tags s = rest := by rw [tags, hs, List.tail_cons]
  rw [radioValues, radioValues, radioValues, List.append_assoc, List.cons_append, tags_append,
    tags_append, htag, hself, htags, List.filterMap_append, List.filterMap_append,
    List.append_assoc]
  simp only [List.filterMap_cons, List.filterMap_nil, hsettled first]
  cases radioValue tag with
  | none => rfl
  | some value => rfl

/-- The tag already differs from the start of a radio button. -/
def isOther (tag : PyStr) : Bool := !radioMark.isPrefixOf tag && !tag.isPrefixOf radioMark

/-- A tag of another name is complete. -/
theorem settled_of_isOther {tag : PyStr} (h : isOther tag = true) : Settled tag := by
  simp only [isOther, Bool.and_eq_true, Bool.not_eq_true'] at h
  intro s
  have hlong : radioMark.isPrefixOf (tag ++ s) = false := by
    rw [Bool.eq_false_iff]
    intro hprefix
    cases List.prefix_or_prefix_of_prefix (List.isPrefixOf_iff_prefix.mp hprefix)
      (List.prefix_append tag s) with
    | inl hmark => exact absurd (List.isPrefixOf_iff_prefix.mpr hmark) (by simp [h.1])
    | inr htag => exact absurd (List.isPrefixOf_iff_prefix.mpr htag) (by simp [h.2])
  simp only [radioValue, hlong, h.1, Bool.false_eq_true, if_false]

/-- The tag at the end of a text. -/
def lastTag (a : PyStr) : PyStr := (a.reverse.takeWhile (· != 0x3c)).reverse

/-- A text that ends in another tag. -/
theorem shows_of_lastTag {a : PyStr} (h : isOther (lastTag a) = true) :
    Shows a (radioValues a) := by
  have htag : ∀ c ∈ lastTag a, (c == 0x3c) = false := by
    intro c hc
    have hall : (a.reverse.takeWhile (· != 0x3c)).all (· != 0x3c) = true := List.all_takeWhile
    have hne := List.all_eq_true.mp hall c (List.mem_reverse.mp hc)
    simpa using hne
  have hcut : a = (a.reverse.dropWhile (· != 0x3c)).reverse ++ lastTag a := by
    rw [lastTag, ← List.reverse_append, List.takeWhile_append_dropWhile, List.reverse_reverse]
  cases hfront : a.reverse.dropWhile (· != 0x3c) with
  | nil =>
      rw [hfront, List.reverse_nil, List.nil_append] at hcut
      rw [hcut]
      have hshows := shows_free htag
      rwa [hshows.radioValues]
  | cons c front =>
      have hc : c = 0x3c := by
        have hhead := List.head?_dropWhile_not (· != (0x3c : CodePoint)) a.reverse
        rw [hfront] at hhead
        simpa using hhead
      rw [hfront, List.reverse_cons, List.append_assoc, List.singleton_append, hc] at hcut
      rw [hcut]
      exact shows_of_settled front.reverse htag (settled_of_isOther h)

/-- A text without radio buttons that ends in another tag. -/
def isStatic (a : PyStr) : Bool := isOther (lastTag a) && (radioValues a).isEmpty

/-- Fixed markup without radio buttons shows nothing. -/
theorem shows_static {a : PyStr} (h : isStatic a = true) : Shows a [] := by
  rw [isStatic, Bool.and_eq_true, List.isEmpty_iff] at h
  have hshows := shows_of_lastTag h.1
  rwa [h.2] at hshows

theorem shows_lit {l : List Char} (h : isStatic (l.map CodePoint.ofChar) = true) :
    Shows (lit (String.ofList l)) [] := by
  rw [lit_ofList]
  exact shows_static h

/-- The tag of a radio button. -/
theorem radioValue_radioMark {value : PyStr} (h : ∀ c ∈ value, c ≠ 0x22) (s : PyStr) :
    radioValue (radioMark ++ value ++ 0x22 :: s) = some value := by
  have hmark : radioMark.isPrefixOf (radioMark ++ value ++ 0x22 :: s) = true := by
    rw [List.isPrefixOf_iff_prefix, List.append_assoc]
    exact List.prefix_append _ _
  have hvalue : (value ++ 0x22 :: s).takeWhile (· != 0x22) = value := by
    rw [List.takeWhile_append_of_pos (fun c hc => bne_iff_ne.mpr (h c hc)),
      List.takeWhile_cons_of_neg (by decide), List.append_nil]
  rw [radioValue, if_pos hmark, List.append_assoc, List.drop_left, hvalue]

/-- Escaped text has no character of markup. -/
theorem escape_ne (s : PyStr) {d : CodePoint} (hd : Html.isMarkup d = true) :
    ∀ c ∈ Html.escape s, c ≠ d := by
  rintro c hc rfl
  rw [Html.escape_free s c hc] at hd
  contradiction

/-- Escaped text shows nothing. -/
theorem shows_escape (s : PyStr) : Shows (Html.escape s) [] :=
  shows_free fun c hc => beq_false_of_ne (escape_ne s (by decide) c hc)

/-- The radio button of a network. -/
def radio (ssid : PyStr) : PyStr :=
  lit "<input type=\"radio\" name=\"ssid\" value=\"" ++ Html.escape ssid ++ lit "\" required>"

theorem radio_eq (ssid : PyStr) :
    radio ssid = 0x3c :: (radioMark ++ Html.escape ssid ++ 0x22 :: lit " required>") := by
  have hmark : lit "<input type=\"radio\" name=\"ssid\" value=\"" = 0x3c :: radioMark := by
    rw [radioMark, lit_ofList, lit_ofList]
    rfl
  have hend : lit "\" required>" = 0x22 :: lit " required>" := by decide
  rw [radio, hmark, hend, List.cons_append, List.cons_append]

/-- The tag of a radio button is complete. -/
theorem settled_radio (ssid : PyStr) :
    Settled (radioMark ++ Html.escape ssid ++ 0x22 :: lit " required>") := by
  intro s
  have hssid := escape_ne ssid (d := 0x22) (by decide)
  rw [radioValue_radioMark hssid, List.append_assoc, List.cons_append,
    radioValue_radioMark hssid]

/-- The tag of a radio button has no `<` in it. -/
theorem radio_free (ssid : PyStr) :
    ∀ c ∈ radioMark ++ Html.escape ssid ++ 0x22 :: lit " required>", (c == 0x3c) = false := by
  intro c hc
  rw [List.mem_append, List.mem_append] at hc
  rcases hc with (hc | hc) | hc
  · revert c
    exact forall_of_all (by decide)
  · exact beq_false_of_ne (escape_ne ssid (by decide) c hc)
  · revert c
    exact forall_of_all (by decide)

/-- A radio button shows its value. -/
theorem shows_radio (ssid : PyStr) : Shows (radio ssid) [Html.escape ssid] := by
  have hvalues : radioValues (radio ssid) = [Html.escape ssid] := by
    have htag : splitSep 0x3c (radioMark ++ Html.escape ssid ++ 0x22 :: lit " required>") =
        [radioMark ++ Html.escape ssid ++ 0x22 :: lit " required>"] :=
      splitWhere_free (radio_free ssid)
    rw [radio_eq, radioValues, ← List.nil_append (0x3c :: _), tags_append, htag]
    simp only [tags, splitSep, splitWhere, List.tail_cons, List.nil_append, List.filterMap_cons,
      List.filterMap_nil, radioValue_radioMark (escape_ne ssid (d := 0x22) (by decide))]
  have hshows := shows_of_settled [] (radio_free ssid) (settled_radio ssid)
  rw [List.nil_append, ← radio_eq, hvalues] at hshows
  exact hshows

/-! ## the document -/

theorem shows_choice (n : Network) : Shows (choice n) [Html.escape n.ssid] := by
  have hlabel : Shows (lit "<label class=\"network\">") [] := shows_lit (by decide)
  have hspan : Shows (lit "<span>") [] := shows_lit (by decide)
  have hstrong : Shows (lit "<strong>") [] := shows_lit (by decide)
  have hstrongEnd : Shows (lit "</strong>") [] := shows_lit (by decide)
  have hsmall : Shows (lit "<small>") [] := shows_lit (by decide)
  have hsmallEnd : Shows (lit "</small>") [] := shows_lit (by decide)
  have hend : Shows (lit "</span></label>") [] := shows_lit (by decide)
  exact ((((hlabel.append (shows_radio n.ssid)).text hspan).text
    ((hstrong.text (shows_escape _)).text hstrongEnd)).text
    ((hsmall.text (shows_escape _)).text hsmallEnd)).text hend

/-- The options show the names, in order. -/
theorem shows_choices (l : List Network) :
    Shows (l.map choice).flatten (l.map fun n => Html.escape n.ssid) := by
  induction l with
  | nil => intro s; rfl
  | cons n l ih => exact (shows_choice n).append ih

theorem shows_networkList (d : PageData) :
    Shows d.networkList (d.networks.map fun n => Html.escape n.ssid) := by
  rw [networkList]
  split
  · next hsuccess =>
      rw [networks, if_pos hsuccess]
      exact shows_lit (by decide)
  split
  · exact shows_choices d.networks
  · next hempty =>
      have hnil : d.networks = [] := by simpa using hempty
      rw [hnil]
      exact shows_lit (by decide)

theorem shows_alert (d : PageData) : Shows d.alert [] := by
  rw [alert]
  split
  · intro s; rfl
  · have hclass : Shows (if d.success then lit "success" else lit "error") [] := by
      split
      · exact shows_lit (by decide)
      · exact shows_lit (by decide)
    have hopen : Shows (lit "<p class=\"") [] := shows_lit (by decide)
    have hquote : Shows (lit "\">") [] := shows_lit (by decide)
    have hclose : Shows (lit "</p>") [] := shows_lit (by decide)
    exact (((hopen.text hclass).text hquote).text (shows_escape d.message)).text hclose

set_option maxRecDepth 4000 in
theorem shows_head : Shows head [] :=
  Shows.text (shows_lit (by decide)) (shows_lit (by decide))

set_option maxRecDepth 1000 in
theorem shows_rescanForm : Shows rescanForm [] := shows_lit (by decide)

/-- The page shows the names of its networks and nothing else. -/
theorem shows_document (d : PageData) :
    Shows d.document (d.networks.map fun n => Html.escape n.ssid) := by
  have hdisabled : Shows d.submitDisabled [] := by
    rw [submitDisabled]
    split
    · exact shows_lit (by decide)
    · intro s; rfl
  have hlabel : Shows d.submitLabel [] := by
    rw [submitLabel]
    split
    · exact shows_lit (by decide)
    · exact shows_lit (by decide)
  have hnote : Shows d.persistenceNote [] := by
    rw [persistenceNote]
    split
    · exact shows_lit (by decide)
    · exact shows_lit (by decide)
  have hstatusEnd : Shows (lit "</p>") [] := shows_lit (by decide)
  have hformStart : Shows formStart [] := shows_lit (by decide)
  have hlistStart : Shows listStart [] := shows_lit (by decide)
  have hpasswordField : Shows passwordField [] :=
    Shows.text (shows_lit (by decide)) (shows_lit (by decide))
  have hbuttonEnd : Shows (lit ">") [] := shows_lit (by decide)
  have hfoot : Shows foot [] := shows_lit (by decide)
  have hfront := (((((shows_head.text (shows_escape d.status)).text hstatusEnd).text
    (shows_alert d)).text hformStart).text (shows_escape d.token)).text hlistStart
  have hlist := hfront.append (shows_networkList d)
  rw [List.nil_append] at hlist
  exact ((((((hlist.text hpasswordField).text hdisabled).text hbuttonEnd).text hlabel).text
    shows_rescanForm).text hnote).text hfoot

/-- **No injection**: the markup of a page does not depend on the names and the
security of the networks or on the message, and its radio buttons post back the
names as they were scanned; the bytes of a page are those of its document. -/
theorem page_not_injectable (H : Html.Tables) (d e : PageData) (h : SameShape d e) :
    skeleton d.document = skeleton e.document ∧
      (radioValues d.document).map (Html.unescape H) = d.networks.map Network.ssid ∧
      ∀ body, d.render = .ok body → Utf8.decodeStrict body = some d.document := by
  refine ⟨h.skeleton, ?_, ?_⟩
  · rw [(shows_document d).radioValues, List.map_map]
    exact List.map_congr_left fun n _ => Html.unescape_escape H n.ssid
  · intro body hbody
    have hencodable := encodable_of_encodeUtf8 hbody
    rw [render, encodeUtf8_eq hencodable, Except.ok.injEq] at hbody
    rw [← hbody]
    exact Utf8.decodeStrict_utf8 hencodable

/-- A page with one network. -/
def oneNetwork (ssid message : PyStr) : PageData :=
  ⟨message, false, false, true, [⟨ssid, 50, lit "WPA2"⟩], lit "t"⟩

/-- A name that tries to close its attribute. -/
theorem quoted_name_kept :
    skeleton (oneNetwork (lit "a\"><b>") (lit "x")).document =
        skeleton (oneNetwork (lit "c") (lit "<")).document ∧
      (radioValues (oneNetwork (lit "a\"><b>") (lit "x")).document).map (Html.unescape .xml) =
        [lit "a\"><b>"] := by
  have hpage := page_not_injectable .xml (oneNetwork (lit "a\"><b>") (lit "x"))
    (oneNetwork (lit "c") (lit "<")) ⟨rfl, rfl, rfl, rfl, rfl, by decide, by decide⟩
  exact ⟨hpage.1, hpage.2.1⟩

end PageData

end Web

end SushidaOs
