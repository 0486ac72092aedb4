import SushidaOs.Publication
import SushidaOs.Wifi.Coordinator
import SushidaOs.Wifi.Form
import SushidaOs.Wifi.Nmcli
import SushidaOs.Wifi.Page

/-!
# SushidaOs.Wifi.Web

The HTTP handler of the setup page (`SetupHandler` of `sushida_os/wifi/web.py`).

A handler is a script whose journal holds its calls on the coordinator and its
responses.  Each question to the rest of the backend is asked at most once in a
request, so the answers are given as they are; whatever the other threads do
meanwhile is in them.

* A POST starts a connection exactly if it is a genuine form
  (`post_starts_iff`), and otherwise leaves the coordinator as it was.
* A request is answered exactly if `urlsplit` accepts its target, its token is
  ASCII where it is compared, and the storage status can be read where a page is
  rendered (`answered_iff`).
-/

namespace SushidaOs

open PyStr

namespace Web

/-! ## the request and the answers -/

/-- A request that was handed to the handler. -/
structure Request where
  /-- `self.path`. -/
  target : PyStr
  headers : Headers
  /-- The bytes that arrive behind the headers. -/
  body : List UInt8
  /-- The client closes the connection behind them; else reading on times out. -/
  closed : Bool

/-- `self.rfile.read(n)`; `none` is an `OSError`. -/
def Request.read (r : Request) (n : Nat) : Option (List UInt8) :=
  if n ≤ r.body.length then some (r.body.take n)
  else if r.closed then some r.body
  else none

/-- A token that `_read_csrf_token` accepts. -/
structure Token where
  text : PyStr
  chars : ∀ c ∈ text, Publication.isTokenChar c = true

/-- What a handler is told in one request. -/
structure Answers where
  url : UrlData
  /-- `os.getuid()`. -/
  uid : Nat
  /-- `csrf_token()`, with a valid token file. -/
  token : Token
  /-- `connect_status()`. -/
  connectState : ConnectState
  stateMessage : String
  /-- `consume_failure()`. -/
  failure : Option String
  /-- The `network_connected()` of `do_GET`, and the one of `render_page`. -/
  stillConnected : Bool
  connected : Bool
  storage : StorageView
  /-- The exit status and the output of the scan; `none` is an exception. -/
  scanOutput : Option (Int × List UInt8)
  /-- `enqueue_interactive(...)`. -/
  started : Bool
  /-- The response is written without an `OSError` of the socket. -/
  socket : Bool

/-- The completed process of the scan, whose output is decoded with
`errors="replace"`. -/
def Answers.scan (W : Answers) : Report :=
  match W.scanOutput with
  | none => .osError
  | some (returncode, output) => .completed returncode (Utf8.decodeReplace output).universalNewlines

/-! ## what a handler does -/

/-- The responses of the handler. -/
inductive Response where
  | page (statusCode : Nat) (body : List UInt8)
  | connecting (statusCode : Nat) (busy : Bool)
  | status (body : List UInt8)
  | home
  deriving DecidableEq, Repr

inductive WebEvent where
  | connectStatus
  | consumeFailure
  | resetSucceeded
  | enqueueInteractive (c : Credential)
  | startQueued
  | rejected (reason : String)
  /-- A response was written, or writing it raised an `OSError`. -/
  | sent (response : Response) (complete : Bool)
  deriving DecidableEq, Repr

/-- The exceptions that leave a handler. -/
inductive WebExc where
  | python (e : PyExc)
  | typeError
  /-- An `OSError` of the socket. -/
  | socket
  deriving DecidableEq, Repr

/-- The body of a handler. -/
abbrev Handler := Script WebEvent (Except WebExc Unit)

/-- What a call does to the fields of the coordinator. -/
def WebEvent.apply (coord : Coordinator Credential) : WebEvent → Coordinator Credential
  | .consumeFailure => coord.consumeFailure.2
  | .resetSucceeded => coord.resetSucceeded
  | .enqueueInteractive c => (coord.cancelRestore.enqueueInteractive c).2
  | .startQueued => coord.startAfterResponse
  | _ => coord

/-- The coordinator behind a handler that no other thread disturbed. -/
def coordAfter (coord : Coordinator Credential) (events : List WebEvent) : Coordinator Credential :=
  events.foldl WebEvent.apply coord

/-! ## responses -/

/-- `_reply` and its siblings. -/
def reply (W : Answers) (response : Response) : Handler := do
  Script.enter (.sent response W.socket)
  pure (if W.socket then .ok () else .error .socket)

/-- `render_page`. -/
def renderPage (W : Answers) (message : PyStr) (success : Bool) : Except PyExc (List UInt8) :=
  match W.storage.ready W.uid with
  | .error e => .error e
  | .ok storageReady =>
      match if success then .ok [] else scanResult W.url.toUnicodeData W.scan with
      | .error e => .error e
      | .ok networks =>
          PageData.render
            { message := message, success := success, connected := success || W.connected
              storageReady := storageReady, scan := networks, token := W.token.text }

/-- `self._reply(render_page(message, success), status_code)`. -/
def replyPage (W : Answers) (message : PyStr) (success : Bool) (statusCode : Nat) : Handler :=
  match renderPage W message success with
  | .error e => pure (.error (.python e))
  | .ok body => reply W (.page statusCode body)

/-- The public name of a state. -/
def stateName : ConnectState → PyStr
  | .idle => lit "idle"
  | .connecting => lit "connecting"
  | .succeeded => lit "succeeded"
  | .failed => lit "failed"

/-- The document of `_reply_status`. -/
def statusText (W : Answers) : PyStr :=
  lit "\x7b\"state\": " ++ jsonString (stateName W.connectState) ++ lit ", \"message\": " ++
    jsonString (lit W.stateMessage) ++ lit "\x7d"

/-- `_reply_status`. -/
def replyStatus (W : Answers) : Handler := do
  Script.enter .connectStatus
  match (statusText W).encodeUtf8 with
  | .error e => pure (.error (.python e))
  | .ok body => reply W (.status body)

/-! ## `do_GET` -/

/-- `do_GET` behind `connect_status()`. -/
def getPage (W : Answers) : Handler :=
  match W.connectState with
  | .connecting => reply W (.connecting 200 false)
  | .failed => do
      Script.enter .consumeFailure
      replyPage W (lit (W.failure.getD "")) false 200
  | .succeeded =>
      if W.stillConnected then replyPage W (lit W.stateMessage) true 200
      else do
        Script.enter .resetSucceeded
        replyPage W [] false 200
  | .idle => replyPage W [] false 200

/-- `do_GET`. -/
def doGet (W : Answers) (r : Request) : Handler :=
  match Url.urlsplit W.url r.target with
  | .error e => pure (.error (.python e))
  | .ok target =>
      if target.path = lit "/status.json" then replyStatus W
      else if target.path ≠ lit "/" ∧ target.path ≠ lit "/rescan" then reply W .home
      else do
        Script.enter .connectStatus
        getPage W

/-! ## `do_POST` -/

/-- `_allowed_browser_origin`. -/
def allowedBrowserOrigin (D : UrlData) (headers : Headers) : Bool :=
  match headers.get D (lit "origin") with
  | some origin => origin == lit "http://127.0.0.1:8787"
  | none =>
      headers.get D (lit "host") == some (lit "127.0.0.1:8787") &&
        headers.get D (lit "sec-fetch-site") == some (lit "same-origin")

/-- `MAX_REQUEST_BYTES`. -/
def maxRequestBytes : Int := 8192

/-- `length`; -1 when the header is not a number. -/
def contentLength (D : UrlData) (headers : Headers) : Int :=
  match toInt D.toUnicodeData ((headers.get D (lit "content-length")).getD []) with
  | .ok n => n
  | .error _ => -1

/-- `hmac.compare_digest` of two strings. -/
def compareDigest (a b : PyStr) : Except WebExc Bool :=
  if a.all (fun c => c.val < 0x80) && b.all (fun c => c.val < 0x80) then .ok (a == b)
  else .error .typeError

/-- The ways out of `do_POST` before `enqueue_interactive`. -/
inductive Exit where
  | raised (e : WebExc)
  | redirectHome
  /-- `_log_rejection` and `_setup_error`. -/
  | rejected (reason : String) (message : String) (statusCode : Nat)
  /-- The error of `validate_credentials`. -/
  | invalid (message : String)
  deriving DecidableEq, Repr

/-- `do_POST` up to the fields of the form. -/
def postForm (W : Answers) (r : Request) : Except Exit (List (PyStr × PyStr)) :=
  match Url.urlsplit W.url r.target with
  | .error e => .error (.raised (.python e))
  | .ok target =>
      if target.path ≠ lit "/connect" ∨ target.query ≠ [] ∨ target.fragment ≠ [] then
        .error .redirectHome
      else if allowedBrowserOrigin W.url r.headers = false then
        .error (.rejected "origin" ("ブラウザからの接続要求を検証できませんでした。" ++
          "設定画面から再送信してください。") 403)
      else if r.headers.contentType W.url ≠ lit "application/x-www-form-urlencoded" then
        .error (.rejected "content-type"
          "接続要求の形式が不正です。もう一度入力してください。" 415)
      else
        let length := contentLength W.url r.headers
        if length < 1 ∨ maxRequestBytes < length then
          .error (.rejected "content-length"
            "接続要求が大きすぎます。もう一度入力してください。" 413)
        else match r.read length.toNat with
          | none => .error (.rejected "request-timeout"
              "接続要求の受信がタイムアウトしました。もう一度入力してください。" 400)
          | some requestBody =>
              if requestBody.length ≠ length.toNat then
                .error (.rejected "incomplete-body"
                  "接続要求を最後まで受信できませんでした。もう一度入力してください。" 400)
              else match Utf8.decodeStrict requestBody with
                | none => .error (.rejected "form-encoding"
                    "接続要求を読み取れませんでした。もう一度入力してください。" 400)
                | some qs => match parseQsl 4 qs with
                  | .error _ => .error (.rejected "form-encoding"
                      "接続要求を読み取れませんでした。もう一度入力してください。" 400)
                  | .ok form => .ok form

/-- `do_POST` from the fields to the credential. -/
def postCredential (W : Answers) (form : List (PyStr × PyStr)) : Except Exit Credential :=
  match formValues form (lit "csrf"), formValues form (lit "ssid"),
      formValues form (lit "password") with
  | [token], [ssid], [password] =>
      match compareDigest token W.token.text with
      | .error e => .error (.raised e)
      | .ok false => .error (.rejected "csrf"
          "設定画面の有効期限が切れました。画面を再読み込みして再送信してください。" 403)
      | .ok true =>
          match validateCredentials ssid password with
          | .error e => .error (.raised (.python e))
          | .ok (some message) => .error (.invalid message)
          | .ok none => .ok ⟨ssid, password⟩
  | _, _, _ => .error (.rejected "form-fields"
      "接続要求の項目が不正です。もう一度入力してください。" 400)

/-- Where `do_POST` returns early. -/
def leave (W : Answers) : Exit → Handler
  | .raised e => pure (.error e)
  | .redirectHome => reply W .home
  | .rejected reason message statusCode => do
      Script.enter (.rejected reason)
      replyPage W (lit message) false statusCode
  | .invalid message => replyPage W (lit message) false 200

/-- `do_POST` from `enqueue_interactive` on. -/
def startConnection (W : Answers) (c : Credential) : Handler := do
  Script.enter (.enqueueInteractive c)
  match ← reply W (if W.started then .connecting 200 false else .connecting 409 true) with
  | .error e => pure (.error e)
  | .ok () => do
      Script.enter .startQueued
      pure (.ok ())

/-- `do_POST`. -/
def doPost (W : Answers) (r : Request) : Handler :=
  match (postForm W r).bind (postCredential W) with
  | .error exit => leave W exit
  | .ok c => startConnection W c

/-- The two methods that the handler implements. -/
inductive Method where
  | get
  | post
  deriving DecidableEq, Repr

def handle (W : Answers) : Method → Request → Handler
  | .get => doGet W
  | .post => doPost W

/-! ## a page can be encoded -/

theorem encodable_reverse {s : PyStr} (h : s.Encodable) : PyStr.Encodable s.reverse :=
  fun c hc => h c (List.mem_reverse.mp hc)

/-- The lines of a text without surrogates have none either. -/
theorem encodable_splitlinesAux (cr : Bool) {current s : PyStr} (hcurrent : current.Encodable)
    (hs : s.Encodable) : ∀ line ∈ splitlinesAux current cr s, line.Encodable := by
  induction s generalizing current cr with
  | nil =>
      intro line hline
      rw [splitlinesAux] at hline
      split at hline
      · contradiction
      · rw [List.mem_singleton.mp hline]
        exact encodable_reverse hcurrent
  | cons c cs ih =>
      have hcs : PyStr.Encodable cs := fun d hd => hs d (List.mem_cons_of_mem c hd)
      have hnil : PyStr.Encodable [] := List.forall_mem_nil _
      intro line hline
      rw [splitlinesAux] at hline
      split at hline
      · exact ih _ hcurrent hcs line hline
      split at hline
      · rcases List.mem_cons.mp hline with rfl | hrest
        · exact encodable_reverse hcurrent
        · exact ih _ hnil hcs line hrest
      · exact ih _ (List.forall_mem_cons.mpr ⟨hs c List.mem_cons_self, hcurrent⟩) hcs line hline

theorem encodable_universalNewlines {s : PyStr} (hs : s.Encodable) :
    s.universalNewlines.Encodable := by
  have hlf : CodePoint.isSurrogate 0x0a = false := by decide
  have hall : ∀ cr : Bool, (universalNewlinesAux cr s).Encodable := by
    induction s with
    | nil => exact fun _ => List.forall_mem_nil _
    | cons c cs ih =>
        have hcs := ih fun d hd => hs d (List.mem_cons_of_mem c hd)
        intro cr
        rw [universalNewlinesAux]
        split
        · exact hcs false
        split
        · exact List.forall_mem_cons.mpr ⟨hlf, hcs true⟩
        · exact List.forall_mem_cons.mpr ⟨hs c List.mem_cons_self, hcs false⟩
  exact hall false

theorem encodable_splitEscapedAux (escaped : Bool) {current s : PyStr}
    (hcurrent : current.Encodable) (hs : s.Encodable) :
    ∀ field ∈ splitEscapedAux current escaped s, field.Encodable := by
  have hbackslash : CodePoint.isSurrogate 0x5c = false := by decide
  induction s generalizing current escaped with
  | nil =>
      intro field hfield
      rw [splitEscapedAux, List.mem_singleton] at hfield
      rw [hfield]
      split
      · exact encodable_reverse (List.forall_mem_cons.mpr ⟨hbackslash, hcurrent⟩)
      · exact encodable_reverse hcurrent
  | cons c cs ih =>
      have hcs : PyStr.Encodable cs := fun d hd => hs d (List.mem_cons_of_mem c hd)
      have hcons : PyStr.Encodable (c :: current) :=
        List.forall_mem_cons.mpr ⟨hs c List.mem_cons_self, hcurrent⟩
      intro field hfield
      rw [splitEscapedAux] at hfield
      split at hfield
      · exact ih _ hcons hcs field hfield
      split at hfield
      · exact ih _ hcurrent hcs field hfield
      split at hfield
      · rcases List.mem_cons.mp hfield with rfl | hrest
        · exact encodable_reverse hcurrent
        · exact ih _ (List.forall_mem_nil _) hcs field hrest
      · exact ih _ hcons hcs field hfield

/-- What the page needs of a network. -/
def Printable (n : Network) : Prop := n.ssid.Encodable ∧ n.security.Encodable

/-- A line without surrogates is read, into a network that can be printed. -/
theorem printable_networkOfLine (U : UnicodeData) {line : PyStr} (h : line.Encodable) :
    ∃ found, networkOfLine U line = .ok found ∧ ∀ n, found = some n → Printable n := by
  have hline : (line.rstrip 0x0a).Encodable := by
    intro c hc
    rw [rstrip, List.mem_reverse] at hc
    exact h c (List.mem_reverse.mp ((List.dropWhile_sublist _).subset hc))
  have hfields := encodable_splitEscapedAux false (List.forall_mem_nil _) hline
  have hnone : ∀ n : Network, (none : Option Network) = some n → Printable n :=
    fun _ hn => by contradiction
  rw [networkOfLine]
  split
  · next ssid rawSignal security hsplit =>
      rw [splitEscaped] at hsplit
      rw [hsplit] at hfields
      have hssid : ssid.Encodable := hfields ssid (by simp)
      have hsecurity : security.Encodable := hfields security (by simp)
      split
      · exact ⟨none, rfl, hnone⟩
      rw [encodeUtf8_eq hssid]
      simp only
      split
      · exact ⟨none, rfl, hnone⟩
      split
      · exact ⟨none, rfl, hnone⟩
      cases rawSignal.toInt U with
      | error e => exact ⟨none, rfl, hnone⟩
      | ok signal =>
          refine ⟨_, rfl, fun n hn => ?_⟩
          rw [← Option.some.inj hn]
          exact ⟨hssid, hsecurity⟩
  · exact ⟨none, rfl, hnone⟩

/-- The table holds the new network and what it held before, and nothing else. -/
theorem mem_strengthen {n m : Network} {table : List Network} (h : m ∈ strengthen n table) :
    m = n ∨ m ∈ table := by
  induction table with
  | nil => exact Or.inl (List.mem_singleton.mp h)
  | cons a table ih =>
      rw [strengthen] at h
      split at h
      · split at h
        · exact (List.mem_cons.mp h).imp_right (List.mem_cons_of_mem a)
        · exact Or.inr h
      · rcases List.mem_cons.mp h with rfl | hrest
        · exact Or.inr List.mem_cons_self
        · exact (ih hrest).imp_right (List.mem_cons_of_mem a)

/-- Nor does a scan whose lines have no surrogates raise anything. -/
theorem printable_collectNetworks (U : UnicodeData) {table : List Network} {lines : List PyStr}
    (htable : ∀ n ∈ table, Printable n) (hlines : ∀ line ∈ lines, line.Encodable) :
    ∃ networks, collectNetworks U table lines = .ok networks ∧ ∀ n ∈ networks, Printable n := by
  induction lines generalizing table with
  | nil => exact ⟨table, rfl, htable⟩
  | cons line lines ih =>
      have hrest : ∀ l ∈ lines, l.Encodable := fun l hl => hlines l (List.mem_cons_of_mem line hl)
      obtain ⟨found, hfound, hprintable⟩ :=
        printable_networkOfLine U (hlines line List.mem_cons_self)
      rw [collectNetworks, hfound]
      cases found with
      | none => exact ih htable hrest
      | some n =>
          refine ih (fun m hm => ?_) hrest
          rcases mem_strengthen hm with rfl | hm
          · exact hprintable m rfl
          · exact htable m hm

/-- The scan of a request raises nothing. -/
theorem printable_scan (W : Answers) :
    ∃ networks, scanResult W.url.toUnicodeData W.scan = .ok networks ∧
      ∀ n ∈ networks, Printable n := by
  rw [Answers.scan]
  cases W.scanOutput with
  | none => exact ⟨[], rfl, List.forall_mem_nil _⟩
  | some answer =>
      obtain ⟨returncode, output⟩ := answer
      simp only [scanResult]
      split
      · exact ⟨[], rfl, List.forall_mem_nil _⟩
      · have hstdout := encodable_universalNewlines (encodable_decodeReplace output)
        obtain ⟨networks, hnetworks, hprintable⟩ :=
          printable_collectNetworks W.url.toUnicodeData (List.forall_mem_nil _)
            (encodable_splitlinesAux false (List.forall_mem_nil _) hstdout)
        refine ⟨_, by rw [parseScan, splitlines, hnetworks], fun n hn => ?_⟩
        exact hprintable n ((List.perm_insertionSort _ _).mem_iff.mp hn)

theorem Token.encodable (token : Token) : token.text.Encodable := by
  intro c hc
  have hchar := token.chars c hc
  simp only [Publication.isTokenChar, Bool.or_eq_true, Bool.and_eq_true, decide_eq_true_eq] at hchar
  have hminus : c = 0x2d ↔ c.val = 0x2d := Fin.ext_iff
  have hunder : c = 0x5f ↔ c.val = 0x5f := Fin.ext_iff
  rw [hminus, hunder] at hchar
  rw [CodePoint.isSurrogate, Bool.and_eq_false_iff, decide_eq_false_iff_not]
  omega

/-- A token can be compared with `compare_digest`. -/
theorem Token.ascii (token : Token) : token.text.all (fun c => c.val < 0x80) = true := by
  refine List.all_eq_true.mpr fun c hc => ?_
  have hchar := token.chars c hc
  simp only [Publication.isTokenChar, Bool.or_eq_true, Bool.and_eq_true, decide_eq_true_eq] at hchar
  have hminus : c = 0x2d ↔ c.val = 0x2d := Fin.ext_iff
  have hunder : c = 0x5f ↔ c.val = 0x5f := Fin.ext_iff
  rw [hminus, hunder] at hchar
  rw [decide_eq_true_eq]
  omega

/-- What `_read_csrf_token` answers is a token. -/
theorem token_of_readCsrfToken {uid : Nat} {file : Publication.TokenFile} {text : PyStr}
    (h : Publication.readCsrfToken uid file = .ok text) : ∃ token : Token, token.text = text := by
  cases file with
  | missing => contradiction
  | osError => contradiction
  | found isRegular mode owner size content =>
      rw [Publication.readCsrfToken] at h
      split at h
      · contradiction
      split at h
      · contradiction
      cases hdecoded : content.bind Utf8.decodeAscii with
      | none => simp only [hdecoded] at h; contradiction
      | some decoded =>
          simp only [hdecoded] at h
          split at h
          · contradiction
          · next hchecks =>
              rw [Except.ok.injEq] at h
              simp only [Bool.or_eq_true, not_or, List.any_eq_true, not_exists] at hchecks
              refine ⟨⟨text, fun c hc => ?_⟩, rfl⟩
              rw [← h] at hc
              simpa [hc] using hchecks.2 c

theorem encodable_flatten {l : List PyStr} (h : ∀ s ∈ l, s.Encodable) :
    PyStr.Encodable l.flatten := by
  intro c hc
  obtain ⟨s, hs, hc⟩ := List.mem_flatten.mp hc
  exact h s hs c hc

theorem encodable_choice {n : Network} (h : Printable n) : (PageData.choice n).Encodable := by
  have hsignal : (ofInt n.signal).Encodable :=
    forall_mem_ofInt (by decide) (fun d hd => by
      have hval := digitChar_val hd
      rw [CodePoint.isSurrogate, Bool.and_eq_false_iff, decide_eq_false_iff_not]
      omega) n.signal
  have hssid := Html.encodable_escape h.1
  have hsecurity : (if n.security.isEmpty then lit "オープン" else n.security).Encodable := by
    split
    · exact encodable_lit _
    · exact h.2
  have hdetails := Html.encodable_escape
    ((((encodable_lit "電波 ").append hsignal).append (encodable_lit "% — ")).append hsecurity)
  exact (((((encodable_lit _).append (((encodable_lit _).append hssid).append
    (encodable_lit _))).append (encodable_lit _)).append (((encodable_lit _).append hssid).append
    (encodable_lit _))).append (((encodable_lit _).append hdetails).append
    (encodable_lit _))).append (encodable_lit _)

/-- The options can be encoded, also where no network was found. -/
theorem encodable_networkList {d : PageData} (h : ∀ n ∈ d.scan, Printable n) :
    d.networkList.Encodable := by
  rw [PageData.networkList]
  split
  · exact encodable_lit _
  split
  · refine encodable_flatten fun s hs => ?_
    obtain ⟨n, hn, rfl⟩ := List.mem_map.mp hs
    refine encodable_choice (h n ?_)
    rw [PageData.networks] at hn
    split at hn
    · contradiction
    · exact hn
  · exact encodable_lit _

/-- The page can be encoded if its message, its token and its networks can. -/
theorem encodable_document {d : PageData} (hmessage : d.message.Encodable)
    (htoken : d.token.Encodable) (hscan : ∀ n ∈ d.scan, Printable n) : d.document.Encodable := by
  have hstatus : d.status.Encodable := by
    rw [PageData.status]
    refine PyStr.Encodable.append ?_ ?_
    · split
      · exact encodable_lit _
      · exact encodable_lit _
    · split
      · exact List.forall_mem_nil _
      · exact encodable_lit _
  have halert : d.alert.Encodable := by
    rw [PageData.alert]
    split
    · exact List.forall_mem_nil _
    · refine ((((encodable_lit _).append ?_).append (encodable_lit _)).append
        (Html.encodable_escape hmessage)).append (encodable_lit _)
      split
      · exact encodable_lit _
      · exact encodable_lit _
  have hdisabled : d.submitDisabled.Encodable := by
    rw [PageData.submitDisabled]
    split
    · exact encodable_lit _
    · exact List.forall_mem_nil _
  have hlabel : d.submitLabel.Encodable := by
    rw [PageData.submitLabel]
    split
    · exact encodable_lit _
    · exact encodable_lit _
  have hnote : d.persistenceNote.Encodable := by
    rw [PageData.persistenceNote]
    split
    · exact encodable_lit _
    · exact encodable_lit _
  have hhead : PageData.head.Encodable := (encodable_lit _).append (encodable_lit _)
  have hpassword : PageData.passwordField.Encodable := (encodable_lit _).append (encodable_lit _)
  have hform : PageData.formStart.Encodable := encodable_lit _
  have hlist : PageData.listStart.Encodable := encodable_lit _
  have hrescan : PageData.rescanForm.Encodable := encodable_lit _
  have hfoot : PageData.foot.Encodable := encodable_lit _
  have hfront := (((((hhead.append (Html.encodable_escape hstatus)).append
    (encodable_lit "</p>")).append halert).append hform).append
    (Html.encodable_escape htoken)).append hlist
  exact ((((((((hfront.append (encodable_networkList hscan)).append hpassword).append
    hdisabled).append (encodable_lit ">")).append hlabel).append hrescan).append hnote).append
    hfoot)

/-- A page is rendered when the storage can be looked at. -/
theorem renderPage_ok {W : Answers} {ready : Bool} (hready : W.storage.ready W.uid = .ok ready)
    {message : PyStr} (hmessage : message.Encodable) (success : Bool) :
    ∃ body, renderPage W message success = .ok body := by
  obtain ⟨networks, hscan, hprintable⟩ := printable_scan W
  rw [renderPage, hready]
  cases success with
  | true =>
      simp only [if_true]
      exact ⟨_, encodeUtf8_eq (encodable_document hmessage W.token.encodable
        (List.forall_mem_nil _))⟩
  | false =>
      simp only [Bool.false_eq_true, if_false, hscan]
      exact ⟨_, encodeUtf8_eq (encodable_document hmessage W.token.encodable hprintable)⟩

/-- The page is not made where the storage status cannot be looked at. -/
theorem renderPage_error {W : Answers} {e : PyExc} (h : W.storage.ready W.uid = .error e)
    (message : PyStr) (success : Bool) : renderPage W message success = .error e := by
  rw [renderPage, h]

/-! ## which forms are read -/

/-- The target is `/connect`. -/
def IsConnect (W : Answers) (r : Request) : Prop :=
  ∃ target, Url.urlsplit W.url r.target = .ok target ∧
    target.path = lit "/connect" ∧ target.query = [] ∧ target.fragment = []

/-- The request comes from the setup page. -/
def SameOrigin (D : UrlData) (headers : Headers) : Prop :=
  headers.get D (lit "origin") = some (lit "http://127.0.0.1:8787") ∨
    (headers.get D (lit "origin") = none ∧
      headers.get D (lit "host") = some (lit "127.0.0.1:8787") ∧
      headers.get D (lit "sec-fetch-site") = some (lit "same-origin"))

/-- A request that posts these fields. -/
structure Posted (W : Answers) (r : Request) (form : List (PyStr × PyStr)) : Prop where
  target : IsConnect W r
  origin : SameOrigin W.url r.headers
  contentType : r.headers.contentType W.url = lit "application/x-www-form-urlencoded"
  body : ∃ n : Nat,
    toInt W.url.toUnicodeData ((r.headers.get W.url (lit "content-length")).getD []) =
        .ok (n : Int) ∧
      1 ≤ n ∧ n ≤ 8192 ∧ n ≤ r.body.length ∧
      ∃ qs, Utf8.decodeStrict (r.body.take n) = some qs ∧ parseQsl 4 qs = .ok form

/-- A genuine form: one that was posted, with the token and a credential that
can be used. -/
def Genuine (W : Answers) (r : Request) (c : Credential) : Prop :=
  ∃ form, Posted W r form ∧ formValues form (lit "csrf") = [W.token.text] ∧
    formValues form (lit "ssid") = [c.ssid] ∧ formValues form (lit "password") = [c.password] ∧
    validateCredentials c.ssid c.password = .ok none

/-- The check of the three headers is the comparison of origins. -/
theorem allowedBrowserOrigin_iff (D : UrlData) (headers : Headers) :
    allowedBrowserOrigin D headers = true ↔ SameOrigin D headers := by
  rw [allowedBrowserOrigin, SameOrigin]
  cases headers.get D (lit "origin") with
  | none => simp
  | some origin => simp

/-- How `do_POST` leaves before it has a form. -/
inductive FormExit (W : Answers) (r : Request) : Exit → Prop where
  | raised {e : PyExc} (h : Url.urlsplit W.url r.target = .error e) :
      FormExit W r (.raised (.python e))
  | redirectHome {target : Url.SplitResult} (htarget : Url.urlsplit W.url r.target = .ok target)
      (h : ¬ IsConnect W r) : FormExit W r .redirectHome
  | rejected {reason message : String} {statusCode : Nat} (h : IsConnect W r)
      (hform : ∀ form, ¬ Posted W r form) : FormExit W r (.rejected reason message statusCode)

/-- A body is read only if the header is a number between 1 and 8192. -/
theorem contentLength_bounds {D : UrlData} {headers : Headers}
    (h : ¬ (contentLength D headers < 1 ∨ maxRequestBytes < contentLength D headers)) :
    ∃ n : Nat,
      toInt D.toUnicodeData ((headers.get D (lit "content-length")).getD []) = .ok (n : Int) ∧
      1 ≤ n ∧ n ≤ 8192 := by
  rw [contentLength] at h
  cases hn : toInt D.toUnicodeData ((headers.get D (lit "content-length")).getD []) with
  | error e =>
      simp only [hn] at h
      omega
  | ok n =>
      simp only [hn, maxRequestBytes] at h
      refine ⟨n.toNat, ?_, by omega, by omega⟩
      rw [Int.toNat_of_nonneg (by omega)]

/-- What `do_POST` does before it has a form. -/
theorem postForm_cases (W : Answers) (r : Request) :
    (∃ form, postForm W r = .ok form ∧ ∀ form', Posted W r form' ↔ form' = form) ∨
      ∃ exit, postForm W r = .error exit ∧ FormExit W r exit := by
  rw [postForm]
  cases htarget : Url.urlsplit W.url r.target with
  | error e => exact Or.inr ⟨_, rfl, .raised htarget⟩
  | ok target =>
      simp only
      by_cases hpath : target.path ≠ lit "/connect" ∨ target.query ≠ [] ∨ target.fragment ≠ []
      · rw [if_pos hpath]
        refine Or.inr ⟨_, rfl, .redirectHome htarget ?_⟩
        rintro ⟨target', htarget', hconnect⟩
        rw [htarget, Except.ok.injEq] at htarget'
        rw [htarget'] at hpath
        simp [hconnect] at hpath
      rw [if_neg hpath]
      have hconnect : IsConnect W r := by
        simp only [not_or, not_not] at hpath
        exact ⟨target, htarget, hpath⟩
      cases horigin : allowedBrowserOrigin W.url r.headers with
      | false =>
          rw [if_pos rfl]
          refine Or.inr ⟨_, rfl, .rejected hconnect fun form hform => ?_⟩
          rw [(allowedBrowserOrigin_iff _ _).mpr hform.origin] at horigin
          contradiction
      | true =>
          have hsame := (allowedBrowserOrigin_iff _ _).mp horigin
          rw [if_neg (by decide)]
          by_cases htype : r.headers.contentType W.url ≠ lit "application/x-www-form-urlencoded"
          · rw [if_pos htype]
            exact Or.inr ⟨_, rfl, .rejected hconnect fun form hform => htype hform.contentType⟩
          rw [if_neg htype]
          rw [not_not] at htype
          by_cases hlength : contentLength W.url r.headers < 1 ∨
              maxRequestBytes < contentLength W.url r.headers
          · rw [if_pos hlength]
            refine Or.inr ⟨_, rfl, .rejected hconnect fun form hform => ?_⟩
            obtain ⟨n, hn, hpos, hmax, -⟩ := hform.body
            rw [contentLength, hn] at hlength
            simp only [maxRequestBytes] at hlength
            omega
          rw [if_neg hlength]
          obtain ⟨n, hn, hpos, hmax⟩ := contentLength_bounds hlength
          rw [contentLength, hn]
          simp only [Int.toNat_natCast]
          -- The length and the bytes of a form are the ones just read.
          have hsameBody : ∀ form, Posted W r form → n ≤ r.body.length ∧
              ∃ qs, Utf8.decodeStrict (r.body.take n) = some qs ∧ parseQsl 4 qs = .ok form := by
            intro form hform
            obtain ⟨n', hn', -, -, hread⟩ := hform.body
            rw [hn, Except.ok.injEq, Nat.cast_inj] at hn'
            rwa [hn']
          by_cases hread : n ≤ r.body.length
          · have hlen : (r.body.take n).length = n := by simp [hread]
            rw [Request.read, if_pos hread]
            simp only [hlen, ne_eq, not_true_eq_false, if_false]
            cases hdecode : Utf8.decodeStrict (r.body.take n) with
            | none =>
                refine Or.inr ⟨_, rfl, .rejected hconnect fun form hform => ?_⟩
                obtain ⟨-, qs, hqs, -⟩ := hsameBody form hform
                rw [hdecode] at hqs
                contradiction
            | some qs =>
                simp only
                cases hparse : parseQsl 4 qs with
                | error e =>
                    refine Or.inr ⟨_, rfl, .rejected hconnect fun form hform => ?_⟩
                    obtain ⟨-, qs', hqs, hform⟩ := hsameBody form hform
                    rw [hdecode, Option.some.injEq] at hqs
                    rw [← hqs, hparse] at hform
                    contradiction
                | ok form =>
                    refine Or.inl ⟨form, rfl, fun form' => ⟨fun hform => ?_, ?_⟩⟩
                    · obtain ⟨-, qs', hqs, hform⟩ := hsameBody form' hform
                      rw [hdecode, Option.some.injEq] at hqs
                      rw [← hqs, hparse, Except.ok.injEq] at hform
                      exact hform.symm
                    · rintro rfl
                      exact ⟨hconnect, hsame, htype, n, hn, hpos, hmax, hread, qs, hdecode, hparse⟩
          · have hnone : ∀ form, ¬ Posted W r form := fun form hform =>
              hread (hsameBody form hform).1
            rw [Request.read, if_neg hread]
            cases r.closed with
            | true =>
                have hlen : r.body.length ≠ n := by omega
                simp only [if_true, if_pos hlen]
                exact Or.inr ⟨_, rfl, .rejected hconnect hnone⟩
            | false => exact Or.inr ⟨_, rfl, .rejected hconnect hnone⟩

/-! ## which credentials are started -/

theorem compareDigest_token (token : Token) (text : PyStr) :
    compareDigest text token.text =
      if text.all (fun c => c.val < 0x80) then .ok (text == token.text) else .error .typeError := by
  rw [compareDigest, token.ascii, Bool.and_true]

/-- The validators answer on texts without surrogates. -/
theorem validateCredentials_total {ssid password : PyStr} (hssid : ssid.Encodable)
    (hpassword : password.Encodable) :
    ∃ result, validateCredentials ssid password = .ok result := by
  have hvalidateSsid : ∃ result, validateSsid ssid = .ok result := by
    rw [validateSsid]
    split
    · exact ⟨_, rfl⟩
    rw [encodeUtf8_eq hssid]
    simp only
    split
    · exact ⟨_, rfl⟩
    split
    · exact ⟨_, rfl⟩
    · exact ⟨_, rfl⟩
  obtain ⟨result, hresult⟩ := hvalidateSsid
  rw [validateCredentials, hresult]
  cases result with
  | some message => exact ⟨_, rfl⟩
  | none =>
      simp only
      cases validatePasswordShape password with
      | some message => exact ⟨_, rfl⟩
      | none =>
          simp only [encodeUtf8_eq hpassword]
          split
          · exact ⟨_, rfl⟩
          · exact ⟨_, rfl⟩

/-- The fields that are looked at. -/
def Fields (form : List (PyStr × PyStr)) (token ssid password : PyStr) : Prop :=
  formValues form (lit "csrf") = [token] ∧ formValues form (lit "ssid") = [ssid] ∧
    formValues form (lit "password") = [password]

/-- How `do_POST` leaves when it has a form. -/
inductive FieldsExit (form : List (PyStr × PyStr)) : Exit → Prop where
  | typeError {token ssid password : PyStr} (h : Fields form token ssid password)
      (hascii : token.all (fun c => c.val < 0x80) = false) : FieldsExit form (.raised .typeError)
  | rejected {reason message : String} {statusCode : Nat}
      (hascii : ∀ token ssid password, Fields form token ssid password →
        token.all (fun c => c.val < 0x80) = true) :
      FieldsExit form (.rejected reason message statusCode)
  | invalid {message : String}
      (hascii : ∀ token ssid password, Fields form token ssid password →
        token.all (fun c => c.val < 0x80) = true) :
      FieldsExit form (.invalid message)

/-- A credential that the form names. -/
def Names (W : Answers) (form : List (PyStr × PyStr)) (c : Credential) : Prop :=
  Fields form W.token.text c.ssid c.password ∧ validateCredentials c.ssid c.password = .ok none

/-- What `do_POST` does with the fields. -/
theorem postCredential_cases (W : Answers) {form : List (PyStr × PyStr)}
    (hform : ∀ field ∈ form, field.2.Encodable) :
    (∃ c, postCredential W form = .ok c ∧ ∀ c', Names W form c' ↔ c' = c) ∨
      (∃ exit, postCredential W form = .error exit ∧ FieldsExit form exit ∧
        ∀ c, ¬ Names W form c) := by
  rw [postCredential]
  split
  · next token ssid password htoken hssid hpassword =>
      have hfields : Fields form token ssid password := ⟨htoken, hssid, hpassword⟩
      have hsame : ∀ token' ssid' password', Fields form token' ssid' password' →
          token' = token ∧ ssid' = ssid ∧ password' = password := by
        rintro token' ssid' password' ⟨htoken', hssid', hpassword'⟩
        rw [htoken, List.singleton_inj] at htoken'
        rw [hssid, List.singleton_inj] at hssid'
        rw [hpassword, List.singleton_inj] at hpassword'
        exact ⟨htoken'.symm, hssid'.symm, hpassword'.symm⟩
      rw [compareDigest_token]
      cases hascii : token.all fun c => decide (c.val < 0x80) with
      | false =>
          rw [if_neg (by decide)]
          refine Or.inr ⟨_, rfl, .typeError hfields hascii, fun c hc => ?_⟩
          rw [← (hsame _ _ _ hc.1).1, W.token.ascii] at hascii
          contradiction
      | true =>
          rw [if_pos rfl]
          have hall : ∀ token' ssid' password', Fields form token' ssid' password' →
              token'.all (fun c => decide (c.val < 0x80)) = true := by
            intro token' ssid' password' hfields'
            rw [(hsame _ _ _ hfields').1, hascii]
          have hencodable : ∀ name value, formValues form name = [value] → value.Encodable := by
            intro name value hvalue
            exact encodable_formValues hform value (by rw [hvalue]; exact List.mem_singleton_self _)
          obtain ⟨result, hresult⟩ :=
            validateCredentials_total (hencodable _ _ hssid) (hencodable _ _ hpassword)
          by_cases heq : token = W.token.text
          · rw [beq_iff_eq.mpr heq]
            simp only [hresult]
            cases result with
            | some message =>
                refine Or.inr ⟨_, rfl, .invalid hall, fun c hc => ?_⟩
                obtain ⟨-, hssid', hpassword'⟩ := hsame _ _ _ hc.1
                have hvalid := hc.2
                rw [hssid', hpassword', hresult] at hvalid
                cases hvalid
            | none =>
                refine Or.inl ⟨⟨ssid, password⟩, rfl, fun c' => ⟨fun hc => ?_, ?_⟩⟩
                · obtain ⟨-, hssid', hpassword'⟩ := hsame _ _ _ hc.1
                  rw [← hssid', ← hpassword']
                · rintro rfl
                  rw [heq] at hfields
                  exact ⟨hfields, hresult⟩
          · rw [beq_false_of_ne heq]
            refine Or.inr ⟨_, rfl, .rejected hall, fun c hc => ?_⟩
            exact heq (hsame _ _ _ hc.1).1.symm
  · next hother =>
      have hnone : ∀ token ssid password, ¬ Fields form token ssid password :=
        fun token ssid password hfields => hother _ _ _ hfields.1 hfields.2.1 hfields.2.2
      exact Or.inr ⟨_, rfl, .rejected fun _ _ _ hfields => absurd hfields (hnone _ _ _),
        fun c hc => hnone _ _ _ hc.1⟩

/-- A genuine request, in two parts: the form it posts and what the form names. -/
theorem genuine_iff (W : Answers) (r : Request) (c : Credential) :
    Genuine W r c ↔ ∃ form, Posted W r form ∧ Names W form c := by
  constructor
  · rintro ⟨form, hposted, htoken, hssid, hpassword, hvalid⟩
    exact ⟨form, hposted, ⟨htoken, hssid, hpassword⟩, hvalid⟩
  · rintro ⟨form, hposted, ⟨htoken, hssid, hpassword⟩, hvalid⟩
    exact ⟨form, hposted, htoken, hssid, hpassword, hvalid⟩

/-- What is decoded from a body has no surrogates. -/
theorem Posted.encodable {W : Answers} {r : Request} {form : List (PyStr × PyStr)}
    (h : Posted W r form) : ∀ field ∈ form, field.2.Encodable := by
  obtain ⟨n, -, -, -, -, qs, hqs, hparse⟩ := h.body
  intro field hfield
  exact (encodable_parseQsl (Utf8.decodeStrict_sound hqs).1 hparse field hfield).2

/-! ## connections -/

/-- A handler that leaves the coordinator alone. -/
def Untouched (events : List WebEvent) : Prop :=
  (∀ c, .enqueueInteractive c ∉ events) ∧
    ∀ coord : Coordinator Credential, coordAfter coord events = coord

theorem Untouched.append {t u : List WebEvent} (ht : Untouched t) (hu : Untouched u) :
    Untouched (t ++ u) := by
  refine ⟨fun c hc => ?_, fun coord => ?_⟩
  · cases List.mem_append.mp hc with
    | inl hc => exact ht.1 c hc
    | inr hc => exact hu.1 c hc
  · have hfirst := ht.2 coord
    have hsecond := hu.2 coord
    rw [coordAfter] at hfirst hsecond ⊢
    rw [List.foldl_append, hfirst, hsecond]

theorem untouched_nil : Untouched [] := ⟨fun _ hc => absurd hc List.not_mem_nil, fun _ => rfl⟩

theorem untouched_rejected (reason : String) : Untouched [.rejected reason] :=
  ⟨by simp, fun _ => rfl⟩

theorem untouched_sent (response : Response) (complete : Bool) :
    Untouched [.sent response complete] :=
  ⟨by simp, fun _ => rfl⟩

/-- A response starts no attempt. -/
theorem reply_untouched (W : Answers) (response : Response) :
    Script.Spec (reply W response) fun _ t => Untouched t :=
  Script.Spec.bind (Q := fun _ t => Untouched t)
    (Script.Spec.enter (untouched_sent response W.socket)) fun _ _ ht =>
      Script.Spec.pure (ht.append untouched_nil)

theorem replyPage_untouched (W : Answers) (message : PyStr) (success : Bool) (statusCode : Nat) :
    Script.Spec (replyPage W message success statusCode) fun _ t => Untouched t := by
  rw [replyPage]
  cases renderPage W message success with
  | error e => exact Script.Spec.pure untouched_nil
  | ok body => exact reply_untouched W _

/-- Nor does a rejected request. -/
theorem leave_untouched (W : Answers) (exit : Exit) :
    Script.Spec (leave W exit) fun _ t => Untouched t := by
  cases exit with
  | raised e => exact Script.Spec.pure untouched_nil
  | redirectHome => exact reply_untouched W _
  | rejected reason message statusCode =>
      refine Script.Spec.bind (Q := fun _ t => Untouched t)
        (Script.Spec.enter (untouched_rejected reason)) fun _ t ht => ?_
      exact (replyPage_untouched W _ _ _).mono fun _ u hu => ht.append hu
  | invalid message => exact replyPage_untouched W _ _ _

/-- The calls of a started connection. -/
theorem startConnection_calls (W : Answers) (c : Credential) :
    Script.Spec (startConnection W c) fun _ t =>
      ∀ c', .enqueueInteractive c' ∈ t ↔ c' = c := by
  rw [startConnection]
  refine Script.Spec.bind (Q := fun _ t => t = [.enqueueInteractive c])
    (Script.Spec.enter rfl) ?_
  rintro - t rfl
  refine Script.Spec.bind (reply_untouched W _) fun answer u hu => ?_
  have hmem : ∀ v : List WebEvent, (∀ c', .enqueueInteractive c' ∉ v) → ∀ c',
      .enqueueInteractive c' ∈ [.enqueueInteractive c] ++ (u ++ v) ↔ c' = c := by
    intro v hv c'
    simp [hu.1 c', hv c']
  cases answer with
  | error e => exact Script.Spec.pure (hmem [] (by simp))
  | ok done =>
      exact Script.Spec.bind (Q := fun _ v => ∀ c', .enqueueInteractive c' ∉ v)
        (Script.Spec.enter (by simp)) fun _ v hv => Script.Spec.pure
          (by rw [List.append_nil]; exact hmem v hv)

/-- What a POST that is no genuine form does. -/
theorem doPost_cases (W : Answers) (r : Request) :
    (∃ c, doPost W r = startConnection W c ∧ ∀ c', Genuine W r c' ↔ c' = c) ∨
      ∃ exit, doPost W r = leave W exit ∧ ∀ c, ¬ Genuine W r c := by
  rw [doPost]
  rcases postForm_cases W r with ⟨form, hform, hposted⟩ | ⟨exit, hexit, hreason⟩
  · have hencodable := Posted.encodable ((hposted form).mpr rfl)
    have hgenuine : ∀ c, Genuine W r c ↔ Names W form c := by
      intro c
      rw [genuine_iff]
      simp only [hposted, exists_eq_left]
    simp only [hform, Except.bind, hgenuine]
    rcases postCredential_cases W hencodable with ⟨c, hc, hnames⟩ | ⟨exit, hexit, -, hnames⟩
    · exact Or.inl ⟨c, by rw [hc], hnames⟩
    · exact Or.inr ⟨exit, by rw [hexit], hnames⟩
  · refine Or.inr ⟨exit, by rw [hexit]; rfl, fun c hc => ?_⟩
    obtain ⟨form, hposted, -⟩ := (genuine_iff W r c).mp hc
    cases hreason with
    | raised h =>
        obtain ⟨target, htarget, -⟩ := hposted.target
        rw [h] at htarget
        contradiction
    | redirectHome _ h => exact h hposted.target
    | rejected _ h => exact h form hposted

/-- **Genuine forms**: a POST submits a credential exactly if it is the one of a
genuine form, and a POST that is none leaves the coordinator as it was. -/
theorem post_starts_iff (W : Answers) (r : Request) :
    (∀ s p : PyStr, .enqueueInteractive ⟨s, p⟩ ∈ (Script.run (doPost W r)).2 ↔
        Genuine W r ⟨s, p⟩) ∧
      ((∀ c, ¬ Genuine W r c) → ∀ coord : Coordinator Credential,
        coordAfter coord (Script.run (doPost W r)).2 = coord) := by
  rcases doPost_cases W r with ⟨c, hstart, hgenuine⟩ | ⟨exit, hleave, hgenuine⟩
  · rw [hstart]
    refine ⟨fun s p => ?_, fun hnone => absurd ((hgenuine c).mpr rfl) (hnone c)⟩
    rw [(startConnection_calls W c).run, hgenuine]
  · have huntouched : Untouched (Script.run (doPost W r)).2 := by
      rw [hleave]
      exact (leave_untouched W exit).run
    exact ⟨fun s p => iff_of_false (huntouched.1 _) (hgenuine _), fun _ => huntouched.2⟩

/-- A backend whose storage is ready. -/
def idleAnswers : Answers where
  url := .ascii
  uid := 0
  token := ⟨List.replicate 43 0x61, fun c hc => by rw [List.eq_of_mem_replicate hc]; rfl⟩
  connectState := .idle
  stateMessage := ""
  failure := none
  stillConnected := false
  connected := false
  storage := ⟨some true, some ⟨true, false, 0o644, 0⟩, some ⟨false, true, 0o700, 0⟩, some false,
    .text (lit "ready")⟩
  scanOutput := none
  started := true
  socket := true

/-- A form from the setup page. -/
def formRequest (body : PyStr) : Request where
  target := lit "/connect"
  headers := [(lit "Origin", lit "http://127.0.0.1:8787"),
    (lit "Content-Type", lit "application/x-www-form-urlencoded"),
    (lit "Content-Length", ofNat body.length)]
  body := Utf8.asciiBytes body
  closed := true

theorem genuine_form_starts :
    .enqueueInteractive ⟨lit "n", []⟩ ∈ (Script.run (doPost idleAnswers
      (formRequest (lit "csrf=" ++ List.replicate 43 0x61 ++ lit "&ssid=n&password=")))).2 := by
  refine ((post_starts_iff _ _).1 _ _).mpr ⟨[(lit "csrf", List.replicate 43 0x61),
    (lit "ssid", lit "n"), (lit "password", [])], ?_, by decide, by decide,
    by decide, by decide⟩
  refine ⟨⟨⟨[], [], lit "/connect", [], []⟩, by decide, rfl, rfl, rfl⟩,
    Or.inl (by decide), by decide, 65, by decide, by decide, by decide,
    by decide, lit "csrf=" ++ List.replicate 43 0x61 ++ lit "&ssid=n&password=",
    by decide, by decide⟩

/-! ## every request is answered -/

/-- The responses that were written, or begun. -/
def sents : List WebEvent → List (Response × Bool)
  | [] => []
  | .sent response complete :: rest => (response, complete) :: sents rest
  | _ :: rest => sents rest

/-- One response was written, and the handler ends without an exception; or the
socket failed while it was written. -/
def Answered (result : Except WebExc Unit) (events : List WebEvent) : Prop :=
  ∃ response, (sents events = [(response, true)] ∧ result = .ok ()) ∨
    (sents events = [(response, false)] ∧ result = .error .socket)

/-- An exception left the handler. -/
def Raised (result : Except WebExc Unit) (_ : List WebEvent) : Prop :=
  ∃ e, result = .error e ∧ e ≠ .socket

/-- An exception leaves the request without a response. -/
theorem Raised.not_answered {result : Except WebExc Unit} {events : List WebEvent}
    (h : Raised result events) : ¬ Answered result events := by
  obtain ⟨e, rfl, he⟩ := h
  rintro ⟨response, ⟨-, hok⟩ | ⟨-, hsocket⟩⟩
  · contradiction
  · exact he (Except.error.inj hsocket)

/-- The responses among the events, part by part. -/
theorem sents_append (t u : List WebEvent) : sents (t ++ u) = sents t ++ sents u := by
  induction t with
  | nil => rfl
  | cons e t ih =>
      cases e with
      | sent response complete => exact congrArg ((response, complete) :: ·) ih
      | _ => exact ih

/-- An event that is no response changes nothing. -/
theorem Answered.cons {result : Except WebExc Unit} {events : List WebEvent} {e : WebEvent}
    (he : sents [e] = []) (h : Answered result events) : Answered result (e :: events) := by
  have hsents : sents (e :: events) = sents events := by
    cases e with
    | sent response complete => contradiction
    | _ => rfl
  rw [Answered, hsents]
  exact h

/-- A call that writes nothing. -/
theorem enter_answered {e : WebEvent} {p : Handler} (he : sents [e] = [])
    (h : Script.Spec p Answered) : Script.Spec (Script.enter e >>= fun _ => p) Answered := by
  refine Script.Spec.bind (Q := fun _ t => t = [e]) (Script.Spec.enter rfl) ?_
  rintro - t rfl
  exact h.mono fun _ _ ht => ht.cons he

/-- What happens before the exception does not matter. -/
theorem enter_raised {e : WebEvent} {p : Handler} (h : Script.Spec p Raised) :
    Script.Spec (Script.enter e >>= fun _ => p) Raised := by
  refine Script.Spec.bind (Q := fun _ t => t = [e]) (Script.Spec.enter rfl) ?_
  rintro - t rfl
  exact h.mono fun _ _ ht => ht

/-- One response is sent, or the socket is gone. -/
theorem reply_answered (W : Answers) (response : Response) :
    Script.Spec (reply W response) Answered := by
  refine Script.Spec.bind (Q := fun _ t => t = [.sent response W.socket])
    (Script.Spec.enter rfl) ?_
  rintro - t rfl
  refine Script.Spec.pure ⟨response, ?_⟩
  cases hsocket : W.socket with
  | true => exact Or.inl ⟨rfl, rfl⟩
  | false => exact Or.inr ⟨rfl, rfl⟩

/-- An exception other than that of the socket escapes. -/
theorem raise_raised {e : WebExc} (he : e ≠ .socket) :
    Script.Spec (Pure.pure (.error e) : Handler) Raised :=
  Script.Spec.pure ⟨e, rfl, he⟩

/-- The storage can be looked at: its status file is UTF-8 where it is read. -/
def StorageReadable (W : Answers) : Prop := ∃ ready, W.storage.ready W.uid = .ok ready

/-- A page is sent where the storage status can be read. -/
theorem replyPage_answered {W : Answers} (h : StorageReadable W) {message : PyStr}
    (hmessage : message.Encodable) (success : Bool) (statusCode : Nat) :
    Script.Spec (replyPage W message success statusCode) Answered := by
  obtain ⟨ready, hready⟩ := h
  obtain ⟨body, hbody⟩ := renderPage_ok hready hmessage success
  rw [replyPage, hbody]
  exact reply_answered W _

/-- It is not where the storage status cannot be read. -/
theorem replyPage_raised {W : Answers} (h : ¬ StorageReadable W) (message : PyStr)
    (success : Bool) (statusCode : Nat) :
    Script.Spec (replyPage W message success statusCode) Raised := by
  cases hready : W.storage.ready W.uid with
  | ok ready => exact absurd ⟨ready, hready⟩ h
  | error e =>
      rw [replyPage, renderPage_error hready]
      exact raise_raised (by simp)

/-- The status is always sent. -/
theorem replyStatus_answered (W : Answers) : Script.Spec (replyStatus W) Answered := by
  have hname : (stateName W.connectState).Encodable := by
    cases W.connectState with
    | _ => exact encodable_lit _
  have htext : (statusText W).Encodable :=
    ((((encodable_lit _).append (encodable_jsonString hname)).append (encodable_lit _)).append
      (encodable_jsonString (encodable_lit _))).append (encodable_lit _)
  rw [replyStatus]
  refine enter_answered rfl ?_
  rw [encodeUtf8_eq htext]
  exact reply_answered W _

/-- The handler shows the setup page. -/
def GetsPage (W : Answers) (target : Url.SplitResult) : Prop :=
  (target.path = lit "/" ∨ target.path = lit "/rescan") ∧ W.connectState ≠ .connecting

/-- The page is asked for only while no attempt is running. -/
theorem getPage_answered {W : Answers} (h : W.connectState ≠ .connecting → StorageReadable W) :
    Script.Spec (getPage W) Answered := by
  have hnil : PyStr.Encodable [] := List.forall_mem_nil _
  rw [getPage]
  cases hstate : W.connectState with
  | connecting => exact reply_answered W _
  | failed =>
      exact enter_answered rfl
        (replyPage_answered (h (by rw [hstate]; decide)) (encodable_lit _) false 200)
  | succeeded =>
      have hstorage := h (by rw [hstate]; decide)
      simp only
      split
      · exact replyPage_answered hstorage (encodable_lit _) true 200
      · exact enter_answered rfl (replyPage_answered hstorage hnil false 200)
  | idle => exact replyPage_answered (h (by rw [hstate]; decide)) hnil false 200

/-- Then an unreadable storage status is an exception. -/
theorem getPage_raised {W : Answers} (hstate : W.connectState ≠ .connecting)
    (h : ¬ StorageReadable W) : Script.Spec (getPage W) Raised := by
  rw [getPage]
  cases hcase : W.connectState with
  | connecting => exact absurd hcase hstate
  | failed => exact enter_raised (replyPage_raised h _ _ _)
  | succeeded =>
      simp only
      split
      · exact replyPage_raised h _ _ _
      · exact enter_raised (replyPage_raised h _ _ _)
  | idle => exact replyPage_raised h _ _ _

/-- A rejected request gets its page, if the page can be made. -/
theorem leave_answered {W : Answers} {exit : Exit} (hraised : ∀ e, exit ≠ .raised e)
    (h : exit ≠ .redirectHome → StorageReadable W) : Script.Spec (leave W exit) Answered := by
  cases exit with
  | raised e => exact absurd rfl (hraised e)
  | redirectHome => exact reply_answered W _
  | rejected reason message statusCode =>
      exact enter_answered rfl (replyPage_answered (h (by simp)) (encodable_lit _) _ _)
  | invalid message => exact replyPage_answered (h (by simp)) (encodable_lit _) _ _

/-- Without the page a rejected request gets nothing. -/
theorem leave_raised {W : Answers} {exit : Exit} (hhome : exit ≠ .redirectHome)
    (hsocket : exit ≠ .raised .socket) (h : ¬ StorageReadable W) :
    Script.Spec (leave W exit) Raised := by
  cases exit with
  | raised e => exact raise_raised fun he => hsocket (by rw [he])
  | redirectHome => exact absurd rfl hhome
  | rejected reason message statusCode => exact enter_raised (replyPage_raised h _ _ _)
  | invalid message => exact replyPage_raised h _ _ _

/-- An accepted request is answered before its attempt begins. -/
theorem startConnection_answered (W : Answers) (c : Credential) :
    Script.Spec (startConnection W c) Answered := by
  refine enter_answered rfl ?_
  refine Script.Spec.bind (reply_answered W _) fun answer u hu => ?_
  cases answer with
  | error e =>
      refine Script.Spec.pure ?_
      rwa [List.append_nil]
  | ok done =>
      refine Script.Spec.bind (Q := fun _ v => v = [.startQueued]) (Script.Spec.enter rfl) ?_
      rintro - v rfl
      refine Script.Spec.pure ?_
      have hsents : sents (u ++ [.startQueued]) = sents u := by
        rw [sents_append]
        exact List.append_nil _
      rw [List.append_nil, Answered, hsents]
      exact hu

/-! ### which requests -/

/-- The tokens that are compared are ASCII. -/
def TokensAscii (W : Answers) (r : Request) : Prop :=
  ∀ form, Posted W r form → ∀ token ssid password, Fields form token ssid password →
    token.all (fun c => c.val < 0x80) = true

/-- A request that can be answered. -/
def Answerable (W : Answers) (r : Request) : Method → Prop
  | .get => ∃ target, Url.urlsplit W.url r.target = .ok target ∧
      (GetsPage W target → StorageReadable W)
  | .post => (∃ target, Url.urlsplit W.url r.target = .ok target) ∧ TokensAscii W r ∧
      (IsConnect W r → (∀ c, ¬ Genuine W r c) → StorageReadable W)

/-- A specification settles whether the request is answered. -/
theorem answered_iff_of_spec {p : Handler} {φ : Prop} (hyes : φ → Script.Spec p Answered)
    (hno : ¬ φ → Script.Spec p Raised) : Answered (Script.run p).1 (Script.run p).2 ↔ φ := by
  constructor
  · intro hanswered
    by_contra hφ
    exact (hno hφ).run.not_answered hanswered
  · exact fun hφ => (hyes hφ).run

/-- Every GET, route by route. -/
theorem doGet_answered_iff (W : Answers) (r : Request) :
    Answered (Script.run (doGet W r)).1 (Script.run (doGet W r)).2 ↔ Answerable W r .get := by
  refine answered_iff_of_spec (fun h => ?_) fun h => ?_
  · obtain ⟨target, htarget, hpage⟩ := h
    rw [doGet, htarget]
    simp only
    split
    · exact replyStatus_answered W
    split
    · exact reply_answered W _
    · next hother =>
        have hpath : target.path = lit "/" ∨ target.path = lit "/rescan" := by
          by_contra hneither
          exact hother (not_or.mp hneither)
        exact enter_answered rfl (getPage_answered fun hstate => hpage ⟨hpath, hstate⟩)
  · rw [doGet]
    cases htarget : Url.urlsplit W.url r.target with
    | error e => exact raise_raised (by simp)
    | ok target =>
        have hpage : GetsPage W target ∧ ¬ StorageReadable W := by
          by_contra hnot
          exact h ⟨target, htarget, fun hgets => by_contra fun hstorage => hnot ⟨hgets, hstorage⟩⟩
        obtain ⟨⟨hpath, hstate⟩, hstorage⟩ := hpage
        have hstatus : target.path ≠ lit "/status.json" := by
          rcases hpath with hpath | hpath
          · rw [hpath]; decide
          · rw [hpath]; decide
        have hhome : ¬ (target.path ≠ lit "/" ∧ target.path ≠ lit "/rescan") :=
          fun hneither => hpath.elim hneither.1 hneither.2
        simp only [if_neg hstatus, if_neg hhome]
        exact enter_raised (getPage_raised hstate hstorage)

/-- Every POST, check by check. -/
theorem doPost_answered_iff (W : Answers) (r : Request) :
    Answered (Script.run (doPost W r)).1 (Script.run (doPost W r)).2 ↔ Answerable W r .post := by
  rw [Answerable, doPost]
  rcases postForm_cases W r with ⟨form, hform, hposted⟩ | ⟨exit, hexit, hreason⟩
  · have hself : Posted W r form := (hposted form).mpr rfl
    have htarget : ∃ target, Url.urlsplit W.url r.target = .ok target := by
      obtain ⟨target, htarget, -⟩ := hself.target
      exact ⟨target, htarget⟩
    have hgenuine : ∀ c, Genuine W r c ↔ Names W form c := by
      intro c
      rw [genuine_iff]
      simp only [hposted, exists_eq_left]
    have htokens : TokensAscii W r ↔ ∀ token ssid password, Fields form token ssid password →
        token.all (fun c => c.val < 0x80) = true := by
      rw [TokensAscii]
      simp only [hposted, forall_eq]
    simp only [hform, Except.bind, hgenuine, htokens, htarget, hself.target, true_and,
      forall_true_left]
    rcases postCredential_cases W hself.encodable with
      ⟨c, hc, hnames⟩ | ⟨exit, hexit, hreason, hnames⟩
    · rw [hc]
      have hfields := ((hnames c).mpr rfl).1
      refine iff_of_true (startConnection_answered W c).run ⟨?_, fun hnone => ?_⟩
      · intro token ssid password hfields'
        have htoken : token = W.token.text :=
          List.singleton_inj.mp (hfields'.1.symm.trans hfields.1)
        rw [htoken]
        exact W.token.ascii
      · exact absurd ((hnames c).mpr rfl) (hnone c)
    · rw [hexit]
      cases hreason with
      | typeError h hascii =>
          refine iff_of_false (raise_raised (by simp)).run.not_answered fun hcond => ?_
          rw [hcond.1 _ _ _ h] at hascii
          contradiction
      | rejected hascii =>
          refine answered_iff_of_spec (fun hcond => ?_) fun hcond => ?_
          · exact leave_answered (by simp) fun _ => hcond.2 hnames
          · exact leave_raised (by simp) (by simp) fun hstorage => hcond ⟨hascii, fun _ => hstorage⟩
      | invalid hascii =>
          refine answered_iff_of_spec (fun hcond => ?_) fun hcond => ?_
          · exact leave_answered (by simp) fun _ => hcond.2 hnames
          · exact leave_raised (by simp) (by simp) fun hstorage => hcond ⟨hascii, fun _ => hstorage⟩
  · rw [hexit]
    cases hreason with
    | raised h =>
        refine iff_of_false (raise_raised (by simp)).run.not_answered ?_
        rintro ⟨⟨target, htarget⟩, -⟩
        rw [h] at htarget
        contradiction
    | redirectHome htarget hnot =>
        have hnone : TokensAscii W r := fun form hform => absurd hform.target hnot
        exact iff_of_true (reply_answered W _).run
          ⟨⟨_, htarget⟩, hnone, fun hconnect => absurd hconnect hnot⟩
    | rejected hconnect hform =>
        have htarget : ∃ target, Url.urlsplit W.url r.target = .ok target := by
          obtain ⟨target, htarget, -⟩ := hconnect
          exact ⟨target, htarget⟩
        have hnone : TokensAscii W r := fun form hposted => absurd hposted (hform form)
        have hgenuine : ∀ c, ¬ Genuine W r c := by
          rintro c ⟨form, hposted, -⟩
          exact hform form hposted
        refine answered_iff_of_spec (fun hcond => ?_) fun hcond => ?_
        · exact leave_answered (by simp) fun _ => hcond.2.2 hconnect hgenuine
        · exact leave_raised (by simp) (by simp) fun hstorage =>
            hcond ⟨htarget, hnone, fun _ _ => hstorage⟩

/-- **Every request is answered** exactly if `urlsplit` accepts its target, the
token it posts is ASCII where it is compared, and the storage can be looked at
where a page is rendered. -/
theorem answered_iff (W : Answers) (method : Method) (r : Request) :
    Answered (Script.run (handle W method r)).1 (Script.run (handle W method r)).2 ↔
      Answerable W r method := by
  cases method with
  | get => exact doGet_answered_iff W r
  | post => exact doPost_answered_iff W r

/-- An address with an open bracket, and a token that is not ASCII. -/
theorem request_unanswered :
    ¬ Answered (Script.run (handle idleAnswers .get ⟨lit "http://[/", [], [], true⟩)).1
        (Script.run (handle idleAnswers .get ⟨lit "http://[/", [], [], true⟩)).2 ∧
      ¬ Answered (Script.run (handle idleAnswers .post (formRequest (lit "csrf=%C3%A9")))).1
        (Script.run (handle idleAnswers .post (formRequest (lit "csrf=%C3%A9")))).2 := by
  have hget : (Script.run (handle idleAnswers .get ⟨lit "http://[/", [], [], true⟩)).1 =
      .error (.python .valueError) := by decide
  have hpost : (Script.run (handle idleAnswers .post (formRequest (lit "csrf=%C3%A9")))).1 =
      .error .typeError := by decide
  rw [hget, hpost]
  exact ⟨Raised.not_answered ⟨_, rfl, by simp⟩, Raised.not_answered ⟨_, rfl, by simp⟩⟩

end Web

end SushidaOs
