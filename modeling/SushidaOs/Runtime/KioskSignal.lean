import Mathlib.Data.List.TakeWhile
import SushidaOs.Decimal
import SushidaOs.Shell
import SushidaOs.WordSearch

/-!
# SushidaOs.Runtime.KioskSignal

The restart signal for the kiosk, which exists twice: the helper
`sushida-kiosk-signal` (`kioskSignal`) and the function `restart_kiosk` of
`sushida_os/runtime/kiosk_signal.py` (`restartKiosk`).

Both send SIGTERM to the main process of the service after the same chain of
checks; each has its own way to read the process number and to search the
cgroup file.  `restartKiosk_sends_iff` and `target_eq_some_iff` say what each
of them looks for, `twins_agree_iff` when that is the same.
-/

namespace SushidaOs

open PyStr

namespace KioskSignal

/-! ## surroundings -/

/-- An entry of `/proc`; `cgroup` is `none` for a file that cannot be read. -/
structure Process where
  uid : Nat
  cgroup : Option (List UInt8)
  deriving DecidableEq, Repr

/-- `str(pid)` in bytes. -/
def decimalBytes (pid : Nat) : List UInt8 := Utf8.asciiBytes (ofNat pid)

/-- The number written in ASCII digits. -/
def decimalValue (s : List UInt8) : Nat := s.foldl (fun n b => 10 * n + (b.toNat - 0x30)) 0

/-- What the two programs find: the results of `systemctl`, the processes, the
own user, and a cgroup file given for tests (with `SUSHIDA_OS_TEST_MODE`). -/
structure Surroundings where
  isActive : Nat
  mainPid : Completed
  process : Nat → Option Process
  euid : Nat
  testCgroup : Option (Option (List UInt8))
  pid_lt : ∀ pid p, process pid = some p → pid < 2 ^ 31

/-- The entry `/proc/name`: the names are the numbers as `str` writes them. -/
def Surroundings.procEntry (w : Surroundings) (name : List UInt8) : Option Process :=
  if name == decimalBytes (decimalValue name) then w.process (decimalValue name) else none

/-- The content of the cgroup file. -/
def Surroundings.cgroupFile (w : Surroundings) (p : Process) : Option (List UInt8) :=
  match w.testCgroup with
  | some file => file
  | none => p.cgroup

/-- `KIOSK_SERVICE`. -/
def kioskService : PyStr := lit "sushida-kiosk.service"

/-! ## the function -/

/-- `s.isdigit()`; `isDigit` is the database beyond ASCII. -/
def strIsDigit (isDigit : CodePoint → Bool) (s : PyStr) : Bool :=
  !s.isEmpty && s.all fun c => if c.val < 0x80 then c.asciiDigit.isSome else isDigit c

/-- Text mode with `errors="replace"`. -/
def readReplace (bytes : List UInt8) : PyStr := universalNewlines (Utf8.decodeReplace bytes)

/-- `re.search(r"(^|/)sushida-kiosk\.service($|/)", cgroup, re.MULTILINE)`. -/
def searchService (cgroup : PyStr) : Bool :=
  searchWord (fun c => c == 0x2f || c == 0x0a) kioskService true cgroup

/-- The checks of `restart_kiosk` on the number: the process that is
signalled. -/
def signalPid (w : Surroundings) (pid : Int) : Option Nat :=
  if pid ≤ 1 then none
  else match w.procEntry (Utf8.asciiBytes (ofInt pid)) with
    | none => none
    | some p =>
        if p.uid ≠ w.euid then none
        else match w.cgroupFile p with
          | none => none
          | some cgroup => if searchService (readReplace cgroup) then some pid.toNat else none

/-- `restart_kiosk`. -/
def restartKiosk (U : UnicodeData) (isDigit : CodePoint → Bool) (w : Surroundings) :
    Except PyExc (Option Nat) :=
  if w.isActive ≠ 0 then .ok none
  else if w.mainPid.status ≠ 0 then .ok none
  else
    let pidText := strip (readReplace w.mainPid.output)
    if strIsDigit isDigit pidText = false then .ok none
    else match toInt U pidText with
      | .error e => .error e
      | .ok pid => .ok (signalPid w pid)

/-! ## the helper -/

/-- The reasons of the closed set. -/
inductive Reason where
  | routeMismatch
  | blockedNavigation
  deriving DecidableEq, Repr

/-- What the helper logs. -/
inductive Action where
  | refused
  | dryRun
  | term
  deriving DecidableEq, Repr

/-- A run of the helper: exit status, the logged line, the message on standard
error, and the process that was signalled. -/
structure HelperRun where
  status : Nat
  log : Option (Reason × Action)
  message : Option ShStr
  signal : Option Nat
  deriving DecidableEq, Repr

/-- The loop over the arguments. -/
def parseArgs (reason : Option Reason) (dryRun : Bool) :
    List ShStr → Except ShStr (Option Reason × Bool)
  | [] => .ok (reason, dryRun)
  | [a] =>
      if a == Sh.lit "--reason" then .error (Sh.lit "ERROR: --reason requires a value")
      else if a == Sh.lit "--dry-run" then .ok (reason, true)
      else .error (Sh.lit "ERROR: unsupported argument")
  | a :: b :: rest =>
      if a == Sh.lit "--reason" then
        if b == Sh.lit "route-mismatch" then parseArgs (some .routeMismatch) dryRun rest
        else if b == Sh.lit "blocked-navigation" then
          parseArgs (some .blockedNavigation) dryRun rest
        else .error (Sh.lit "ERROR: unsupported reason")
      else if a == Sh.lit "--dry-run" then parseArgs reason true (b :: rest)
      else .error (Sh.lit "ERROR: unsupported argument")

/-- `case "$pid" in ''|*[!0-9]*)`. -/
def isNumber (pid : ShStr) : Bool :=
  !pid.isEmpty && pid.all fun b => 0x30 ≤ b.toNat && b.toNat ≤ 0x39

/-- `[ "$pid" -gt 1 ]`, which fails for a number that does not fit. -/
def gtOne (pid : ShStr) : Bool := 1 < decimalValue pid && decimalValue pid < 2 ^ 63

/-- `grep -Eq '(^|/)sushida-kiosk\.service($|/)'`; in a file with NULs these
end a line for `grep` as well. -/
def grepService (cgroup : List UInt8) : Bool :=
  (cgroup.splitOnP fun b => b == 0x0a || b == 0).any
    (searchWord (fun b => b == 0x2f) (Utf8.asciiBytes kioskService) true)

/-- The checks: the process to be signalled, or `refuse`. -/
def target (w : Surroundings) : Option Nat :=
  if w.isActive ≠ 0 then none
  else if w.mainPid.status ≠ 0 then none
  else
    let pid := Sh.capture w.mainPid.output
    if isNumber pid = false then none
    else if gtOne pid = false then none
    else match w.procEntry pid with
      | none => none
      | some p =>
          if p.uid ≠ w.euid then none
          else match w.cgroupFile p with
            | none => none
            | some cgroup => if grepService cgroup then some (decimalValue pid) else none

/-- `sushida-kiosk-signal`. -/
def kioskSignal (w : Surroundings) (args : List ShStr) : HelperRun :=
  match parseArgs none false args with
  | .error message => ⟨2, none, some message, none⟩
  | .ok (none, _) => ⟨2, none, some (Sh.lit "ERROR: --reason is required"), none⟩
  | .ok (some reason, dryRun) =>
      match target w with
      | none => ⟨1, some (reason, .refused), none, none⟩
      | some pid =>
          if dryRun then ⟨0, some (reason, .dryRun), none, none⟩
          else ⟨0, some (reason, .term), none, some pid⟩

/-! ## numbers -/

theorem ofNat_ascii (n : Nat) : ∀ c ∈ ofNat n, c.val < 0x80 := by
  intro c hc
  obtain ⟨d, hd, rfl⟩ := ofNat_digits hc
  rw [digitChar_val hd]
  omega

theorem decimalBytes_digits {n : Nat} {b : UInt8} (h : b ∈ decimalBytes n) :
    0x30 ≤ b.toNat ∧ b.toNat ≤ 0x39 := by
  obtain ⟨c, hc, rfl⟩ := List.mem_map.mp h
  obtain ⟨d, hd, rfl⟩ := ofNat_digits hc
  rw [digitChar_val hd, Utf8.toNat_ofNat_of_lt (by omega)]
  omega

theorem decimalBytes_ne_nil (n : Nat) : decimalBytes n ≠ [] := by
  obtain ⟨d, ds, -, hcons⟩ := ofNat_cons n
  rw [decimalBytes, hcons]
  exact List.cons_ne_nil _ _

/-- A number is read back from its digits. -/
theorem decimalValue_decimalBytes (n : Nat) : decimalValue (decimalBytes n) = n := by
  have hfold : ∀ (ds : List Nat) (m : Nat), (∀ d ∈ ds, d < 10) →
      (Utf8.asciiBytes (ds.map digitChar)).foldl (fun n b => 10 * n + (b.toNat - 0x30)) m =
        ds.foldl (fun m d => 10 * m + d) m := by
    intro ds
    induction ds with
    | nil => intro m _; rfl
    | cons d ds ih =>
        intro m hds
        have hd : d < 10 := hds d List.mem_cons_self
        have hbyte : (UInt8.ofNat (digitChar d).val).toNat - 0x30 = d := by
          rw [digitChar_val hd, Utf8.toNat_ofNat_of_lt (by omega)]
          omega
        have hrest := ih (10 * m + d) fun e he => hds e (List.mem_cons_of_mem d he)
        simp only [Utf8.asciiBytes, List.map_cons, List.foldl_cons, hbyte] at hrest ⊢
        exact hrest
  rw [decimalValue, decimalBytes, ofNat, hfold _ 0 fun d hd => lt_of_mem_decimalDigits hd,
    foldl_decimalDigits]

/-- The directory of a process is named by its number. -/
theorem procEntry_decimalBytes (w : Surroundings) (pid : Nat) :
    w.procEntry (decimalBytes pid) = w.process pid := by
  rw [Surroundings.procEntry, decimalValue_decimalBytes, if_pos (by simp)]

theorem isNumber_decimalBytes (n : Nat) : isNumber (decimalBytes n) = true := by
  rw [isNumber, Bool.and_eq_true]
  constructor
  · simpa using decimalBytes_ne_nil n
  · apply List.all_eq_true.mpr
    intro b hb
    simpa using decimalBytes_digits hb

/-! ## what is looked for -/

/-- The text of which `restart_kiosk` asks whether it is a number. -/
def pidText (output : List UInt8) : PyStr := strip (readReplace output)

/-- `restart_kiosk` reads the number. -/
def PythonReads (U : UnicodeData) (isDigit : CodePoint → Bool) (output : List UInt8)
    (pid : Nat) : Prop :=
  strIsDigit isDigit (pidText output) = true ∧ toInt U (pidText output) = .ok (pid : Int)

/-- The helper reads the number. -/
def ShellReads (output : List UInt8) (pid : Nat) : Prop := Sh.capture output = decimalBytes pid

/-- The name of the service between slashes, line ends of any kind and the ends
of the file. -/
def namedForPython (cgroup : List UInt8) : Bool :=
  searchWord (fun b => b == 0x2f || b == 0x0a || b == 0x0d) (Utf8.asciiBytes kioskService) true
    cgroup

/-- The name of the service between slashes, line feeds, NULs and the ends of
the file. -/
def namedForShell (cgroup : List UInt8) : Bool :=
  searchWord (fun b => b == 0x2f || (b == 0x0a || b == 0)) (Utf8.asciiBytes kioskService) true
    cgroup

theorem kioskService_ascii : ∀ c ∈ kioskService, c.val < 0x80 := forall_of_all (by decide)

/-- What Python finds in the decoded text it finds in the bytes. -/
theorem searchService_readReplace (cgroup : List UInt8) :
    searchService (readReplace cgroup) = namedForPython cgroup := by
  have hcr : AddsCr (fun c => c == 0x2f || c == 0x0a)
      (fun c => c == 0x2f || c == 0x0a || c == 0x0d) := ⟨by decide, fun _ => rfl⟩
  have hword : ∀ c ∈ kioskService, c ≠ 0x0a ∧ c ≠ 0x0d := forall_of_all (by decide)
  have hsame : SameAscii (fun b => b == 0x2f || b == 0x0a || b == 0x0d)
      (fun c => c == 0x2f || c == 0x0a || c == 0x0d) :=
    ((SameAscii.single (w := 0x2f) (by decide)).or (.single (w := 0x0a) (by decide))).or
      (.single (w := 0x0d) (by decide))
  rw [searchService, readReplace, searchWord_universalNewlines hcr (by decide) hword,
    searchWord_decodes hsame (by decide) kioskService_ascii
      (Utf8.decodes_decodeReplace cgroup), namedForPython]

/-- What `grep` finds, lines and NULs taken into account. -/
theorem grepService_eq (cgroup : List UInt8) : grepService cgroup = namedForShell cgroup := by
  have hall : (Utf8.asciiBytes kioskService).all (fun b => !(b == 0x0a || b == 0)) = true := by
    decide
  have hword : ∀ b ∈ Utf8.asciiBytes kioskService, (b == 0x0a || b == 0) = false := by
    intro b hb
    exact Bool.not_eq_true' _ ▸ List.all_eq_true.mp hall b hb
  rw [grepService, searchWord_lines (by decide) hword, namedForShell]

/-- What both look for beside the number. -/
def Eligible (w : Surroundings) (named : List UInt8 → Bool) (pid : Nat) : Prop :=
  1 < pid ∧ ∃ p cgroup, w.process pid = some p ∧ p.uid = w.euid ∧
    w.cgroupFile p = some cgroup ∧ named cgroup = true

/-- A process number is below 2^31. -/
theorem Eligible.lt {w : Surroundings} {named : List UInt8 → Bool} {pid : Nat}
    (h : Eligible w named pid) : pid < 2 ^ 31 := by
  obtain ⟨-, p, -, hp, -⟩ := h
  exact w.pid_lt pid p hp

/-- The checks after the number. -/
theorem signalPid_eq_some_iff (w : Surroundings) (n : Int) (pid : Nat) :
    signalPid w n = some pid ↔ n = pid ∧ Eligible w namedForPython pid := by
  unfold signalPid
  by_cases hn : n ≤ 1
  · rw [if_pos hn]
    constructor
    · intro h
      contradiction
    · intro h
      have hlt := h.2.1
      omega
  · obtain ⟨m, rfl⟩ : ∃ m : Nat, n = m := ⟨n.toNat, by omega⟩
    have hname : Utf8.asciiBytes (ofInt (m : Int)) = decimalBytes m := by
      rw [ofInt, if_neg (by omega), Int.natAbs_natCast, decimalBytes]
    rw [if_neg hn, hname, procEntry_decimalBytes, Int.toNat_natCast]
    simp only [searchService_readReplace, Nat.cast_inj]
    constructor
    · intro h
      cases hp : w.process m with
      | none => simp [hp] at h
      | some p =>
          simp only [hp] at h
          split at h
          · contradiction
          · next huid =>
              cases hfile : w.cgroupFile p with
              | none => simp [hfile] at h
              | some cgroup =>
                  simp only [hfile] at h
                  split at h
                  · next hnamed =>
                      have hm : m = pid := Option.some.inj h
                      rw [← hm]
                      exact ⟨rfl, by omega, p, cgroup, hp, not_not.mp huid, hfile, hnamed⟩
                  · contradiction
    · intro h
      obtain ⟨rfl, -, p, cgroup, hp, huid, hfile, hnamed⟩ := h
      simp [hp, huid, hfile, hnamed]

section Python

variable {U : UnicodeData} {isDigit : CodePoint → Bool} {w : Surroundings}

/-- `restart_kiosk` raises what `int` raises. -/
theorem restartKiosk_isOk_iff (hactive : w.isActive = 0) (hstatus : w.mainPid.status = 0) :
    (∃ r, restartKiosk U isDigit w = .ok r) ↔
      (strIsDigit isDigit (pidText w.mainPid.output) = true →
        ∃ n, toInt U (pidText w.mainPid.output) = .ok n) := by
  rw [restartKiosk, if_neg (by omega), if_neg (by omega), ← pidText]
  cases hdigit : strIsDigit isDigit (pidText w.mainPid.output) with
  | false => simp [hdigit]
  | true =>
      cases hint : toInt U (pidText w.mainPid.output) with
      | error e => simp [hdigit, hint]
      | ok n => simp [hdigit, hint]

/-- **Python** signals the number it reads, if that process is eligible. -/
theorem restartKiosk_sends_iff (hactive : w.isActive = 0) (hstatus : w.mainPid.status = 0)
    (pid : Nat) :
    restartKiosk U isDigit w = .ok (some pid) ↔
      PythonReads U isDigit w.mainPid.output pid ∧ Eligible w namedForPython pid := by
  rw [restartKiosk, if_neg (by omega), if_neg (by omega), ← pidText, PythonReads]
  cases hdigit : strIsDigit isDigit (pidText w.mainPid.output) with
  | false => simp [hdigit]
  | true =>
      cases hint : toInt U (pidText w.mainPid.output) with
      | error e => simp [hdigit, hint]
      | ok n => simp [hdigit, hint, signalPid_eq_some_iff]

end Python

/-- **The helper** signals the number it reads, if that process is eligible. -/
theorem target_eq_some_iff {w : Surroundings} (hactive : w.isActive = 0)
    (hstatus : w.mainPid.status = 0) (pid : Nat) :
    target w = some pid ↔ ShellReads w.mainPid.output pid ∧ Eligible w namedForShell pid := by
  rw [target, if_neg (by omega), if_neg (by omega), ShellReads]
  simp only [grepService_eq]
  constructor
  · intro h
    split at h
    · contradiction
    · split at h
      · contradiction
      · next hgt =>
          rw [Bool.not_eq_false, gtOne, Bool.and_eq_true, decide_eq_true_eq] at hgt
          split at h
          · contradiction
          · next p hp =>
              -- only the canonical name of a number is an entry of `/proc`
              rw [Surroundings.procEntry] at hp
              split at hp
              · next hname =>
                  rw [beq_iff_eq] at hname
                  split at h
                  · contradiction
                  · next huid =>
                      split at h
                      · contradiction
                      · next cgroup hfile =>
                          split at h
                          · next hnamed =>
                              have hpid := Option.some.inj h
                              rw [hpid] at hname hp hgt
                              exact ⟨hname, hgt.1, p, cgroup, hp, not_not.mp huid, hfile, hnamed⟩
                          · contradiction
              · contradiction
  · intro h
    obtain ⟨hread, heligible⟩ := h
    have hlt := heligible.lt
    obtain ⟨hgt, p, cgroup, hp, huid, hfile, hnamed⟩ := heligible
    have hgtOne : gtOne (decimalBytes pid) = true := by
      rw [gtOne, decimalValue_decimalBytes, Bool.and_eq_true, decide_eq_true_eq,
        decide_eq_true_eq]
      omega
    simp [hread, isNumber_decimalBytes, hgtOne, procEntry_decimalBytes, hp, huid, hfile, hnamed,
      decimalValue_decimalBytes]

/-! ## the number and line feeds -/

/-- The output is the number as `str` writes it, and line feeds. -/
def PlainPid (output : List UInt8) (pid : Nat) : Prop :=
  ∃ k, output = decimalBytes pid ++ List.replicate k 0x0a

theorem dropWhile_of_head {α : Type} {p : α → Bool} {l : List α}
    (h : ∀ x ∈ l, p x = false) : l.dropWhile p = l := by
  cases l with
  | nil => rfl
  | cons x xs => rw [List.dropWhile_cons, h x List.mem_cons_self]; rfl

/-- Trimming the end of a text that ends in line feeds. -/
theorem trimEnd_replicate {α : Type} {p : α → Bool} {l : List α} {x : α} (hx : p x = true)
    (h : ∀ y ∈ l, p y = false) (k : Nat) :
    ((l ++ List.replicate k x).reverse.dropWhile p).reverse = l := by
  have hlast : ∀ y ∈ List.replicate k x, p y = true := by
    intro y hy
    rw [List.eq_of_mem_replicate hy, hx]
  rw [List.reverse_append, List.reverse_replicate, List.dropWhile_append_of_pos hlast,
    dropWhile_of_head fun y hy => h y (List.mem_reverse.mp hy), List.reverse_reverse]

/-- Plain digits are read by the shell. -/
theorem shellReads_of_plainPid {output : List UInt8} {pid : Nat} (h : PlainPid output pid) :
    ShellReads output pid := by
  obtain ⟨k, rfl⟩ := h
  have hnul : ∀ b ∈ decimalBytes pid ++ List.replicate k 0x0a, (b != 0) = true := by
    intro b hb
    cases List.mem_append.mp hb with
    | inl hdigit =>
        have hbounds := decimalBytes_digits hdigit
        simp only [bne_iff_ne, ne_eq]
        intro heq
        rw [heq] at hbounds
        exact absurd hbounds.1 (by decide)
    | inr hlf => rw [List.eq_of_mem_replicate hlf]; decide
  have hdigits : ∀ b ∈ decimalBytes pid, (b == 0x0a) = false := by
    intro b hb
    have hbounds := decimalBytes_digits hb
    apply beq_false_of_ne
    intro heq
    rw [heq] at hbounds
    exact absurd hbounds.1 (by decide)
  rw [ShellReads, Sh.capture, List.filter_eq_self.mpr hnul]
  exact trimEnd_replicate (by decide) hdigits k

/-- The text of a plain output. -/
theorem pidText_plain (pid k : Nat) :
    pidText (decimalBytes pid ++ List.replicate k 0x0a) = ofNat pid := by
  have hdigits : ∀ c ∈ ofNat pid, 0x30 ≤ c.val ∧ c.val ≤ 0x39 := by
    intro c hc
    obtain ⟨d, hd, rfl⟩ := ofNat_digits hc
    rw [digitChar_val hd]
    omega
  have hspace : ∀ c ∈ ofNat pid, c.isSpace = false := by
    have hdigit : ∀ d < 10, (digitChar d).isSpace = false := by decide
    intro c hc
    obtain ⟨d, hd, rfl⟩ := ofNat_digits hc
    exact hdigit d hd
  have hascii : ∀ c ∈ ofNat pid ++ List.replicate k 0x0a, c.val < 0x80 := by
    intro c hc
    cases List.mem_append.mp hc with
    | inl hdigit => exact ofNat_ascii pid c hdigit
    | inr hlf => rw [List.eq_of_mem_replicate hlf]; decide
  have hcr : ∀ c ∈ ofNat pid ++ List.replicate k 0x0a, c ≠ 0x0d := by
    intro c hc heq
    cases List.mem_append.mp hc with
    | inl hdigit =>
        have hbounds := hdigits c hdigit
        rw [heq] at hbounds
        exact absurd hbounds.1 (by decide)
    | inr hlf =>
        rw [heq] at hlf
        exact absurd (List.eq_of_mem_replicate hlf) (by decide)
  have hbytes : decimalBytes pid ++ List.replicate k 0x0a =
      (ofNat pid ++ List.replicate k 0x0a).flatMap CodePoint.utf8 := by
    rw [Utf8.flatMap_utf8_ascii hascii, decimalBytes, Utf8.asciiBytes, Utf8.asciiBytes,
      List.map_append, List.map_replicate]
    rfl
  rw [pidText, readReplace, hbytes, Utf8.decodeReplace_utf8 (Utf8.encodable_of_ascii hascii),
    universalNewlines_free hcr, strip]
  obtain ⟨d, ds, hd, hcons⟩ := ofNat_cons pid
  have hfront : (ofNat pid ++ List.replicate k 0x0a).dropWhile CodePoint.isSpace =
      ofNat pid ++ List.replicate k 0x0a := by
    have hhead : (digitChar d).isSpace = false := hspace _ (by rw [hcons]; exact List.mem_cons_self)
    rw [hcons, List.cons_append, List.dropWhile_cons, hhead]
    rfl
  rw [hfront]
  exact trimEnd_replicate (by decide) hspace k

section Agreement

variable {U : UnicodeData} {isDigit : CodePoint → Bool} {output : List UInt8} {pid : Nat}

/-- Plain digits are read by Python. -/
theorem pythonReads_of_plainPid (h : PlainPid output pid) (hpid : pid < 10 ^ intMaxStrDigits) :
    PythonReads U isDigit output pid := by
  obtain ⟨k, rfl⟩ := h
  have hdigits : strIsDigit isDigit (ofNat pid) = true := by
    obtain ⟨d, ds, -, hcons⟩ := ofNat_cons pid
    rw [strIsDigit, Bool.and_eq_true]
    constructor
    · rw [hcons]
      rfl
    · apply List.all_eq_true.mpr
      intro c hc
      have hlt := ofNat_ascii pid c hc
      obtain ⟨e, he, rfl⟩ := ofNat_digits hc
      have hdigit := digit_digitChar U he
      rw [digit, if_pos hlt] at hdigit
      rw [if_pos hlt, hdigit]
      rfl
  have hint := toInt_ofInt U pid
  rw [ofInt, if_neg (by omega), Int.natAbs_natCast, if_pos hpid] at hint
  rw [PythonReads, pidText_plain]
  exact ⟨hdigits, hint⟩

theorem mem_universalNewlinesAux {s : PyStr} {c : CodePoint} (hc : c ∈ s) (hlf : c ≠ 0x0a)
    (hcr : c ≠ 0x0d) (cr : Bool) : c ∈ universalNewlinesAux cr s := by
  induction s generalizing cr with
  | nil => contradiction
  | cons d ds ih =>
      rw [universalNewlinesAux]
      cases List.mem_cons.mp hc with
      | inl heq =>
          have hskip : ¬ (cr && decide (d = 0x0a)) = true := by
            rw [← heq]
            simp [hlf]
          rw [if_neg hskip, if_neg (by rw [← heq]; exact hcr), heq]
          exact List.mem_cons_self
      | inr hmem =>
          split
          · exact ih hmem false
          · split
            · exact List.mem_cons_of_mem _ (ih hmem true)
            · exact List.mem_cons_of_mem _ (ih hmem false)

theorem mem_dropWhile {α : Type} {p : α → Bool} {l : List α} {x : α} (hx : x ∈ l)
    (hp : p x = false) : x ∈ l.dropWhile p := by
  rw [← List.takeWhile_append_dropWhile (p := p) (l := l), List.mem_append] at hx
  cases hx with
  | inl htake =>
      have htrue := List.mem_takeWhile_imp htake
      rw [hp] at htrue
      contradiction
  | inr hdrop => exact hdrop

/-- A number for `restart_kiosk` holds no NUL, which `strip` would keep. -/
theorem no_nul_of_pythonReads (h : PythonReads U isDigit output pid) : (0 : UInt8) ∉ output := by
  intro hmem
  have htext : (0 : CodePoint) ∈ pidText output := by
    have hdecoded := (Utf8.decodes_decodeReplace output).mem (by decide) hmem
    have htranslated : (0 : CodePoint) ∈ readReplace output :=
      mem_universalNewlinesAux hdecoded (by decide) (by decide) false
    have hspace : CodePoint.isSpace 0 = false := by decide
    rw [pidText, strip]
    apply List.mem_reverse.mpr
    apply mem_dropWhile _ hspace
    exact List.mem_reverse.mpr (mem_dropWhile htranslated hspace)
  have hdigits := h.1
  rw [strIsDigit, Bool.and_eq_true] at hdigits
  have hzero := List.all_eq_true.mp hdigits.2 0 htext
  rw [if_pos (by decide)] at hzero
  exact absurd hzero (by decide)

/-- What both read is the number and line feeds. -/
theorem plainPid_of_reads (hpython : PythonReads U isDigit output pid)
    (hshell : ShellReads output pid) : PlainPid output pid := by
  have hnul : ∀ b ∈ output, (b != 0) = true := by
    intro b hb
    simp only [bne_iff_ne, ne_eq]
    intro heq
    rw [heq] at hb
    exact no_nul_of_pythonReads hpython hb
  rw [ShellReads, Sh.capture, List.filter_eq_self.mpr hnul] at hshell
  have hlfs : ∀ b ∈ output.reverse.takeWhile (fun b => b == 0x0a), b = 0x0a := by
    intro b hb
    simpa using List.mem_takeWhile_imp hb
  have htake := List.eq_replicate_of_mem hlfs
  refine ⟨(output.reverse.takeWhile fun b => b == 0x0a).length, ?_⟩
  calc output = output.reverse.reverse := (List.reverse_reverse output).symm
    _ = ((output.reverse.takeWhile fun b => b == 0x0a) ++
          output.reverse.dropWhile fun b => b == 0x0a).reverse := by
        rw [List.takeWhile_append_dropWhile]
    _ = decimalBytes pid ++ (output.reverse.takeWhile fun b => b == 0x0a).reverse := by
        rw [List.reverse_append, hshell]
    _ = decimalBytes pid ++
          List.replicate (output.reverse.takeWhile fun b => b == 0x0a).length 0x0a := by
        nth_rewrite 1 [htake]
        rw [List.reverse_replicate]

end Agreement

/-! ## agreement -/

/-- The two agree on what they find: `systemctl` fails, or `int` does not raise
on the text of the number, and for every process of the own user, with a
number above 1 and a cgroup file,

* if the output is its number and line feeds, then carriage returns and NULs
  make no difference to the search in the file;
* if not, neither program signals it for another reading of the output. -/
def TwinsAgree (U : UnicodeData) (isDigit : CodePoint → Bool) (w : Surroundings) : Prop :=
  w.isActive ≠ 0 ∨ w.mainPid.status ≠ 0 ∨
  (strIsDigit isDigit (pidText w.mainPid.output) = true →
    ∃ n, toInt U (pidText w.mainPid.output) = .ok n) ∧
  ∀ pid p cgroup, 1 < pid → w.process pid = some p → p.uid = w.euid →
    w.cgroupFile p = some cgroup →
    (PlainPid w.mainPid.output pid → namedForPython cgroup = namedForShell cgroup) ∧
    (¬ PlainPid w.mainPid.output pid →
      (PythonReads U isDigit w.mainPid.output pid → namedForPython cgroup = false) ∧
      (ShellReads w.mainPid.output pid → namedForShell cgroup = false))

/-- For a process of the right owner only the name in its control group is left. -/
theorem eligible_iff {w : Surroundings} {named : List UInt8 → Bool} {pid : Nat} {p : Process}
    {cgroup : List UInt8} (hgt : 1 < pid) (hp : w.process pid = some p) (huid : p.uid = w.euid)
    (hfile : w.cgroupFile p = some cgroup) : Eligible w named pid ↔ named cgroup = true := by
  constructor
  · intro h
    obtain ⟨-, p', cgroup', hp', -, hfile', hnamed⟩ := h
    rw [hp, Option.some.injEq] at hp'
    rw [← hp', hfile, Option.some.injEq] at hfile'
    rwa [hfile']
  · intro h
    exact ⟨hgt, p, cgroup, hp, huid, hfile, h⟩

/-- The signals are the same exactly for the processes that the condition
names. -/
theorem signals_agree_iff {U : UnicodeData} {isDigit : CodePoint → Bool} {w : Surroundings} :
    (∀ pid, PythonReads U isDigit w.mainPid.output pid ∧ Eligible w namedForPython pid ↔
        ShellReads w.mainPid.output pid ∧ Eligible w namedForShell pid) ↔
      ∀ pid p cgroup, 1 < pid → w.process pid = some p → p.uid = w.euid →
        w.cgroupFile p = some cgroup →
        (PlainPid w.mainPid.output pid → namedForPython cgroup = namedForShell cgroup) ∧
        (¬ PlainPid w.mainPid.output pid →
          (PythonReads U isDigit w.mainPid.output pid → namedForPython cgroup = false) ∧
          (ShellReads w.mainPid.output pid → namedForShell cgroup = false)) := by
  have hsmall : ∀ pid : Nat, pid < 2 ^ 31 → pid < 10 ^ intMaxStrDigits := by
    intro pid hpid
    have hpow : 10 ^ 10 ≤ 10 ^ intMaxStrDigits := Nat.pow_le_pow_right (by decide) (by decide)
    omega
  constructor
  · intro h pid p cgroup hgt hp huid hfile
    have hpython := h pid
    rw [eligible_iff hgt hp huid hfile, eligible_iff hgt hp huid hfile] at hpython
    constructor
    · intro hplain
      have hreads : PythonReads U isDigit w.mainPid.output pid :=
        pythonReads_of_plainPid hplain (hsmall pid (w.pid_lt pid p hp))
      rw [Bool.eq_iff_iff]
      exact ⟨fun hnamed => (hpython.mp ⟨hreads, hnamed⟩).2,
        fun hnamed => (hpython.mpr ⟨shellReads_of_plainPid hplain, hnamed⟩).2⟩
    · intro hplain
      constructor
      · intro hreads
        rw [← Bool.not_eq_true]
        intro hnamed
        exact hplain (plainPid_of_reads hreads (hpython.mp ⟨hreads, hnamed⟩).1)
      · intro hreads
        rw [← Bool.not_eq_true]
        intro hnamed
        exact hplain (plainPid_of_reads (hpython.mpr ⟨hreads, hnamed⟩).1 hreads)
  · intro h pid
    constructor
    · intro hsent
      obtain ⟨hreads, hgt, p, cgroup, hp, huid, hfile, hnamed⟩ := hsent
      obtain ⟨hplain, hother⟩ := h pid p cgroup hgt hp huid hfile
      by_cases hpid : PlainPid w.mainPid.output pid
      · rw [hplain hpid] at hnamed
        exact ⟨shellReads_of_plainPid hpid, hgt, p, cgroup, hp, huid, hfile, hnamed⟩
      · rw [(hother hpid).1 hreads] at hnamed
        exact absurd hnamed (by decide)
    · intro hsent
      obtain ⟨hreads, hgt, p, cgroup, hp, huid, hfile, hnamed⟩ := hsent
      obtain ⟨hplain, hother⟩ := h pid p cgroup hgt hp huid hfile
      by_cases hpid : PlainPid w.mainPid.output pid
      · rw [← hplain hpid] at hnamed
        exact ⟨pythonReads_of_plainPid hpid (hsmall pid (w.pid_lt pid p hp)), hgt, p, cgroup, hp,
          huid, hfile, hnamed⟩
      · rw [(hother hpid).2 hreads] at hnamed
        exact absurd hnamed (by decide)

/-- With a reason the helper signals its target. -/
theorem kioskSignal_signal (w : Surroundings) {args : List ShStr} {reason : Reason}
    (hargs : parseArgs none false args = .ok (some reason, false)) :
    (kioskSignal w args).signal = target w := by
  rw [kioskSignal, hargs]
  cases target w with
  | none => rfl
  | some pid => rfl

/-- **The twins**: `restart_kiosk` returns, and signals the process that the
helper signals, exactly when `TwinsAgree` holds. -/
theorem twins_agree_iff (U : UnicodeData) (isDigit : CodePoint → Bool) (w : Surroundings)
    (args : List ShStr) (reason : Reason)
    (hargs : parseArgs none false args = .ok (some reason, false)) :
    ((∃ r, restartKiosk U isDigit w = .ok r) ∧
      ∀ pid, restartKiosk U isDigit w = .ok (some pid) ↔
        (kioskSignal w args).signal = some pid) ↔
    TwinsAgree U isDigit w := by
  rw [kioskSignal_signal w hargs, TwinsAgree]
  by_cases hactive : w.isActive = 0
  · by_cases hstatus : w.mainPid.status = 0
    · simp only [restartKiosk_isOk_iff hactive hstatus, restartKiosk_sends_iff hactive hstatus,
        target_eq_some_iff hactive hstatus, signals_agree_iff]
      simp [hactive, hstatus]
    · simp [restartKiosk, target, hactive, hstatus]
  · simp [restartKiosk, target, hactive]

/-- A kiosk with the process 42, and what `systemctl show` writes. -/
def kioskAt42 (output : ShStr) : Surroundings where
  isActive := 0
  mainPid := ⟨0, output⟩
  process pid :=
    if pid = 42 then some ⟨1000, some (Sh.lit "0::/system.slice/sushida-kiosk.service\n")⟩
    else none
  euid := 1000
  testCgroup := none
  pid_lt pid p h := by
    split at h
    · omega
    · contradiction

/-- What `systemctl show` does write: the number and a line feed. -/
theorem kioskAt42_agrees :
    (∃ r, restartKiosk .ascii (fun _ => false) (kioskAt42 (Sh.lit "42\n")) = .ok r) ∧
      ∀ pid, restartKiosk .ascii (fun _ => false) (kioskAt42 (Sh.lit "42\n")) = .ok (some pid) ↔
        (kioskSignal (kioskAt42 (Sh.lit "42\n"))
          [Sh.lit "--reason", Sh.lit "blocked-navigation"]).signal = some pid := by
  apply (twins_agree_iff .ascii (fun _ => false) (kioskAt42 (Sh.lit "42\n"))
    [Sh.lit "--reason", Sh.lit "blocked-navigation"] .blockedNavigation rfl).mpr
  refine .inr (.inr ⟨fun _ => ⟨42, by decide⟩, ?_⟩)
  intro pid p cgroup _ hp _ hfile
  simp only [kioskAt42] at hp
  split at hp
  · next hpid =>
      have hplain : PlainPid (kioskAt42 (Sh.lit "42\n")).mainPid.output pid := by
        rw [hpid]
        exact ⟨1, by decide⟩
      have hcgroup : cgroup = Sh.lit "0::/system.slice/sushida-kiosk.service\n" := by
        rw [← Option.some.inj hp] at hfile
        exact (Option.some.inj hfile).symm
      rw [hcgroup]
      exact ⟨fun _ => by decide, fun hnot => absurd hplain hnot⟩
  · contradiction

/-- A space in front of the number: `strip` takes it off, the helper refuses. -/
theorem kioskAt42_spaced_differs :
    ¬ ((∃ r, restartKiosk .ascii (fun _ => false) (kioskAt42 (Sh.lit " 42\n")) = .ok r) ∧
      ∀ pid, restartKiosk .ascii (fun _ => false) (kioskAt42 (Sh.lit " 42\n")) = .ok (some pid) ↔
        (kioskSignal (kioskAt42 (Sh.lit " 42\n"))
          [Sh.lit "--reason", Sh.lit "blocked-navigation"]).signal = some pid) := by
  have hpython : restartKiosk .ascii (fun _ => false) (kioskAt42 (Sh.lit " 42\n")) =
      .ok (some 42) := by
    decide
  have hshell : (kioskSignal (kioskAt42 (Sh.lit " 42\n"))
      [Sh.lit "--reason", Sh.lit "blocked-navigation"]).signal = none := by
    decide
  intro h
  rw [h.2 42, hshell] at hpython
  exact absurd hpython (by simp)

end KioskSignal

end SushidaOs
