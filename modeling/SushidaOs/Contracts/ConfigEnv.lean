import Mathlib.Data.List.Perm.Basic
import Mathlib.Data.List.TakeWhile
import SushidaOs.Config
import SushidaOs.Contracts.Report

/-!
# SushidaOs.Contracts.ConfigEnv

The check of `config.env` in `_drift_runtime`, against the parser of the
runtime (`SushidaOs.Config`).

Both accept lines in order (`Config.InOrder`), but not of the same lines.  The
runtime cuts at line feeds; the check reads in text mode and cuts with
`splitlines`, at ten characters.  So it sees the pieces of the lines: a
character that begins a line makes the line faulty for the runtime and hides
it from the check, and one inside a line makes a line of its own of what
follows.
-/

namespace SushidaOs

open PyStr

namespace Contracts

/-- What the check reads of the contract; the timeouts as `str` writes them. -/
structure ConfigContract where
  configKeys : List PyStr
  sushidaUrl : PyStr
  networkCheckIntervalSeconds : PyStr
  networkSetupGraceSeconds : PyStr
  deriving DecidableEq, Repr

/-- An error of the contract `"runtime"`. -/
def runtimeError (code : ErrorCode) (field : String) (file message : PyStr) : ContractError :=
  ⟨code, lit "runtime", lit field, file, message⟩

/-- The comparisons of a value with the contract. -/
def valueErrors (c : ConfigContract) (file key value : PyStr) : List ContractError :=
  if key == lit "SUSHIDA_URL" then
    if value == c.sushidaUrl then []
    else [runtimeError .runtimeUrlMismatch "urls.sushida_url" file
      (lit "config.env SUSHIDA_URL does not match the runtime contract")]
  else if key == lit "NETWORK_CHECK_INTERVAL_SECONDS" then
    if value == c.networkCheckIntervalSeconds then []
    else [runtimeError .driftTimeout "timeouts.network_check_interval_seconds" file
      (lit "config.env NETWORK_CHECK_INTERVAL_SECONDS does not match the runtime contract")]
  else if key == lit "NETWORK_SETUP_GRACE_SECONDS" then
    if value == c.networkSetupGraceSeconds then []
    else [runtimeError .driftTimeout "timeouts.network_setup_grace_seconds" file
      (lit "config.env NETWORK_SETUP_GRACE_SECONDS does not match the runtime contract")]
  else []

/-- The loop, from the line `number` on: its errors, and the keys seen at the
end. -/
def configLoop (c : ConfigContract) (file : PyStr) (number : Nat) (seen : List PyStr) :
    List PyStr → List ContractError × List PyStr
  | [] => ([], seen)
  | rawLine :: rest =>
      let line := rstrip 0x0d rawLine
      if Config.isSkipped line then configLoop c file (number + 1) seen rest
      else match partition 0x3d line with
        | (_, false, _) =>
            let tail := configLoop c file (number + 1) seen rest
            (runtimeError .driftConfigFormat "config.env" file
              (lit "invalid config line without '=' at line " ++ ofNat number) :: tail.1, tail.2)
        | (key, true, value) =>
            if c.configKeys.contains key = false then
              let tail := configLoop c file (number + 1) seen rest
              (runtimeError .driftConfigKey "config.env" file
                (lit "unknown config key at line " ++ ofNat number) :: tail.1, tail.2)
            else if seen.contains key then
              let tail := configLoop c file (number + 1) seen rest
              (⟨.driftConfigDuplicate, lit "runtime", key, file,
                lit "duplicate config key: " ++ key⟩ :: tail.1, tail.2)
            else
              let tail := configLoop c file (number + 1) (key :: seen) rest
              (valueErrors c file key value ++ tail.1, tail.2)

/-- The error for a key that was not seen. -/
def missingError (code : ErrorCode) (field : String) (file : PyStr) (key : String)
    (seen : List PyStr) : List ContractError :=
  if seen.contains (lit key) then []
  else [runtimeError code field file (lit "config.env missing " ++ lit key)]

/-- The part of `_drift_runtime` about the file; `read_text` raises on bytes
that are not UTF-8. -/
def driftConfigEnv (c : ConfigContract) (file : PyStr) (bytes : List UInt8) :
    Except PyExc (List ContractError) :=
  match Utf8.decodeStrict bytes with
  | none => .error .unicodeDecodeError
  | some text =>
      let (errors, seen) := configLoop c file 1 [] (splitlines (universalNewlines text))
      .ok (errors ++
        (missingError .driftUrl "urls.sushida_url" file "SUSHIDA_URL" seen ++
          (missingError .driftTimeout "timeouts.network_check_interval_seconds" file
            "NETWORK_CHECK_INTERVAL_SECONDS" seen ++
            missingError .driftTimeout "timeouts.network_setup_grace_seconds" file
              "NETWORK_SETUP_GRACE_SECONDS" seen)))

/-- The codes of a file that the runtime should refuse. -/
def ErrorCode.isSyntax : ErrorCode → Bool
  | .driftConfigFormat => true
  | .driftConfigKey => true
  | .driftConfigDuplicate => true
  | _ => false

/-- Some error has such a code. -/
def hasSyntaxError (errors : List ContractError) : Bool := errors.any fun e => e.code.isSyntax

/-! ## the loop -/

theorem hasSyntaxError_append (xs ys : List ContractError) :
    hasSyntaxError (xs ++ ys) = (hasSyntaxError xs || hasSyntaxError ys) := List.any_append

/-- What is wrong with a value is no error of syntax. -/
theorem hasSyntaxError_valueErrors (c : ConfigContract) (file key value : PyStr) :
    hasSyntaxError (valueErrors c file key value) = false := by
  unfold valueErrors
  split
  · split <;> rfl
  · split
    · split <;> rfl
    · split
      · split <;> rfl
      · rfl

theorem hasSyntaxError_missingError {code : ErrorCode} (hcode : code.isSyntax = false)
    (field : String) (file : PyStr) (key : String) (seen : List PyStr) :
    hasSyntaxError (missingError code field file key seen) = false := by
  unfold missingError
  split
  · rfl
  · simp [hasSyntaxError, runtimeError, hcode]

/-- **The loop**: it records a syntax error exactly when the lines are not in
order; it goes on after an error, but none takes back an earlier one. -/
theorem hasSyntaxError_configLoop (c : ConfigContract) (file : PyStr) (number : Nat)
    (seen lines : List PyStr) :
    hasSyntaxError (configLoop c file number seen lines).1 = true ↔
      ¬ Config.InOrderAfter c.configKeys.contains seen (lines.map (rstrip 0x0d)) := by
  induction lines generalizing number seen with
  | nil => simp [configLoop, hasSyntaxError, Config.InOrderAfter, Config.InOrder,
      Config.settingKeys]
  | cons rawLine rest ih =>
      simp only [configLoop, List.map_cons]
      by_cases hskip : Config.isSkipped (rstrip 0x0d rawLine) = true
      · rw [if_pos hskip, ih, Config.inOrderAfter_skipped hskip]
      · rw [if_neg hskip]
        rw [Bool.not_eq_true] at hskip
        rcases hpart : partition 0x3d (rstrip 0x0d rawLine) with ⟨key, found, value⟩
        cases found with
        | false =>
            have hfaulty :
                Config.isFaulty c.configKeys.contains (rstrip 0x0d rawLine) = true := by
              simp [Config.isFaulty, Config.settingOf, hskip, hpart]
            exact iff_of_true rfl (Config.not_inOrderAfter_faulty hfaulty)
        | true =>
            have hsetting : Config.settingOf (rstrip 0x0d rawLine) = some (key, value) := by
              simp [Config.settingOf, hskip, hpart]
            by_cases hknown : c.configKeys.contains key = true
            · have hseen : ∀ k, k ∈ key :: seen ↔ k = key ∨ k ∈ seen := fun k => List.mem_cons
              rw [Config.inOrderAfter_setting hsetting hknown hseen]
              simp only [hknown, Bool.true_eq_false, if_false]
              by_cases hdup : seen.contains key = true
              · rw [if_pos hdup]
                rw [List.contains_iff_mem] at hdup
                exact iff_of_true rfl (fun h => h.1 hdup)
              · rw [if_neg hdup]
                rw [List.contains_iff_mem] at hdup
                rw [hasSyntaxError_append, hasSyntaxError_valueErrors, Bool.false_or, ih]
                simp only [hdup, not_false_eq_true, true_and]
            · rw [Bool.not_eq_true] at hknown
              have hfaulty :
                  Config.isFaulty c.configKeys.contains (rstrip 0x0d rawLine) = true := by
                rw [Config.isFaulty_setting hsetting, hknown]
                rfl
              simp only [hknown, if_true]
              exact iff_of_true rfl (Config.not_inOrderAfter_faulty hfaulty)

end Contracts

namespace Config

/-! ## lines and pieces -/

section Pieces

variable {known : PyStr → Bool} {lines lines' : List PyStr} {line : PyStr}

/-- The order of the lines does not matter. -/
theorem inOrder_perm (h : lines.Perm lines') : InOrder known lines ↔ InOrder known lines' := by
  have hkeys : (settingKeys lines).Perm (settingKeys lines') := (h.filterMap _).map _
  rw [InOrder, InOrder, hkeys.nodup_iff]
  simp only [h.mem_iff]

theorem inOrder_of_append (h : InOrder known (lines ++ lines')) : InOrder known lines := by
  have hkeys : settingKeys (lines ++ lines') = settingKeys lines ++ settingKeys lines' := by
    rw [settingKeys, List.filterMap_append, List.map_append, settingKeys, settingKeys]
  have hnodup := h.2
  rw [hkeys] at hnodup
  exact ⟨fun line hline => h.1 line (List.mem_append_left lines' hline), hnodup.of_append_left⟩

/-- Empty lines do not count. -/
theorem inOrder_nonempty (lines : List PyStr) :
    InOrder known (lines.filter fun line => !line.isEmpty) ↔ InOrder known lines := by
  have hkeys : settingKeys (lines.filter fun line => !line.isEmpty) = settingKeys lines := by
    rw [settingKeys, filterMap_nonempty settingOf rfl, settingKeys]
  have hsound : (∀ line ∈ lines.filter fun line => !line.isEmpty, isFaulty known line = false) ↔
      ∀ line ∈ lines, isFaulty known line = false := by
    constructor
    · intro h line hline
      cases line with
      | nil => rfl
      | cons c cs => exact h _ (List.mem_filter.mpr ⟨hline, rfl⟩)
    · intro h line hline
      exact h line (List.mem_of_mem_filter hline)
  rw [InOrder, InOrder, hkeys, hsound]

/-- Nor do empty lines. -/
theorem inOrder_congr (h : (lines.filter fun line => !line.isEmpty) =
    lines'.filter fun line => !line.isEmpty) : InOrder known lines ↔ InOrder known lines' := by
  rw [← inOrder_nonempty lines, h, inOrder_nonempty]

/-- A carriage return at the end leaves an empty piece. -/
theorem pieces_stripCr (line : PyStr) :
    ((stripCr line).pieces.filter fun piece => !piece.isEmpty) =
      line.pieces.filter fun piece => !piece.isEmpty := by
  unfold stripCr
  split
  · next hlast =>
      have hcr : CodePoint.isLineBreak 0x0d = true := by decide
      have hsplit : line = line.dropLast ++ [0x0d] :=
        (List.dropLast_append_getLast? 0x0d (by simpa using hlast)).symm
      have hpieces : pieces line = pieces line.dropLast ++ [[]] := by
        have happend := splitWhere_append_sep line.dropLast [] hcr
        rw [← hsplit] at happend
        exact happend
      rw [hpieces, List.filter_append]
      simp
  · rfl

/-- The check sees the pieces of the lines. -/
theorem inOrder_splitlines (text : PyStr) :
    InOrder known (((universalNewlines text).splitlines).map (rstrip 0x0d)) ↔
      InOrder known ((configLines text).map firstPiece ++
        (configLines text).flatMap extraPieces) := by
  have hrstrip : ∀ line ∈ text.splitlines, rstrip 0x0d line = line := by
    intro line hline
    have hlast : line.reverse.dropWhile (· = 0x0d) = line.reverse := by
      cases hrev : line.reverse with
      | nil => rfl
      | cons c cs =>
          have hc : c.isLineBreak = false :=
            mem_splitlines hline c (by rw [← List.mem_reverse, hrev]; simp)
          have hne : c ≠ 0x0d := by
            intro heq
            rw [heq] at hc
            revert hc
            decide
          simp [hne]
    rw [rstrip, hlast, List.reverse_reverse]
  have hlf : ∀ c : CodePoint, (c == 0x0a) = true → c.isLineBreak = true := by
    intro c hc
    rw [beq_iff_eq] at hc
    rw [hc]
    decide
  have hpieces : (text.pieces.filter fun piece => !piece.isEmpty) =
      ((configLines text).flatMap pieces).filter fun piece => !piece.isEmpty := by
    rw [pieces, splitWhere_refine hlf, List.filter_flatMap, List.filter_flatMap, configLines,
      List.flatMap_map]
    simp only [pieces_stripCr]
    rfl
  have hperm : ((configLines text).map firstPiece ++ (configLines text).flatMap extraPieces).Perm
      ((configLines text).flatMap pieces) := by
    have hcut : pieces = fun line : PyStr => line.firstPiece :: line.extraPieces :=
      funext pieces_eq
    rw [hcut]
    exact List.map_append_flatMap_perm _ _ _
  rw [splitlines_universalNewlines, List.map_congr_left hrstrip, List.map_id',
    inOrder_congr (splitlines_nonempty text), inOrder_congr hpieces, inOrder_perm hperm]

/-- The line begins with a boundary. -/
def beginsWithBreak (line : PyStr) : Bool := line.head?.any CodePoint.isLineBreak

/-- Such a line is no comment, and its key is not a known one. -/
theorem isFaulty_of_beginsWithBreak
    (hknown : ∀ key, known key = true → ∀ c ∈ key, c.isLineBreak = false)
    (h : beginsWithBreak line = true) : isFaulty known line = true := by
  cases line with
  | nil => contradiction
  | cons c cs =>
      have hc : c.isLineBreak = true := h
      have hhash : c ≠ 0x23 := by
        intro heq
        rw [heq] at hc
        revert hc
        decide
      have heq : c ≠ 0x3d := by
        intro heq
        rw [heq] at hc
        revert hc
        decide
      have hskip : isSkipped (c :: cs) = false := by simp [isSkipped, hhash]
      rcases hpart : partition 0x3d (c :: cs) with ⟨key, found, value⟩
      cases found with
      | false => simp [isFaulty, settingOf, hskip, hpart]
      | true =>
          have hunknown : known key = false := by
            cases hk : known key with
            | false => rfl
            | true =>
                have hsplit := (partition_found.mp hpart).1
                cases key with
                | nil =>
                    rw [List.nil_append, List.cons.injEq] at hsplit
                    exact absurd hsplit.1 heq
                | cons d ds =>
                    rw [List.cons_append, List.cons.injEq] at hsplit
                    have hd := hknown _ hk d List.mem_cons_self
                    rw [← hsplit.1, hc] at hd
                    contradiction
          simp [isFaulty, settingOf, hskip, hpart, hunknown]

/-- Up to its first boundary a line is as faulty as all of it, and has its
key. -/
theorem settingOf_firstPiece
    (hknown : ∀ key, known key = true → ∀ c ∈ key, c.isLineBreak = false)
    (h : beginsWithBreak line = false) :
    isFaulty known line.firstPiece = isFaulty known line ∧
      (isFaulty known line = false →
        (settingOf line.firstPiece).map Prod.fst = (settingOf line).map Prod.fst) := by
  have hskip : isSkipped line.firstPiece = isSkipped line := by
    cases line with
    | nil => rfl
    | cons c cs =>
        have hc : c.isLineBreak = false := h
        simp [isSkipped, firstPiece, hc]
  have hsubset : ∀ {s : PyStr}, (0x3d : CodePoint) ∉ s → (0x3d : CodePoint) ∉ firstPiece s :=
    fun hs hmem => hs (List.takeWhile_subset _ hmem)
  have hnone : ∀ {s : PyStr}, (0x3d : CodePoint) ∉ s → settingOf s = none := by
    intro s hs
    rw [← partition_missing] at hs
    rcases hpart : partition 0x3d s with ⟨key, found, value⟩
    cases found with
    | false => simp [settingOf, hpart]
    | true => rw [hpart] at hs; contradiction
  cases hskipped : isSkipped line with
  | true =>
      rw [hskipped] at hskip
      rw [isFaulty_skipped hskip, isFaulty_skipped hskipped, settingOf_skipped hskip,
        settingOf_skipped hskipped]
      exact ⟨rfl, fun _ => rfl⟩
  | false =>
      rw [hskipped] at hskip
      rcases hpart : partition 0x3d line with ⟨key, found, value⟩
      cases found with
      | false =>
          have hmissing : (0x3d : CodePoint) ∉ line := partition_missing.mp (by rw [hpart])
          simp [isFaulty, hskip, hskipped, hnone hmissing, hnone (hsubset hmissing)]
      | true =>
          have hsetting : settingOf line = some (key, value) := by
            simp [settingOf, hskipped, hpart]
          obtain ⟨hsplit, hkey⟩ := partition_found.mp hpart
          by_cases hfree : ∀ c ∈ key, (!c.isLineBreak) = true
          · have hfirst : line.firstPiece = key ++ 0x3d :: firstPiece value := by
              have hsep : CodePoint.isLineBreak 0x3d = false := by decide
              rw [hsplit, firstPiece, List.takeWhile_append_of_pos hfree, firstPiece]
              simp [hsep]
            have hpartFirst := partition_found.mpr ⟨hfirst, hkey⟩
            have hsettingFirst : settingOf line.firstPiece = some (key, firstPiece value) := by
              simp [settingOf, hskip, hpartFirst]
            rw [isFaulty_setting hsetting, isFaulty_setting hsettingFirst, hsetting, hsettingFirst]
            exact ⟨rfl, fun _ => rfl⟩
          · -- the key holds a boundary: it is unknown, and the first piece ends before the `=`
            have hunknown : known key = false := by
              cases hk : known key with
              | false => rfl
              | true =>
                  exfalso
                  apply hfree
                  intro c hc
                  rw [hknown key hk c hc]
                  rfl
            have hfirst : line.firstPiece = firstPiece key := by
              have hproper : (key.takeWhile fun c => !c.isLineBreak).length ≠ key.length := by
                intro hlen
                apply hfree
                have hall := (List.takeWhile_prefix (l := key) fun c => !c.isLineBreak).eq_of_length
                  hlen
                exact List.takeWhile_eq_self_iff.mp hall
              rw [hsplit, firstPiece, List.takeWhile_append, if_neg hproper, firstPiece]
            have hfaulty : isFaulty known line = true := by
              rw [isFaulty_setting hsetting, hunknown]
              rfl
            have hfaultyFirst : isFaulty known line.firstPiece = true := by
              have hnoneFirst : settingOf line.firstPiece = none := by
                rw [hfirst]
                exact hnone (hsubset hkey)
              simp [isFaulty, hskip, hnoneFirst]
            rw [hfaulty, hfaultyFirst]
            exact ⟨rfl, fun hfalse => absurd hfalse (by decide)⟩

/-- The runtime reads the first pieces, if no line begins with a boundary. -/
theorem inOrder_firstPieces
    (hknown : ∀ key, known key = true → ∀ c ∈ key, c.isLineBreak = false) (lines : List PyStr) :
    InOrder known lines ↔
      (∀ line ∈ lines, beginsWithBreak line = false) ∧ InOrder known (lines.map firstPiece) := by
  have hkeys : (∀ line ∈ lines, beginsWithBreak line = false) →
      (∀ line ∈ lines, isFaulty known line = false) →
      settingKeys (lines.map firstPiece) = settingKeys lines := by
    intro hbegin hsound
    rw [settingKeys, settingKeys, List.map_filterMap, List.map_filterMap, List.filterMap_map]
    apply List.filterMap_congr
    intro line hline
    exact (settingOf_firstPiece hknown (hbegin line hline)).2 (hsound line hline)
  constructor
  · intro horder
    have hbegin : ∀ line ∈ lines, beginsWithBreak line = false := by
      intro line hline
      cases hb : beginsWithBreak line with
      | false => rfl
      | true =>
          have hfaulty := isFaulty_of_beginsWithBreak hknown hb
          rw [horder.1 line hline] at hfaulty
          contradiction
    refine ⟨hbegin, ?_, ?_⟩
    · rw [List.forall_mem_map]
      intro line hline
      rw [(settingOf_firstPiece hknown (hbegin line hline)).1]
      exact horder.1 line hline
    · rw [hkeys hbegin horder.1]
      exact horder.2
  · intro h
    obtain ⟨hbegin, hfirst, hnodup⟩ := h
    have hsound : ∀ line ∈ lines, isFaulty known line = false := by
      intro line hline
      rw [← (settingOf_firstPiece hknown (hbegin line hline)).1]
      exact List.forall_mem_map.mp hfirst line hline
    rw [hkeys hbegin hsound] at hnodup
    exact ⟨hsound, hnodup⟩

end Pieces

/-- The keys of the settings hold no boundary. -/
theorem isSetting_no_break {key : PyStr} (h : isSetting key = true) :
    ∀ c ∈ key, c.isLineBreak = false := by
  have hall : settings.all (fun setting => setting.key.all fun c => !c.isLineBreak) = true := by
    decide
  rw [isSetting, List.any_eq_true] at h
  obtain ⟨setting, hmem, hkey⟩ := h
  rw [beq_iff_eq] at hkey
  have hfree := List.all_eq_true.mp (List.all_eq_true.mp hall setting hmem)
  rw [hkey] at hfree
  intro c hc
  simpa using hfree c hc

/-- `read` raises where the lines are not in order. -/
theorem read_raises_iff {text : PyStr} (htext : text.Encodable) (path : PyStr) :
    (∃ message, read path (.data (text.flatMap CodePoint.utf8)) = .error (.configError message)) ↔
      ¬ InOrder isSetting (configLines text) := by
  have hread : read path (.data (text.flatMap CodePoint.utf8)) = parse text := by
    rw [read, Utf8.decodeEscape_utf8 htext]
  rw [hread, ← parse_isOk_iff]
  cases hparse : parse text with
  | ok r => simp
  | error e =>
      obtain ⟨message, he⟩ := parseLines_error hparse
      simp [he]

end Config

namespace Contracts

/-- The lines of the file, without line feeds and one carriage return at the
end, hold boundaries that change nothing: none begins a line of a file whose
pieces are in order, and if the lines are in order up to their first boundary,
then so is what follows the boundaries. -/
def BreaksHarmless (text : PyStr) : Prop :=
  let lines := Config.configLines text
  let pieces := lines.map firstPiece ++ lines.flatMap extraPieces
  ((∃ line ∈ lines, Config.beginsWithBreak line = true) →
    ¬ Config.InOrder Config.isSetting pieces) ∧
  ((∀ line ∈ lines, Config.beginsWithBreak line = false) →
    Config.InOrder Config.isSetting (lines.map firstPiece) →
    Config.InOrder Config.isSetting pieces)

/-- Without a boundary nothing can be harmed. -/
theorem breaksHarmless_of_no_break {text : PyStr}
    (h : ((Config.configLines text).all fun line => line.all fun c => !c.isLineBreak) = true) :
    BreaksHarmless text := by
  have hfree : ∀ line ∈ Config.configLines text, ∀ c ∈ line, c.isLineBreak = false := by
    intro line hline c hc
    simpa using List.all_eq_true.mp (List.all_eq_true.mp h line hline) c hc
  have hextra : (Config.configLines text).flatMap extraPieces = [] := by
    apply List.flatMap_eq_nil_iff.mpr
    intro line hline
    rw [extraPieces, pieces, splitWhere_free (hfree line hline), List.tail_cons]
  have hbegin : ∀ line ∈ Config.configLines text, Config.beginsWithBreak line ≠ true := by
    intro line hline hbreak
    cases line with
    | nil => contradiction
    | cons c cs =>
        have hc : c.isLineBreak = true := hbreak
        rw [hfree _ hline c List.mem_cons_self] at hc
        contradiction
  rw [BreaksHarmless, hextra, List.append_nil]
  exact ⟨fun hexists => absurd hexists.choose_spec.2 (hbegin _ hexists.choose_spec.1),
    fun _ horder => horder⟩

/-- What the check says about the file. -/
theorem driftConfigEnv_syntax_iff (c : ConfigContract) (file : PyStr)
    (hkeys : ∀ key, c.configKeys.contains key = Config.isSetting key) {text : PyStr}
    (htext : text.Encodable) :
    (∃ errors, driftConfigEnv c file (text.flatMap CodePoint.utf8) = .ok errors ∧
      ∃ e ∈ errors, e.code.isSyntax = true) ↔
    ¬ Config.InOrder Config.isSetting ((Config.configLines text).map firstPiece ++
      (Config.configLines text).flatMap extraPieces) := by
  have hknown : c.configKeys.contains = Config.isSetting := funext hkeys
  have hloop := hasSyntaxError_configLoop c file 1 [] (splitlines (universalNewlines text))
  rw [Config.inOrderAfter_nil_iff, hknown, Config.inOrder_splitlines] at hloop
  rw [← hloop]
  simp only [driftConfigEnv, Utf8.decodeStrict_utf8 htext, Except.ok.injEq, exists_eq_left']
  rw [← List.any_eq_true]
  change hasSyntaxError _ = true ↔ _
  simp only [hasSyntaxError_append]
  rw [hasSyntaxError_missingError rfl, hasSyntaxError_missingError rfl,
    hasSyntaxError_missingError rfl, Bool.or_false, Bool.or_false, Bool.or_false]

/-- **The check and the runtime refuse the same files exactly when the
boundaries inside lines change nothing.** -/
theorem config_check_agrees_iff (c : ConfigContract) (file path : PyStr)
    (hkeys : ∀ key, c.configKeys.contains key = Config.isSetting key) (text : PyStr)
    (htext : text.Encodable) :
    ((∃ errors, driftConfigEnv c file (text.flatMap CodePoint.utf8) = .ok errors ∧
        ∃ e ∈ errors, e.code.isSyntax = true) ↔
      ∃ message, Config.read path (.data (text.flatMap CodePoint.utf8)) =
        .error (.configError message)) ↔
    BreaksHarmless text := by
  rw [driftConfigEnv_syntax_iff c file hkeys htext, Config.read_raises_iff htext,
    not_iff_not, Config.inOrder_firstPieces (fun _ => Config.isSetting_no_break)
      (Config.configLines text), BreaksHarmless]
  have hfirst : Config.InOrder Config.isSetting ((Config.configLines text).map firstPiece ++
      (Config.configLines text).flatMap extraPieces) →
      Config.InOrder Config.isSetting ((Config.configLines text).map firstPiece) :=
    Config.inOrder_of_append
  by_cases hbegin : ∀ line ∈ Config.configLines text, Config.beginsWithBreak line = false
  · have hnone : ¬ ∃ line ∈ Config.configLines text, Config.beginsWithBreak line = true := by
      intro hexists
      obtain ⟨line, hline, hbreak⟩ := hexists
      rw [hbegin line hline] at hbreak
      contradiction
    constructor
    · intro hagree
      exact ⟨fun h => absurd h hnone, fun _ horder => hagree.mpr ⟨hbegin, horder⟩⟩
    · intro hharmless
      exact ⟨fun horder => ⟨hbegin, hfirst horder⟩, fun h => hharmless.2 h.1 h.2⟩
  · have hexists : ∃ line ∈ Config.configLines text, Config.beginsWithBreak line = true := by
      by_contra hnone
      apply hbegin
      intro line hline
      cases hbreak : Config.beginsWithBreak line with
      | false => rfl
      | true => exact absurd ⟨line, hline, hbreak⟩ hnone
    constructor
    · intro hagree
      exact ⟨fun _ horder => hbegin (hagree.mp horder).1, fun h => absurd h hbegin⟩
    · intro hharmless
      exact ⟨fun horder => absurd horder (hharmless.1 hexists), fun h => absurd h.1 hbegin⟩

/-- `contracts/runtime-contract.json`. -/
def shippedContract : ConfigContract where
  configKeys := [lit "SUSHIDA_URL", lit "NETWORK_CHECK_INTERVAL_SECONDS",
    lit "NETWORK_SETUP_GRACE_SECONDS", lit "AUDIO_VOLUME_PERCENT",
    lit "SCREEN_BRIGHTNESS_PERCENT", lit "SCREEN_ZOOM_PERCENT"]
  sushidaUrl := lit "https://sushida.net/play.html"
  networkCheckIntervalSeconds := lit "30"
  networkSetupGraceSeconds := lit "15"

/-- The contract names the settings of `config.py`. -/
theorem shippedContract_keys (key : PyStr) :
    shippedContract.configKeys.contains key = Config.isSetting key := by
  have hkeys : shippedContract.configKeys = Config.settings.map Config.Setting.key := rfl
  rw [hkeys, Config.isSetting, List.contains_eq_any_beq, List.any_map]
  simp only [Function.comp_def, BEq.comm]

/-- The settings of the shipped file that the contract names. -/
def shippedConfig : PyStr :=
  lit "SUSHIDA_URL=https://sushida.net/play.html\n" ++
    (lit "NETWORK_CHECK_INTERVAL_SECONDS=30\n" ++ lit "NETWORK_SETUP_GRACE_SECONDS=15\n")

/-- The shipped file is read alike. -/
theorem shipped_config_agrees :
    (∃ errors, driftConfigEnv shippedContract (lit "config.env")
        (shippedConfig.flatMap CodePoint.utf8) = .ok errors ∧
        ∃ e ∈ errors, e.code.isSyntax = true) ↔
      ∃ message, Config.read (lit "config.env") (.data (shippedConfig.flatMap CodePoint.utf8)) =
        .error (.configError message) :=
  (config_check_agrees_iff shippedContract (lit "config.env") (lit "config.env")
    shippedContract_keys shippedConfig (forall_of_all (by decide))).mpr
    (breaksHarmless_of_no_break (by decide))

/-- A vertical tab in front of the shipped file. -/
def tabbedConfig : PyStr := 0x0b :: shippedConfig

set_option maxRecDepth 8000 in
/-- The file passes the check, and the runtime does not start with it. -/
theorem tabbed_config_passes_check :
    (∀ key, shippedContract.configKeys.contains key = Config.isSetting key) ∧
    tabbedConfig.Encodable ∧
    ¬ ((∃ errors, driftConfigEnv shippedContract (lit "config.env")
          (tabbedConfig.flatMap CodePoint.utf8) = .ok errors ∧
          ∃ e ∈ errors, e.code.isSyntax = true) ↔
        ∃ message, Config.read (lit "config.env") (.data (tabbedConfig.flatMap CodePoint.utf8)) =
          .error (.configError message)) := by
  have hcheck : driftConfigEnv shippedContract (lit "config.env")
      (tabbedConfig.flatMap CodePoint.utf8) = .ok [] := rfl
  have hread : Config.read (lit "config.env") (.data (tabbedConfig.flatMap CodePoint.utf8)) =
      .error (.configError (lit "Unknown config key at line 1")) := rfl
  refine ⟨shippedContract_keys, forall_of_all (by decide), fun hagree => ?_⟩
  obtain ⟨errors, herrors, e, he, -⟩ := hagree.mpr ⟨_, hread⟩
  rw [hcheck, Except.ok.injEq] at herrors
  rw [← herrors] at he
  exact absurd he List.not_mem_nil

end Contracts

end SushidaOs
