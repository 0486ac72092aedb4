import SushidaOs.Navigation.Newest
import SushidaOs.RateLimit
import SushidaOs.Runtime.KioskSignal

/-!
# SushidaOs.Navigation.Watch

The main loop of `sushida-navigation-watch`, turn after turn.

A turn assesses the sessions and, where a tab is blocked and the last attempt is long
enough ago, tries to restart the kiosk.  The attempts are those of a rate limiter
(`SushidaOs.RateLimit`) over the turns that find a blocked tab (`times_watch`).  The
first attempt has to wait too: `last_term` starts at 0 on a clock that starts with
the machine.
-/

namespace SushidaOs

open PyStr Url RateLimit

namespace Navigation

/-- `DEFAULT_COOLDOWN_SECONDS`. -/
def defaultCooldownSeconds : Rat := 30

/-- What a turn of the loop meets. -/
structure Turn where
  listing : Option (List DirEntry)
  /-- `time.monotonic()` -/
  now : Rat
  kiosk : KioskSignal.Surroundings
  /-- `os.kill` does not fail. -/
  killable : Bool

/-- The stages that `_log` names. -/
inductive Stage where
  | start
  | blockedPage
  | kioskTerm
  | kioskTermUnavailable
  deriving DecidableEq, Repr

def Stage.name : Stage → PyStr
  | start => lit "start"
  | blockedPage => lit "blocked-page"
  | kioskTerm => lit "kiosk-term"
  | kioskTermUnavailable => lit "kiosk-term-unavailable"

/-- `_log` -/
def log (stage : Stage) : PyStr := lit "navigation-watch: stage=" ++ stage.name ++ lit "\n"

/-- A call of `restart_kiosk` and the process that was sent `SIGTERM`. -/
structure Attempt where
  time : Rat
  signalled : Option Nat
  deriving DecidableEq, Repr

/-- The loop between two turns; `attempts` records what it did. -/
structure Watching where
  lastTerm : Rat
  stdout : PyStr
  attempts : List Attempt

/-- How the turns end; an exception that `restart_kiosk` raises ends the program. -/
structure Watched where
  state : Watching
  raised : Option PyExc

section

variable (D : UrlData) (U : UnicodeData) (isDigit : CodePoint → Bool)

def Turn.isBlocked (t : Turn) : Bool := assessSessions D t.listing == .blocked

/-- The body of the loop. -/
def turn (s : Watching) (t : Turn) : Watched :=
  if t.isBlocked D then
    if defaultCooldownSeconds ≤ t.now - s.lastTerm then
      let stdout := s.stdout ++ log .blockedPage
      match KioskSignal.restartKiosk U isDigit t.kiosk with
      | .error e => ⟨{ s with stdout, attempts := s.attempts ++ [⟨t.now, none⟩] }, some e⟩
      | .ok target =>
          let signalled := if t.killable then target else none
          let stage := if signalled.isSome then Stage.kioskTerm else .kioskTermUnavailable
          ⟨{ lastTerm := t.now
             stdout := stdout ++ log stage
             attempts := s.attempts ++ [⟨t.now, signalled⟩] }, none⟩
    else ⟨s, none⟩
  else ⟨s, none⟩

/-- The turns one after another. -/
def turns (s : Watching) : List Turn → Watched
  | [] => ⟨s, none⟩
  | t :: ts =>
      match (turn D U isDigit s t).raised with
      | some e => ⟨(turn D U isDigit s t).state, some e⟩
      | none => turns (turn D U isDigit s t).state ts

/-- `main` after some turns. -/
def watch (ts : List Turn) : Watched := turns D U isDigit ⟨0, log .start, []⟩ ts

/-- The validated kiosk: its unit is active, and `pid` is the main process that systemctl
printed and passed the checks. -/
def IsKiosk (w : KioskSignal.Surroundings) (pid : Nat) : Prop :=
  w.isActive = 0 ∧ w.mainPid.status = 0 ∧ KioskSignal.PythonReads U isDigit w.mainPid.output pid ∧
    KioskSignal.Eligible w KioskSignal.namedForPython pid

/-- When a blocked tab was found. -/
def blockedTimes (ts : List Turn) : List Rat := (ts.filter fun t => t.isBlocked D).map Turn.now

end

section

variable {D : UrlData} {U : UnicodeData} {isDigit : CodePoint → Bool}

/-- A signal goes to the kiosk. -/
theorem isKiosk_of_restartKiosk {w : KioskSignal.Surroundings} {pid : Nat}
    (h : KioskSignal.restartKiosk U isDigit w = .ok (some pid)) : IsKiosk U isDigit w pid := by
  by_cases hactive : w.isActive = 0
  · by_cases hstatus : w.mainPid.status = 0
    · exact ⟨hactive, hstatus, (KioskSignal.restartKiosk_sends_iff hactive hstatus pid).mp h⟩
    · rw [KioskSignal.restartKiosk, if_neg (not_not.mpr hactive), if_pos hstatus] at h
      cases h
  · rw [KioskSignal.restartKiosk, if_pos hactive] at h
    cases h

/-- What a turn may do. -/
inductive TurnDoes (D : UrlData) (U : UnicodeData) (isDigit : CodePoint → Bool) (s : Watching)
    (t : Turn) : Watched → Prop where
  | unblocked (h : t.isBlocked D = false) : TurnDoes D U isDigit s t ⟨s, none⟩
  | early (h : t.isBlocked D = true)
      (hearly : afterPause defaultCooldownSeconds s.lastTerm t.now = false) :
      TurnDoes D U isDigit s t ⟨s, none⟩
  | raises (e : PyExc) (h : t.isBlocked D = true)
      (hdue : afterPause defaultCooldownSeconds s.lastTerm t.now = true) :
      TurnDoes D U isDigit s t ⟨⟨s.lastTerm, s.stdout ++ log .blockedPage,
        s.attempts ++ [⟨t.now, none⟩]⟩, some e⟩
  | restarts (signalled : Option Nat) (stage : Stage) (h : t.isBlocked D = true)
      (hdue : afterPause defaultCooldownSeconds s.lastTerm t.now = true)
      (hsignalled : ∀ pid, signalled = some pid → IsKiosk U isDigit t.kiosk pid) :
      TurnDoes D U isDigit s t ⟨⟨t.now, s.stdout ++ log .blockedPage ++ log stage,
        s.attempts ++ [⟨t.now, signalled⟩]⟩, none⟩

theorem turn_does (s : Watching) (t : Turn) :
    TurnDoes D U isDigit s t (turn D U isDigit s t) := by
  rw [turn]
  cases hblocked : t.isBlocked D with
  | false => exact .unblocked hblocked
  | true =>
      rw [if_pos rfl]
      by_cases hdue : defaultCooldownSeconds ≤ t.now - s.lastTerm
      · rw [if_pos hdue]
        cases hrestart : KioskSignal.restartKiosk U isDigit t.kiosk with
        | error e => exact .raises e hblocked (decide_eq_true hdue)
        | ok target =>
            refine .restarts _ _ hblocked (decide_eq_true hdue) fun pid hpid => ?_
            split at hpid
            · exact isKiosk_of_restartKiosk (hrestart.trans (congrArg _ hpid))
            · cases hpid
      · rw [if_neg hdue]
        exact .early hblocked (decide_eq_false hdue)

/-! ## runs -/

theorem blockedTimes_cons (t : Turn) (ts : List Turn) :
    blockedTimes D (t :: ts) =
      if t.isBlocked D then t.now :: blockedTimes D ts else blockedTimes D ts := by
  rw [blockedTimes, List.filter_cons]
  split <;> rfl

/-- The attempts are those of the rate limiter, up to an exception. -/
theorem times_turns (s : Watching) (ts : List Turn) :
    ∃ seen rest, ts = seen ++ rest ∧ ((turns D U isDigit s ts).raised = none → rest = []) ∧
      (turns D U isDigit s ts).state.attempts.map Attempt.time =
        s.attempts.map Attempt.time ++
          taken (afterPause defaultCooldownSeconds) s.lastTerm (blockedTimes D seen) := by
  induction ts generalizing s with
  | nil => exact ⟨[], [], rfl, fun _ => rfl, by simp [turns, blockedTimes, taken]⟩
  | cons t ts ih =>
      rw [turns]
      have hdoes := @turn_does D U isDigit s t
      generalize turn D U isDigit s t = after at hdoes
      cases hdoes with
      | unblocked h =>
          obtain ⟨seen, rest, rfl, hrest, htimes⟩ := ih s
          refine ⟨t :: seen, rest, rfl, hrest, ?_⟩
          rw [blockedTimes_cons, h, htimes]
          rfl
      | early h hearly =>
          obtain ⟨seen, rest, rfl, hrest, htimes⟩ := ih s
          refine ⟨t :: seen, rest, rfl, hrest, ?_⟩
          rw [blockedTimes_cons, h, if_pos rfl, taken, hearly, htimes]
          rfl
      | raises e h hdue =>
          refine ⟨[t], ts, rfl, fun hnone => by contradiction, ?_⟩
          rw [blockedTimes_cons, h, if_pos rfl, taken, hdue]
          simp [blockedTimes, taken]
      | restarts signalled stage h hdue hsignalled =>
          obtain ⟨seen, rest, rfl, hrest, htimes⟩ := ih ⟨t.now, s.stdout ++ log .blockedPage ++
            log stage, s.attempts ++ [⟨t.now, signalled⟩]⟩
          refine ⟨t :: seen, rest, rfl, hrest, ?_⟩
          rw [blockedTimes_cons, h, if_pos rfl, taken, hdue, if_pos rfl, htimes, List.map_append,
            List.append_assoc]
          rfl

theorem raised_front {s : Watching} {front back : List Turn}
    (h : (turns D U isDigit s (front ++ back)).raised = none) :
    (turns D U isDigit s front).raised = none := by
  induction front generalizing s with
  | nil => rfl
  | cons t front ih =>
      rw [List.cons_append, turns] at h
      rw [turns]
      cases hraised : (turn D U isDigit s t).raised with
      | some e => rw [hraised] at h; contradiction
      | none => rw [hraised] at h; exact ih h

/-- Without an exception all turns count. -/
theorem times_watch {ts : List Turn} (h : (watch D U isDigit ts).raised = none) :
    (watch D U isDigit ts).state.attempts.map Attempt.time =
      taken (afterPause defaultCooldownSeconds) 0 (blockedTimes D ts) := by
  obtain ⟨seen, rest, rfl, hrest, htimes⟩ :=
    @times_turns D U isDigit ⟨0, log .start, []⟩ ts
  rw [hrest h, List.append_nil]
  rw [hrest h, List.append_nil] at htimes
  exact htimes

/-- An attempt was made in a turn that found a blocked tab, and signals only the kiosk. -/
def FromTurn (D : UrlData) (U : UnicodeData) (isDigit : CodePoint → Bool) (ts : List Turn)
    (a : Attempt) : Prop :=
  ∃ t ∈ ts, t.now = a.time ∧ assessSessions D t.listing = .blocked ∧
    ∀ pid, a.signalled = some pid → IsKiosk U isDigit t.kiosk pid

theorem turn_fromTurn (s : Watching) (t : Turn) (ts : List Turn)
    (hs : ∀ a ∈ s.attempts, FromTurn D U isDigit ts a) (ht : t ∈ ts) :
    ∀ a ∈ (turn D U isDigit s t).state.attempts, FromTurn D U isDigit ts a := by
  intro a ha
  have hdoes := @turn_does D U isDigit s t
  generalize turn D U isDigit s t = after at hdoes ha
  cases hdoes with
  | unblocked h => exact hs a ha
  | early h hearly => exact hs a ha
  | raises e h hdue =>
      rcases List.mem_append.mp ha with ha | ha
      · exact hs a ha
      · obtain rfl := List.mem_singleton.mp ha
        exact ⟨t, ht, rfl, beq_iff_eq.mp h, fun pid hpid => by cases hpid⟩
  | restarts signalled stage h hdue hsignalled =>
      rcases List.mem_append.mp ha with ha | ha
      · exact hs a ha
      · obtain rfl := List.mem_singleton.mp ha
        exact ⟨t, ht, rfl, beq_iff_eq.mp h, hsignalled⟩

theorem turns_fromTurn (s : Watching) (ts all : List Turn)
    (hs : ∀ a ∈ s.attempts, FromTurn D U isDigit all a) (hall : ∀ t ∈ ts, t ∈ all) :
    ∀ a ∈ (turns D U isDigit s ts).state.attempts, FromTurn D U isDigit all a := by
  induction ts generalizing s with
  | nil => exact hs
  | cons t ts ih =>
      have hnext := @turn_fromTurn D U isDigit s t all hs
        (hall t List.mem_cons_self)
      rw [turns]
      cases (turn D U isDigit s t).raised with
      | some e => exact hnext
      | none => exact ih _ hnext fun t' ht' => hall t' (List.mem_cons_of_mem t ht')

/-- Only stages are printed. -/
theorem turns_stdout (s : Watching) (ts : List Turn) :
    ∃ stages : List Stage,
      (turns D U isDigit s ts).state.stdout = s.stdout ++ stages.flatMap log := by
  induction ts generalizing s with
  | nil => exact ⟨[], by simp [turns]⟩
  | cons t ts ih =>
      rw [turns]
      have hdoes := @turn_does D U isDigit s t
      generalize turn D U isDigit s t = after at hdoes
      cases hdoes with
      | unblocked h => exact ih s
      | early h hearly => exact ih s
      | raises e h hdue => exact ⟨[.blockedPage], by simp⟩
      | restarts signalled stage h hdue hsignalled =>
          obtain ⟨stages, hstages⟩ := ih ⟨t.now, s.stdout ++ log .blockedPage ++ log stage,
            s.attempts ++ [⟨t.now, signalled⟩]⟩
          exact ⟨.blockedPage :: stage :: stages, hstages.trans (by simp)⟩

end

/-- **Restarts are paced**: on every run the attempts are the cooldown apart and away from
the start of the clock, each is made where a tab is blocked and signals nothing but the
process that systemctl printed and the checks passed, a blocked tab never waits longer
than the cooldown after the last attempt or the start of the clock, and the log names
stages only. -/
theorem restarts_paced (D : UrlData) (U : UnicodeData) (isDigit : CodePoint → Bool)
    (ts : List Turn) :
    let run := watch D U isDigit ts
    let times := run.state.attempts.map Attempt.time
    ((0 :: times).Pairwise fun a b => a + defaultCooldownSeconds ≤ b) ∧
      (∀ a ∈ run.state.attempts, FromTurn D U isDigit ts a) ∧
      (∀ stop, (∀ t ∈ ts, t.now ≤ stop) → 0 ≤ stop →
        times.length * defaultCooldownSeconds ≤ stop) ∧
      (run.raised = none → ∀ before t after, ts = before ++ t :: after → t.isBlocked D = true →
        t.now ∈ times ∨ ∃ r ∈ 0 :: (watch D U isDigit before).state.attempts.map Attempt.time,
          t.now < r + defaultCooldownSeconds) ∧
      ∃ stages : List Stage, run.state.stdout = stages.flatMap log := by
  intro run times
  obtain ⟨seen, rest, hsplit, -, htimes⟩ :=
    @times_turns D U isDigit ⟨0, log .start, []⟩ ts
  have hpause : 0 ≤ defaultCooldownSeconds := by decide
  have htaken : times = taken (afterPause defaultCooldownSeconds) 0 (blockedTimes D seen) := htimes
  refine ⟨?_, turns_fromTurn _ ts ts (by simp) fun t ht => ht, ?_, ?_, ?_⟩
  · rw [htaken]
    exact pairwise_taken hpause 0 _
  · intro stop hstop hzero
    have hlength := @length_taken_le defaultCooldownSeconds 0 (blockedTimes D seen)
    rw [zero_add, ← htaken] at hlength
    refine hlength.trans ?_
    rcases List.mem_cons.mp (latest_mem (afterPause defaultCooldownSeconds) 0
      (blockedTimes D seen)) with heq | hmem
    · rwa [heq]
    · have hwanted := (sublist_taken _ _ _).subset hmem
      obtain ⟨t, ht, hnow⟩ := List.mem_map.mp hwanted
      rw [← hnow]
      exact hstop t (hsplit ▸ List.mem_append_left rest (List.mem_filter.mp ht).1)
  · rintro hnone before t after rfl hblocked
    have hall : blockedTimes D (before ++ t :: after) =
        blockedTimes D before ++ t.now :: blockedTimes D after := by
      rw [blockedTimes, List.filter_append, List.filter_cons_of_pos hblocked, List.map_append,
        List.map_cons]
      rfl
    have hfront : (watch D U isDigit before).raised = none := raised_front hnone
    have hwhole : times = taken (afterPause defaultCooldownSeconds) 0
        (blockedTimes D (before ++ t :: after)) := times_watch hnone
    rw [times_watch hfront, hwhole, hall]
    rcases recent_of_wanted (afterPause defaultCooldownSeconds) 0 with hnow | ⟨r, hr, hearly⟩
    · exact .inl hnow
    · refine .inr ⟨r, hr, ?_⟩
      rw [afterPause, decide_eq_false_iff_not, not_le] at hearly
      exact sub_lt_iff_lt_add'.mp hearly
  · obtain ⟨stages, hstages⟩ := @turns_stdout D U isDigit
      ⟨0, log .start, []⟩ ts
    exact ⟨.start :: stages, hstages⟩

end Navigation

end SushidaOs
