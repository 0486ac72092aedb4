import Mathlib.Tactic.NormNum
import SushidaOs.RateLimit
import SushidaOs.Runtime.InputWatch

/-!
# SushidaOs.Runtime.Hotkeys

The main loop of `sushida-input-watch`: the boot defaults, the devices and the keys.

What the daemon does is kept in two records: `boot` for the boot defaults, at the
start and whenever the devices are opened again, and `acted` for the keys.  Every
effect is one of a fixed table (`Effect.Allowed`), whatever the events say, and the
keys act at the pace of a rate limiter (`SushidaOs.RateLimit`).
-/

namespace SushidaOs

open PyStr RateLimit

namespace InputWatch

def volumeStepPercent : Int := 5

/-- `MIN_ACTION_INTERVAL_SECONDS` and `DEVICE_RESCAN_SECONDS`. -/
def minActionIntervalSeconds : Rat := 15 / 100
def deviceRescanSeconds : Rat := 60

def mixerCandidates : List PyStr := [lit "Master", lit "PCM", lit "Speaker", lit "Headphone"]

/-- The numbers of `evdev.ecodes`. -/
structure Codes where
  evKey : Nat
  keyVolumeUp : Nat
  keyVolumeDown : Nat
  keyMute : Nat
  keyBrightnessUp : Nat
  keyBrightnessDown : Nat

inductive Action where
  | volumeUp
  | volumeDown
  | volumeMuteToggle
  | brightnessUp
  | brightnessDown
  deriving DecidableEq, Repr

def Action.name : Action → PyStr
  | volumeUp => lit "volume-up"
  | volumeDown => lit "volume-down"
  | volumeMuteToggle => lit "volume-mute-toggle"
  | brightnessUp => lit "brightness-up"
  | brightnessDown => lit "brightness-down"

/-- `_watched_actions`. -/
def watchedActions (codes : Codes) : List (Nat × Action) :=
  [(codes.keyVolumeUp, .volumeUp), (codes.keyVolumeDown, .volumeDown),
    (codes.keyMute, .volumeMuteToggle), (codes.keyBrightnessUp, .brightnessUp),
    (codes.keyBrightnessDown, .brightnessDown)]

/-- `watched.get(code)`; in a dictionary the last entry of a key stays. -/
def watchedGet (codes : Codes) (code : Nat) : Option Action :=
  (watchedActions codes).reverse.lookup code

/-- What the daemon meets when it acts: how `run_amixer` answers, the backlights and
`config.env`. -/
structure Place where
  amixer : List PyStr → Bool
  root : Option (List Backlight)
  config : Config.FileRead

inductive Effect where
  /-- `[AMIXER, "-q", *args]` -/
  | amixer (args : List PyStr)
  /-- A write among the backlights that were there. -/
  | brightness (root : Option (List Backlight)) (write : BrightnessWrite)
  | print (line : PyStr)
  deriving DecidableEq, Repr

/-- A key that acted. -/
structure Acted where
  time : Rat
  action : Action
  effects : List Effect

/-- The daemon between two steps; `boot`, `heard` and `acted` record what it did and
the watched keys it saw. -/
structure Daemon where
  /-- `devices` is not empty. -/
  devices : Bool
  lastAction : Rat
  lastRescan : Rat
  mixerControl : PyStr
  bootBrightnessApplied : Bool
  boot : List Effect
  heard : List Rat
  acted : List Acted

/-! ## actions -/

/-- The action functions: the effect and the answer. -/
def perform (U : UnicodeData) (control : PyStr) (place : Place) : Action → List Effect × Bool
  | .volumeUp =>
      let args := [lit "set", control, ofInt volumeStepPercent ++ lit "%+", lit "unmute"]
      ([.amixer args], place.amixer args)
  | .volumeDown =>
      let args := [lit "set", control, ofInt volumeStepPercent ++ lit "%-", lit "unmute"]
      ([.amixer args], place.amixer args)
  | .volumeMuteToggle =>
      let args := [lit "set", control, lit "toggle"]
      ([.amixer args], place.amixer args)
  | .brightnessUp => stepped place (stepBrightness U place.root 1)
  | .brightnessDown => stepped place (stepBrightness U place.root (-1))
where
  stepped (place : Place) : Option BrightnessWrite → List Effect × Bool
    | none => ([], false)
    | some write => ([.brightness place.root write], true)

/-- `print(f"action={name} result={outcome}")` -/
def actionLine (action : Action) (ok : Bool) : PyStr :=
  lit "action=" ++ action.name ++ lit " result=" ++ (if ok then lit "ok" else lit "failed") ++
    lit "\n"

/-- An input event, and what the daemon meets when it handles it. -/
structure KeyEvent where
  type : Nat
  code : Nat
  value : Int
  /-- `time.monotonic()` -/
  now : Rat
  place : Place

/-- The body of the loop over `events`. -/
def handleEvent (U : UnicodeData) (codes : Codes) (d : Daemon) (e : KeyEvent) : Daemon :=
  if e.type ≠ codes.evKey ∨ ¬ (e.value = 1 ∨ e.value = 2) then d
  else match watchedGet codes e.code with
    | none => d
    | some action =>
        let d := { d with heard := d.heard ++ [e.now] }
        if e.now - d.lastAction < minActionIntervalSeconds then d
        else
          let done := perform U d.mixerControl e.place action
          { d with
            lastAction := e.now
            acted := d.acted ++
              [⟨e.now, action, done.1 ++ [.print (actionLine action done.2)]⟩] }

/-- The loop over `ready`; `none` is an `OSError` of `device.read()`. -/
def handleReady (U : UnicodeData) (codes : Codes) (d : Daemon) :
    List (Option (List KeyEvent)) → Daemon
  | [] => d
  | none :: _ => { d with devices := false }
  | some events :: rest => handleReady U codes (events.foldl (handleEvent U codes) d) rest

/-! ## boot defaults -/

/-- `run_amixer` for the boot defaults. -/
def bootAmixer (d : Daemon) (args : List PyStr) : Daemon :=
  { d with boot := d.boot ++ [.amixer args] }

/-- The loop of `select_mixer_control`. -/
def probeControls (place : Place) (d : Daemon) : List PyStr → Daemon
  | [] => d
  | name :: names =>
      let d := bootAmixer d [lit "get", name]
      if place.amixer [lit "get", name] then { d with mixerControl := name }
      else probeControls place d names

/-- `select_mixer_control`. -/
def selectMixerControl (place : Place) (d : Daemon) : Daemon :=
  probeControls place { d with mixerControl := lit "Master" } mixerCandidates

/-- `print("boot-brightness=applied")` -/
def bootLine : PyStr := lit "boot-brightness=applied\n"

/-- A step and the exception that ends the program. -/
structure Ran where
  daemon : Daemon
  raised : Option BootExc

/-- `ensure_boot_brightness`. -/
def ensureBootBrightness (U : UnicodeData) (path : PyStr) (place : Place) (d : Daemon) : Ran :=
  if d.bootBrightnessApplied then ⟨d, none⟩
  else match configuredBrightnessPercent U path place.config with
    | .error e => ⟨d, some e⟩
    | .ok percent =>
        match setBrightnessPercent U place.root percent with
        | none => ⟨d, none⟩
        | some write =>
            ⟨{ d with
              bootBrightnessApplied := true
              boot := d.boot ++ [.brightness place.root write, .print bootLine] }, none⟩

/-- `apply_boot_defaults`. -/
def applyBootDefaults (U : UnicodeData) (path : PyStr) (place : Place) (d : Daemon) : Ran :=
  let d := selectMixerControl place d
  let d := bootAmixer d [lit "set", d.mixerControl, lit "unmute"]
  let d := bootAmixer d [lit "set", lit "Speaker", lit "unmute"]
  ensureBootBrightness U path place d

/-! ## the loop -/

/-- What a turn of the main loop meets. -/
structure Turn where
  now : Rat
  /-- `_open_devices` finds one. -/
  opened : Bool
  place : Place
  /-- The devices that are ready and what they read; `none` is an `OSError`. -/
  select : Option (List (Option (List KeyEvent)))

/-- From `select` to the end of the body. -/
def readKeys (U : UnicodeData) (codes : Codes) (d : Daemon) (t : Turn) : Daemon :=
  match t.select with
  | none => { d with devices := false }
  | some ready => handleReady U codes d ready

/-- The body of the main loop. -/
def turn (U : UnicodeData) (codes : Codes) (path : PyStr) (d : Daemon) (t : Turn) : Ran :=
  if !d.devices || deviceRescanSeconds ≤ t.now - d.lastRescan then
    let ran := ensureBootBrightness U path t.place
      { d with devices := t.opened, lastRescan := t.now }
    match ran.raised with
    | some e => ⟨ran.daemon, some e⟩
    | none =>
        if t.opened then ⟨readKeys U codes ran.daemon t, none⟩ else ⟨ran.daemon, none⟩
  else ⟨readKeys U codes d t, none⟩

def turns (U : UnicodeData) (codes : Codes) (path : PyStr) (d : Daemon) : List Turn → Ran
  | [] => ⟨d, none⟩
  | t :: ts =>
      match (turn U codes path d t).raised with
      | some e => ⟨(turn U codes path d t).daemon, some e⟩
      | none => turns U codes path (turn U codes path d t).daemon ts

/-- Before `main`. -/
def loaded : Daemon where
  devices := false
  lastAction := 0
  lastRescan := 0
  mixerControl := lit "Master"
  bootBrightnessApplied := false
  boot := []
  heard := []
  acted := []

/-- `main` after some turns, as root and with `evdev`. -/
def main (U : UnicodeData) (codes : Codes) (path : PyStr) (place : Place) (opened : Bool)
    (now : Rat) (ts : List Turn) : Ran :=
  let ran := applyBootDefaults U path place loaded
  match ran.raised with
  | some e => ⟨ran.daemon, some e⟩
  | none => turns U codes path { ran.daemon with devices := opened, lastRescan := now } ts

/-! ## what the daemon can do -/

/-- The arguments that `amixer` is called with. -/
def mixerCalls : List (List PyStr) :=
  mixerCandidates.flatMap fun control =>
    [[lit "get", control], [lit "set", control, lit "5%+", lit "unmute"],
      [lit "set", control, lit "5%-", lit "unmute"], [lit "set", control, lit "toggle"],
      [lit "set", control, lit "unmute"]]

/-- The effects that are possible at all. -/
def Effect.Allowed (U : UnicodeData) : Effect → Prop
  | amixer args => args ∈ mixerCalls
  | brightness root write => ∃ device maxRaw, backlight U root = some (device, maxRaw) ∧
      write.device = device.name ∧ 1 ≤ floorRaw maxRaw ∧ floorRaw maxRaw ≤ write.raw ∧
      write.raw ≤ maxRaw
  | print line => line = bootLine ∨ ∃ action ok, line = actionLine action ok

/-- The effect is a write among the backlights. -/
def Effect.isWrite : Effect → Bool
  | brightness _ _ => true
  | _ => false

/-- What holds between the steps. -/
structure Kept (U : UnicodeData) (d : Daemon) : Prop where
  control : d.mixerControl ∈ mixerCandidates
  boot : ∀ e ∈ d.boot, e.Allowed U
  acted : ∀ a ∈ d.acted, ∀ e ∈ a.effects, e.Allowed U
  times : d.acted.map Acted.time = taken (afterPause minActionIntervalSeconds) 0 d.heard
  last : d.lastAction = latest (afterPause minActionIntervalSeconds) 0 d.heard
  once : d.boot.countP Effect.isWrite = if d.bootBrightnessApplied then 1 else 0
  line : d.boot.count (.print bootLine) = if d.bootBrightnessApplied then 1 else 0

section

variable {U : UnicodeData} {codes : Codes} {path : PyStr} {d : Daemon}

/-- The calls of one control are in the table. -/
theorem mem_mixerCalls {control : PyStr} (h : control ∈ mixerCandidates) {args : List PyStr}
    (hargs : args ∈ [[lit "get", control], [lit "set", control, lit "5%+", lit "unmute"],
      [lit "set", control, lit "5%-", lit "unmute"], [lit "set", control, lit "toggle"],
      [lit "set", control, lit "unmute"]]) : args ∈ mixerCalls :=
  List.mem_flatMap.mpr ⟨control, h, hargs⟩

/-- What is written is between the floor and the maximum. -/
theorem allowed_write {root : Option (List Backlight)} {device : Backlight} {maxRaw percent : Int}
    (h : backlight U root = some (device, maxRaw)) {write : BrightnessWrite}
    (hwrite : writeBrightness device maxRaw percent = some write) :
    (Effect.brightness root write).Allowed U := by
  have hmax := backlight_pos h
  rw [writeBrightness] at hwrite
  split at hwrite
  · obtain rfl := Option.some.inj hwrite
    obtain ⟨hlo, hhi⟩ := clampBrightnessRaw_bounds hmax percent
    exact ⟨device, maxRaw, h, rfl, le_max_left _ _, hlo, hhi⟩
  · contradiction

/-- So is what is written at boot. -/
theorem allowed_setBrightnessPercent {root : Option (List Backlight)} {percent : Int}
    {write : BrightnessWrite} (h : setBrightnessPercent U root percent = some write) :
    (Effect.brightness root write).Allowed U := by
  rw [setBrightnessPercent] at h
  cases hlight : backlight U root with
  | none => rw [hlight] at h; contradiction
  | some light => rw [hlight] at h; exact allowed_write hlight h

/-- So is what a key writes. -/
theorem allowed_stepBrightness {root : Option (List Backlight)} {direction : Int}
    {write : BrightnessWrite} (h : stepBrightness U root direction = some write) :
    (Effect.brightness root write).Allowed U := by
  rw [stepBrightness] at h
  cases hlight : backlight U root with
  | none => rw [hlight] at h; contradiction
  | some light =>
      rw [hlight] at h
      simp only at h
      cases hcurrent : readRaw U light.1.brightness with
      | none => rw [hcurrent] at h; contradiction
      | some current => rw [hcurrent] at h; exact allowed_write hlight h

/-- A key does nothing that is not allowed. -/
theorem allowed_perform {control : PyStr} (hcontrol : control ∈ mixerCandidates) (place : Place)
    (action : Action) : ∀ e ∈ (perform U control place action).1, e.Allowed U := by
  have hstepped : ∀ direction, ∀ e ∈ (perform.stepped place
      (stepBrightness U place.root direction)).1, e.Allowed U := by
    intro direction e he
    cases hstep : stepBrightness U place.root direction with
    | none => rw [hstep] at he; contradiction
    | some write =>
        rw [hstep] at he
        obtain rfl := List.mem_singleton.mp he
        exact allowed_stepBrightness hstep
  have hup : ofInt volumeStepPercent ++ lit "%+" = lit "5%+" := by decide
  have hdown : ofInt volumeStepPercent ++ lit "%-" = lit "5%-" := by decide
  intro e he
  cases action with
  | volumeUp =>
      obtain rfl := List.mem_singleton.mp he
      exact mem_mixerCalls hcontrol (by rw [hup]; simp)
  | volumeDown =>
      obtain rfl := List.mem_singleton.mp he
      exact mem_mixerCalls hcontrol (by rw [hdown]; simp)
  | volumeMuteToggle =>
      obtain rfl := List.mem_singleton.mp he
      exact mem_mixerCalls hcontrol (by simp)
  | brightnessUp => exact hstepped 1 e he
  | brightnessDown => exact hstepped (-1) e he

/-- One event. -/
theorem kept_handleEvent (h : Kept U d) (e : KeyEvent) : Kept U (handleEvent U codes d e) := by
  rw [handleEvent]
  split
  · exact h
  cases haction : watchedGet codes e.code with
  | none => exact h
  | some action =>
      have hdue : afterPause minActionIntervalSeconds d.lastAction e.now =
          decide (minActionIntervalSeconds ≤ e.now - d.lastAction) := rfl
      simp only
      split
      · next hearly =>
          rw [decide_eq_false (not_le.mpr hearly), h.last] at hdue
          refine ⟨h.control, h.boot, h.acted, ?_, ?_, h.once, h.line⟩
          · rw [taken_concat, hdue, if_neg Bool.false_ne_true, List.append_nil]
            exact h.times
          · rw [latest_concat, hdue, if_neg Bool.false_ne_true]
            exact h.last
      · next hlate =>
          rw [decide_eq_true (not_lt.mp hlate), h.last] at hdue
          refine ⟨h.control, h.boot, ?_, ?_, ?_, h.once, h.line⟩
          · intro a ha f hf
            rcases List.mem_append.mp ha with ha | ha
            · exact h.acted a ha f hf
            obtain rfl := List.mem_singleton.mp ha
            rcases List.mem_append.mp hf with hf | hf
            · exact allowed_perform h.control e.place action f hf
            · obtain rfl := List.mem_singleton.mp hf
              exact .inr ⟨action, _, rfl⟩
          · rw [taken_concat, hdue, if_pos rfl, List.map_append, h.times]
            rfl
          · rw [latest_concat, hdue, if_pos rfl]

theorem Kept.withDevices (h : Kept U d) (devices : Bool) (lastRescan : Rat) :
    Kept U { d with devices := devices, lastRescan := lastRescan } :=
  ⟨h.control, h.boot, h.acted, h.times, h.last, h.once, h.line⟩

theorem Kept.withControl (h : Kept U d) {control : PyStr} (hcontrol : control ∈ mixerCandidates) :
    Kept U { d with mixerControl := control } :=
  ⟨hcontrol, h.boot, h.acted, h.times, h.last, h.once, h.line⟩

/-- The events of the devices that are ready. -/
theorem kept_handleReady (h : Kept U d) (ready : List (Option (List KeyEvent))) :
    Kept U (handleReady U codes d ready) := by
  induction ready generalizing d with
  | nil => exact h
  | cons read ready ih =>
      cases read with
      | none => exact h.withDevices false d.lastRescan
      | some events =>
          refine ih ?_
          induction events generalizing d with
          | nil => exact h
          | cons e events ih' => exact ih' (kept_handleEvent h e)

/-- From `select` to the end of a turn. -/
theorem kept_readKeys (h : Kept U d) (t : Turn) : Kept U (readKeys U codes d t) := by
  rw [readKeys]
  split
  · exact h.withDevices false d.lastRescan
  · exact kept_handleReady h _

/-- A call at boot. -/
theorem kept_bootAmixer (h : Kept U d) {args : List PyStr} (hargs : args ∈ mixerCalls) :
    Kept U (bootAmixer d args) := by
  refine ⟨h.control, ?_, h.acted, h.times, h.last, ?_, ?_⟩
  · intro e he
    rcases List.mem_append.mp he with he | he
    · exact h.boot e he
    · obtain rfl := List.mem_singleton.mp he
      exact hargs
  · rw [bootAmixer, List.countP_append, h.once]
    rfl
  · rw [bootAmixer, List.count_append, h.line, List.count_singleton]
    simp

/-- What was written at boot is not written again. -/
theorem kept_ensureBootBrightness (h : Kept U d) (place : Place) :
    Kept U (ensureBootBrightness U path place d).daemon := by
  rw [ensureBootBrightness]
  split
  · exact h
  · next hnew =>
      split
      · exact h
      · split
        · exact h
        · next write hwrite =>
            refine ⟨h.control, ?_, h.acted, h.times, h.last, ?_, ?_⟩
            · intro e he
              rcases List.mem_append.mp he with he | he
              · exact h.boot e he
              rcases List.mem_pair.mp he with rfl | rfl
              · exact allowed_setBrightnessPercent hwrite
              · exact .inl rfl
            · rw [List.countP_append, h.once, if_neg hnew]
              rfl
            · rw [List.count_append, h.line, if_neg hnew]
              simp

/-- The controls are asked for one after another. -/
theorem kept_probeControls (h : Kept U d) (place : Place) {names : List PyStr}
    (hnames : ∀ name ∈ names, name ∈ mixerCandidates) : Kept U (probeControls place d names) := by
  induction names generalizing d with
  | nil => exact h
  | cons name names ih =>
      have hname := hnames name List.mem_cons_self
      have hnext := kept_bootAmixer h (mem_mixerCalls hname List.mem_cons_self)
      rw [probeControls]
      split
      · exact hnext.withControl hname
      · exact ih hnext fun other hother => hnames other (List.mem_cons_of_mem name hother)

/-- The defaults at boot. -/
theorem kept_applyBootDefaults (h : Kept U d) (place : Place) :
    Kept U (applyBootDefaults U path place d).daemon := by
  have hselected : Kept U (selectMixerControl place d) :=
    kept_probeControls (h.withControl (by decide)) place fun _ => id
  refine kept_ensureBootBrightness (kept_bootAmixer (kept_bootAmixer hselected ?_) ?_) place
  · exact mem_mixerCalls hselected.control (by simp)
  · exact @mem_mixerCalls (lit "Speaker") (by decide) _ (by simp)

/-- One turn of the loop. -/
theorem kept_turn (h : Kept U d) (t : Turn) : Kept U (turn U codes path d t).daemon := by
  rw [turn]
  split
  · have hboot := @kept_ensureBootBrightness U path _ (h.withDevices t.opened t.now) t.place
    simp only
    split
    · exact hboot
    · split
      · exact kept_readKeys hboot t
      · exact hboot
  · exact kept_readKeys h t

/-- All turns of the loop. -/
theorem kept_turns (h : Kept U d) (ts : List Turn) : Kept U (turns U codes path d ts).daemon := by
  induction ts generalizing d with
  | nil => exact h
  | cons t ts ih =>
      rw [turns]
      split
      · exact kept_turn h t
      · exact ih (kept_turn h t)

/-- **The run**, turn after turn. -/
theorem kept_main (place : Place) (opened : Bool) (now : Rat) (ts : List Turn) :
    Kept U (main U codes path place opened now ts).daemon := by
  have hloaded : Kept U loaded :=
    ⟨by decide, by simp [loaded], by simp [loaded], rfl, rfl, rfl, rfl⟩
  have hboot := @kept_applyBootDefaults U path _ hloaded place
  rw [main]
  split
  · exact hboot
  · exact kept_turns (hboot.withDevices opened now) ts

end

/-- **The daemon is confined**: whatever the devices send and the tools answer, it runs
`amixer` only with the arguments of its table, leaves every panel between its floor and
its maximum, prints fixed lines, applies the boot brightness once at most, and lets the
watched keys act as the rate limiter does, at least the interval apart. -/
theorem daemon_confined (U : UnicodeData) (codes : Codes) (path : PyStr) (place : Place)
    (opened : Bool) (now : Rat) (ts : List Turn) :
    let d := (main U codes path place opened now ts).daemon
    let times := d.acted.map Acted.time
    (∀ e ∈ d.boot ++ d.acted.flatMap Acted.effects, e.Allowed U) ∧
      d.boot.countP Effect.isWrite ≤ 1 ∧ d.boot.count (.print bootLine) ≤ 1 ∧
      times = taken (afterPause minActionIntervalSeconds) 0 d.heard ∧
      (0 :: times).Pairwise fun a b => a + minActionIntervalSeconds ≤ b := by
  intro d times
  have h := @kept_main U codes path place opened now ts
  have hflag : (if d.bootBrightnessApplied then 1 else 0) ≤ 1 := by split <;> omega
  refine ⟨?_, h.once.trans_le hflag, h.line.trans_le hflag, h.times, ?_⟩
  · intro e he
    rcases List.mem_append.mp he with he | he
    · exact h.boot e he
    · obtain ⟨a, ha, he⟩ := List.mem_flatMap.mp he
      exact h.acted a ha e he
  · have htimes : times = _ := h.times
    rw [htimes]
    exact pairwise_taken (by norm_num [minActionIntervalSeconds]) 0 _

end InputWatch

end SushidaOs
