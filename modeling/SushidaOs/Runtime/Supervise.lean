import Mathlib.Data.List.Nodup
import SushidaOs.Shell

/-!
# SushidaOs.Runtime.Supervise

The supervision of the session (the loop at the end of `sushida-session`, and
`_cleanup`).

The processes are kept in two arrays, `SESSION_PIDS` and `SESSION_NAMES`, which
are rebuilt after every exit.  The loops over their indices are recursions over
both lists; under `set -u` a name that is missing ends the script.
-/

namespace SushidaOs

namespace Supervise

/-! ## the loop -/

/-- What `wait -n -p` answers; the PID is empty when there is nothing to wait for. -/
structure WaitAnswer where
  pid : ShStr
  status : UInt8
  deriving DecidableEq, Repr

/-- `SESSION_PIDS`, `SESSION_NAMES` and `_WAIT_STATUS`. -/
structure State where
  pids : List ShStr
  names : List ShStr
  waitStatus : UInt8
  deriving DecidableEq, Repr

/-- An element of an array that is not set. -/
inductive Unbound where
  | unbound
  deriving DecidableEq, Repr

/-- The search for the name of the process; empty when the PID is not in the array. -/
def exitedName (pid : ShStr) : List ShStr → List ShStr → Except Unbound ShStr
  | [], _ => .ok []
  | p :: pids, names =>
      if p = pid then
        match names with
        | [] => .error .unbound
        | name :: _ => .ok name
      else exitedName pid pids names.tail

/-- The arrays without the process. -/
def withoutExited (pid : ShStr) :
    List ShStr → List ShStr → Except Unbound (List ShStr × List ShStr)
  | [], _ => .ok ([], [])
  | p :: pids, names =>
      if p = pid then withoutExited pid pids names.tail
      else
        match names with
        | [] => .error .unbound
        | name :: names => do
            let (pids, names) ← withoutExited pid pids names
            pure (p :: pids, name :: names)

/-- How an iteration of the loop ends. -/
inductive Iteration where
  | next (st : State)
  | leave (st : State)
  | unbound (st : State)
  deriving DecidableEq, Repr

/-- One iteration of the loop. -/
def iteration (answer : WaitAnswer) (st : State) : Iteration :=
  if answer.pid = [] then .leave { st with waitStatus := 1 }
  else
    match exitedName answer.pid st.pids st.names with
    | .error _ => .unbound st
    | .ok name =>
        if name = [] then .leave { st with waitStatus := 1 }
        else
          match withoutExited answer.pid st.pids st.names with
          | .error _ => .unbound st
          | .ok (pids, names) =>
              if name = Sh.lit "cage" then .leave ⟨pids, names, answer.status⟩
              else .next ⟨pids, names, answer.status⟩

/-- The loop after some answers: it waits for the next one, or has ended. -/
inductive Progress where
  | waiting (st : State)
  | ended (st : State) (unread : List WaitAnswer)
  | unbound (st : State)
  deriving DecidableEq, Repr

/-- The loop. -/
def supervise : List WaitAnswer → State → Progress
  | [], st => if st.pids = [] then .ended st [] else .waiting st
  | answer :: answers, st =>
      if st.pids = [] then .ended st (answer :: answers)
      else
        match iteration answer st with
        | .next st => supervise answers st
        | .leave st => .ended st answers
        | .unbound st => .unbound st

/-! ## the end of the session -/

/-- `''|*[!0-9]*) continue ;;` -/
def isNumeric (pid : ShStr) : Bool := !pid.isEmpty && pid.all fun b => 0x30 ≤ b && b ≤ 0x39

/-- What `_cleanup` does. -/
inductive CleanupAct where
  | term (pid : ShStr)
  | sleep
  | kill (pid : ShStr)
  | reap (pid : ShStr)
  deriving DecidableEq, Repr

/-- `_cleanup`; `alive` is whether a process has survived the first signal. -/
def cleanup (alive : ShStr → Bool) (pids : List ShStr) : List CleanupAct :=
  (pids.filter isNumeric).map .term ++ .sleep ::
    (pids.filter isNumeric).flatMap fun pid =>
      if alive pid then [.kill pid, .reap pid] else [.reap pid]

/-- The end of the script. -/
structure Exit where
  /-- What `_cleanup` is given. -/
  handed : List ShStr
  acts : List CleanupAct
  status : UInt8
  deriving DecidableEq, Repr

/-- `_cleanup` and `exit`, whose trap calls `_cleanup` on empty arrays. -/
def finish (alive : ShStr → Bool) (st : State) : Exit :=
  ⟨st.pids, cleanup alive st.pids ++ cleanup alive [], st.waitStatus⟩

/-- The session from the start of the loop on, `none` while it waits. -/
def session (alive : ShStr → Bool) (answers : List WaitAnswer) (st : State) : Option Exit :=
  match supervise answers st with
  | .waiting _ => none
  | .ended st _ => some (finish alive st)
  | .unbound st => some ⟨st.pids, cleanup alive st.pids, 1⟩

/-! ## aligned arrays -/

/-- The arrays of some processes. -/
def stateOf (processes : List (ShStr × ShStr)) (status : UInt8) : State :=
  ⟨processes.map Prod.fst, processes.map Prod.snd, status⟩

/-- The processes that have not exited, in their order. -/
def left (processes : List (ShStr × ShStr)) (answers : List WaitAnswer) : List (ShStr × ShStr) :=
  processes.filter fun p => decide (p.1 ∉ answers.map WaitAnswer.pid)

/-- The processes of a session, one of which is `cage`. -/
structure Supervised (processes : List (ShStr × ShStr)) (cage : ShStr) : Prop where
  distinct : (processes.map Prod.fst).Nodup
  numeric : ∀ p ∈ processes, isNumeric p.1 = true
  named : ∀ p ∈ processes, p.2 ≠ []
  one_cage : (processes.filter fun p => p.2 == Sh.lit "cage") = [(cage, Sh.lit "cage")]

/-- The answers report exits of the processes, each once. -/
structure ReportsExits (processes : List (ShStr × ShStr)) (answers : List WaitAnswer) : Prop where
  listed : ∀ a ∈ answers, a.pid ∈ processes.map Prod.fst
  once : (answers.map WaitAnswer.pid).Nodup

/-- The name of a process is found by its number. -/
theorem exitedName_of_mem {processes : List (ShStr × ShStr)} {pid name : ShStr}
    (hdistinct : (processes.map Prod.fst).Nodup) (h : (pid, name) ∈ processes) :
    exitedName pid (processes.map Prod.fst) (processes.map Prod.snd) = .ok name := by
  induction processes with
  | nil => contradiction
  | cons p processes ih =>
      rw [List.map_cons, List.nodup_cons] at hdistinct
      rw [List.map_cons, List.map_cons, exitedName]
      rcases List.mem_cons.mp h with rfl | h
      · rw [if_pos rfl]
      · have hne : p.1 ≠ pid := fun heq => hdistinct.1 (heq ▸ List.mem_map_of_mem h)
        rw [if_neg hne]
        exact ih hdistinct.2 h

/-- The two arrays without the process that is gone. -/
theorem withoutExited_eq (processes : List (ShStr × ShStr)) (pid : ShStr) :
    withoutExited pid (processes.map Prod.fst) (processes.map Prod.snd) =
      .ok ((processes.filter fun p => p.1 ≠ pid).map Prod.fst,
        (processes.filter fun p => p.1 ≠ pid).map Prod.snd) := by
  induction processes with
  | nil => rfl
  | cons p processes ih =>
      rw [List.map_cons, List.map_cons, withoutExited]
      by_cases hp : p.1 = pid
      · rw [if_pos hp, List.filter_cons_of_neg (by simpa using hp)]
        exact ih
      · rw [if_neg hp, List.filter_cons_of_pos (by simpa using hp)]
        simp only [ih]
        rfl

/-- **One exit**: the process leaves both arrays, and `cage` ends the loop. -/
theorem iteration_stateOf {processes : List (ShStr × ShStr)} {answer : WaitAnswer} {name : ShStr}
    (hdistinct : (processes.map Prod.fst).Nodup) (hpid : answer.pid ≠ []) (hname : name ≠ [])
    (h : (answer.pid, name) ∈ processes) (status : UInt8) :
    iteration answer (stateOf processes status) =
      if name = Sh.lit "cage" then
        .leave (stateOf (processes.filter fun p => p.1 ≠ answer.pid) answer.status)
      else .next (stateOf (processes.filter fun p => p.1 ≠ answer.pid) answer.status) := by
  rw [iteration, if_neg hpid]
  simp only [stateOf, exitedName_of_mem hdistinct h, if_neg hname, withoutExited_eq]

section Run

variable {processes : List (ShStr × ShStr)} {cage : ShStr}

theorem Supervised.cage_mem (h : Supervised processes cage) :
    (cage, Sh.lit "cage") ∈ processes := by
  have hmem : (cage, Sh.lit "cage") ∈ processes.filter fun p => p.2 == Sh.lit "cage" := by
    rw [h.one_cage]
    exact List.mem_singleton.mpr rfl
  exact (List.mem_filter.mp hmem).1

/-- Only the PID of `cage` has its name. -/
theorem Supervised.name_eq_iff (h : Supervised processes cage) {pid name : ShStr}
    (hmem : (pid, name) ∈ processes) : name = Sh.lit "cage" ↔ pid = cage := by
  constructor
  · rintro rfl
    have hcage : (pid, Sh.lit "cage") ∈ processes.filter fun p => p.2 == Sh.lit "cage" :=
      List.mem_filter.mpr ⟨hmem, beq_self_eq_true _⟩
    rw [h.one_cage, List.mem_singleton] at hcage
    exact congrArg Prod.fst hcage
  · rintro rfl
    exact congrArg Prod.snd (List.inj_on_of_nodup_map h.distinct hmem h.cage_mem rfl)

theorem Supervised.pid_ne_nil (h : Supervised processes cage) {pid : ShStr}
    (hpid : pid ∈ processes.map Prod.fst) : pid ≠ [] := by
  obtain ⟨p, hp, rfl⟩ := List.mem_map.mp hpid
  intro hnil
  have hnumeric := h.numeric p hp
  rw [hnil] at hnumeric
  contradiction

theorem Supervised.pids_ne_nil (h : Supervised processes cage) (status : UInt8) :
    (stateOf processes status).pids ≠ [] :=
  List.ne_nil_of_mem (List.mem_map_of_mem h.cage_mem)

/-- The others are still a session. -/
theorem Supervised.exit (h : Supervised processes cage) {pid : ShStr} (hpid : pid ≠ cage) :
    Supervised (processes.filter fun p => p.1 ≠ pid) cage where
  distinct := h.distinct.sublist (List.filter_sublist.map Prod.fst)
  numeric p hp := h.numeric p (List.mem_filter.mp hp).1
  named p hp := h.named p (List.mem_filter.mp hp).1
  one_cage := by
    rw [List.filter_comm, h.one_cage, List.filter_cons_of_pos (by simpa using hpid.symm)]
    rfl

/-- A report takes its process off the list. -/
theorem ReportsExits.exit {a : WaitAnswer} {answers : List WaitAnswer}
    (h : ReportsExits processes (a :: answers)) :
    ReportsExits (processes.filter fun p => p.1 ≠ a.pid) answers := by
  have honce := h.once
  rw [List.map_cons, List.nodup_cons] at honce
  refine ⟨fun b hb => ?_, honce.2⟩
  obtain ⟨p, hp, hpid⟩ := List.mem_map.mp (h.listed b (List.mem_cons_of_mem a hb))
  refine List.mem_map.mpr ⟨p, List.mem_filter.mpr ⟨hp, ?_⟩, hpid⟩
  have hne : p.1 ≠ a.pid := fun heq => honce.1 (heq ▸ hpid ▸ List.mem_map_of_mem hb)
  simpa using hne

theorem left_nil : left processes [] = processes := by
  rw [left, List.filter_eq_self]
  simp

theorem left_cons (a : WaitAnswer) (answers : List WaitAnswer) :
    left processes (a :: answers) = left (processes.filter fun p => p.1 ≠ a.pid) answers := by
  rw [left, left, List.filter_filter]
  refine List.filter_congr fun p _ => ?_
  simp only [List.map_cons, List.mem_cons, not_or, Bool.decide_and]
  rw [Bool.and_comm]

/-- The answers up to the first one of `cage`. -/
theorem supervise_append (h : Supervised processes cage) {before : List WaitAnswer}
    (after : List WaitAnswer) (hreports : ReportsExits processes (before ++ after))
    (hbefore : cage ∉ before.map WaitAnswer.pid) (status : UInt8) :
    ∃ status', Supervised (left processes before) cage ∧
      ReportsExits (left processes before) after ∧
      supervise (before ++ after) (stateOf processes status) =
        supervise after (stateOf (left processes before) status') := by
  induction before generalizing processes status with
  | nil => exact ⟨status, by rwa [left_nil], by rwa [left_nil], by rw [left_nil]; rfl⟩
  | cons a before ih =>
      rw [List.map_cons, List.mem_cons, not_or] at hbefore
      have hpid := hreports.listed a List.mem_cons_self
      obtain ⟨p, hp, heq⟩ := List.mem_map.mp hpid
      have hmem : (a.pid, p.2) ∈ processes := by rwa [← heq]
      have hother : a.pid ≠ cage := fun h => hbefore.1 h.symm
      have hstep := iteration_stateOf h.distinct (h.pid_ne_nil hpid) (h.named _ hmem) hmem status
      rw [if_neg (mt (h.name_eq_iff hmem).mp hother)] at hstep
      obtain ⟨status', hsupervised, hrest, hrun⟩ :=
        ih (h.exit hother) hreports.exit hbefore.2 a.status
      rw [left_cons]
      refine ⟨status', hsupervised, hrest, ?_⟩
      rw [List.cons_append, supervise, if_neg (h.pids_ne_nil status), hstep]
      exact hrun

/-- The exit of `cage` ends the loop. -/
theorem supervise_cage (h : Supervised processes cage) {a : WaitAnswer} (ha : a.pid = cage)
    (after : List WaitAnswer) (status : UInt8) :
    supervise (a :: after) (stateOf processes status) =
      .ended (stateOf (left processes [a]) a.status) after := by
  have hmem : (a.pid, Sh.lit "cage") ∈ processes := ha ▸ h.cage_mem
  have hpid : a.pid ∈ processes.map Prod.fst := List.mem_map_of_mem hmem
  have hstep := iteration_stateOf h.distinct (h.pid_ne_nil hpid) (by decide) hmem status
  rw [if_pos rfl] at hstep
  rw [supervise, if_neg (h.pids_ne_nil status), hstep, left_cons, left_nil]

end Run

/-- Every PID that is handed over gets a signal and is waited for. -/
theorem mem_cleanup {alive : ShStr → Bool} {pids : List ShStr} {pid : ShStr} (h : pid ∈ pids)
    (hnumeric : isNumeric pid = true) :
    .term pid ∈ cleanup alive pids ∧ .reap pid ∈ cleanup alive pids := by
  have hmem : pid ∈ pids.filter isNumeric := List.mem_filter.mpr ⟨h, hnumeric⟩
  refine ⟨List.mem_append_left _ (List.mem_map_of_mem hmem), List.mem_append_right _ ?_⟩
  refine List.mem_cons_of_mem _ (List.mem_flatMap.mpr ⟨pid, hmem, ?_⟩)
  split <;> simp

/-- **Supervision**: until the exit of `cage` is reported the loop goes on with the
processes that are left, in both arrays; with it the loop ends, the script exits
with the status of `cage`, and exactly the processes that are left are ended. -/
theorem supervision_exact {processes : List (ShStr × ShStr)} {cage : ShStr}
    (h : Supervised processes cage) {answers : List WaitAnswer}
    (hreports : ReportsExits processes answers) :
    (∀ before after, answers = before ++ after → cage ∉ before.map WaitAnswer.pid →
        ∃ st, supervise before (stateOf processes 1) = .waiting st ∧
          st.pids = (left processes before).map Prod.fst ∧
          st.names = (left processes before).map Prod.snd) ∧
      ∀ before a after, answers = before ++ a :: after → a.pid = cage →
        ∃ st, supervise answers (stateOf processes 1) = .ended st after ∧
          st.pids = (left processes (before ++ [a])).map Prod.fst ∧
          st.names = (left processes (before ++ [a])).map Prod.snd ∧
          ∀ alive, ∃ e, session alive answers (stateOf processes 1) = some e ∧
            e.status = a.status ∧ e.handed = (left processes (before ++ [a])).map Prod.fst ∧
            ∀ pid ∈ e.handed, .term pid ∈ e.acts ∧ .reap pid ∈ e.acts := by
  constructor
  · rintro before after rfl hbefore
    have hfront : ReportsExits processes (before ++ []) := by
      rw [List.append_nil]
      refine ⟨fun a ha => hreports.listed a (List.mem_append_left after ha), ?_⟩
      have honce := hreports.once
      rw [List.map_append] at honce
      exact honce.of_append_left
    obtain ⟨status, hleft, -, hrun⟩ := supervise_append h [] hfront hbefore 1
    rw [List.append_nil] at hrun
    refine ⟨stateOf (left processes before) status, ?_, rfl, rfl⟩
    rw [hrun, supervise, if_neg (hleft.pids_ne_nil status)]
  · rintro before a after rfl ha
    have hbefore : cage ∉ before.map WaitAnswer.pid := by
      have honce := hreports.once
      rw [List.map_append, List.map_cons, ha] at honce
      exact fun hmem => (List.disjoint_of_nodup_append honce) hmem List.mem_cons_self
    obtain ⟨status, hleft, -, hrun⟩ := supervise_append h (a :: after) hreports hbefore 1
    rw [supervise_cage hleft ha] at hrun
    have hboth : left (left processes before) [a] = left processes (before ++ [a]) := by
      rw [left, left, left, List.filter_filter]
      refine List.filter_congr fun p _ => ?_
      simp only [List.map_append, List.mem_append, not_or, Bool.decide_and]
      rw [Bool.and_comm]
    rw [hboth] at hrun
    refine ⟨_, hrun, rfl, rfl, fun alive => ⟨_, by rw [session, hrun], rfl, rfl, ?_⟩⟩
    intro pid hpid
    obtain ⟨p, hp, rfl⟩ := List.mem_map.mp hpid
    have hacts := @mem_cleanup alive _ _ hpid (h.numeric p (List.mem_filter.mp hp).1)
    exact ⟨List.mem_append_left _ hacts.1, List.mem_append_left _ hacts.2⟩

/-- An audio service and `cage`. -/
def smallSession : List (ShStr × ShStr) :=
  [([0x37], Sh.lit "pipewire"), ([0x39], Sh.lit "cage")]

theorem smallSession_supervised : Supervised smallSession [0x39] where
  distinct := by decide
  numeric := by decide
  named := by decide
  one_cage := by decide

/-- The audio service crashes, and later `cage` ends with 3. -/
theorem crash_then_cage :
    ∃ st, supervise [⟨[0x37], 139⟩, ⟨[0x39], 3⟩] (stateOf smallSession 1) = .ended st [] ∧
      st.pids = (left smallSession ([⟨[0x37], 139⟩] ++ [⟨[0x39], 3⟩])).map Prod.fst ∧
      st.names = (left smallSession ([⟨[0x37], 139⟩] ++ [⟨[0x39], 3⟩])).map Prod.snd ∧
      ∀ alive, ∃ e, session alive [⟨[0x37], 139⟩, ⟨[0x39], 3⟩] (stateOf smallSession 1) = some e ∧
        e.status = 3 ∧
        e.handed = (left smallSession ([⟨[0x37], 139⟩] ++ [⟨[0x39], 3⟩])).map Prod.fst ∧
        ∀ pid ∈ e.handed, .term pid ∈ e.acts ∧ .reap pid ∈ e.acts :=
  (supervision_exact smallSession_supervised
    (⟨by decide, by decide⟩ :
      ReportsExits smallSession [⟨[0x37], 139⟩, ⟨[0x39], 3⟩])).2
    [⟨[0x37], 139⟩] ⟨[0x39], 3⟩ [] rfl rfl

end Supervise

end SushidaOs
