import SushidaOs.Shell

/-!
# SushidaOs.Release.Strict

Scripts under `set -euo pipefail` that end with a message at the first check
that fails, and the text tools they use.

`Stop` is how such a script ends early.  A check that passes has no effect, so
a run that reaches its end has passed all of them; the lemmas `require_ok_iff`,
`bind_ok_iff` and `forM_ok_iff` take a run apart.
-/

namespace SushidaOs

namespace Release

/-- How a script ends before its end. -/
inductive Stop where
  /-- `fail "..."` -/
  | fail (message : ShStr)
  /-- `set -e` -/
  | errexit (status : Nat)
  deriving DecidableEq, Repr

/-- `condition || fail "..."`. -/
def require (condition : Bool) (message : ShStr) : Except Stop Unit :=
  if condition then .ok () else .error (.fail message)

/-- A command whose failure ends the script. -/
def run (status : Nat) : Except Stop Unit :=
  if status = 0 then .ok () else .error (.errexit status)

section

variable {α β : Type}

@[simp] theorem require_ok_iff {condition : Bool} {message : ShStr} :
    require condition message = .ok () ↔ condition = true := by
  cases condition <;> simp [require]

/-- A run passes both of its parts. -/
theorem bind_ok_iff {x : Except Stop α} {f : α → Except Stop β} {b : β} :
    (x >>= f) = .ok b ↔ ∃ a, x = .ok a ∧ f a = .ok b := by
  cases x <;> simp [bind, Except.bind]

/-- Behind a check the script goes on where the check holds. -/
theorem require_bind_ok_iff {condition : Bool} {message : ShStr} {f : Unit → Except Stop β}
    {b : β} :
    (require condition message >>= f) = .ok b ↔ condition = true ∧ f () = .ok b := by
  cases condition <;> simp [require, bind, Except.bind]

/-- Behind a command the script goes on where its status is zero. -/
theorem run_bind_ok_iff {status : Nat} {f : Unit → Except Stop β} {b : β} :
    (run status >>= f) = .ok b ↔ status = 0 ∧ f () = .ok b := by
  by_cases h : status = 0 <;> simp [run, h, bind, Except.bind]

theorem require_error_iff {condition : Bool} {message : ShStr} {stop : Stop} :
    require condition message = .error stop ↔ condition = false ∧ stop = .fail message := by
  cases condition <;> simp [require, eq_comm]

/-- A run that stops does so in one of its parts. -/
theorem bind_error_iff {x : Except Stop α} {f : α → Except Stop β} {stop : Stop} :
    (x >>= f) = .error stop ↔ x = .error stop ∨ ∃ a, x = .ok a ∧ f a = .error stop := by
  cases x <;> simp [bind, Except.bind]

/-- A loop ends when it passes every element. -/
theorem forM_ok_iff {xs : List α} {f : α → Except Stop Unit} :
    xs.forM f = .ok () ↔ ∀ x ∈ xs, f x = .ok () := by
  induction xs with
  | nil => simp [List.forM, pure, Except.pure]
  | cons x xs ih =>
      show (f x >>= fun _ => xs.forM f) = .ok () ↔ _
      rw [bind_ok_iff, List.forall_mem_cons, ← ih]
      constructor
      · rintro ⟨_, hx, hxs⟩
        exact ⟨hx, hxs⟩
      · rintro ⟨hx, hxs⟩
        exact ⟨(), hx, hxs⟩

/-- A loop stops where one of its rounds does. -/
theorem exists_of_forM_error {xs : List α} {f : α → Except Stop Unit} {stop : Stop}
    (h : xs.forM f = .error stop) : ∃ x ∈ xs, f x = .error stop := by
  induction xs with
  | nil => cases h
  | cons x xs ih =>
      rcases bind_error_iff.mp (show (f x >>= fun _ => xs.forM f) = .error stop from h) with
        hx | ⟨_, -, hxs⟩
      · exact ⟨x, List.mem_cons_self, hx⟩
      · obtain ⟨y, hy, hstop⟩ := ih hxs
        exact ⟨y, List.mem_cons_of_mem x hy, hstop⟩

end

/-! ## text tools -/

/-- The lines of a file; a line feed at the end starts no other line. -/
def fileLines (text : ShStr) : List ShStr :=
  let parts := text.splitOn 0x0a
  if parts.getLast? = some [] then parts.dropLast else parts

/-- What `jq -j` writes for some fields, each with a NUL behind it. -/
def nulTerminated (fields : List ShStr) : ShStr := fields.flatMap fun field => field ++ [0]

/-- The records that a loop over `read -r -d ''` gets; what is behind the last NUL is none. -/
def records (stream : ShStr) : List ShStr := (stream.splitOn 0).dropLast

/-- `grep -F pattern` takes the line: a pattern has an alternative on each of its
lines. -/
def grepFixed (pattern line : ShStr) : Bool :=
  (pattern.splitOn 0x0a).any fun p => decide (p <:+: line)

/-- A blank or a tab. -/
def isBlank (b : UInt8) : Bool := b == 0x20 || b == 0x09

/-- `${s%% *}`. -/
def firstWord (s : ShStr) : ShStr := s.takeWhile fun b => b != 0x20

/-- The fields of a line as `awk` sees them. -/
def fields (line : ShStr) : List ShStr :=
  (line.splitOnP isBlank).filter fun field => !field.isEmpty

/-- `awk '{print $2}'` for one line. -/
def secondField (line : ShStr) : ShStr := (fields line)[1]?.getD []

/-- A line is read up to its line feed. -/
theorem fileLines_append {line rest : ShStr} (hline : 0x0a ∉ line) :
    fileLines (line ++ 0x0a :: rest) = line :: fileLines rest := by
  have hne := List.splitOn_ne_nil (0x0a : UInt8) rest
  obtain ⟨part, parts, hparts⟩ := List.exists_cons_of_ne_nil hne
  simp only [fileLines, List.splitOn_append_cons_self_of_not_mem hline, hparts,
    List.getLast?_cons_cons, List.dropLast_cons_cons]
  split <;> rfl

/-- A file of whole lines. -/
theorem fileLines_flatMap {α : Type} {f : α → ShStr} {xs : List α} (h : ∀ x ∈ xs, 0x0a ∉ f x) :
    fileLines (xs.flatMap fun x => f x ++ [0x0a]) = xs.map f := by
  induction xs with
  | nil => rfl
  | cons x xs ih =>
      rw [List.flatMap_cons, List.append_assoc, List.singleton_append,
        fileLines_append (h x List.mem_cons_self), List.map_cons,
        ih fun y hy => h y (List.mem_cons_of_mem x hy)]

/-- A field with a NUL in it is read as several records. -/
theorem records_nulTerminated (fields : List ShStr) :
    records (nulTerminated fields) = fields.flatMap fun field => field.splitOn 0 := by
  induction fields with
  | nil => rfl
  | cons field fields ih =>
      have hstream : nulTerminated (field :: fields) = field ++ 0 :: nulTerminated fields := by
        rw [nulTerminated, List.flatMap_cons, List.append_assoc, List.singleton_append]
        rfl
      have hsplit : (field ++ 0 :: nulTerminated fields).splitOn 0 =
          field.splitOn 0 ++ (nulTerminated fields).splitOn 0 :=
        List.splitOnP_append_cons _ _ (beq_self_eq_true 0)
      rw [records, hstream, hsplit,
        List.dropLast_append_of_ne_nil (List.splitOn_ne_nil 0 _), List.flatMap_cons, ← ih]
      rfl

/-- The words in front of a blank are fields. -/
theorem fields_append {word rest : ShStr} (hne : word ≠ [])
    (hword : ∀ b ∈ word, isBlank b = false) :
    fields (word ++ 0x20 :: rest) = word :: fields rest := by
  have hempty : (!word.isEmpty) = true := by cases word <;> simp_all
  rw [fields, List.splitOnP_append_cons_of_forall_mem hword _ rfl, List.filter_cons, if_pos hempty]
  rfl

/-- A word is read up to its blank. -/
theorem firstWord_append {word rest : ShStr} (hword : ∀ b ∈ word, isBlank b = false) :
    firstWord (word ++ 0x20 :: rest) = word := by
  have hall : ∀ b ∈ word, (b != 0x20) = true := by
    intro b hb
    have hblank := hword b hb
    rw [isBlank, Bool.or_eq_false_iff] at hblank
    rw [bne, hblank.1]
    rfl
  rw [firstWord, List.takeWhile_append_of_pos hall, List.takeWhile_cons_of_neg (by decide),
    List.append_nil]

/-- A line that a command prints is captured as it is. -/
theorem capture_line {line : ShStr} (h : ∀ b ∈ line, b ≠ 0x0a ∧ b ≠ 0) :
    Sh.capture (line ++ [0x0a]) = line := by
  have hkeep : (line ++ [0x0a]).filter (fun b => b != 0) = line ++ [0x0a] := by
    rw [List.filter_eq_self]
    intro b hb
    rcases List.mem_append.mp hb with hb | hb
    · simpa using (h b hb).2
    · rw [List.mem_singleton.mp hb]
      rfl
  have hdrop : line.reverse.dropWhile (fun b => b == 0x0a) = line.reverse := by
    cases hline : line.reverse with
    | nil => rfl
    | cons b bs =>
        have hb : b ∈ line := List.mem_reverse.mp (by rw [hline]; exact List.mem_cons_self)
        rw [List.dropWhile_cons_of_neg (by simpa using (h b hb).1)]
  rw [Sh.capture, hkeep, List.reverse_append, List.reverse_singleton, List.singleton_append,
    List.dropWhile_cons_of_pos (by rfl), hdrop, List.reverse_reverse]

end Release

end SushidaOs
