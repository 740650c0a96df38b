import IotLoggingServer.Lib.Runs
import IotLoggingServer.Python
import Mathlib.Logic.Function.Basic

set_option autoImplicit false

/-! # The config file monitor (`config_file_monitor.py`)

The monitor compares each monitored file with the stamp it recorded at its own first successful look
at the file. The server reads the file before the monitor starts, so whether a change is noticed
depends on when it falls: this file interleaves the start-up reads, rewrites from outside and single
looks of the monitor, and proves that no change since the read is missed exactly when each file is
still as it was read at the monitor's first look (`noChangeMissed_iff`). -/

namespace IotLoggingServer

/-! ## One look at one file -/

/-- What `stat` reports, in seconds. -/
structure StatResult where
  mtime : ℚ
  ctime : ℚ
  deriving DecidableEq, Repr

/-- `_MCTime`, in whole seconds. -/
structure MCTime where
  mtime : ℤ
  ctime : ℤ
  deriving DecidableEq, Repr

def MCTime.fromStat (stat : StatResult) : MCTime := ⟨truncate stat.mtime, truncate stat.ctime⟩

/-- A newer ctime means the file was recreated, a newer mtime that it was modified. -/
def MCTime.fileChanged (self newMctime : MCTime) : Prop :=
  self.ctime < newMctime.ctime ∨ self.mtime < newMctime.mtime

instance (self newMctime : MCTime) : Decidable (self.fileChanged newMctime) :=
  inferInstanceAs (Decidable (_ ∨ _))

/-- `_monitored_files_stat`. -/
abbrev FilesStat := Str → Option MCTime

/-- The body of the monitor's loop over the files, for one of them; the second component says
    whether SIGINT is sent. -/
def checkEntry (monitoredFilesStat : FilesStat) (entry : Str) (fStat : Option StatResult) :
    FilesStat × Bool :=
  match fStat with
  | none => (monitoredFilesStat, false)
  | some fStat =>
    match monitoredFilesStat entry with
    | none => (Function.update monitoredFilesStat entry (some (MCTime.fromStat fStat)), false)
    | some fMctime => (monitoredFilesStat, decide (fMctime.fileChanged (MCTime.fromStat fStat)))

/-- A stamp is no later than another. -/
def MCTime.Le (a b : MCTime) : Prop := a.mtime ≤ b.mtime ∧ a.ctime ≤ b.ctime

theorem MCTime.not_fileChanged {a b : MCTime} : ¬ a.fileChanged b ↔ b.Le a := by
  simp only [MCTime.fileChanged, MCTime.Le, not_or, not_lt]
  exact and_comm

theorem MCTime.fileChanged_of_le {a b c : MCTime} (hab : a.Le b) (h : b.fileChanged c) :
    a.fileChanged c := by
  simp only [MCTime.fileChanged, MCTime.Le] at hab h ⊢
  omega

/-! ## Start-up, rewrites and looks -/

/-- The server starting up, and the files it uses. -/
structure Startup where
  /-- the config files the main thread has still to read -/
  toRead : List Str
  /-- whether the monitor thread runs -/
  started : Bool
  /-- the files as they are -/
  files : Str → StatResult
  /-- the files as they were when the server read them -/
  readStat : Str → Option StatResult
  monitoredConfigFiles : List Str
  monitoredFilesStat : FilesStat

/-- The start of the server: nothing is read and nothing monitored. -/
def Startup.init (files : Str → StatResult) (toRead : List Str) : Startup where
  toRead := toRead
  started := false
  files := files
  readStat := fun _ => none
  monitoredConfigFiles := []
  monitoredFilesStat := fun _ => none

inductive StartupAction
  /-- the main thread reads its next config file, or with none left starts the monitor -/
  | main
  /-- a file is rewritten from outside -/
  | rewrite (entry : Str) (stat : StatResult)
  /-- the monitor looks at a file; the look may fail -/
  | look (entry : Str) (succeeds : Bool)

/-- The monitor's look at a file. -/
def Startup.look (s : Startup) (entry : Str) (succeeds : Bool) : FilesStat × Bool :=
  checkEntry s.monitoredFilesStat entry (if succeeds then some (s.files entry) else none)

/-- The monitor runs and has `entry` among its files. -/
def Startup.monitors (s : Startup) (entry : Str) : Prop :=
  s.started = true ∧ entry ∈ s.monitoredConfigFiles

instance (s : Startup) (entry : Str) : Decidable (s.monitors entry) :=
  inferInstanceAs (Decidable (_ ∧ _))

def Startup.step (s : Startup) : StartupAction → Startup
  | .main =>
    match s.toRead with
    | [] => { s with started := true }
    | entry :: rest =>
      { s with
        toRead := rest
        readStat := Function.update s.readStat entry (some (s.files entry))
        monitoredConfigFiles := s.monitoredConfigFiles.insert entry }
  | .rewrite entry stat => { s with files := Function.update s.files entry stat }
  | .look entry succeeds =>
    if s.monitors entry then { s with monitoredFilesStat := (s.look entry succeeds).1 } else s

/-- The file is later, in whole seconds, than it was when the server read it. -/
def Startup.changedSinceRead (s : Startup) (entry : Str) : Prop :=
  ∃ stat, s.readStat entry = some stat ∧
    (MCTime.fromStat stat).fileChanged (MCTime.fromStat (s.files entry))

/-- A look that succeeds at a file changed since it was read sends SIGINT. -/
def Alerts (s : Startup) : StartupAction → Prop
  | .look entry true =>
    s.monitors entry → s.changedSinceRead entry → (s.look entry true).2 = true
  | _ => True

/-- The first look that succeeds at a file finds it no later than it was read. -/
def FoundAsRead (s : Startup) : StartupAction → Prop
  | .look entry true =>
    s.monitors entry → s.monitoredFilesStat entry = none → ¬ s.changedSinceRead entry
  | _ => True

/-! ## When no change is missed -/

/-- The monitor starts after the last read, and what it recorded is no later than what was read. -/
structure Startup.Inv (s : Startup) : Prop where
  read : s.started = true → s.toRead = []
  recorded : ∀ entry mctime, s.monitoredFilesStat entry = some mctime → s.started = true
  le_read : ∀ entry mctime stat, s.monitoredFilesStat entry = some mctime →
    s.readStat entry = some stat → mctime.Le (MCTime.fromStat stat)

theorem Startup.inv_init (files : Str → StatResult) (toRead : List Str) :
    (Startup.init files toRead).Inv where
  read := by simp [Startup.init]
  recorded := by simp [Startup.init]
  le_read := by simp [Startup.init]

/-- A look at a file with a record compares, and records nothing. -/
theorem Startup.look_recorded {s : Startup} {entry : Str} {mctime : MCTime}
    (h : s.monitoredFilesStat entry = some mctime) (succeeds : Bool) :
    s.look entry succeeds = (s.monitoredFilesStat,
      succeeds && decide (mctime.fileChanged (MCTime.fromStat (s.files entry)))) := by
  cases succeeds <;> simp [Startup.look, checkEntry, h]

/-- The first look records, and compares nothing. -/
theorem Startup.look_first {s : Startup} {entry : Str} (h : s.monitoredFilesStat entry = none) :
    s.look entry true = (Function.update s.monitoredFilesStat entry
      (some (MCTime.fromStat (s.files entry))), false) := by
  simp [Startup.look, checkEntry, h]

/-- Under the invariant, a step misses a change exactly if it is a first look at a changed file. -/
theorem Startup.Inv.alerts_iff {s : Startup} (h : s.Inv) (a : StartupAction) :
    Alerts s a ↔ FoundAsRead s a := by
  cases a with
  | main => exact Iff.rfl
  | rewrite entry stat => exact Iff.rfl
  | look entry succeeds =>
      cases succeeds with
      | false => exact Iff.rfl
      | true =>
          simp only [Alerts, FoundAsRead]
          cases hrec : s.monitoredFilesStat entry with
          | none => simp [Startup.look_first hrec]
          | some mctime =>
              -- the record is no later than the read, so a change since the read shows
              have halert : s.changedSinceRead entry → (s.look entry true).2 = true := by
                rintro ⟨stat, hread, hchanged⟩
                have hle := h.le_read entry mctime stat hrec hread
                simp [Startup.look_recorded hrec, MCTime.fileChanged_of_le hle hchanged]
              exact ⟨fun _ _ hnone => absurd hnone (by simp), fun _ _ => halert⟩

/-- A step whose first look finds the file as read keeps the invariant. -/
theorem Startup.Inv.step {s : Startup} (h : s.Inv) {a : StartupAction} (ha : FoundAsRead s a) :
    (s.step a).Inv := by
  obtain ⟨hread, hrecorded, hle⟩ := h
  cases a with
  | main =>
      cases hto : s.toRead with
      | nil =>
          simp only [Startup.step, hto]
          exact ⟨fun _ => rfl, fun _ _ _ => rfl, hle⟩
      | cons entry rest =>
          -- while the main thread reads, nothing has been recorded
          have hstarted : s.started = false := by
            by_contra hne
            simp [hread (by simpa using hne)] at hto
          have hnone : ∀ entry mctime, s.monitoredFilesStat entry ≠ some mctime :=
            fun entry mctime hrec => by simp [hrecorded entry mctime hrec] at hstarted
          simp only [Startup.step, hto]
          exact ⟨fun hne => by simp [hstarted] at hne, hrecorded,
            fun e mctime _ hrec => absurd hrec (hnone e mctime)⟩
  | rewrite entry stat => exact ⟨hread, hrecorded, hle⟩
  | look entry succeeds =>
      simp only [Startup.step]
      split
      · next hmon =>
          cases hrec : s.monitoredFilesStat entry with
          | some mctime =>
              rw [Startup.look_recorded hrec]
              exact ⟨hread, hrecorded, hle⟩
          | none =>
              cases succeeds with
              | false =>
                  simp only [Startup.look, checkEntry]
                  exact ⟨hread, hrecorded, hle⟩
              | true =>
                  rw [Startup.look_first hrec]
                  refine ⟨hread, fun _ _ _ => hmon.1, fun e mctime stat hnew hstat => ?_⟩
                  dsimp only at hnew hstat
                  by_cases he : e = entry
                  · subst he
                    rw [Function.update_self, Option.some.injEq] at hnew
                    subst hnew
                    exact MCTime.not_fileChanged.1
                      (fun hchanged => ha hmon hrec ⟨stat, hstat, hchanged⟩)
                  · rw [Function.update_of_ne he] at hnew
                    exact hle e mctime stat hnew hstat
      · exact ⟨hread, hrecorded, hle⟩

/-- **No change since the read is missed iff no first look comes too late.** Over any interleaving
    of the start-up reads, the start of the monitor, rewrites and looks: every look that succeeds at
    a file later than when it was read sends SIGINT, iff every file is, at the first look that
    succeeds at it, no later than when it was read. -/
theorem noChangeMissed_iff (files : Str → StatResult) (toRead : List Str)
    (actions : List StartupAction) :
    EveryStep Startup.step Alerts (Startup.init files toRead) actions ↔
      EveryStep Startup.step FoundAsRead (Startup.init files toRead) actions :=
  everyStep_iff (fun _ a h => h.alerts_iff a) (fun _ _ h ha => h.step ha)
    (Startup.inv_init files toRead) actions

/-- A rewrite gives the file a later mtime and a later ctime. -/
def RewritesLater (s : Startup) : StartupAction → Prop
  | .rewrite entry stat =>
    (s.files entry).mtime < stat.mtime ∧ (s.files entry).ctime < stat.ctime
  | _ => True

/-- A file rewritten after it was read, before the monitor first looks at it. -/
def missedActions : List StartupAction :=
  [.main, .rewrite "aws_profile_info.yaml".toList ⟨5, 5⟩, .main,
    .look "aws_profile_info.yaml".toList true]

/-- A change since the read can be missed. -/
theorem not_everyStep_alerts :
    ¬ ∀ (files : Str → StatResult) (toRead : List Str) (actions : List StartupAction),
      EveryStep Startup.step RewritesLater (Startup.init files toRead) actions →
      EveryStep Startup.step Alerts (Startup.init files toRead) actions := by
  intro h
  have hlater : EveryStep Startup.step RewritesLater
      (Startup.init (fun _ => ⟨1, 1⟩) ["aws_profile_info.yaml".toList]) missedActions :=
    ⟨trivial, ⟨by decide, by decide⟩, trivial, trivial, trivial⟩
  obtain ⟨-, -, -, hlook, -⟩ := h _ _ missedActions hlater
  have hsignal := hlook ⟨rfl, List.mem_cons_self⟩ ⟨⟨1, 1⟩, rfl, by decide⟩
  revert hsignal
  decide

end IotLoggingServer
