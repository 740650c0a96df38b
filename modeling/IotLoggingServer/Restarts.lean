import IotLoggingServer.ConfigFilePolls
import IotLoggingServer.Main

set_option autoImplicit false

/-! # Restarting on config changes (`config_file_monitor.py` under a restart policy)

The monitor kills the server when a monitored file changed, for the service manager to start it
again. A history of a device interleaves rewrites of its files, polls of the monitor and starts of
the server. As long as every rewrite of a monitored file can be noticed, one more poll and one more
start lead to the server that the files now ask for (`Device.converges`). -/

namespace IotLoggingServer

/-- The server process: what `main` left running, and the monitor's table. -/
structure Process where
  running : Running
  monitoredFilesStat : FilesStat

/-- The files of a device, what `stat` reports of them, and the server if it is up. -/
structure Device where
  fs : FileSystem
  stats : Poll
  process : Option Process

inductive DeviceAction
  /-- a file is rewritten, created or removed -/
  | rewrite (file : Str) (isFile : Except PyExc Bool) (text : Except PyExc Str)
      (bytes : Except PyExc (List UInt8)) (stat : Option StatResult)
  /-- the monitor, if it runs, goes once over its files -/
  | poll
  /-- the service manager starts the server if it is down -/
  | start

def FileSystem.rewrite (fs : FileSystem) (file : Str) (isFile : Except PyExc Bool)
    (text : Except PyExc Str) (bytes : Except PyExc (List UInt8)) : FileSystem where
  isFile := Function.update fs.isFile file isFile
  readText := Function.update fs.readText file text
  readBytes := Function.update fs.readBytes file bytes

@[simp] theorem FileSystem.readText_rewrite (fs : FileSystem) (file : Str)
    (isFile : Except PyExc Bool) (text : Except PyExc Str) (bytes : Except PyExc (List UInt8)) :
    (fs.rewrite file isFile text bytes).readText file = text := by
  simp [FileSystem.rewrite]

theorem FileSystem.sameFile_rewrite {readFs fs : FileSystem} {file file' : Str}
    (hne : file' ≠ file) (isFile : Except PyExc Bool) (text : Except PyExc Str)
    (bytes : Except PyExc (List UInt8)) :
    readFs.SameFile (fs.rewrite file isFile text bytes) file' ↔ readFs.SameFile fs file' := by
  simp only [FileSystem.sameFile_iff, FileSystem.rewrite, Function.update_of_ne hne]

/-- The process after a poll; SIGINT ends it. -/
def Process.poll (self : Process) (stats : Poll) : Option Process :=
  if self.running.monitorStarted then
    let (monitoredFilesStat, signal) :=
      pollFiles stats self.running.monitoredConfigFiles self.monitoredFilesStat
    if signal then none else some { self with monitoredFilesStat }
  else some self

section Step

variable (rt : MainRuntime) (serverCfg : ServerCfg)

/-- The process after a start; a start-up that raises leaves the server down. -/
def startProcess (fs : FileSystem) : Option Process :=
  match main rt fs serverCfg with
  | .ok running => some ⟨running, noStats⟩
  | .error _ => none

def Device.step (d : Device) : DeviceAction → Device
  | .rewrite file isFile text bytes stat =>
    { d with fs := d.fs.rewrite file isFile text bytes, stats := Function.update d.stats file stat }
  | .poll => { d with process := d.process.bind (fun p => p.poll d.stats) }
  | .start => { d with process := d.process.or (startProcess rt serverCfg d.fs) }

end Step

/-! ## When a rewrite can be noticed -/

/-- A rewrite of a file that the monitor watches finds it in the table, and leaves it with a stamp
    that is later, in whole seconds, than the one before. -/
def Noticeable (d : Device) : DeviceAction → Prop
  | .rewrite file _ _ _ stat => ∀ p, d.process = some p → file ∈ p.running.monitoredConfigFiles →
      p.monitoredFilesStat file ≠ none ∧ ∃ old new, d.stats file = some old ∧ stat = some new ∧
        (MCTime.fromStat old).Le (MCTime.fromStat new) ∧
        (MCTime.fromStat old).fileChanged (MCTime.fromStat new)
  | _ => True

/-- A monitored file is as it was read, or shows a later stamp than the monitor has of it. -/
def Tracked (d : Device) (readFs : FileSystem) (monitoredFilesStat : FilesStat) (file : Str) :
    Prop :=
  (monitoredFilesStat file = none ∧ readFs.SameFile d.fs file) ∨
  ∃ mctime stat, monitoredFilesStat file = some mctime ∧ d.stats file = some stat ∧
    mctime.Le (MCTime.fromStat stat) ∧
    (readFs.SameFile d.fs file ∨ mctime.fileChanged (MCTime.fromStat stat))

/-- The process was started from files that the monitor keeps track of. -/
def Device.Inv (rt : MainRuntime) (serverCfg : ServerCfg) (d : Device) : Prop :=
  ∀ p, d.process = some p → ∃ readFs, main rt readFs serverCfg = .ok p.running ∧
    ∀ file ∈ p.running.monitoredConfigFiles, Tracked d readFs p.monitoredFilesStat file

section Inv

variable {rt : MainRuntime} {serverCfg : ServerCfg} {d : Device}

/-- A poll that ends without a signal keeps what runs, and records what it saw first. -/
theorem Process.poll_eq_some {p p' : Process} {stats : Poll} (h : p.poll stats = some p') :
    p'.running = p.running ∧ ∀ file ∈ p.running.monitoredConfigFiles,
      p'.monitoredFilesStat file = p.monitoredFilesStat file ∨
        (p.monitoredFilesStat file = none ∧
          p'.monitoredFilesStat file = (stats file).map MCTime.fromStat) := by
  unfold Process.poll at h
  split at h
  · dsimp only at h
    split at h
    · cases h
    · cases h
      refine ⟨rfl, fun file hfile => ?_⟩
      dsimp only
      rw [pollFiles_table, if_pos hfile]
      cases htable : p.monitoredFilesStat file with
      | none => exact Or.inr ⟨rfl, rfl⟩
      | some mctime => exact Or.inl rfl
  · cases h
    exact ⟨rfl, fun _ _ => Or.inl rfl⟩

/-- Where the monitor runs and a poll does not end the process, no file shows a later stamp. -/
theorem Process.not_laterThan_of_poll {p p' : Process} {stats : Poll}
    (h : p.poll stats = some p') (hstarted : p.running.monitorStarted = true) {file : Str}
    (hfile : file ∈ p.running.monitoredConfigFiles) :
    ¬ LaterThan p.monitoredFilesStat stats file := by
  intro hlater
  have hsignal := (pollFiles_signal stats p.running.monitoredConfigFiles
    p.monitoredFilesStat).2 ⟨file, hfile, hlater⟩
  unfold Process.poll at h
  rw [if_pos hstarted] at h
  dsimp only at h
  rw [if_pos hsignal] at h
  cases h

theorem Device.Inv.rewrite (h : d.Inv rt serverCfg) {file : Str} {isFile : Except PyExc Bool}
    {text : Except PyExc Str} {bytes : Except PyExc (List UInt8)} {stat : Option StatResult}
    (hnoticeable : Noticeable d (.rewrite file isFile text bytes stat)) :
    (d.step rt serverCfg (.rewrite file isFile text bytes stat)).Inv rt serverCfg := by
  intro p hp
  obtain ⟨readFs, hmain, htracked⟩ := h p hp
  refine ⟨readFs, hmain, fun file' hfile' => ?_⟩
  by_cases heq : file' = file
  · -- the file rewritten is in the table, and its new stamp is later
    subst heq
    obtain ⟨hrecorded, old, new, hold, hnew, hle, hchanged⟩ := hnoticeable p hp hfile'
    rcases htracked file' hfile' with ⟨hnone, -⟩ | ⟨mctime, stat', htable, hstat, hmctime, -⟩
    · exact absurd hnone hrecorded
    · rw [hold, Option.some.injEq] at hstat
      subst hstat
      refine Or.inr ⟨mctime, new, htable, ?_, ?_,
        Or.inr (MCTime.fileChanged_of_le hmctime hchanged)⟩
      · rw [← hnew]
        exact Function.update_self _ _ _
      · exact ⟨hmctime.1.trans hle.1, hmctime.2.trans hle.2⟩
  · have hsame := @FileSystem.sameFile_rewrite readFs d.fs file file' heq isFile text bytes
    have hstats : Function.update d.stats file stat file' = d.stats file' :=
      Function.update_of_ne heq _ _
    have htracked' := htracked file' hfile'
    unfold Tracked at htracked' ⊢
    simp only [Device.step, hsame, hstats]
    exact htracked'

theorem Device.Inv.poll (h : d.Inv rt serverCfg) :
    (d.step rt serverCfg .poll).Inv rt serverCfg := by
  intro p' hp'
  obtain ⟨p, hp, hpoll⟩ := Option.bind_eq_some_iff.1 hp'
  obtain ⟨readFs, hmain, htracked⟩ := h p hp
  obtain ⟨hrunning, htable⟩ := Process.poll_eq_some hpoll
  rw [hrunning]
  refine ⟨readFs, hmain, fun file hfile => ?_⟩
  rcases htable file hfile with hkept | ⟨hnone, hrecorded⟩
  · unfold Tracked
    rw [hkept]
    exact htracked file hfile
  · rcases htracked file hfile with ⟨-, hsame⟩ | ⟨mctime, stat, hsome, -⟩
    · -- the first look at the file finds it as it was read
      cases hstat : d.stats file with
      | none => exact Or.inl ⟨by rw [hrecorded, hstat]; rfl, hsame⟩
      | some stat =>
          exact Or.inr ⟨MCTime.fromStat stat, stat, by rw [hrecorded, hstat]; rfl, hstat,
            ⟨le_rfl, le_rfl⟩, Or.inl hsame⟩
    · rw [hnone] at hsome
      cases hsome

theorem Device.Inv.start (h : d.Inv rt serverCfg) :
    (d.step rt serverCfg .start).Inv rt serverCfg := by
  intro p hp
  rcases Option.or_eq_some_iff.1 hp with hup | ⟨-, hstart⟩
  · exact h p hup
  · unfold startProcess at hstart
    split at hstart
    · next running hmain =>
        cases hstart
        exact ⟨d.fs, hmain, fun file _ => Or.inl ⟨rfl, rfl, rfl, rfl⟩⟩
    · cases hstart

theorem Device.Inv.step (h : d.Inv rt serverCfg) {a : DeviceAction} (ha : Noticeable d a) :
    (d.step rt serverCfg a).Inv rt serverCfg := by
  cases a with
  | rewrite file isFile text bytes stat => exact h.rewrite ha
  | poll => exact h.poll
  | start => exact h.start

/-- The monitor of a server that was started runs as configured. -/
theorem monitorStarted_of_main {fs : FileSystem} {running : Running}
    (h : main rt fs serverCfg = .ok running) :
    running.monitorStarted = serverCfg.exitOnConfigFileChanged := by
  obtain ⟨profileInfo, sessionConfig, used, session, -, -, -, rfl⟩ := main_eq_ok.1 h
  rfl

/-- A process that survives a poll is what the files ask for. -/
theorem Device.Inv.main_of_poll (h : d.Inv rt serverCfg)
    (hexit : serverCfg.exitOnConfigFileChanged = true) {p p' : Process} (hp : d.process = some p)
    (hpoll : p.poll d.stats = some p') (hunaffected : Unaffected rt serverCfg p.running d.fs) :
    main rt d.fs serverCfg = .ok p'.running := by
  obtain ⟨readFs, hmain, htracked⟩ := h p hp
  rw [(Process.poll_eq_some hpoll).1]
  refine main_same hmain (fun file hfile => ?_) hunaffected
  rcases htracked file hfile with ⟨-, hsame⟩ | ⟨mctime, stat, htable, hstat, -, hsame | hchanged⟩
  · exact hsame
  · exact hsame
  · have hstarted := (monitorStarted_of_main hmain).trans hexit
    exact absurd ⟨mctime, stat, htable, hstat, hchanged⟩
      (Process.not_laterThan_of_poll hpoll hstarted hfile)

end Inv

theorem startProcess_eq {rt : MainRuntime} {serverCfg : ServerCfg} {fs : FileSystem}
    {running : Running} (h : main rt fs serverCfg = .ok running) :
    startProcess rt serverCfg fs = some ⟨running, noStats⟩ := by
  rw [startProcess, h]

theorem startProcess_running (rt : MainRuntime) (serverCfg : ServerCfg) (fs : FileSystem) :
    (startProcess rt serverCfg fs).map Process.running = (main rt fs serverCfg).toOption := by
  unfold startProcess
  cases main rt fs serverCfg <;> rfl

/-- **A poll and a start lead to the server the files ask for.** After any history whose rewrites
    can be noticed, one more poll and one more start leave running exactly what a start-up from the
    files as they are then leads to, or nothing if it raises; unless a file that was not there to be
    monitored has come up since the server started, or the certificate file, which is not monitored,
    no longer makes the same session. -/
theorem Device.converges (rt : MainRuntime) (serverCfg : ServerCfg)
    (hexit : serverCfg.exitOnConfigFileChanged = true) (d₀ : Device) (hoff : d₀.process = none)
    (actions : List DeviceAction)
    (hnoticeable : EveryStep (Device.step rt serverCfg) Noticeable d₀ actions) :
    let d := actions.foldl (Device.step rt serverCfg) d₀
    (∀ p, d.process = some p → Unaffected rt serverCfg p.running d.fs) →
      ((d.step rt serverCfg .poll).step rt serverCfg .start).process.map Process.running =
        (main rt d.fs serverCfg).toOption := by
  intro d hunaffected
  have hinv : d.Inv rt serverCfg := @EveryStep.foldl_invariant _ _ (Device.step rt serverCfg)
    (fun d => d.Inv rt serverCfg) Noticeable (fun _ _ hd ha => hd.step ha) actions d₀
    (fun p hp => by rw [hoff] at hp; cases hp) hnoticeable
  have hprocess : ((d.step rt serverCfg .poll).step rt serverCfg .start).process =
      (d.process.bind (fun p => p.poll d.stats)).or (startProcess rt serverCfg d.fs) := rfl
  rw [hprocess]
  cases hp : d.process.bind (fun p => p.poll d.stats) with
  | none =>
      rw [Option.none_or]
      exact startProcess_running rt serverCfg d.fs
  | some p' =>
      obtain ⟨p, hup, hpoll⟩ := Option.bind_eq_some_iff.1 hp
      rw [hinv.main_of_poll hexit hup hpoll (hunaffected p hup)]
      rfl

/-- A device set up for v1, all of whose files were written at second 1. -/
def exampleDevice : Device where
  fs := exampleFiles false
  stats _ := some ⟨1, 1⟩
  process := none

/-- The server starts, the monitor looks, and the config is rewritten at second 2. -/
def exampleHistory : List DeviceAction :=
  [.start, .poll, .rewrite "/greengrass/config/config.json".toList (.ok false)
    (.ok "new".toList) (.ok (Utf8.encode "new".toList)) (some ⟨2, 2⟩)]

/-- The process that has recorded the files at the first poll. -/
theorem exampleDevice_polled :
    ((exampleDevice.step exampleMainRuntime {} .start).step exampleMainRuntime {} .poll).process =
      some ⟨exampleRunning, (pollFiles exampleDevice.stats exampleRunning.monitoredConfigFiles
        noStats).1⟩ := by
  have hprocess : ((exampleDevice.step exampleMainRuntime {} .start).step exampleMainRuntime {}
      .poll).process = (startProcess exampleMainRuntime {} (exampleFiles false)).bind
        (fun p => p.poll exampleDevice.stats) := rfl
  rw [hprocess, startProcess_eq main_exampleFiles]
  rfl

theorem converges_example :
    (((exampleHistory.foldl (Device.step exampleMainRuntime {}) exampleDevice).step
      exampleMainRuntime {} .poll).step exampleMainRuntime {} .start).process.map Process.running =
        some exampleRunning := by
  have hnoticeable : EveryStep (Device.step exampleMainRuntime {}) Noticeable exampleDevice
      exampleHistory := by
    refine ⟨trivial, trivial, fun p hp hfile => ?_, trivial⟩
    rw [exampleDevice_polled, Option.some.injEq] at hp
    subst hp
    have hone : truncate 1 = 1 := by norm_num [truncate]
    have htwo : truncate 2 = 2 := by norm_num [truncate]
    refine ⟨?_, ⟨1, 1⟩, ⟨2, 2⟩, rfl, rfl, ?_, ?_⟩
    · dsimp only
      rw [pollFiles_table, if_pos hfile]
      simp [noStats, exampleDevice]
    · simp [MCTime.Le, MCTime.fromStat, hone, htwo]
    · simp [MCTime.fileChanged, MCTime.fromStat, hone, htwo]
  have hmain : main exampleMainRuntime ((exampleFiles false).rewrite
      "/greengrass/config/config.json".toList (.ok false) (.ok "new".toList)
      (.ok (Utf8.encode "new".toList))) {} =
        .ok exampleRunning := by
    refine main_exampleRuntime (by decide) (fun file => ?_)
    by_cases hfile : file = "/greengrass/config/config.json".toList
    · subst hfile
      exact ⟨"new".toList, FileSystem.readText_rewrite _ _ _ _ _⟩
    · exact ⟨[], Function.update_of_ne hfile _ _⟩
  refine (Device.converges exampleMainRuntime {} rfl exampleDevice rfl exampleHistory
    hnoticeable (fun p hp => ?_)).trans (congrArg Except.toOption hmain)
  have hrunning : p.running = exampleRunning := by
    have hp' : some _ = some p := exampleDevice_polled.symm.trans hp
    cases hp'
    rfl
  rw [hrunning]
  exact main_unaffected hmain

end IotLoggingServer
