import IotLoggingServer.ConfigFileMonitor

set_option autoImplicit false

/-! # The polls of the config file monitor (`_config_file_monitor`)

A poll goes once over the monitored files. What `stat` reports at a poll is arbitrary for each file,
so files may disappear, come back or appear late. The table after any number of polls holds, for
each file, the stamp of its first successful poll, and a poll signals exactly if some file is later
than that in whole seconds (`polls_exact`). -/

namespace IotLoggingServer

/-- What `stat` of each file comes to at one poll. -/
abbrev Poll := Str → Option StatResult

/-- The loop over the monitored files; the second component says whether SIGINT is sent. -/
def pollFiles (stats : Poll) : List Str → FilesStat → FilesStat × Bool
  | [], monitoredFilesStat => (monitoredFilesStat, false)
  | entry :: rest, monitoredFilesStat =>
    let (monitoredFilesStat, changed) := checkEntry monitoredFilesStat entry (stats entry)
    let (monitoredFilesStat, later) := pollFiles stats rest monitoredFilesStat
    (monitoredFilesStat, changed || later)

/-- `_monitored_files_stat` after some polls. -/
def tableAfter (files : List Str) (polls : List Poll) (table : FilesStat) : FilesStat :=
  polls.foldl (fun table stats => (pollFiles stats files table).1) table

/-- For each poll, whether it sends SIGINT. -/
def sendsSigint (files : List Str) : List Poll → FilesStat → List Bool
  | [], _ => []
  | stats :: rest, table =>
    (pollFiles stats files table).2 :: sendsSigint files rest (pollFiles stats files table).1

/-! ## One poll -/

theorem checkEntry_table (table : FilesStat) (entry entry' : Str) (fStat : Option StatResult) :
    (checkEntry table entry fStat).1 entry' =
      if entry' = entry then (table entry).or (fStat.map MCTime.fromStat) else table entry' := by
  unfold checkEntry
  split
  · split_ifs with heq
    · rw [heq, Option.map_none, Option.or_none]
    · rfl
  · split
    · next hnone =>
        dsimp only
        rw [Function.update_apply, hnone]
        rfl
    · next mctime hsome =>
        split_ifs with heq
        · rw [heq, hsome]
          exact hsome
        · rfl

/-- What a file shows at a poll is later than what the table has of it. -/
def LaterThan (table : FilesStat) (stats : Poll) (entry : Str) : Prop :=
  ∃ mctime stat, table entry = some mctime ∧ stats entry = some stat ∧
    mctime.fileChanged (MCTime.fromStat stat)

theorem checkEntry_changed (table : FilesStat) (stats : Poll) (entry : Str) :
    (checkEntry table entry (stats entry)).2 = true ↔ LaterThan table stats entry := by
  unfold checkEntry LaterThan
  split
  · next hnone => simp [hnone]
  · next stat hstat =>
      split
      · next hnone => simp [hnone]
      · next mctime hsome => simp [hsome, hstat]

/-- A poll records what it sees first, and what it has just recorded is not later than itself. -/
theorem laterThan_checkEntry (table : FilesStat) (stats : Poll) (entry entry' : Str) :
    LaterThan (checkEntry table entry (stats entry)).1 stats entry' ↔
      LaterThan table stats entry' := by
  unfold LaterThan
  rw [checkEntry_table]
  split_ifs with heq
  · subst heq
    cases htable : table entry' with
    | some mctime => rfl
    | none =>
        cases hstat : stats entry' with
        | none => rfl
        | some stat =>
            have hself : ¬ (MCTime.fromStat stat).fileChanged (MCTime.fromStat stat) :=
              MCTime.not_fileChanged.2 ⟨le_refl _, le_refl _⟩
            simp [hself]
  · rfl

theorem pollFiles_table (stats : Poll) (files : List Str) (table : FilesStat) (entry : Str) :
    (pollFiles stats files table).1 entry =
      if entry ∈ files then (table entry).or ((stats entry).map MCTime.fromStat)
      else table entry := by
  induction files generalizing table with
  | nil => rfl
  | cons first rest ih =>
      show (pollFiles stats rest (checkEntry table first (stats first)).1).1 entry = _
      rw [ih, checkEntry_table]
      by_cases hfirst : entry = first
      · subst hfirst
        rw [if_pos rfl, if_pos List.mem_cons_self, Option.or_assoc, Option.or_self, ite_self]
      · simp only [hfirst, if_false, List.mem_cons, false_or]

theorem pollFiles_signal (stats : Poll) (files : List Str) (table : FilesStat) :
    (pollFiles stats files table).2 = true ↔ ∃ entry ∈ files, LaterThan table stats entry := by
  induction files generalizing table with
  | nil => simp [pollFiles]
  | cons first rest ih =>
      show ((checkEntry table first (stats first)).2 ||
        (pollFiles stats rest (checkEntry table first (stats first)).1).2) = true ↔ _
      rw [Bool.or_eq_true, checkEntry_changed, ih, List.exists_mem_cons_iff]
      simp only [laterThan_checkEntry]

/-! ## Runs of polls -/

/-- The first stat of a file that succeeds. -/
def firstStat (entry : Str) (polls : List Poll) : Option StatResult :=
  polls.findSome? (fun stats => stats entry)

theorem firstStat_cons (entry : Str) (stats : Poll) (rest : List Poll) :
    firstStat entry (stats :: rest) = (stats entry).or (firstStat entry rest) := by
  rw [firstStat, List.findSome?_cons]
  cases stats entry <;> rfl

theorem tableAfter_eq (files : List Str) (polls : List Poll) (table : FilesStat) (entry : Str) :
    tableAfter files polls table entry =
      if entry ∈ files then (table entry).or ((firstStat entry polls).map MCTime.fromStat)
      else table entry := by
  induction polls generalizing table with
  | nil => simp [tableAfter, firstStat]
  | cons stats rest ih =>
      rw [tableAfter, List.foldl_cons, ← tableAfter, ih, pollFiles_table, firstStat_cons,
        Option.map_or]
      split_ifs with hmem
      · rw [Option.or_assoc]
      · rfl

theorem sendsSigint_getElem? (files : List Str) (polls : List Poll) (table : FilesStat) (k : ℕ) :
    (sendsSigint files polls table)[k]? =
      polls[k]?.map (fun stats => (pollFiles stats files
        (tableAfter files (polls.take k) table)).2) := by
  induction polls generalizing table k with
  | nil => rfl
  | cons stats rest ih =>
      cases k with
      | zero => rfl
      | succ k =>
          rw [sendsSigint, List.getElem?_cons_succ, ih]
          rfl

theorem tableAfter_take_succ (files : List Str) {polls : List Poll} {k : ℕ} {stats : Poll}
    (h : polls[k]? = some stats) (table : FilesStat) :
    tableAfter files (polls.take (k + 1)) table =
      (pollFiles stats files (tableAfter files (polls.take k) table)).1 := by
  rw [List.take_add_one, h, tableAfter, List.foldl_append]
  rfl

/-- The empty table the monitor starts with. -/
def noStats : FilesStat := fun _ => none

/-- **The poll machine is exact.** Poll `k` sends SIGINT iff some file is statted at it with an
    mtime or a ctime that is later, in whole seconds, than at the file's first successful poll
    before; a baseline stays as it was recorded, and a file that fails to stat leaves its own as it
    is. -/
theorem polls_exact (files : List Str) (polls : List Poll) :
    (∀ k, (sendsSigint files polls noStats)[k]? = some true ↔
      ∃ stats, polls[k]? = some stats ∧ ∃ entry ∈ files, ∃ first stat,
        firstStat entry (polls.take k) = some first ∧ stats entry = some stat ∧
        (truncate first.mtime < truncate stat.mtime ∨
          truncate first.ctime < truncate stat.ctime)) ∧
    (∀ k entry mctime, tableAfter files (polls.take k) noStats entry = some mctime →
      tableAfter files (polls.take (k + 1)) noStats entry = some mctime) ∧
    ∀ k stats entry, polls[k]? = some stats → stats entry = none →
      tableAfter files (polls.take (k + 1)) noStats entry =
        tableAfter files (polls.take k) noStats entry := by
  refine ⟨?_, ?_, ?_⟩
  · intro k
    rw [sendsSigint_getElem?, Option.map_eq_some_iff]
    refine exists_congr (fun stats => and_congr_right (fun _ => ?_))
    rw [pollFiles_signal]
    refine exists_congr (fun entry => and_congr_right (fun hmem => ?_))
    unfold LaterThan
    rw [tableAfter_eq, if_pos hmem, noStats, Option.none_or]
    constructor
    · intro h
      obtain ⟨mctime, stat, hrecorded, hstat, hchanged⟩ := h
      obtain ⟨first, hfirst, rfl⟩ := Option.map_eq_some_iff.1 hrecorded
      exact ⟨first, stat, hfirst, hstat, hchanged.symm⟩
    · intro h
      obtain ⟨first, stat, hfirst, hstat, hlater⟩ := h
      exact ⟨MCTime.fromStat first, stat, by rw [hfirst]; rfl, hstat, hlater.symm⟩
  · intro k entry mctime h
    cases hstats : polls[k]? with
    | none =>
        have hlength := List.getElem?_eq_none_iff.1 hstats
        rwa [List.take_of_length_le (Nat.le_succ_of_le hlength),
          ← List.take_of_length_le hlength]
    | some stats =>
        rw [tableAfter_take_succ files hstats, pollFiles_table, h]
        exact ite_self _
  · intro k stats entry hstats hfail
    rw [tableAfter_take_succ files hstats, pollFiles_table, hfail, Option.map_none, Option.or_none]
    exact ite_self _

/-- A change within the second is not seen: the file shows 1 s at the first poll and 1.5 s at the
    second, which sends nothing. -/
theorem not_polls_subsecond :
    ¬ ∀ (files : List Str) (polls : List Poll) (k : ℕ),
      (sendsSigint files polls noStats)[k]? = some true ↔
        ∃ stats, polls[k]? = some stats ∧ ∃ entry ∈ files, ∃ first stat,
          firstStat entry (polls.take k) = some first ∧ stats entry = some stat ∧
          (first.mtime < stat.mtime ∨ first.ctime < stat.ctime) := by
  intro h
  have hsecond := (h [[]] [fun _ => some ⟨1, 1⟩, fun _ => some ⟨3 / 2, 3 / 2⟩] 1).2
    ⟨_, rfl, [], List.mem_singleton_self _, ⟨1, 1⟩, ⟨3 / 2, 3 / 2⟩, rfl, rfl, Or.inl (by norm_num)⟩
  have hone : truncate 1 = 1 := by norm_num [truncate]
  have hhalf : truncate (3 / 2) = 1 := by norm_num [truncate]
  simp [sendsSigint, pollFiles, checkEntry, noStats, MCTime.fromStat, MCTime.fileChanged, hone,
    hhalf] at hsecond

end IotLoggingServer
