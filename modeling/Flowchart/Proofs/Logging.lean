import Flowchart.Log
import Flowchart.Proofs.FileChanges
import Mathlib.Data.List.Nodup

/-!
# What a Session Logs

Handlers and their levels follow from the history of a session.  After each call there is
one handler for the console and one for each attached file, all at the level of the latest
call that set one.  So a message reaches all targets or none, and a file holds what it held
before and then the lines that were logged while it was attached.

Two spellings of one path have one absolute path.  Absolute paths are compared as texts,
though, and a text that begins with two slashes names the same file as with one; that no
two of the paths are of that kind is assumed.

Main statements: a line goes to the end of each attached file (`emitAll_spec`), each call
is followed by its history (`Follows.configure`, `Follows.write`), and so is a whole session
(`log_follows_history`).
-/

namespace Flowchart

/-! ## §1 Absolute paths -/

/-- The place that an absolute path names. -/
def Path.place (path : String) : Place :=
  (Path.names path.toList).foldl Path.followName []

/-- What an absolute path is made of begins with a slash. -/
theorem Path.isAbsolute_absolute (workingDirectory : List String) (path : List Char) :
    isAbsolute (absolute workingDirectory path).toList = true := by
  unfold absolute rootSlashes
  split
  · split <;> simp [isAbsolute]
  · simp [isAbsolute]

/-- The place of an absolute path does not depend on what is in the file system. -/
theorem FileSystem.eq_place_of_filePlace {fs : FileSystem} {path : String} {place : Place}
    (habsolute : Path.isAbsolute path.toList = true) (h : fs.filePlace path.toList = .ok place) :
    place = Path.place path := by
  have hplace := vacancy_eq_foldl (filePlace_eq_ok_iff.1 h).1
  rwa [base, if_pos habsolute] at hplace

namespace Log

/-! ## §2 Writing a line -/

/-- The file of a path is there and can be written. -/
def Opened (fs : FileSystem) (path : String) : Prop :=
  fs.filePlace path.toList = .ok (Path.place path) ∧
    ∃ content, fs.entry? (Path.place path) = some (.file content)

/-- A file that is open stays so while other things are written. -/
theorem Opened.later {fs fs' : FileSystem} {path : String} (h : Opened fs path)
    (hlater : fs.Later fs') : Opened fs' path := by
  obtain ⟨hplace, content, hcontent⟩ := h
  exact ⟨hlater.filePlace hplace hcontent, hlater.file hcontent⟩

theorem emit_file {log : Log} {path : String} {files : FileSystem} {line : String}
    (h : log.files.append path line.toUTF8 = .ok files) :
    log.emit (.file path) line = { log with files := files } := by
  rw [emit, h]

/-- **A line goes to the end of each file**, and changes nothing else. -/
theorem emitAll_spec {log : Log} {paths : List String} (line : String)
    (hopened : ∀ path ∈ paths, Opened log.files path)
    (hnodup : (paths.map Path.place).Nodup) :
    ∃ files, paths.foldl (fun log path => log.emit (.file path) line) log =
        { log with files := files } ∧
      log.files.Later files ∧
      ∀ place, files.entry? place =
        if place ∈ paths.map Path.place then
          some (.file (log.files.contentAt place ++ line.toUTF8))
        else log.files.entry? place := by
  -- by induction on the files, for whatever the earlier ones hold by now
  induction paths generalizing log with
  | nil => exact ⟨log.files, rfl, .refl _, fun place => by simp⟩
  | cons path paths ih =>
    obtain ⟨files₁, happend, hlater₁, -, hentry₁⟩ :=
      FileSystem.append_spec (hopened path List.mem_cons_self).1 line.toUTF8
    rw [List.map_cons, List.nodup_cons] at hnodup
    rw [List.foldl_cons, emit_file happend]
    have hrest : ∀ other ∈ paths, Opened files₁ other := fun other hother =>
      (hopened other (List.mem_cons_of_mem path hother)).later hlater₁
    obtain ⟨files, hfiles, hlater, hentry⟩ := @ih { log with files := files₁ } hrest hnodup.2
    refine ⟨files, hfiles, hlater₁.trans hlater, fun place => ?_⟩
    dsimp only at hentry
    have hplace := hentry₁ place
    rw [hentry, List.map_cons]
    by_cases hsame : place = Path.place path
    · -- this file is written now, and by none of the others
      subst hsame
      rw [if_pos rfl] at hplace
      rw [if_neg hnodup.1, if_pos List.mem_cons_self, hplace]
    · rw [if_neg hsame] at hplace
      rw [FileSystem.contentAt_of_entry hplace, hplace]
      simp [hsame]

end Log

/-! ## §3 Histories -/

namespace LogHistory

/-- The logger that a history leads to: one handler for each target, at the level in
    force. -/
def logger (h : LogHistory) : Logger :=
  ⟨h.level, h.targets.map fun target => ⟨target, h.level⟩⟩

/-- To set the level sets that of all handlers. -/
theorem refresh_logger (h : LogHistory) (level : LogLevel) :
    h.logger.refresh level = { h with level := level : LogHistory }.logger := by
  simp [Logger.refresh, logger, targets]

/-- A file has its handler just if it is attached. -/
theorem hasTarget_logger (h : LogHistory) (path : String) :
    h.logger.hasTarget (.file path) = true ↔ path ∈ h.attached := by
  simp [Logger.hasTarget, logger, targets]

/-- A message passes just if it is at least at the level in force. -/
theorem isEnabledFor_logger {h : LogHistory} (hlevel : 1 ≤ h.level) (level : LogLevel) :
    h.logger.isEnabledFor level = true ↔ h.level ≤ level := by
  have hpos : (0 : Int) < h.level := Int.lt_of_lt_of_le Int.one_pos hlevel
  -- level zero, which stands for none, is not in force
  have hset : h.logger.threshold = h.level := if_neg (Int.ne_of_gt hpos)
  rw [Logger.isEnabledFor, hset, Bool.and_eq_true, decide_eq_true_eq, decide_eq_true_eq]
  exact and_iff_right_of_imp (Int.lt_of_lt_of_le hpos)

/-- No attached file is the one of the given path, unless it has that path. -/
def TellsApart (h : LogHistory) (path : String) : Prop :=
  ∀ other ∈ h.attached, Path.place other = Path.place path → other = path

end LogHistory

/-! ## §4 Logs and their histories -/

namespace Log

/-- A log is what the history of its calls tells: its logger, the console, and the files.
    The files are compared with those the session started with. -/
structure Follows (start : Log) (history : LogHistory) (log : Log) : Prop where
  logger : log.logger = history.logger
  workingDirectory : log.files.workingDirectory = start.files.workingDirectory
  console : log.console = start.console ++ String.join (history.lines .console)
  nodup : (history.attached.map Path.place).Nodup
  opened : ∀ path ∈ history.attached, Opened log.files path
  attached : ∀ path ∈ history.attached, log.files.contentAt (Path.place path) =
    start.files.contentAt (Path.place path) ++ (String.join (history.lines (.file path))).toUTF8
  silent : ∀ path, path ∉ history.attached → history.lines (.file path) = []
  others : ∀ place, place ∉ history.attached.map Path.place → ∀ content,
    log.files.entry? place = some (.file content) ↔ start.files.entry? place = some (.file content)

/-- Where a session starts: nothing has been logged, and only the level has been set. -/
theorem follows_start {start : Log} (hnew : start.logger = {}) (level : LogLevel) :
    Follows start { level := level } { start with logger := start.logger.refresh level } where
  logger := by rw [hnew]; rfl
  workingDirectory := rfl
  console := by simp
  nodup := List.nodup_nil
  opened := nofun
  attached := nofun
  silent _ _ := rfl
  others _ _ _ := Iff.rfl

variable {start log : Log} {history : LogHistory}

theorem Follows.refresh (h : Follows start history log) (level : LogLevel) :
    Follows start { history with level := level }
      { log with logger := log.logger.refresh level } :=
  { h with logger := by rw [h.logger, history.refresh_logger] }

/-- Making directories changes none of what is told. -/
theorem Follows.directories {files : FileSystem} (h : Follows start history log)
    (hadded : log.files.DirectoriesAdded files) :
    Follows start history { log with files := files } where
  logger := h.logger
  workingDirectory := hadded.workingDirectory.trans h.workingDirectory
  console := h.console
  nodup := h.nodup
  opened path hpath := (h.opened path hpath).later hadded.later
  attached path hpath := by
    rw [FileSystem.contentAt_congr fun content => hadded.entry_file_iff]
    exact h.attached path hpath
  silent := h.silent
  others place hplace content := hadded.entry_file_iff.trans (h.others place hplace content)

/-- A file that is opened is made if it is missing, and gets its handler. -/
theorem Follows.open {path : String} {files : FileSystem} (h : Follows start history log)
    (hplace : log.files.filePlace path.toList = .ok (Path.place path))
    (hnew : Path.place path ∉ history.attached.map Path.place)
    (happend : log.files.append path .empty = .ok files) :
    Follows start { history with attached := history.attached ++ [path] }
      { log with
        files := files
        logger := { log.logger with
          handlers := log.logger.handlers ++ [⟨.file path, history.level⟩] } } := by
  obtain ⟨files', happend', hlater, hopened, hentry⟩ := FileSystem.append_spec hplace .empty
  obtain rfl := Except.ok.inj (happend.symm.trans happend')
  have hpath : path ∉ history.attached := fun hmem => hnew (List.mem_map_of_mem hmem)
  refine ⟨?_, hlater.workingDirectory.trans h.workingDirectory, h.console, ?_, ?_, ?_, ?_, ?_⟩
  · simp [h.logger, LogHistory.logger, LogHistory.targets]
  · -- the new file has a place of its own
    rw [List.map_append]
    refine List.nodup_append.2 ⟨h.nodup, List.pairwise_singleton _ _, ?_⟩
    rintro place hmem _ hsame rfl
    exact hnew (List.mem_singleton.1 hsame ▸ hmem)
  · intro other hother
    rcases List.mem_append.1 hother with hother | hsame
    · exact (h.opened other hother).later hlater
    · obtain rfl := List.mem_singleton.1 hsame
      exact ⟨hopened, _, (hentry _).trans (if_pos rfl)⟩
  · intro other hother
    have hplace' := hentry (Path.place other)
    rcases List.mem_append.1 hother with hother | hsame
    · have hne : Path.place other ≠ Path.place path := fun heq =>
        hnew (heq ▸ List.mem_map_of_mem hother)
      rw [if_neg hne] at hplace'
      rw [← h.attached other hother]
      exact FileSystem.contentAt_of_entry hplace'
    · obtain rfl := List.mem_singleton.1 hsame
      rw [if_pos rfl] at hplace'
      -- what stands there is what stood there at the start, and no line was logged to it
      simp only [FileSystem.contentAt_of_file hplace', h.silent other hpath]
      rw [FileSystem.contentAt_congr (h.others _ hnew)]
      rfl
  · intro other hother
    exact h.silent other fun hmem => hother (List.mem_append_left _ hmem)
  · intro place hother content
    rw [List.map_append, List.mem_append, not_or] at hother
    rw [hentry, if_neg (by simpa using hother.2)]
    exact h.others place hother.1 content

/-- **A call that attaches a file** is followed by its history, whether it fails or not. -/
theorem Follows.attach (h : Follows start history log) (file : String)
    (hapart : history.TellsApart (Path.absolute start.files.workingDirectory file.toList)) :
    Follows start
      (history.next start.files.workingDirectory
        (.configure (some file) history.level, (log.attach file history.level).1))
      (log.attach file history.level).2 := by
  rw [Log.attach, h.workingDirectory]
  generalize hpath : Path.absolute start.files.workingDirectory file.toList = path at hapart
  dsimp only
  split
  · next htarget =>
    -- the file has its handler
    rw [h.logger, history.hasTarget_logger] at htarget
    simpa [LogHistory.next, hpath, htarget] using h
  · next htarget =>
    rw [h.logger, history.hasTarget_logger] at htarget
    -- the path is not attached, so no attached file has its place either
    have hnew : Path.place path ∉ history.attached.map Path.place := by
      intro hmem
      obtain ⟨other, hother, hsame⟩ := List.mem_map.1 hmem
      exact htarget (hapart other hother hsame ▸ hother)
    have hadded := log.files.makeDirectories_adds (Path.directory path.toList)
    split
    · next e files hmade =>
      rw [hmade] at hadded
      -- the directories could not be made: those that were are all that changed
      exact h.directories hadded
    · next files hmade =>
      rw [hmade] at hadded
      have hdirectories := h.directories hadded
      split
      · exact hdirectories
      · next files' happend =>
        have hplace : files.filePlace path.toList = .ok (Path.place path) := by
          cases hfile : files.filePlace path.toList with
          | error fault => rw [FileSystem.append, hfile] at happend; cases happend
          | ok place =>
            rw [FileSystem.eq_place_of_filePlace (hpath ▸ Path.isAbsolute_absolute _ _) hfile]
        have hopen := hdirectories.open hplace hnew happend
        simpa [LogHistory.next, hpath, htarget] using hopen

/-- A line that is written to all targets is one more line of each. -/
theorem Follows.emit (h : Follows start history log) (line : String) :
    Follows start
      { history with
        lines := fun target =>
          if target ∈ history.targets then history.lines target ++ [line]
          else history.lines target }
      (history.targets.foldl (fun log target => log.emit target line) log) := by
  have hfile : ∀ path, LogTarget.file path ∈ history.targets ↔ path ∈ history.attached := by
    simp [LogHistory.targets]
  -- the console comes first, and then the files one by one
  obtain ⟨files, hfiles, hlater, hentry⟩ :=
    @emitAll_spec { log with console := log.console ++ line } history.attached line h.opened h.nodup
  have hall : history.targets.foldl (fun log target => log.emit target line) log =
      { log with console := log.console ++ line, files := files } := by
    rw [LogHistory.targets, List.foldl_cons, List.foldl_map]
    exact hfiles
  rw [hall]
  refine ⟨h.logger, hlater.workingDirectory.trans h.workingDirectory, ?_, h.nodup,
    fun path hpath => (h.opened path hpath).later hlater, ?_, ?_, ?_⟩
  · simp [h.console, LogHistory.targets, String.join_append, String.append_assoc]
  · intro path hpath
    have hwritten := hentry (Path.place path)
    rw [if_pos (List.mem_map_of_mem hpath)] at hwritten
    simp only [FileSystem.contentAt_of_file hwritten, h.attached path hpath, hfile, hpath, if_true]
    simp [ByteArray.append_assoc]
  · intro path hpath
    simp only [hfile, hpath, if_false]
    exact h.silent path hpath
  · intro place hplace content
    rw [hentry, if_neg hplace]
    exact h.others place hplace content

/-- **A message** goes to all targets or to none. -/
theorem Follows.write (h : Follows start history log) (hlevel : 1 ≤ history.level)
    (stamp : String) (level : LogLevel) (message : String) (result : Except FileError Unit) :
    Follows start
      (history.next start.files.workingDirectory (.write stamp level message, result))
      (log.write stamp level message) := by
  rw [Log.write, LogHistory.next, h.logger]
  by_cases hreaches : history.level ≤ level
  · rw [if_pos ((LogHistory.isEnabledFor_logger hlevel level).2 hreaches), if_pos hreaches]
    -- all handlers are at one level, so none of them is left out
    have hall : (history.logger.handlers.filter fun h => h.level ≤ level) =
        history.targets.map fun target => ⟨target, history.level⟩ :=
      List.filter_eq_self.2 fun handler hhandler => by
        obtain ⟨target, -, rfl⟩ := List.mem_map.1 hhandler
        exact decide_eq_true hreaches
    rw [hall, List.foldl_map]
    exact h.emit _
  · rw [if_neg (mt (LogHistory.isEnabledFor_logger hlevel level).1 hreaches), if_neg hreaches]
    exact h

/-- A call to configure is followed by its history, once the level has been set. -/
theorem Follows.configure {file : Option String} {level : LogLevel}
    (h : Follows start { history with level := level }
      { log with logger := log.logger.refresh level })
    (hapart : ∀ name ∈ file,
      history.TellsApart (Path.absolute start.files.workingDirectory name.toList)) :
    Follows start
      (history.next start.files.workingDirectory
        (.configure file level, (log.configure file level).1))
      (log.configure file level).2 := by
  cases file with
  | none => exact h
  | some name =>
    have hattach := h.attach name (hapart name rfl)
    rw [Log.configure]
    dsimp only at hattach ⊢
    revert hattach
    -- the answer is passed on, whatever it is
    rcases Log.attach _ name level with ⟨_ | _, log⟩ <;> exact id

/-- **A call is followed by its history.** -/
theorem Follows.perform (h : Follows start history log) (hlevel : 1 ≤ history.level)
    (call : LogCall)
    (hapart : ∀ name ∈ call.file?,
      history.TellsApart (Path.absolute start.files.workingDirectory name.toList)) :
    Follows start (history.next start.files.workingDirectory (call, (log.perform call).1))
      (log.perform call).2 := by
  cases call with
  | configure file level => exact (h.refresh level).configure hapart
  | write stamp level message => exact h.write hlevel stamp level message _

end Log

/-! ## §5 Sessions -/

/-- The absolute paths of the files that are to be attached. -/
def LogCall.paths (workingDirectory : Place) (calls : List LogCall) : List String :=
  calls.flatMap fun call => call.file?.toList.map fun file =>
    Path.absolute workingDirectory file.toList

/-- The level in force is positive if those that are set are. -/
theorem LogHistory.level_next {h : LogHistory} {call : LogCall}
    (hlevel : call.level? = none → 1 ≤ h.level) (hcall : ∀ level ∈ call.level?, 1 ≤ level)
    (workingDirectory : Place) (result : Except FileError Unit) :
    1 ≤ (h.next workingDirectory (call, result)).level := by
  cases call with
  | configure file level => cases file <;> cases result <;> exact hcall level rfl
  | write stamp level message =>
    rw [next]
    split <;> exact hlevel rfl

/-- Only files that were asked for are attached. -/
theorem LogHistory.attached_next_subset {h : LogHistory} {call : LogCall}
    {workingDirectory : Place} {paths : List String} (hattached : h.attached ⊆ paths)
    (hcall : ∀ name ∈ call.file?, Path.absolute workingDirectory name.toList ∈ paths)
    (result : Except FileError Unit) :
    (h.next workingDirectory (call, result)).attached ⊆ paths := by
  cases call with
  | configure file level =>
    cases file with
    | none => exact hattached
    | some name =>
      cases result with
      | error e => exact hattached
      | ok _ =>
        simp only [next]
        split
        · exact hattached
        · exact List.append_subset.2 ⟨hattached, by simpa using hcall name rfl⟩
  | write stamp level message =>
    rw [next]
    split <;> exact hattached

/-- **A session is followed by its history**, call by call. -/
theorem Log.Follows.performAll {start log : Log} {history : LogHistory} {paths : List String}
    (h : Follows start history log) (hlevel : 1 ≤ history.level)
    (hattached : history.attached ⊆ paths)
    (hapart : ∀ path ∈ paths, ∀ other ∈ paths, Path.place path = Path.place other → path = other)
    (calls : List LogCall) (hlevels : ∀ call ∈ calls, ∀ level ∈ call.level?, 1 ≤ level)
    (hcalls : LogCall.paths start.files.workingDirectory calls ⊆ paths) :
    Follows start
      ((log.performAll calls).1.foldl (LogHistory.next start.files.workingDirectory) history)
      (log.performAll calls).2 := by
  -- by induction on the calls, for whatever was logged before them
  induction calls generalizing log history with
  | nil => exact h
  | cons call calls ih =>
    rw [LogCall.paths, List.flatMap_cons, List.append_subset] at hcalls
    have hcall : ∀ name ∈ call.file?,
        Path.absolute start.files.workingDirectory name.toList ∈ paths := fun name hname =>
      hcalls.1 (List.mem_map_of_mem (Option.mem_toList.2 hname))
    have hstep := h.perform hlevel call fun name hname path hpath =>
      hapart path (hattached hpath) _ (hcall name hname)
    exact ih hstep (LogHistory.level_next (fun _ => hlevel) (hlevels call List.mem_cons_self) _ _)
      (LogHistory.attached_next_subset hattached hcall _)
      (fun other hother => hlevels other (List.mem_cons_of_mem call hother)) hcalls.2

/-- **What a session logs.**  A session starts by setting a level; all levels that are set
    are positive, and different absolute paths of its files name different files.  Then the
    logger has one handler for the console and behind it one for each attached file, all at
    the level in force.  The console got its lines.  Each attached file holds what it held
    before, and then its lines.  There are no other files than before, with no other
    contents. -/
theorem log_follows_history {start log : Log} (hnew : start.logger = {}) {file : Option String}
    {level : LogLevel} {calls : List LogCall} {results : List (LogCall × Except FileError Unit)}
    (hlevels : ∀ call ∈ LogCall.configure file level :: calls, ∀ l ∈ call.level?, 1 ≤ l)
    (hapart : ∀ path ∈ LogCall.paths start.files.workingDirectory (.configure file level :: calls),
      ∀ other ∈ LogCall.paths start.files.workingDirectory (.configure file level :: calls),
        Path.place path = Path.place other → path = other)
    (hrun : start.performAll (.configure file level :: calls) = (results, log)) :
    let history := LogHistory.ofCalls start.files.workingDirectory results
    log.logger = ⟨history.level,
        ⟨.console, history.level⟩ :: history.attached.map fun path => ⟨.file path, history.level⟩⟩ ∧
      history.attached.Nodup ∧
      log.console = start.console ++ String.join (history.lines .console) ∧
      (∀ path ∈ history.attached,
        log.files.locate path.toList = .ok (Path.place path) ∧
        log.files.entry? (Path.place path) = some (.file
          (start.files.contentAt (Path.place path) ++
            (String.join (history.lines (.file path))).toUTF8))) ∧
      ∀ place, (∀ path ∈ history.attached, Path.place path ≠ place) → ∀ content,
        log.files.entry? place = some (.file content) ↔
          start.files.entry? place = some (.file content) := by
  have hfirst : ∀ name ∈ (LogCall.configure file level).file?,
      Path.absolute start.files.workingDirectory name.toList ∈
        LogCall.paths start.files.workingDirectory (.configure file level :: calls) :=
    fun name hname => List.mem_append_left _ (List.mem_map_of_mem (Option.mem_toList.2 hname))
  have hconfigured := @Log.Follows.configure start start {} file level
    (Log.follows_start hnew level) (fun _ _ => nofun)
  -- the first call sets the level, whatever it was before
  have hset : (LogCall.configure file level).level? = none → 1 ≤ ({} : LogHistory).level := nofun
  have hlevel := LogHistory.level_next hset (hlevels _ List.mem_cons_self)
    start.files.workingDirectory (start.configure file level).1
  have hsession := hconfigured.performAll hlevel
    (LogHistory.attached_next_subset (List.nil_subset _) hfirst _) hapart calls
    (fun call hcall => hlevels call (List.mem_cons_of_mem _ hcall))
    (List.subset_append_right _ _)
  have hfollows : start.Follows (.ofCalls start.files.workingDirectory results) log := by
    obtain ⟨rfl, rfl⟩ := Prod.mk.inj hrun
    exact hsession
  refine ⟨?_, List.Nodup.of_map Path.place hfollows.nodup, hfollows.console, ?_, ?_⟩
  · rw [hfollows.logger, LogHistory.logger, LogHistory.targets, List.map_cons, List.map_map]
    rfl
  · intro path hpath
    obtain ⟨hplace, content, hcontent⟩ := hfollows.opened path hpath
    refine ⟨FileSystem.locate_of_filePlace hplace hcontent, ?_⟩
    rw [← hfollows.attached path hpath, FileSystem.contentAt_of_file hcontent]
    exact hcontent
  · intro place hplace
    exact hfollows.others place (by simpa using hplace)

/-- A session in an empty directory, with one file that is named in two ways and then taken
    for a directory. -/
def sessionWithOneFile : List (LogCall × Except FileError Unit) × Log :=
  Log.performAll { files := ⟨[(["w"], .directory)], ["w"]⟩ }
    [.configure (some "a.log") .info, .write "T" .debug "x", .configure (some "./a.log") .debug,
      .write "T" .debug "y", .configure (some "a.log/b") .warning, .write "T" .error "z"]

/-- The file has one handler, and the level of the call that failed is in force. -/
theorem logger_of_session_with_one_file :
    sessionWithOneFile.2.logger =
        ⟨.warning, [⟨.console, .warning⟩, ⟨.file "/w/a.log", .warning⟩]⟩ ∧
      sessionWithOneFile.2.files.entry? ["w", "a.log"] =
        some (.file ("[T] DEBUG - y\n" ++ "[T] ERROR - z\n").toUTF8) := by
  obtain ⟨hlogger, -, -, hfiles, -⟩ := @log_follows_history
    { files := ⟨[(["w"], .directory)], ["w"]⟩ } sessionWithOneFile.2 rfl (some "a.log") .info
    [.write "T" .debug "x", .configure (some "./a.log") .debug,
      .write "T" .debug "y", .configure (some "a.log/b") .warning, .write "T" .error "z"]
    sessionWithOneFile.1 (by decide) (by decide +kernel) rfl
  have hattached : (LogHistory.ofCalls ["w"] sessionWithOneFile.1).attached = ["/w/a.log"] := by
    decide +kernel
  have hlevel : (LogHistory.ofCalls ["w"] sessionWithOneFile.1).level = .warning := by
    decide +kernel
  have hlines : (LogHistory.ofCalls ["w"] sessionWithOneFile.1).lines (.file "/w/a.log") =
      ["[T] DEBUG - y\n", "[T] ERROR - z\n"] := by
    decide +kernel
  have hfile := (hfiles "/w/a.log" (by rw [hattached]; exact List.mem_cons_self)).2
  have hplace : Path.place "/w/a.log" = ["w", "a.log"] := by decide +kernel
  rw [hlevel, hattached] at hlogger
  rw [hplace, hlines] at hfile
  exact ⟨hlogger, hfile⟩

end Flowchart
