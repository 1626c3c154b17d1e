import Blockwork.Playback

/-!
# The command line

Plays a scenario against a folder of scripts.  Everything is told by environment variables:

* `SCRIPTS_DIR`: the folder, one `<owner>.json` for each actor (default `scripts`);
* `EVENTS_FILE`: the scenario (default `scenario.json`);
* `TARGET_TPS`: ticks per second (default 20, at least 1);
* `MAX_TICKS`: the last tick, in place of the end of the scenario;
* `ENGINE_CONFIG`: a file with limits;
* `DENIED_EFFECTS`: kinds of side effects that are refused, divided by commas.

The folder is read when the playback starts and written as scripts are saved.
-/

namespace Blockwork.CommandLine

/-- The text of a file, if it can be read. -/
def readText (path : String) : IO (Option String) := do
  try
    pure (some (← IO.FS.readFile path))
  catch _ => pure none

/-- A file by path and text. -/
def source (path : String) : IO SourceFile := do pure ⟨path, ← readText path⟩

/-- Reads a folder, which is made if there is none. -/
def readFolder (path : String) : IO FolderArchive := do
  IO.FS.createDirAll path
  let root ← IO.currentDir
  let entries ← (root.join path).readDir
  entries.foldlM (fun folder entry => do
    match ← readText (path ++ "/" ++ entry.fileName) with
    | some text => pure (folder.put entry.fileName text)
    | none => pure (folder.makeFolder entry.fileName)) {}

/-- Writes the files of a folder that have changed, and removes those that are gone. -/
def writeFolder (path : String) (before after : FolderArchive) : IO Unit := do
  for (name, entry) in after.entries.toList do
    match entry, before.entries.get? name with
    | .file text, some (.file old) =>
      if text != old then IO.FS.writeFile (path ++ "/" ++ name) text
    | .file text, _ => IO.FS.writeFile (path ++ "/" ++ name) text
    | .folder, _ => pure ()
  for name in before.entries.keys do
    if !after.entries.contains name then IO.FS.removeFile (path ++ "/" ++ name)

/-- The wait between ticks in milliseconds. -/
def pause (ticksPerSecond : Option String) : UInt32 :=
  let rate := (ticksPerSecond.bind Numeral.single?).getD 20
  let rate : Float32 := if 1 < rate then rate else 1
  ((1000 : Float32) / rate).toUInt32

/-- Prints lines of the log. -/
def printLog (lines : List LogLine) : IO Unit := do
  for l in lines do
    IO.println l.text

/-- Prints an error; the exit code. -/
def fail (e : PlaybackError) : IO UInt32 := do
  IO.eprintln e.report
  pure e.exitCode.toUInt32

/-- Ticks until the playback is over, printing what is logged on each tick. -/
partial def live (setup : Setup) (wait : UInt32) (p : Playback FolderArchive) :
    IO (Playback FolderArchive) := do
  let next := { p with log := [] }.next
  printLog next.log
  let next := { next with log := [] }
  writeFolder setup.scriptsPath p.session.archive next.session.archive
  if next.isBroken || next.isOver setup.maxTicks then pure next
  else
    IO.sleep wait
    live setup wait next

/-- Plays a scenario at its pace. -/
def play (setup : Setup) (wait : UInt32) : IO UInt32 := do
  match setup.open_ with
  | .error (e, log) =>
    printLog log
    fail e
  | .ok p =>
    printLog p.log
    let p ← live setup wait p
    let report := p.close
    printLog report.log
    writeFolder setup.scriptsPath p.session.archive report.scripts
    match report.failure with
    | some e => fail e
    | none => pure 0

/-- Gathers what the environment says and plays the scenario. -/
def run : IO UInt32 := do
  let scriptsPath := (← IO.getEnv "SCRIPTS_DIR").getD "scripts"
  let scenarioPath := (← IO.getEnv "EVENTS_FILE").getD "scenario.json"
  let limits ← match ← IO.getEnv "ENGINE_CONFIG" with
    | some path => do pure (some (← source path))
    | none => pure none
  let setup : Setup := {
    scriptsPath
    scripts := ← readFolder scriptsPath
    scenario := ← source scenarioPath
    limits
    maxTicks := (← IO.getEnv "MAX_TICKS").bind (Text.unsigned? Json.maxWord)
    denied := (← IO.getEnv "DENIED_EFFECTS").getD "" }
  play setup (pause (← IO.getEnv "TARGET_TPS"))

end Blockwork.CommandLine

/-- Plays the scenario that the environment names. -/
def main : IO UInt32 := Blockwork.CommandLine.run
