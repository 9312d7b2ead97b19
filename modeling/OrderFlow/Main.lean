import OrderFlow.CommandLine.Reach
import OrderFlow.CommandLine.Run
import Std.Time.DateTime.Timestamp

/-! The program. Files and variables that a run may ask for are read first; then the run is made;
then what it changed is written. -/
namespace OrderFlow.Program
open CommandLine

/-- The tree with what stands at a path by itself. What cannot be read is left out. -/
def readEntry (t : FileTree) (p : Path) : IO FileTree := do
  let here := (← IO.currentDir) / p
  if ← here.isDir then return (t.makeDirectories p).2
  if !(← here.pathExists) then return t
  try
    let content ← IO.FS.readBinFile here
    let t := (p.parent?.elim (true, t) t.makeDirectories).2
    return (t.write? p (.bytes content)).getD t
  catch _ => return t

/-- The tree with what stands at a path and some levels of what is inside. -/
def readLevels : Nat → FileTree → Path → IO FileTree
  | 0, t, p => readEntry t p
  | n + 1, t, p => do
    let t ← readEntry t p
    if t.isDirectory p then
      let inside ← ((← IO.currentDir) / p).readDir
      inside.foldlM (fun t e => readLevels n t (p.join e.fileName)) t
    else return t

def readSources (t : FileTree) (sources : List Source) : IO FileTree :=
  sources.foldlM (fun t s => readLevels s.levels t s.path) t

/-- A tree that starts at the current directory. -/
def startTree : IO FileTree := do
  let here := (← IO.currentDir).toString
  let t := (FileTree.empty.makeDirectories here).2
  return { t with start := (t.place? here).getD [] }

def readVariables (names : List String) : IO Settings.Environment := do
  let values ← names.mapM fun name => return (name, ← IO.getEnv name)
  return fun name => (values.lookup name).join

def now : IO Instant := do
  let t ← Std.Time.Timestamp.now
  return ⟨t.val.second.val, t.val.nano.val.toNat⟩

def seed : IO Nat := do
  return (← IO.getRandomBytes 8).foldl (fun n b => 256 * n + b.toNat) 0

def writeEntry : Place × Entry → IO Unit
  | (p, .directory) => IO.FS.createDirAll ("/" ++ "/".intercalate p.reverse)
  | (p, .file c) => IO.FS.writeBinFile ("/" ++ "/".intercalate p.reverse) c.toBytes

end OrderFlow.Program

open OrderFlow OrderFlow.Program in
def main (args : List String) : IO UInt32 := do
  let t ← startTree
  let t ← readSources t (CommandLine.Source.ofSetup t args)
  let environment ← readVariables (CommandLine.variableNames t)
  let context := ⟨environment, ← now, Random.ofSeed (← seed)⟩
  let t ← readSources t (CommandLine.sources context args t)
  let (ending, after) := CommandLine.run context args t
  (CommandLine.changes t after).forM writeEntry
  IO.print ending.output
  IO.eprint ending.errors
  return ending.exitCode.toUInt32
