import OrderFlow.CommandLine.Arguments
import OrderFlow.CommandLine.Perform

/-! A whole run: arguments, environment and files in; texts, an exit code and files out. -/
namespace OrderFlow.CommandLine

/-- What a run shows and how it ends. -/
structure Ending where
  exitCode : Nat
  output : String
  errors : String
  deriving DecidableEq, Repr

namespace Ending

def finished (output : String) : Ending := ⟨0, output, ""⟩

/-- The wordings below the outermost one, numbered if there are several. -/
def reasons : List String → String
  | [] => ""
  | [w] => "\n\nCaused by:\n    " ++ w
  | ws =>
    let lines := ws.mapIdx fun i w => "    " ++ Text.natText i ++ ": " ++ w
    "\n\nCaused by:\n" ++ "\n".intercalate lines

/-- What can never have been meant ends with a code of its own. -/
def ofFailure (f : Failure) : Ending :=
  match f.cause with
  | .overflow | .incompleteForest | .unusableVariable _ => ⟨101, "", f.chain ++ "\n"⟩
  | _ =>
    let below := (f.attempts ++ [f.cause.message]).drop 1
    ⟨1, "", "Error: " ++ f.message ++ reasons below ++ "\n"⟩

def ofOutcome : Outcome Shown → Ending
  | .ok ⟨text, none⟩ => finished text
  | .ok ⟨text, some c⟩ => { ofFailure (.ofCause c) with output := text }
  | .error f => ofFailure f

def programName : String := "tickcast"

def versionText : String := programName ++ " 0.3.1\n"

/-- A command with its options. -/
def usageOf (v : Verb) : String :=
  "  " ++ v.name ++ " <SYMBOL>" ++
    String.join (v.ownFlags.map fun f => " [--" ++ f.name ++ " <VALUE>]") ++ "\n"

def usage : String :=
  "Usage: " ++ programName ++
    String.join (Flag.general.map fun f => " [--" ++ f.name ++ " <PATH>]") ++ " <COMMAND>\n\n" ++
    "Commands:\n" ++ String.join (Verb.all.map usageOf)

def ofMisuse (m : Misuse) : Ending := ⟨2, "", "error: " ++ m.message ++ "\n\n" ++ usage⟩

end Ending

/-- Runs the program in the environment that the files around it extend. The files are as they
are left, also when the run fails. -/
def run (c : Context) (args : List String) (t : FileTree) : Ending × FileTree :=
  match extendedEnvironment t c.environment with
  | .error f => (.ofFailure f, t)
  | .ok environment =>
    match request args with
    | .error m => (.ofMisuse m, t)
    | .ok .help => (.finished Ending.usage, t)
    | .ok .version => (.finished Ending.versionText, t)
    | .ok (.run locations command) =>
      let (o, t) := (perform { c with environment } locations command).run t
      (.ofOutcome o, t)

end OrderFlow.CommandLine
