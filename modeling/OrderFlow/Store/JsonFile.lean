import OrderFlow.Files.Storing
import OrderFlow.Json.Printer
import OrderFlow.Json.Reader

/-! Values kept as JSON files. -/
namespace OrderFlow.JsonFile

def cannotCreate (p : Path) : Cause := .other ("Failed to create " ++ p)

def cannotOpen (p : Path) : Cause := .other ("Failed to open " ++ p)

/-- Makes the directories above a file. -/
def makeParents (p : Path) : Storing Unit :=
  match p.parent? with
  | none => pure ()
  | some directory => Storing.changeThrough (cannotCreate directory) (·.makeDirectories directory)

/-- Creates a file, or replaces what it held. -/
def create (p : Path) (c : Content) : Storing Unit :=
  Storing.change (cannotCreate p) (·.write? p c)

/-- Writes a value with the directories above it. -/
def write (p : Path) (j : Json) : Storing Unit := do
  makeParents p
  create p (.text j.toIndentedText)

/-- Reads a value; what exists but does not hold one is unreadable. -/
def read {α : Type} (t : FileTree) (p : Path) (ofJson? : Json → Option α) : Outcome α :=
  if t.exists? p then
    match ((t.text? p).bind Json.parse?).bind ofJson? with
    | some a => .ok a
    | none => fail (.corrupt p)
  else fail (cannotOpen p)

end OrderFlow.JsonFile
