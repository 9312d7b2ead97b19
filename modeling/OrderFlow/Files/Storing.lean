import OrderFlow.Failure
import OrderFlow.Files.Tree

/-! Steps over a tree of files that may change it and may fail. What a step changed before it
failed stays changed. -/
namespace OrderFlow

abbrev Storing := ExceptT Failure (StateM FileTree)

namespace Storing

/-- A step that changes nothing. -/
def of {α : Type} (o : Outcome α) : Storing α := ExceptT.mk (pure o)

/-- A step that only looks. -/
def reading {α : Type} (f : FileTree → Outcome α) : Storing α :=
  ExceptT.mk fun t => (f t, t)

/-- A step that changes the tree, or fails and leaves it. -/
def change (cause : Cause) (f : FileTree → Option FileTree) : Storing Unit :=
  ExceptT.mk fun t =>
    match f t with
    | some t' => (.ok (), t')
    | none => (fail cause, t)

/-- A step that changes the tree as far as it goes, and fails where the answer is false. -/
def changeThrough (cause : Cause) (f : FileTree → Bool × FileTree) : Storing Unit :=
  ExceptT.mk fun t =>
    let (done, t') := f t
    (if done then .ok () else fail cause, t')

/-- Says what was being attempted when a step failed. -/
def attempting {α : Type} (what : String) (s : Storing α) : Storing α :=
  ExceptT.mk fun t => let (o, t') := s.run t; (OrderFlow.attempting what o, t')

@[simp] theorem run_of {α : Type} (o : Outcome α) (t : FileTree) :
    ExceptT.run (of o) t = (o, t) := rfl

@[simp] theorem run_reading {α : Type} (f : FileTree → Outcome α) (t : FileTree) :
    ExceptT.run (reading f) t = (f t, t) := rfl

end Storing
end OrderFlow
