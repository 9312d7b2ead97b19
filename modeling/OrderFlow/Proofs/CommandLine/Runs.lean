import Mathlib.Order.Defs.Unbundled
import OrderFlow.CommandLine.Run
import OrderFlow.Proofs.Files.Growth
import OrderFlow.Proofs.Files.Steps

/-! What a whole run does to the files. Every run keeps the directories there are; one that neither
trains nor exports leaves all files alone. Refused arguments have an exit code of their own. -/
namespace OrderFlow
open FileTree (Grows)

instance : Std.Refl Grows := ⟨.refl⟩

instance : IsTrans FileTree Grows := ⟨fun _ _ _ => .trans⟩

namespace Storing
variable {R : FileTree → FileTree → Prop} {α β : Type} {x : Storing α} {f : α → Storing β}

/-- A step leads from every tree to one that is related to it, also where it fails. -/
def Moves (R : FileTree → FileTree → Prop) (x : Storing α) : Prop := ∀ t, R t (result x t).2

theorem Moves.bind [IsTrans FileTree R] (h : Moves R x) (hf : ∀ a, Moves R (f a)) :
    Moves R (x >>= f) := by
  intro t
  have hx := h t
  rw [result_bind]
  rcases hrun : result x t with ⟨e | a,t'⟩
  · rwa [hrun] at hx
  · rw [hrun] at hx
    exact IsTrans.trans _ _ _ hx (hf a t')

lemma Moves.attempting (h : Moves R x) (what : String) : Moves R (Storing.attempting what x) := h

lemma moves_changeThrough {cause : Cause} {g : FileTree → Bool × FileTree}
    (h : ∀ t, R t (g t).2) : Moves R (changeThrough cause g) := h

variable [Std.Refl R]

lemma moves_of (o : Outcome α) : Moves R (of o) := Std.Refl.refl

lemma moves_pure (a : α) : Moves R (pure a : Storing α) := Std.Refl.refl

lemma moves_reading (f : FileTree → Outcome α) : Moves R (reading f) := Std.Refl.refl

lemma moves_change {cause : Cause} {g : FileTree → Option FileTree}
    (h : ∀ t t', g t = some t' → R t t') : Moves R (change cause g) := by
  intro t
  rw [result_change]
  cases hg : g t with
  | none => exact Std.Refl.refl t
  | some t' => exact h t t' hg

end Storing

open Storing

namespace JsonFile

lemma moves_create (p : Path) (c : Content) : Moves Grows (create p c) :=
  moves_change fun _ _ => FileTree.grows_of_write?

lemma moves_write (p : Path) (j : Json) : Moves Grows (write p j) := by
  refine Moves.bind ?_ fun _ => moves_create _ _
  rw [makeParents]
  split
  · exact moves_pure ()
  · exact moves_changeThrough fun _ => FileTree.grows_makeDirectories

end JsonFile

open JsonFile

lemma Forecaster.moves_save (m : Forecaster) (p : Path) : Moves Grows (m.save p) := by
  cases m with
  | lstm m => exact moves_change fun _ _ => FileTree.grows_of_write?
  | forest m => exact moves_write p m.toJson

/-- A training keeps the directories. -/
theorem ModelStore.moves_train (s : ModelStore) (settings : TrainingSettings) (now : Instant)
    (r : Random) (series : Series) : Moves Grows (s.train settings now r series) := by
  have hensure : Moves Grows s.ensure :=
    moves_changeThrough fun _ => FileTree.grows_makeDirectories
  refine (moves_of _).bind fun p => hensure.bind fun _ => (moves_of _).bind fun fitted => ?_
  obtain ⟨model,history⟩ := fitted
  have hscalers : Moves Grows (s.saveScalers series.symbol p.featureScaler p.targetScaler) :=
    (moves_write _ _).bind fun _ => moves_write _ _
  exact (model.moves_save _).bind fun _ => hscalers.bind fun _ => (moves_write _ _).bind
    fun _ => ((moves_create _ _).attempting _).bind fun _ => moves_pure _

namespace CommandLine
variable {c : Context} {args : List String} {t : FileTree}

namespace Command

/-- Can the command change a file? -/
def writes : Command → Bool
  | train .. => true
  | candles _ output _ => output.isSome
  | predict .. | dataset .. => false

theorem moves_perform (c : Context) (s : Settings) (command : Command) :
    Moves Grows (command.perform c s) := by
  cases command with
  | train symbol lookback epochs batchSize kind =>
    exact (moves_of _).bind fun _ => (moves_reading _).bind fun _ =>
      (ModelStore.moves_train _ _ _ _ _).bind fun _ => moves_pure _
  | predict symbol lookback => exact moves_reading _
  | candles symbol output horizon =>
    refine (moves_reading _).bind fun _ => (moves_of _).bind fun _ => ?_
    cases output with
    | none => exact (moves_of _).bind fun _ => moves_pure _
    | some p =>
      exact (moves_create _ _).bind fun _ => (moves_of _).bind fun _ =>
        (moves_create _ _).bind fun _ => moves_pure _
  | dataset symbol lookback horizon => exact moves_reading _

/-- A command that writes nothing leaves the tree as it is. -/
theorem moves_perform_of_not_writes (c : Context) (s : Settings) {command : Command}
    (h : command.writes = false) : Moves Eq (command.perform c s) := by
  cases command with
  | train symbol lookback epochs batchSize kind => cases h
  | predict symbol lookback => exact moves_reading _
  | candles symbol output horizon =>
    cases output with
    | none =>
      exact (moves_reading _).bind fun _ => (moves_of _).bind fun _ => (moves_of _).bind
        fun _ => moves_pure _
    | some p => cases h
  | dataset symbol lookback horizon => exact moves_reading _

end Command

lemma moves_perform (c : Context) (l : Locations) (command : Command) :
    Moves Grows (perform c l command) :=
  (moves_reading _).bind fun s => command.moves_perform c s

lemma moves_perform_of_not_writes (c : Context) (l : Locations) {command : Command}
    (h : command.writes = false) : Moves Eq (perform c l command) :=
  (moves_reading _).bind fun s => Command.moves_perform_of_not_writes c s h

/-- The ways that a run can go, with its ending and the tree that it leaves. -/
inductive IsRun (c : Context) (args : List String) (t : FileTree) : Ending → FileTree → Prop
  | unset {f : Failure} (environment : extendedEnvironment t c.environment = .error f) :
    IsRun c args t (.ofFailure f) t
  | refused {environment : Settings.Environment} {m : Misuse}
    (environment : extendedEnvironment t c.environment = .ok environment)
    (request : request args = .error m) : IsRun c args t (.ofMisuse m) t
  | told {text : String} {r : Request} (request : request args = .ok r) :
    IsRun c args t (.finished text) t
  | performed {environment : Settings.Environment} {l : Locations} {command : Command}
    {o : Outcome Shown} {t' : FileTree} (request : request args = .ok (.run l command))
    (ran : result (perform { c with environment } l command) t = (o,t')) :
    IsRun c args t (.ofOutcome o) t'

theorem isRun_run (c : Context) (args : List String) (t : FileTree) :
    IsRun c args t (run c args t).1 (run c args t).2 := by
  unfold run
  split
  · next f hf => exact .unset hf
  · next environment henvironment =>
    split
    · next m hm => exact .refused henvironment hm
    · next h => exact .told h
    · next h => exact .told h
    · next l command h => exact .performed h rfl

lemma exitCode_ofFailure_ne (f : Failure) : (Ending.ofFailure f).exitCode ≠ 2 := by
  rw [Ending.ofFailure]
  split <;> simp

lemma exitCode_ofOutcome_ne (o : Outcome Shown) : (Ending.ofOutcome o).exitCode ≠ 2 := by
  rcases o with f | ⟨text,_ | cause⟩
  · exact exitCode_ofFailure_ne f
  · exact Nat.zero_ne_add_one 1
  · exact exitCode_ofFailure_ne _

namespace IsRun
variable {ending : Ending} {t' : FileTree}

theorem grows (h : IsRun c args t ending t') : Grows t t' := by
  cases h with
  | @performed environment l command o _ request ran =>
    have hmoves := moves_perform { c with environment } l command t
    rwa [ran] at hmoves
  | _ => exact .refl t

theorem unchanged (h : IsRun c args t ending t')
    (hread : ∀ l command, request args = .ok (.run l command) → command.writes = false) :
    t' = t := by
  cases h with
  | @performed environment l command o _ request ran =>
    have hmoves :=
      moves_perform_of_not_writes { c with environment } l (hread l command request) t
    rw [ran] at hmoves
    exact hmoves.symm
  | _ => rfl

theorem exitCode_eq_two_iff (h : IsRun c args t ending t') :
    ending.exitCode = 2 ↔ (∃ environment, extendedEnvironment t c.environment = .ok environment) ∧
      ∃ m, request args = .error m := by
  cases h with
  | unset environment => simp [environment, exitCode_ofFailure_ne]
  | refused environment request => simp [environment, request, Ending.ofMisuse]
  | told request => simp [request, Ending.finished]
  | performed request ran => simp [request, exitCode_ofOutcome_ne]

end IsRun

/-- A run keeps the directories, whatever it is asked for and however it ends. -/
theorem grows_run (c : Context) (args : List String) (t : FileTree) : Grows t (run c args t).2 :=
  (isRun_run c args t).grows

/-- A run that is not asked to train or to export leaves every file alone. -/
theorem run_unchanged
    (h : ∀ l command, request args = .ok (.run l command) → command.writes = false) :
    (run c args t).2 = t :=
  (isRun_run c args t).unchanged h

/-- Exit code 2 stands for refused arguments alone, and every file is left alone then. -/
theorem run_exitCode_eq_two_iff :
    (run c args t).1.exitCode = 2 ↔
      (∃ environment, extendedEnvironment t c.environment = .ok environment) ∧
        ∃ m, request args = .error m ∧ (run c args t).2 = t := by
  rw [(isRun_run c args t).exitCode_eq_two_iff]
  refine and_congr_right fun _ => exists_congr fun m => (and_iff_left_of_imp fun hm => ?_).symm
  exact run_unchanged fun l command h => by rw [hm] at h; cases h

end CommandLine
end OrderFlow
