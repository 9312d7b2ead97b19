import Mathlib.Data.List.Nodup
import OrderFlow.CommandLine.Perform
import OrderFlow.Proofs.Outcome
import OrderFlow.Settings.Environment

/-! The layers of the settings. What is in force is what its variable gives, else what the file
gives, else what is built in; and this is accepted where every variable that is set can be read
and what results is sound. -/
namespace OrderFlow
open Settings (Environment lookUp natural real)

namespace ModelSettings
variable {m m' : ModelSettings}

/-- What the settings of a model have to satisfy. -/
structure IsSound (m : ModelSettings) : Prop where
  lookback : 1 ≤ m.training.lookback
  horizon : 1 ≤ m.horizon
  batchSize : 1 ≤ m.training.lstm.batchSize
  hiddenSize : 1 ≤ m.training.lstm.hiddenSize
  trainSplit : 0.0 < m.training.trainSplit ∧ m.training.trainSplit < 1.0
  learningRate : 0.0 < m.training.lstm.learningRate

lemma complaint?_eq_none_iff : m.complaint? = none ↔ m.IsSound := by
  rw [complaint?]
  split_ifs with hlookback hhorizon hbatch hhidden hsplit hrate
  all_goals grind [IsSound]

/-- Settings are validated where they are sound, and stay what they are. -/
theorem validated_eq_ok_iff : m.validated = .ok m' ↔ m.IsSound ∧ m = m' := by
  rw [← complaint?_eq_none_iff, validated]
  cases m.complaint? <;> simp [fail]

end ModelSettings

/-- The settings, one for each variable. -/
inductive Setting where
  | dataDirectory
  | searchDepth
  | interval
  | modelDirectory
  | kind
  | lookback
  | horizon
  | trainSplit
  | epochs
  | batchSize
  | hiddenSize
  | learningRate
  | trees
  | maxDepth
  | minSplit
  deriving DecidableEq

namespace Setting

abbrev Value : Setting → Type
  | dataDirectory => Option String
  | modelDirectory => String
  | interval => Timeframe
  | kind => ModelKind
  | trainSplit | learningRate => Float
  | _ => Nat

/-- The variable of a setting. -/
def name : Setting → String
  | dataDirectory => "DATA_DIR"
  | searchDepth => "DATA_SEARCH_DEPTH"
  | interval => "CANDLE_INTERVAL"
  | modelDirectory => "MODEL_DIR"
  | kind => "MODEL_KIND"
  | lookback => "LOOKBACK"
  | horizon => "N_FUTURE"
  | trainSplit => "TRAIN_SPLIT"
  | epochs => "EPOCHS"
  | batchSize => "BATCH_SIZE"
  | hiddenSize => "HIDDEN_SIZE"
  | learningRate => "LEARNING_RATE"
  | trees => "FOREST_TREES"
  | maxDepth => "FOREST_MAX_DEPTH"
  | minSplit => "FOREST_MIN_SPLIT"

/-- The value of a setting that is in force. -/
def inForce : (k : Setting) → Settings → k.Value
  | dataDirectory, s => s.data.directory
  | searchDepth, s => s.data.searchDepth
  | interval, s => s.data.interval
  | modelDirectory, s => s.model.directory
  | kind, s => s.model.training.kind
  | lookback, s => s.model.training.lookback
  | horizon, s => s.model.horizon
  | trainSplit, s => s.model.training.trainSplit
  | epochs, s => s.model.training.lstm.epochs
  | batchSize, s => s.model.training.lstm.batchSize
  | hiddenSize, s => s.model.training.lstm.hiddenSize
  | learningRate, s => s.model.training.lstm.learningRate
  | trees, s => s.model.training.forest.trees
  | maxDepth, s => s.model.training.forest.maxDepth
  | minSplit, s => s.model.training.forest.minSplit

def builtIn (k : Setting) : k.Value := k.inForce .standard

/-- The value of a setting in a file, if the file gives one. -/
def inFile : (k : Setting) → FileSettings → Option k.Value
  | dataDirectory, f => f.data.directory.map some
  | searchDepth, f => f.data.searchDepth
  | interval, f => f.data.interval
  | modelDirectory, f => f.model.directory
  | kind, f => f.model.kind
  | lookback, f => f.model.lookback
  | horizon, f => f.model.horizon
  | trainSplit, f => f.model.trainSplit
  | epochs, f => f.model.epochs
  | batchSize, f => f.model.batchSize
  | hiddenSize, f => f.model.hiddenSize
  | learningRate, f => f.model.learningRate
  | trees, f => f.model.trees
  | maxDepth, f => f.model.maxDepth
  | minSplit, f => f.model.minSplit

/-- Has a variable to be read, and not only to be taken where it is not blank? -/
def isTyped : Setting → Bool
  | dataDirectory | modelDirectory => false
  | _ => true

/-- The value that a variable gives. -/
def read? : (k : Setting) → String → Option k.Value
  | dataDirectory, raw => if (Text.trim raw).isEmpty then none else some (some raw)
  | modelDirectory, raw => if (Text.trim raw).isEmpty then none else some raw
  | interval, raw => (Settings.interval (Text.trim raw)).toOption
  | kind, raw => ModelKind.ofText? raw
  | trainSplit, raw | learningRate, raw => (real (Text.trim raw)).toOption
  | maxDepth, raw => (natural (2 ^ 16) (Text.trim raw)).toOption
  | searchDepth, raw | lookback, raw | horizon, raw | epochs, raw | batchSize, raw
  | hiddenSize, raw | trees, raw | minSplit, raw => (natural (2 ^ 64) (Text.trim raw)).toOption

/-- The value of a setting in the environment. -/
def given (k : Setting) (env : Environment) : Option k.Value := (env k.name).bind k.read?

/-- The value that the layers give to a setting. -/
def layered (k : Setting) (file : FileSettings) (env : Environment) : k.Value :=
  ((k.given env).or (k.inFile file)).getD k.builtIn

/-- Can the variable be read, where it is set? -/
def IsReadable (k : Setting) (env : Environment) : Prop :=
  ∀ raw, env k.name = some raw → (k.read? raw).isSome = true

/-- The settings with these values. -/
def assemble (v : (k : Setting) → k.Value) : Settings where
  data := ⟨v dataDirectory,v searchDepth,v interval⟩
  model := {
    directory := v modelDirectory
    horizon := v horizon
    training := {
      kind := v kind
      lookback := v lookback
      trainSplit := v trainSplit
      lstm := ⟨v hiddenSize,v epochs,v batchSize,v learningRate⟩
      forest := ⟨v trees,v maxDepth,v minSplit⟩ } }

variable {v : (k : Setting) → k.Value} {s s' : Settings} {file file' : FileSettings}
  {env env' : Environment} {k : Setting}

def all : List Setting :=
  [dataDirectory,searchDepth,interval,modelDirectory,kind,lookback,horizon,trainSplit,epochs,
    batchSize,hiddenSize,learningRate,trees,maxDepth,minSplit]

lemma mem_all (k : Setting) : k ∈ all := by cases k <;> decide

theorem name_injective : Function.Injective name := fun k l h =>
  List.inj_on_of_nodup_map (by decide +kernel : (all.map name).Nodup) (mem_all k) (mem_all l) h

lemma inForce_assemble (k : Setting) : k.inForce (assemble v) = v k := by cases k <;> rfl

lemma assemble_inForce (s : Settings) : assemble (fun k => k.inForce s) = s := rfl

/-- Settings are their values. -/
lemma eq_assemble_iff : s = assemble v ↔ ∀ k, k.inForce s = v k := by
  constructor
  · rintro rfl k
    exact inForce_assemble k
  · intro h
    rw [← assemble_inForce s, funext h]

lemma isTyped_iff : k.isTyped = true ↔ k ∈ [searchDepth,interval] ∨
    k ∈ [kind,lookback,horizon,trainSplit,epochs,batchSize,hiddenSize,learningRate,trees,maxDepth,
      minSplit] := by
  cases k <;> decide

lemma layered_congr_environment (h : env' k.name = env k.name) :
    k.layered file env' = k.layered file env := by
  rw [layered, layered, given, given, h]

lemma layered_congr_file (h : k.inFile file' = k.inFile file) :
    k.layered file' env = k.layered file env := by
  rw [layered, layered, h]

/-- What a variable gives covers what the file gives. -/
lemma layered_of_given (h : (k.given env).isSome = true) :
    k.layered file env = (k.given env).getD k.builtIn := by
  rw [layered, Option.or_of_isSome h]

end Setting

namespace Settings
variable {α : Type} {a : α} {read : String → Except String α} {name : String} {otherwise : α}
  {file file' : FileSettings} {env env' : Environment} {s s' : Settings} {k : Setting}
  {d : DataSettings} {m : ModelSettings} {x : ModelKind}

/-- A variable is looked up with success where it can be read or is not set. -/
lemma lookUp_eq_ok_iff : lookUp env read name otherwise = .ok a ↔
    (∀ raw, env name = some raw → (read (Text.trim raw)).toOption.isSome = true) ∧
      ((env name).bind fun raw => (read (Text.trim raw)).toOption).getD otherwise = a := by
  rw [lookUp]
  rcases env name with _ | raw
  · simp
  · cases hread : read (Text.trim raw) <;> simp [hread, Except.toOption]

lemma kind_eq_ok_iff {otherwise : ModelKind} : kind env otherwise = .ok x ↔
    (∀ raw, env "MODEL_KIND" = some raw → (ModelKind.ofText? raw).isSome = true) ∧
      ((env "MODEL_KIND").bind ModelKind.ofText?).getD otherwise = x := by
  rw [kind]
  rcases env "MODEL_KIND" with _ | raw
  · simp
  · cases hread : ModelKind.ofText? raw <;> simp [hread, ModelKind.parse, fail]

/-- The settings that the layers give. -/
def layers (file : FileSettings) (env : Environment) : Settings :=
  Setting.assemble fun k => k.layered file env

/-- A directory in the environment is what stands there, unless it is blank. -/
lemma directory_eq (env : Environment) (name : String) : directory env name =
    (env name).bind fun raw => if (Text.trim raw).isEmpty then none else some raw := by
  rw [directory]
  rcases env name with _ | raw
  · rfl
  · rw [Option.filter_some, Option.bind_some]
    cases (Text.trim raw).isEmpty <;> rfl

lemma layered_dataDirectory : Setting.dataDirectory.layered file env =
    (directory env "DATA_DIR").or file.data.directory := by
  have hgiven : Setting.dataDirectory.given env = (directory env "DATA_DIR").map some := by
    rw [Setting.given, directory_eq, Option.map_bind]
    refine Option.bind_congr fun raw _ => ?_
    rw [Setting.read?, Function.comp_apply]
    cases (Text.trim raw).isEmpty <;> rfl
  rw [Setting.layered, hgiven]
  cases directory env "DATA_DIR" with
  | none =>
    rw [Option.map_none, Option.none_or, Option.none_or, Setting.inFile]
    cases file.data.directory <;> rfl
  | some d => rfl

/-- The data settings are resolved where their two variables can be read. -/
lemma resolveData_eq_ok_iff : resolveData file.data env = .ok d ↔
    (∀ k ∈ [Setting.searchDepth,.interval], k.IsReadable env) ∧ (layers file env).data = d := by
  simp only [resolveData, bind_eq_ok_iff, lookUp_eq_ok_iff, pure_eq_ok_iff, and_assoc,
    exists_and_left, exists_eq_left', List.forall_mem_cons, List.not_mem_nil, false_implies,
    implies_true, true_and, layers, Setting.assemble, ← layered_dataDirectory]
  simp only [Setting.layered, Option.getD_or]
  exact Iff.rfl

/-- Those of a model also have to be sound. -/
lemma resolveModel_eq_ok_iff : resolveModel file.model env = .ok m ↔
    (∀ k ∈ [Setting.kind,.lookback,.horizon,.trainSplit,.epochs,.batchSize,.hiddenSize,
      .learningRate,.trees,.maxDepth,.minSplit], k.IsReadable env) ∧
        (layers file env).model.IsSound ∧ (layers file env).model = m := by
  simp only [resolveModel, bind_eq_ok_iff, lookUp_eq_ok_iff, kind_eq_ok_iff, directory_eq,
    ModelSettings.validated_eq_ok_iff, and_assoc, exists_and_left, exists_eq_left',
    List.forall_mem_cons, List.not_mem_nil, false_implies, implies_true, true_and, layers,
    Setting.assemble, Setting.layered, Option.getD_or]
  exact Iff.rfl

/-- Settings are resolved where every typed variable that is set can be read and the layers give
sound settings, and what is in force is what the layers give. -/
theorem resolve_eq_ok_iff : resolve file env = .ok s ↔
    (∀ k : Setting, k.isTyped = true → k.IsReadable env) ∧
      (layers file env).model.IsSound ∧ layers file env = s := by
  simp only [resolve, attempting, bind_eq_ok_iff, mapError_eq_ok_iff, resolveData_eq_ok_iff,
    resolveModel_eq_ok_iff, pure_eq_ok_iff, and_assoc, exists_and_left, exists_eq_left',
    Setting.isTyped_iff, or_imp, forall_and]

lemma inForce_of_resolve (h : resolve file env = .ok s) (k : Setting) :
    k.inForce s = k.layered file env :=
  Setting.eq_assemble_iff.mp (resolve_eq_ok_iff.mp h).2.2.symm k

/-- Whatever gives the same layers under the same environment is accepted alike. -/
lemma resolve_congr_file (h : ∀ k : Setting, k.layered file' env = k.layered file env) :
    resolve file' env = .ok s ↔ resolve file env = .ok s := by
  have hlayers : layers file' env = layers file env := congrArg Setting.assemble (funext h)
  rw [resolve_eq_ok_iff, resolve_eq_ok_iff, hlayers]

end Settings

namespace CommandLine
variable {m : ModelSettings}

/-- Sound settings stay sound under the values of a command line, unless one of them is a zero that
must not be. -/
lemma isSound_trainingSettings_iff (h : m.IsSound) (lookback epochs batchSize : Option Nat)
    (kind : Option ModelKind) : (trainingSettings m lookback epochs batchSize kind).IsSound ↔
      lookback ≠ some 0 ∧ batchSize ≠ some 0 := by
  have hcount {n : Nat} (hn : 1 ≤ n) (o : Option Nat) : 1 ≤ o.getD n ↔ o ≠ some 0 := by
    cases o with
    | none => simpa using hn
    | some x => simpa using Nat.one_le_iff_ne_zero
  constructor
  · intro hm
    exact ⟨(hcount h.lookback lookback).mp hm.lookback,
      (hcount h.batchSize batchSize).mp hm.batchSize⟩
  · rintro ⟨hlookback,hbatch⟩
    exact ⟨(hcount h.lookback lookback).mpr hlookback,h.horizon,
      (hcount h.batchSize batchSize).mpr hbatch,h.hiddenSize,h.trainSplit,h.learningRate⟩

end CommandLine

namespace Settings
open CommandLine (trainingSettings)

/-- Every setting that is accepted comes from the nearest layer that gives it, no change of one
variable or of one key reaches another setting, and a value in the file that a variable covers
hinders nothing. What is accepted is sound, before and after the values of a command line. -/
theorem resolve_layers (file : FileSettings) (env : Environment) :
    ((∃ s, resolve file env = .ok s) ↔
      (∀ k : Setting, k.isTyped = true → k.IsReadable env) ∧
        (layers file env).model.validated = .ok (layers file env).model) ∧
    (∀ s, resolve file env = .ok s → ∀ k : Setting, k.inForce s = k.layered file env) ∧
    (∀ (k : Setting) (env' : Environment) (s s' : Settings), (∀ n ≠ k.name, env' n = env n) →
      resolve file env = .ok s → resolve file env' = .ok s' →
      ∀ l ≠ k, l.inForce s' = l.inForce s) ∧
    (∀ (k : Setting) (file' : FileSettings), (∀ l ≠ k, l.inFile file' = l.inFile file) →
      (∀ s s', resolve file env = .ok s → resolve file' env = .ok s' →
        ∀ l ≠ k, l.inForce s' = l.inForce s) ∧
      ((k.given env).isSome = true →
        ∀ s, resolve file' env = .ok s ↔ resolve file env = .ok s)) ∧
    ∀ s, resolve file env = .ok s → s.model.IsSound ∧
      ∀ lookback epochs batchSize kind,
        ((∃ m, (trainingSettings s.model lookback epochs batchSize kind).validated = .ok m) ↔
          lookback ≠ some 0 ∧ batchSize ≠ some 0) ∧
        ∀ m, (trainingSettings s.model lookback epochs batchSize kind).validated = .ok m →
          m = trainingSettings s.model lookback epochs batchSize kind ∧ m.IsSound := by
  refine ⟨?_,fun s h => inForce_of_resolve h,fun k env' s s' henv h h' l hl => ?_,
    fun k file' hfile => ⟨fun s s' h h' l hl => ?_,fun hgiven s => ?_⟩,fun s h => ?_⟩
  · simp only [resolve_eq_ok_iff, ModelSettings.validated_eq_ok_iff, ← and_assoc,
      exists_and_left, exists_eq', and_true]
  · rw [inForce_of_resolve h, inForce_of_resolve h', Setting.layered_congr_environment]
    exact henv _ fun heq => hl (Setting.name_injective heq)
  · rw [inForce_of_resolve h, inForce_of_resolve h', Setting.layered_congr_file (hfile l hl)]
  · refine resolve_congr_file fun l => ?_
    by_cases hl : l = k
    · rw [hl, Setting.layered_of_given hgiven, Setting.layered_of_given hgiven]
    · exact Setting.layered_congr_file (hfile l hl)
  · have hsound : s.model.IsSound := by
      obtain ⟨-,hsound,rfl⟩ := resolve_eq_ok_iff.mp h
      exact hsound
    refine ⟨hsound,fun lookback epochs batchSize kind => ⟨?_,fun m hm => ?_⟩⟩
    · simp only [ModelSettings.validated_eq_ok_iff, exists_and_left, exists_eq', and_true]
      exact CommandLine.isSound_trainingSettings_iff hsound lookback epochs batchSize kind
    · obtain ⟨hsound',rfl⟩ := ModelSettings.validated_eq_ok_iff.mp hm
      exact ⟨rfl,hsound'⟩

/-- A file with a kind and a lookback of zero. -/
def zeroLookbackFile : FileSettings where
  data := .empty
  model := { ModelSection.empty with kind := some .forest, lookback := some 0 }

/-- An environment with a lookback and a blank directory. -/
def lookbackEnvironment : Environment
  | "LOOKBACK" => some " 8 "
  | "MODEL_DIR" => some " "
  | _ => none

theorem resolve_layers_covered :
    (∃ s, resolve zeroLookbackFile lookbackEnvironment = .ok s ∧
      s.model.training.lookback = 8 ∧ s.model.training.kind = .forest ∧
      s.model.directory = "models" ∧ s.model.IsSound ∧
      ¬∃ m, (trainingSettings s.model (some 0) none none none).validated = .ok m) ∧
    ¬∃ s, resolve zeroLookbackFile (fun _ => none) = .ok s := by
  obtain ⟨haccepted,hlayered,-,-,hsound⟩ := resolve_layers zeroLookbackFile lookbackEnvironment
  obtain ⟨hrefused,-⟩ := resolve_layers zeroLookbackFile fun _ => none
  have hreadable (k : Setting) (htyped : k.isTyped = true) :
      k.IsReadable lookbackEnvironment := by
    intro raw hraw
    cases k <;> cases hraw <;> revert htyped <;> decide +kernel
  have hlayers : (layers zeroLookbackFile lookbackEnvironment).model.IsSound :=
    ⟨by decide +kernel,by decide,by decide,by decide,by decide +kernel,by decide +kernel⟩
  obtain ⟨s,hs⟩ := haccepted.mpr
    ⟨hreadable,ModelSettings.validated_eq_ok_iff.mpr ⟨hlayers,rfl⟩⟩
  obtain ⟨hmodel,hflags⟩ := hsound s hs
  refine ⟨⟨s,hs,hlayered s hs .lookback,hlayered s hs .kind,hlayered s hs .modelDirectory,hmodel,
    fun h => ((hflags (some 0) none none none).1.mp h).1 rfl⟩,fun h => ?_⟩
  have hzero := (ModelSettings.validated_eq_ok_iff.mp (hrefused.mp h).2).1.lookback
  exact absurd hzero (by decide)

end Settings
end OrderFlow
