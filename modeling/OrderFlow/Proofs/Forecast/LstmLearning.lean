import OrderFlow.Proofs.Failing
import OrderFlow.Proofs.Feature.RowParts
import OrderFlow.Proofs.Feature.Scaling
import OrderFlow.Proofs.Forecast.LstmShapes
import OrderFlow.Proofs.Forecast.TrainingRun

/-! Fitting the network, pass by pass. Each pass learns once from every sample, and on samples of
the shape of the network no pass fails. -/
namespace OrderFlow
open Column (Row)

namespace Lstm
variable {α : Type} {size fuel : Nat} {xs batch : List α}

/-- Batches are the elements in order, none of them lost. -/
theorem flatten_batches (hsize : size ≠ 0) (hfuel : xs.length ≤ fuel) :
    (batches size fuel xs).flatten = xs := by
  induction fuel generalizing xs with
  | zero =>
    obtain rfl := List.length_eq_zero_iff.mp (Nat.le_zero.mp hfuel)
    rfl
  | succ fuel ih =>
    cases xs with
    | nil => rfl
    | cons a rest =>
      have hrest : ((a :: rest).drop size).length ≤ fuel := by
        rw [List.length_drop]
        rw [List.length_cons] at hfuel ⊢
        omega
      rw [batches, List.isEmpty_cons, if_neg Bool.false_ne_true, List.flatten_cons, ih hrest,
        List.take_append_drop]

lemma length_of_mem_batches (hsize : size ≠ 0) (h : batch ∈ batches size fuel xs) :
    batch ≠ [] ∧ batch.length ≤ size := by
  induction fuel generalizing xs with
  | zero => cases h
  | succ fuel ih =>
    rw [batches] at h
    split_ifs at h with hxs
    · cases h
    · rcases List.mem_cons.mp h with rfl | h
      · refine ⟨?_,List.length_take_le ..⟩
        rw [ne_eq, List.take_eq_nil_iff, not_or]
        exact ⟨hsize,fun hnil => hxs (by rw [hnil]; rfl)⟩
      · exact ih h

end Lstm

namespace LstmModel
open Lstm
variable {m m' : LstmModel} {settings : LstmSettings} {train val data : Dataset} {p p' : Progress}
  {history : List EpochStats} {rate : Float} {n epoch lookback : Nat} {r : Random}
  {samples batch : List Sample} {pieces : List (List Sample)}

lemma learnBatches_eq_ok_iff :
    learnBatches rate pieces p = (p',.ok ()) ↔ pieces.foldlM (learnBatch rate) p = .ok p' := by
  induction pieces generalizing p with
  | nil => simp [learnBatches, pure_eq_ok_iff]
  | cons batch rest ih =>
    rw [learnBatches, List.foldlM_cons]
    cases learnBatch rate p batch with
    | ok q => exact ih
    | error f => simp [bind, Except.bind]

/-- A pass over the samples: from each is learned once, in batches of the size asked for or less. -/
structure IsPass (settings : LstmSettings) (train : Dataset) (p p' : Progress)
    (pieces : List (List Sample)) : Prop where
  samples : pieces.flatten.Perm train.samples
  sizes : ∀ batch ∈ pieces, batch ≠ [] ∧ batch.length ≤ max 1 settings.batchSize
  learned : pieces.foldlM (learnBatch settings.learningRate) { p with losses := 0.0 } = .ok p'

/-- What is noted down after a pass. -/
def statsOf (train : Dataset) (epoch : Nat) (p : Progress) (onVal : Option (Float × Float)) :
    EpochStats :=
  ⟨epoch,p.losses / Binary.nearest false train.size 1,onVal.map (·.1),onVal.map (·.2)⟩

/-- The passes from a number on, each from where the last one ended, and what they note down. -/
inductive Learns (settings : LstmSettings) (train val : Dataset) :
    Nat → Progress → List EpochStats → LstmModel → Prop
  | done (epoch : Nat) (p : Progress) : Learns settings train val epoch p [] p.model
  | pass {epoch p p' pieces onVal history m} (learned : IsPass settings train p p' pieces)
      (evaluated : p'.model.evaluate val settings.batchSize = .ok onVal)
      (rest : Learns settings train val (epoch + 1) p' history m) :
      Learns settings train val epoch p (statsOf train epoch p' onVal :: history) m

/-- The batches of a pass: the samples in a shuffled order, cut in parts. -/
def parts (settings : LstmSettings) (train : Dataset) (r : Random) : List (List Sample) :=
  batches (max 1 settings.batchSize) train.size (r.shuffled train.samples).1

lemma parts_perm (settings : LstmSettings) (train : Dataset) (r : Random) :
    (parts settings train r).flatten.Perm train.samples := by
  have hperm := r.shuffled_perm train.samples
  have hfuel : (r.shuffled train.samples).1.length ≤ train.size := hperm.length_eq.le
  rwa [parts, flatten_batches (by omega) hfuel]

/-- An epoch and those after it succeed where its batches, its evaluation and the others do. -/
lemma learnEpochs_succ_eq_ok_iff :
    learnEpochs settings train val (n + 1) epoch p r = (m,.ok history) ↔
      ∃ p' onVal rest,
        learnBatches settings.learningRate (parts settings train r) { p with losses := 0.0 } =
          (p',.ok ()) ∧
        p'.model.evaluate val settings.batchSize = .ok onVal ∧
        learnEpochs settings train val n (epoch + 1) p' (r.shuffled train.samples).2 =
          (m,.ok rest) ∧
        history = statsOf train epoch p' onVal :: rest := by
  rw [learnEpochs, parts]
  dsimp only
  -- the model is kept also where learning fails, so a result is a pair and not yet an outcome
  rcases learnBatches settings.learningRate (batches (max 1 settings.batchSize) train.size
    (r.shuffled train.samples).1) { p with losses := 0.0 } with ⟨q,_ | _⟩
  · simp [bind, Except.bind]
  · dsimp only [bind, Except.bind]
    cases hval : q.model.evaluate val settings.batchSize with
    | error f => simp [hval]
    | ok onVal =>
      rcases hrest : learnEpochs settings train val n (epoch + 1) q (r.shuffled train.samples).2
        with ⟨last,_ | rest⟩
      · simp [hval, hrest, pure, Except.pure, Except.map]
      · simp [hval, hrest, pure, Except.pure, Except.map, statsOf, eq_comm]

/-- Epochs that succeed are passes, as many as asked for. -/
theorem learns_of_learnEpochs (h : learnEpochs settings train val n epoch p r = (m,.ok history)) :
    Learns settings train val epoch p history m ∧ history.length = n := by
  induction n generalizing epoch p r history with
  | zero =>
    cases h
    exact ⟨.done epoch p,rfl⟩
  | succ n ih =>
    obtain ⟨p',onVal,rest,hlearned,hval,hrest,rfl⟩ := learnEpochs_succ_eq_ok_iff.mp h
    have hpass : IsPass settings train p p' (parts settings train r) :=
      ⟨parts_perm settings train r,fun _ hbatch => length_of_mem_batches (by omega) hbatch,
        learnBatches_eq_ok_iff.mp hlearned⟩
    obtain ⟨hlearns,rfl⟩ := ih hrest
    exact ⟨.pass hpass hval hlearns,rfl⟩

lemma evaluate_isSome {batchSize : Nat} {onVal : Option (Float × Float)}
    (h : m.evaluate data batchSize = .ok onVal) : onVal.isSome ↔ data.size ≠ 0 := by
  rw [evaluate] at h
  split_ifs at h with hsize
  · cases h
    simp [hsize]
  · obtain ⟨_,-,h⟩ := bind_eq_ok_iff.mp h
    cases h
    simp [hsize]

namespace Learns

/-- The entries are numbered in order. -/
theorem epochs (h : Learns settings train val epoch p history m) :
    history.map (·.epoch) = List.range' epoch history.length := by
  induction h with
  | done => rfl
  | pass _ _ _ ih => rw [List.map_cons, ih, List.length_cons, List.range'_succ, statsOf]

/-- Every entry has errors over the validation samples, or none has. -/
theorem isSome_val (h : Learns settings train val epoch p history m) : ∀ e ∈ history,
    (e.valLoss.isSome ↔ val.size ≠ 0) ∧ (e.valError.isSome ↔ val.size ≠ 0) := by
  induction h with
  | done => simp
  | pass _ hval _ ih =>
    refine List.forall_mem_cons.mpr ⟨?_,ih⟩
    rw [statsOf, Option.isSome_map, Option.isSome_map, evaluate_isSome hval, and_self]

end Learns

/-- Fitting that succeeds is a run of passes, one for each epoch. -/
theorem learns_of_fit (h : m.fit settings train val r = (m',.ok history)) :
    Learns settings train val 1 ⟨m,.start m.shape,0.0⟩ history m' ∧
      history.length = settings.epochs := by
  rw [fit] at h
  split_ifs at h
  · cases h
  · cases h
  · exact learns_of_learnEpochs h

section Total

/-- Samples of windows of `lookback` rows, all in the numbers of a shape. -/
def AreShaped (lookback : Nat) (s : Shape) (samples : List Sample) : Prop :=
  ∀ sample ∈ samples, sample.IsShaped lookback s.features s.targets

variable {s : Shape}

/-- The numbers of a sample in single precision. -/
def narrowed (sample : Sample) : Example :=
  ⟨sample.window.map (·.map Float.toFloat32),sample.target.map Float.toFloat32⟩

lemma example_of_isShaped {sample : Sample} (h : sample.IsShaped lookback s.features s.targets) :
    Example.of s sample = .ok (narrowed sample) := by
  have hinputs : sample.window.mapM (narrow s.features) = .ok (narrowed sample).inputs :=
    mapM_eq_ok_map fun row hrow => narrow_eq_ok_iff.mpr ⟨h.row row hrow,rfl⟩
  have htarget : narrow s.targets sample.target = .ok (narrowed sample).target :=
    narrow_eq_ok_iff.mpr ⟨h.target,rfl⟩
  exact bind_eq_ok_iff.mpr ⟨_,hinputs,bind_eq_ok_iff.mpr ⟨_,htarget,rfl⟩⟩

lemma examples_of_areShaped (h : AreShaped lookback s samples) :
    samples.mapM (Example.of s) = .ok (samples.map narrowed) :=
  mapM_eq_ok_map fun sample hsample => example_of_isShaped (h sample hsample)

lemma exists_learnBatch (rate : Float) (p : Progress) (h : AreShaped lookback p.model.shape batch) :
    ∃ p', learnBatch rate p batch = .ok p' ∧ p'.model.shape = p.model.shape := by
  exact ⟨_,bind_eq_ok_iff.mpr ⟨_,examples_of_areShaped h,rfl⟩,rfl⟩

/-- Batches of shaped samples are all learned from. -/
lemma exists_learnBatches (rate : Float) (p : Progress)
    (h : AreShaped lookback p.model.shape pieces.flatten) :
    ∃ p', learnBatches rate pieces p = (p',.ok ()) ∧ p'.model.shape = p.model.shape := by
  induction pieces generalizing p with
  | nil => exact ⟨p,rfl,rfl⟩
  | cons batch rest ih =>
    rw [AreShaped, List.flatten_cons, List.forall_mem_append] at h
    obtain ⟨q,hq,hshape⟩ := exists_learnBatch rate p h.1
    rw [← hshape] at h ⊢
    rw [learnBatches, hq]
    exact ih q h.2

/-- There are errors of every batch of shaped samples whose windows are not empty. -/
lemma failsFor_addErrors (hlookback : lookback ≠ 0) (h : AreShaped lookback m.shape batch)
    (sums : ErrorSums) : FailsFor (fun _ => False) (m.addErrors sums batch) := by
  have herrors : FailsFor (fun _ => False)
      ((batch.map narrowed).mapM fun e => return (← m.run e.inputs).sub e.target) := by
    refine failsWith_mapM fun e he => ?_
    obtain ⟨sample,hsample,rfl⟩ := List.mem_map.mp he
    have hlength : (narrowed sample).inputs.length = lookback :=
      (List.length_map _).trans (h sample hsample).window
    have hne : (narrowed sample).inputs ≠ [] := List.ne_nil_of_length_pos (by omega)
    obtain ⟨h,hrun⟩ := m.exists_run hne
    rw [hrun]
    exact failsWith_ok _ _
  rw [addErrors, examples_of_areShaped h]
  exact herrors.bind fun _ _ => failsWith_pure _ _

lemma exists_evaluate (hlookback : lookback ≠ 0) (h : AreShaped lookback m.shape data.samples)
    (batchSize : Nat) : ∃ onVal, m.evaluate data batchSize = .ok onVal := by
  have hflatten : (batches (max 1 batchSize) data.size data.samples).flatten = data.samples :=
    flatten_batches (by omega) (Nat.le_refl _)
  rw [evaluate]
  split_ifs
  · exact ⟨none,rfl⟩
  · refine (FailsWith.bind (failsWith_foldlM (fun sums batch hmem => ?_) _) fun _ _ =>
      failsWith_pure _ _).exists_ok
    refine failsFor_addErrors hlookback (fun sample hsample => h sample ?_) sums
    rw [← hflatten]
    exact List.mem_flatten.mpr ⟨batch,hmem,hsample⟩

/-- No epoch fails on shaped samples. -/
theorem exists_learnEpochs (hlookback : lookback ≠ 0) (n epoch : Nat) (p : Progress) (r : Random)
    (htrain : AreShaped lookback p.model.shape train.samples)
    (hval : AreShaped lookback p.model.shape val.samples) :
    ∃ m history, learnEpochs settings train val n epoch p r = (m,.ok history) := by
  induction n generalizing epoch p r with
  | zero => exact ⟨p.model,[],rfl⟩
  | succ n ih =>
    have hparts : AreShaped lookback p.model.shape (parts settings train r).flatten :=
      fun sample hsample => htrain sample ((parts_perm settings train r).mem_iff.mp hsample)
    obtain ⟨q,hlearned,hshape⟩ :=
      exists_learnBatches settings.learningRate { p with losses := 0.0 } hparts
    -- learning keeps the shape, so the samples fit the passes to come as well
    rw [← show q.model.shape = p.model.shape from hshape] at htrain hval
    obtain ⟨onVal,honVal⟩ := exists_evaluate hlookback hval settings.batchSize
    obtain ⟨m,rest,hrest⟩ := ih (epoch + 1) q (r.shuffled train.samples).2 htrain hval
    exact ⟨m,_,learnEpochs_succ_eq_ok_iff.mpr ⟨q,onVal,rest,hlearned,honVal,hrest,rfl⟩⟩

/-- On shaped samples, fitting fails only for want of a sample to learn from or for too many epochs
to note down. -/
theorem exists_fit_iff (hlookback : lookback ≠ 0)
    (htrain : AreShaped lookback m.shape train.samples)
    (hval : AreShaped lookback m.shape val.samples) (settings : LstmSettings) (r : Random) :
    (∃ m' history, m.fit settings train val r = (m',.ok history)) ↔
      train.size ≠ 0 ∧ settings.epochs < epochLimit := by
  rw [fit]
  split_ifs with hempty hmany
  · simp [hempty, fail]
  · simp [hmany, fail]
  · refine iff_of_true ?_ ⟨hempty,Nat.lt_of_not_le hmany⟩
    exact exists_learnEpochs hlookback settings.epochs 1 ⟨m,.start m.shape,0.0⟩ r htrain hval

end Total

end LstmModel

namespace Forecaster
variable {settings : TrainingSettings} {train val : Dataset} {model : Forecaster} {r : Random}
  {history : List EpochStats}

/-- A network is fitted from a random one of the shape of its samples, if that shape is sound. -/
theorem fit_lstm_eq_ok_iff (hkind : settings.kind = .lstm) :
    let shape : Lstm.Shape := ⟨train.featureCount,settings.lstm.hiddenSize,train.targetCount⟩
    let start := LstmModel.random shape r
    fit settings train val r = .ok (model,history) ↔ shape.checked = .ok () ∧
      ∃ m, start.1.fit settings.lstm train val start.2 = (m,.ok history) ∧ model = .lstm m := by
  intro shape start
  simp only [fit, hkind, bind_eq_ok_iff, pure_eq_ok_iff]
  constructor
  · rintro ⟨_,hchecked,_,hfit,h⟩
    obtain ⟨rfl,rfl⟩ := Prod.mk.inj h
    exact ⟨hchecked,_,Prod.ext rfl hfit,rfl⟩
  · rintro ⟨hchecked,m,hfit,rfl⟩
    obtain ⟨hmodel,hhistory⟩ := Prod.ext_iff.mp hfit
    exact ⟨(),hchecked,history,hhistory,Prod.ext (congrArg lstm hmodel) rfl⟩

end Forecaster

namespace Training
variable {settings : TrainingSettings} {candles : List Candle} {p : Prepared}
  {rows : List (Row × Row)} {xs ys : List Row}

lemma head?_elim_length {width : Nat} (hne : xs ≠ []) (h : ∀ row ∈ xs, row.length = width) :
    xs.head?.elim 0 List.length = width := by
  cases xs with
  | nil => exact absurd rfl hne
  | cons x rest => exact h x List.mem_cons_self

lemma featureCount_ofRows (lookback : Nat) (xs ys : List Row) :
    (Dataset.ofRows lookback xs ys).featureCount = xs.head?.elim 0 List.length ∧
      (Dataset.ofRows lookback xs ys).targetCount = ys.head?.elim 0 List.length := by
  rw [Dataset.ofRows]
  dsimp only
  split_ifs <;> exact ⟨rfl,rfl⟩

/-- Prepared samples have a lookback of rows, and the features and targets of the models. -/
theorem IsPrepared.isShaped (h : IsPrepared settings candles p rows xs ys) :
    (∀ s ∈ p.train.samples ++ p.val.samples,
      s.IsShaped (lookback settings) Column.sequence.length Column.body.length) ∧
    p.train.featureCount = Column.sequence.length ∧ p.train.targetCount = Column.body.length := by
  obtain ⟨hxs,hwidth⟩ := Scaler.length_of_transform h.featureScaler h.features
  obtain ⟨hys,hheight⟩ := Scaler.length_of_transform h.targetScaler h.targets
  rw [List.length_map] at hxs hys hwidth hheight
  have hrows : 0 < rows.length :=
    Nat.lt_of_lt_of_le (Nat.add_pos_right (lookback settings) (by decide)) h.enough
  obtain ⟨hfeatures,htargets⟩ := featureCount_ofRows (lookback settings) xs ys
  obtain ⟨hcut,-⟩ := Prod.mk.inj h.split
  refine ⟨fun s hs => ?_,?_,?_⟩
  · rw [h.samples] at hs
    exact Dataset.isShaped_of_mem_ofRows (Nat.le_max_right ..) hwidth hheight hs
  · rw [← hcut]
    exact hfeatures.trans (head?_elim_length (List.ne_nil_of_length_pos (hxs ▸ hrows)) hwidth)
  · rw [← hcut]
    exact htargets.trans (head?_elim_length (List.ne_nil_of_length_pos (hys ▸ hrows)) hheight)

/-- The network that a training fits. -/
def shapeOf (settings : TrainingSettings) : Lstm.Shape :=
  ⟨Column.sequence.length,settings.lstm.hiddenSize,Column.body.length⟩

/-- On prepared samples, a network of the models' columns is fitted. -/
lemma fit_lstm_of_prepare (h : prepare settings candles = .ok p) (hkind : settings.kind = .lstm)
    {r : Random} {model : Forecaster} {history : List EpochStats} :
    let start := LstmModel.random (shapeOf settings) r
    Forecaster.fit settings p.train p.val r = .ok (model,history) ↔
      (shapeOf settings).checked = .ok () ∧
        ∃ m, start.1.fit settings.lstm p.train p.val start.2 = (m,.ok history) ∧
          model = .lstm m := by
  obtain ⟨rows,xs,ys,hprepared⟩ := exists_isPrepared h
  obtain ⟨-,hfeatures,htargets⟩ := hprepared.isShaped
  have hfit : Forecaster.fit settings p.train p.val r = .ok (model,history) ↔ _ :=
    Forecaster.fit_lstm_eq_ok_iff hkind
  rwa [hfeatures, htargets] at hfit

/-- Once samples are prepared, a network is fitted unless its shape is unsound or there are too many
epochs to note down. -/
theorem exists_fit_iff_of_prepare (h : prepare settings candles = .ok p)
    (hkind : settings.kind = .lstm) (r : Random) :
    (∃ model history, Forecaster.fit settings p.train p.val r = .ok (model,history)) ↔
      (shapeOf settings).checked = .ok () ∧ settings.lstm.epochs < LstmModel.epochLimit := by
  obtain ⟨rows,xs,ys,hprepared⟩ := exists_isPrepared h
  have hsamples := hprepared.isShaped.1
  have hlookback : lookback settings ≠ 0 := Nat.ne_of_gt (Nat.le_max_right ..)
  have hfit := LstmModel.exists_fit_iff (m := (LstmModel.random (shapeOf settings) r).1) hlookback
    (fun s hs => hsamples s (List.mem_append_left _ hs))
    (fun s hs => hsamples s (List.mem_append_right _ hs)) settings.lstm
    (LstmModel.random (shapeOf settings) r).2
  simp only [fit_lstm_of_prepare h hkind]
  constructor
  · rintro ⟨_,history,hchecked,m,hrun,rfl⟩
    exact ⟨hchecked,(hfit.mp ⟨m,history,hrun⟩).2⟩
  · rintro ⟨hchecked,hepochs⟩
    obtain ⟨m,history,hrun⟩ := hfit.mpr ⟨hprepared.trains,hepochs⟩
    exact ⟨.lstm m,history,hchecked,m,hrun,rfl⟩

end Training

namespace ModelStore
open Training Storing
variable {s : ModelStore} {settings : TrainingSettings} {now : Instant} {r : Random}
  {series : Series} {t t' : FileTree} {report : TrainingReport}

/-- What is reported of a network: its epochs in order, errors over the validation samples where
there are any, and as many parameters as its tensors have numbers. -/
theorem report_of_train_lstm (h : Succeeds (s.train settings now r series) t report t')
    (hkind : settings.kind = .lstm) :
    report.history.map (·.epoch) = List.range' 1 settings.lstm.epochs ∧
    (∀ e ∈ report.history, (e.valLoss.isSome ↔ report.valCount ≠ 0) ∧
      (e.valError.isSome ↔ report.valCount ≠ 0)) ∧
    ∃ m : LstmModel, m.shape = shapeOf settings ∧ m.IsShaped ∧ report.parameterCount =
      some ((m.weights.tensors m.shape).map (·.values.length)).sum := by
  obtain ⟨p,_,_,_,_,_,htraining⟩ := exists_isTraining h
  obtain ⟨-,m,hrun,rfl⟩ := (fit_lstm_of_prepare htraining.prepared hkind).mp htraining.fitted
  obtain ⟨hlearns,hlength⟩ := LstmModel.learns_of_fit hrun
  obtain ⟨hshape,hshaped⟩ := LstmModel.isShaped_fit (LstmModel.isShaped_random (shapeOf settings) r)
    settings.lstm p.train p.val (LstmModel.random (shapeOf settings) r).2
  rw [hrun] at hshape hshaped
  refine ⟨hlength ▸ hlearns.epochs,?_,m,hshape,hshaped,?_⟩
  · rw [htraining.reported]
    exact hlearns.isSome_val
  · rw [htraining.reported, hshaped.sum_tensors]
    rfl

end ModelStore
end OrderFlow
