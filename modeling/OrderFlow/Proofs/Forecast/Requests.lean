import OrderFlow.Forecast.Prediction
import OrderFlow.Proofs.Forecast.Adjacency
import OrderFlow.Proofs.Forecast.Fitting

/-! Requests to a store of models: trainings and forecasts. A forecast changes no file, and neither
does a training that ends while its samples are prepared, so a store that saw nothing else answers
as it did at first. -/
namespace OrderFlow
open Cause (IsLate)

namespace Training
variable {settings : TrainingSettings} {candles : List Candle}
  {rows : List (Column.Row × Column.Row)}

/-- A cause other than want of rows. -/
def IsOther (c : Cause) : Prop := ∀ required available, c ≠ .notEnoughRows required available

lemma failsWith_transform (s : Scaler) (rows : List Column.Row) :
    FailsWith IsOther (s.transform rows) := by
  refine failsWith_mapM fun row _ => FailsWith.bind ?_ fun _ _ => failsWith_pure _ _
  rw [Scaler.check]
  split_ifs
  exacts [failsWith_ok _ (),failsWith_error (by simp [IsOther])]

lemma failsWith_fit (rows : List Column.Row) (columns : List String) :
    FailsWith IsOther (Scaler.fit rows columns) := by
  rw [Scaler.fit]
  split
  exacts [failsWith_error (by simp [IsOther]),failsWith_ok _ _]

lemma prepare_of_few (hrows : cleanRows Column.sequence Column.body candles = .ok rows)
    (hword : lookback settings + spareRows < wordSize)
    (hfew : rows.length < lookback settings + spareRows) :
    prepare settings candles =
      .error (.notEnoughRows (lookback settings + spareRows) rows.length) := by
  rw [prepare, hrows]
  simp only [bind, Except.bind, if_neg (Nat.not_le_of_lt hword), if_pos hfew]
  rfl

lemma failsWith_prepare (hrows : cleanRows Column.sequence Column.body candles = .ok rows)
    (hword : lookback settings + spareRows < wordSize)
    (henough : lookback settings + spareRows ≤ rows.length) :
    FailsWith IsOther (prepare settings candles) := by
  rw [prepare, hrows]
  change FailsWith IsOther (ite _ _ _)
  rw [if_neg (Nat.not_le_of_lt hword), if_neg (Nat.not_lt_of_le henough)]
  refine (failsWith_fit ..).bind fun _ _ => (failsWith_fit ..).bind fun _ _ =>
    (failsWith_transform ..).bind fun _ _ => (failsWith_transform ..).bind fun _ _ => ?_
  dsimp only
  split_ifs
  exacts [failsWith_error (by simp [IsOther]),failsWith_pure _ _]

/-- A preparation fails for want of rows exactly where the clean candles are fewer than the lookback
and the spare rows together. -/
theorem prepare_eq_notEnoughRows_iff (hdelta : ∀ c ∈ candles, c.delta?.isSome)
    (hword : lookback settings + spareRows < wordSize) {required available : Nat} :
    prepare settings candles = .error (.notEnoughRows required available) ↔
      required = lookback settings + spareRows ∧
      available = (candles.filter (isClean Column.sequence Column.body)).length ∧
      available < required := by
  obtain ⟨rows,hrows⟩ : ∃ rows, cleanRows Column.sequence Column.body candles = .ok rows :=
    exists_cleanRows fun _ => hdelta
  rw [← length_cleanRows hrows]
  constructor
  · intro h
    by_cases hfew : rows.length < lookback settings + spareRows
    · rw [prepare_of_few hrows hword hfew] at h
      cases h
      exact ⟨rfl,rfl,hfew⟩
    · exact absurd rfl ((failsWith_prepare hrows hword (by omega)).error _ h required available)
  · rintro ⟨rfl,rfl,hfew⟩
    exact prepare_of_few hrows hword hfew

end Training

namespace ModelStore
open Training Storing
variable {s : ModelStore} {settings : TrainingSettings} {now : Instant} {r : Random}
  {series : Series} {t : FileTree} {c : Cause} {p : Prepared}

/-- A training whose samples cannot be prepared fails at once. -/
lemma train_of_unprepared (h : prepare settings series.candles = .error c) :
    result (s.train settings now r series) t = (fail c,t) := by
  rw [train, h, result_bind]
  rfl

/-- A training whose samples are prepared fails only late. -/
theorem stepFailsFor_train (h : prepare settings series.candles = .ok p) :
    StepFailsFor IsLate (s.train settings now r series) := by
  obtain ⟨_,_,_,hprepared⟩ := exists_isPrepared h
  have hensure : StepFailsFor IsLate s.ensure := stepFailsFor_changeThrough rfl
  have hscalers : StepFailsFor IsLate
      (s.saveScalers series.symbol p.featureScaler p.targetScaler) :=
    (JsonFile.stepFailsFor_write _ _).bind fun _ _ _ _ => JsonFile.stepFailsFor_write _ _
  rw [train, h]
  refine (stepFailsFor_of (failsWith_ok _ p)).bind fun p' _ _ hp => ?_
  obtain ⟨hp,-⟩ := succeeds_of_iff.mp hp
  obtain rfl := Except.ok.inj hp
  refine hensure.bind fun _ _ _ _ => ?_
  refine (stepFailsFor_of (Forecaster.failsFor_fit hprepared.trains r)).bind
    fun trained _ _ _ => ?_
  obtain ⟨model,history⟩ := trained
  exact (model.stepFailsFor_save _).bind fun _ _ _ _ => hscalers.bind fun _ _ _ _ =>
    (JsonFile.stepFailsFor_write _ _).bind fun _ _ _ _ =>
      ((JsonFile.stepFailsFor_create _ _).attempting _).bind fun _ _ _ _ => stepFailsFor_pure _ _

/-- A training that fails early leaves the tree as it was. -/
theorem result_train_of_early {f : Failure} {t' : FileTree}
    (h : result (s.train settings now r series) t = (.error f,t'))
    (hearly : f.cause.isEarly = true) : t' = t := by
  cases hp : prepare settings series.candles with
  | error c =>
    rw [train_of_unprepared hp] at h
    exact (Prod.mk.inj h).2.symm
  | ok p =>
    have hlate := (stepFailsFor_train hp t).error f (by rw [h])
    exact Bool.noConfusion (hearly.symm.trans hlate)

/-- A training fails for want of rows exactly where its preparation does. -/
theorem train_notEnoughRows_iff (hdelta : ∀ c ∈ series.candles, c.delta?.isSome)
    (hword : lookback settings + spareRows < wordSize) {required available : Nat} :
    (∃ f, (result (s.train settings now r series) t).1 = .error f ∧
        f.cause = .notEnoughRows required available) ↔
      required = lookback settings + spareRows ∧
      available = (series.candles.filter (isClean Column.sequence Column.body)).length ∧
      available < required := by
  rw [← prepare_eq_notEnoughRows_iff hdelta hword]
  constructor
  · rintro ⟨f,hf,hcause⟩
    cases hp : prepare settings series.candles with
    | error c =>
      rw [train_of_unprepared hp] at hf
      cases hf
      rw [← hcause]
      rfl
    | ok p =>
      have hlate := (stepFailsFor_train hp t).error f hf
      rw [hcause] at hlate
      cases hlate
  · intro hp
    rw [train_of_unprepared hp]
    exact ⟨_,rfl,rfl⟩

end ModelStore

/-- What a store of models is asked for: to train on a series, or for the candle after a series or
after the market files of a symbol. -/
inductive Request where
  | train (settings : TrainingSettings) (now : Instant) (random : Random) (series : Series)
  | forecast (series : Series) (lookback : Option Nat)
  | forecastFiles (data : Path) (interval : Timeframe) (symbol : String) (lookback : Option Nat)

inductive Reply where
  | report (report : TrainingReport)
  | body (body : BodyForecast)

namespace Request
open Storing
variable {s : ModelStore} {t : FileTree} {request : Request} {requests : List Request}

def reply (s : ModelStore) : Request → Storing Reply
  | train settings now random series => return .report (← s.train settings now random series)
  | forecast series lookback =>
    return .body (← Storing.reading fun t => s.predictOn t series lookback)
  | forecastFiles data interval symbol lookback =>
    return .body (← Storing.reading fun t => s.predict t data interval symbol lookback)

/-- Is it a forecast, or a training that failed for a cause of its preparation? -/
def Spares : Request → Outcome Reply → Prop
  | train _ _ _ _, o => ∃ f, o = .error f ∧ f.cause.isEarly = true
  | forecast _ _, _ => True
  | forecastFiles _ _ _ _, _ => True

/-- The replies to requests one after the other, whatever came of those before, and the tree that
they leave. -/
def replies (s : ModelStore) : List Request → FileTree → List (Outcome Reply) × FileTree
  | [], t => ([],t)
  | request :: rest, t =>
    let (o, t') := result (request.reply s) t
    let (os, t'') := replies s rest t'
    (o :: os, t'')

lemma result_reply_train (s : ModelStore) (t : FileTree) (settings : TrainingSettings)
    (now : Instant) (random : Random) (series : Series) :
    result ((train settings now random series).reply s) t =
      ((result (s.train settings now random series) t).1.map .report,
        (result (s.train settings now random series) t).2) := by
  rw [reply, result_bind]
  rcases result (s.train settings now random series) t with ⟨_ | _,_⟩ <;> rfl

/-- A request that spares the store leaves the tree as it was. -/
theorem result_of_spares (h : request.Spares (result (request.reply s) t).1) :
    (result (request.reply s) t).2 = t := by
  cases request with
  | train settings now random series =>
    obtain ⟨f,hf,hearly⟩ := h
    rw [result_reply_train] at hf ⊢
    rcases hrun : result (s.train settings now random series) t with ⟨f' | report,t'⟩
    · rw [hrun] at hf
      cases hf
      exact ModelStore.result_train_of_early hrun hearly
    · rw [hrun] at hf
      cases hf
  | forecast series lookback =>
    rw [reply, result_bind, result_reading]
    cases s.predictOn t series lookback <;> rfl
  | forecastFiles data interval symbol lookback =>
    rw [reply, result_bind, result_reading]
    cases s.predict t data interval symbol lookback <;> rfl

lemma replies_cons : replies s (request :: requests) t =
    ((result (request.reply s) t).1 :: (replies s requests (result (request.reply s) t).2).1,
      (replies s requests (result (request.reply s) t).2).2) := rfl

/-- Requests that all spare the store are answered as if each were the first. -/
theorem replies_of_spares (h : List.Forall₂ Spares requests (replies s requests t).1) :
    replies s requests t = (requests.map fun request => (result (request.reply s) t).1,t) := by
  induction requests with
  | nil => rfl
  | cons request rest ih =>
    rw [replies_cons, List.forall₂_cons] at h
    obtain ⟨hfirst,hrest⟩ := h
    rw [result_of_spares hfirst] at hrest
    rw [replies_cons, result_of_spares hfirst, ih hrest, List.map_cons]

lemma forall₂_spares (h : ∀ request ∈ requests, request.Spares (result (request.reply s) t).1) :
    List.Forall₂ Spares requests (replies s requests t).1 := by
  induction requests with
  | nil => exact .nil
  | cons request rest ih =>
    rw [List.forall_mem_cons] at h
    rw [replies_cons, result_of_spares h.1]
    exact .cons h.1 (ih h.2)

/-- Failed trainings and forecasts leave a store alone. A training that ends for want of rows, for
rows of the wrong width or for want of samples has changed no file and made no directory; the first
of these comes up exactly where the clean candles are fewer than the lookback and ten more; and where
requests were all forecasts or trainings that ended so, the tree is the one before them, and each is
answered as it would have been at first. -/
theorem replies_undisturbed (s : ModelStore) (t : FileTree) :
    (∀ settings now r series f t',
      result (s.train settings now r series) t = (.error f,t') → f.cause.isEarly = true → t' = t) ∧
    (∀ (settings : TrainingSettings) now r (series : Series) required available,
      (∀ c ∈ series.candles, c.delta?.isSome) → settings.lookback + 10 < wordSize →
      ((∃ f, (result (s.train settings now r series) t).1 = .error f ∧
          f.cause = .notEnoughRows required available) ↔
        required = max 1 settings.lookback + 10 ∧
        available =
          (series.candles.filter (Training.isClean Column.sequence Column.body)).length ∧
        available < required)) ∧
    ∀ requests, List.Forall₂ Spares requests (replies s requests t).1 →
      replies s requests t = (requests.map fun request => (result (request.reply s) t).1,t) := by
  refine ⟨fun _ _ _ _ _ _ h hearly => ModelStore.result_train_of_early h hearly,?_,
    fun _ h => replies_of_spares h⟩
  intro settings now r series required available hdelta hword
  rw [Nat.max_comm]
  refine ModelStore.train_notEnoughRows_iff hdelta ?_
  rw [wordSize] at hword ⊢
  exact Nat.add_lt_of_lt_sub (Nat.max_lt.mpr ⟨Nat.lt_sub_of_add_lt hword,by decide⟩)

/-- The first eleven candles, of which ten are clean. -/
def briefSeries : Series :=
  { ModelStore.cloudedSeries with candles := ModelStore.cloudedSeries.candles.take 11 }

open ModelStore in
/-- A training that fails between forecasts of a model that was trained before. -/
theorem replies_undisturbed_brief :
    ∃ report t', Succeeds ((ModelStore.mk "models").train leafSettings ⟨0,0⟩ (.ofSeed 0)
        cloudedSeries) .empty report t' ∧
      let retrain := Request.train leafSettings ⟨0,0⟩ (.ofSeed 0) briefSeries
      (∃ f, (result ((ModelStore.mk "models").train leafSettings ⟨0,0⟩ (.ofSeed 0) briefSeries)
          t').1 = .error f ∧ f.cause = .notEnoughRows 11 10) ∧
      (replies ⟨"models"⟩ [.forecast cloudedSeries none,retrain,.forecast cloudedSeries none] t').2 =
        t' := by
  obtain ⟨report,t',hrun⟩ := exists_train_clouded
  refine ⟨report,t',hrun,?_⟩
  intro retrain
  obtain ⟨-,hfew,hspared⟩ := replies_undisturbed ⟨"models"⟩ t'
  obtain ⟨f,hf,hcause⟩ := (hfew leafSettings ⟨0,0⟩ (.ofSeed 0) briefSeries 11 10
    (by decide +kernel) (by decide)).mpr (by decide +kernel)
  refine ⟨⟨f,hf,hcause⟩,?_⟩
  have hretrain : retrain.Spares (result (retrain.reply ⟨"models"⟩) t').1 := by
    refine ⟨f,?_,by rw [hcause]; rfl⟩
    rw [result_reply_train, hf]
    rfl
  rw [hspared]
  refine forall₂_spares ?_
  simp only [List.forall_mem_cons]
  exact ⟨trivial,hretrain,trivial,nofun⟩

end Request
end OrderFlow
