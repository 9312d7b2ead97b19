import OrderFlow.Proofs.Files.Steps
import OrderFlow.Proofs.Forecast.Preparation

/-! A training that succeeds, step by step: samples are prepared, the directory is made, a model
is fitted, and its weights, scalers, metadata and history are written in this order. -/
namespace OrderFlow.ModelStore
open Training Storing
variable {s : ModelStore} {settings : TrainingSettings} {now : Instant} {r : Random}
  {series : Series} {t t' : FileTree} {report : TrainingReport}

/-- The trees that a training leaves behind one after the other. -/
structure IsTraining (s : ModelStore) (settings : TrainingSettings) (now : Instant) (r : Random)
    (series : Series) (t t' : FileTree) (report : TrainingReport) (p : Prepared)
    (model : Forecaster) (made weighed scaled noted : FileTree) : Prop where
  prepared : prepare settings series.candles = .ok p
  ensured : Succeeds s.ensure t () made
  fitted : Forecaster.fit settings p.train p.val r = .ok (model,report.history)
  saved : Succeeds (model.save (s.path (Artifact.weights settings.kind) series.symbol)) made ()
    weighed
  scalers : Succeeds (s.saveScalers series.symbol p.featureScaler p.targetScaler) weighed () scaled
  metadata : Succeeds (s.saveMetadata (metadataOf settings series p now)) scaled () noted
  history : Succeeds (s.writeHistory series.symbol report.history) noted () t'
  reported : report = {
    symbol := series.symbol
    kind := settings.kind
    sampleCount := p.sampleCount
    trainCount := p.train.size
    valCount := p.val.size
    parameterCount := model.parameterCount?
    history := report.history
    weightsPath := s.path (Artifact.weights settings.kind) series.symbol
    historyPath := s.path .history series.symbol }

theorem exists_isTraining (h : Succeeds (s.train settings now r series) t report t') :
    ∃ p model made weighed scaled noted,
      IsTraining s settings now r series t t' report p model made weighed scaled noted := by
  simp only [train, succeeds_bind_iff, succeeds_of_iff, mapError_eq_ok_iff,
    succeeds_attempting_iff, succeeds_pure_iff] at h
  obtain ⟨p,_,⟨hprepared,rfl⟩,_,made,hensured,⟨model,history⟩,_,⟨hfitted,rfl⟩,_,weighed,hsaved,
    _,scaled,hscalers,_,noted,hmetadata,_,_,hhistory,rfl,rfl⟩ := h
  exact ⟨p,model,made,weighed,scaled,noted,hprepared,hensured,hfitted,hsaved,hscalers,hmetadata,
    hhistory,rfl⟩

/-- What is reported of the samples: each is counted as learned from or as held back. -/
theorem sampleCount_of_train (h : Succeeds (s.train settings now r series) t report t') :
    report.sampleCount = report.trainCount + report.valCount ∧ report.trainCount ≠ 0 := by
  obtain ⟨p,model,_,_,_,_,htraining⟩ := exists_isTraining h
  obtain ⟨_,_,_,hprepared⟩ := exists_isPrepared htraining.prepared
  rw [htraining.reported]
  exact ⟨sampleCount_of_prepare htraining.prepared,hprepared.trains⟩

end OrderFlow.ModelStore
