import OrderFlow.Proofs.Feature.Scaling
import OrderFlow.Proofs.Forecast.Adjacency
import OrderFlow.Proofs.Forecast.ForestServing
import OrderFlow.Proofs.Forecast.Serving
import OrderFlow.Proofs.Forecast.TrainingRun
import OrderFlow.Proofs.Store.Artifacts
import OrderFlow.Proofs.Store.Loading

/-! What a training keeps is what a forecast needs: metadata, scalers and model are found where they
were written, and every series of the symbol with enough clean candles has a forecast. -/
namespace OrderFlow.ModelStore
open Training Storing Json
variable {s : ModelStore} {settings : TrainingSettings} {now : Instant} {r : Random}
  {series : Series} {t t' made weighed scaled noted : FileTree} {report : TrainingReport}
  {p : Prepared} {model : Forecaster} {symbol : String} {metadata : ModelMetadata}
  {scaler : Scaler}

lemma isWritable_metadataOf (hp : prepare settings series.candles = .ok p) (hnow : now.IsWritable)
    (hhidden : settings.lstm.hiddenSize < wordSize) :
    (metadataOf settings series p now).IsWritable where
  lookback := Nat.lt_of_le_of_lt (Nat.le_add_right ..) (required_lt_of_prepare hp)
  hiddenSize := hhidden
  trainedAt := hnow

lemma read_scaler_of_found {path : Path} {columns : List String} (h : scaler.IsFitted columns)
    (hmean : ∀ x ∈ scaler.mean, Binary.isFinite x = true)
    (hfound : t.get? path = some (.file (.text scaler.toJson.toIndentedText))) :
    JsonFile.read t path Scaler.ofJson? = .ok scaler.reread :=
  Scaler.read_of_found hmean h.isFinite hfound

/-- What is read of a fitted scaler is as wide as it was. -/
lemma width_reread {columns : List String} (h : scaler.IsFitted columns) :
    scaler.reread.width = columns.length ∧
      scaler.reread.scale.length = scaler.reread.mean.length := by
  simp [Scaler.reread, Scaler.width, h.mean, h.scale]

/-- After the weights, a training writes four more files. -/
lemma IsTraining.exists_writes
    (h : IsTraining s settings now r series t t' report p model made weighed scaled noted) :
    ∃ half,
      FileTree.Writes weighed (s.path .featureScaler series.symbol)
        (.text p.featureScaler.toJson.toIndentedText) half ∧
      FileTree.Writes half (s.path .targetScaler series.symbol)
        (.text p.targetScaler.toJson.toIndentedText) scaled ∧
      FileTree.Writes scaled (s.path .metadata series.symbol)
        (.text (metadataOf settings series p now).toJson.toIndentedText) noted ∧
      FileTree.Writes noted (s.path .history series.symbol)
        (.text (History.text report.history)) t' := by
  obtain ⟨_,half,hfeatures,htargets⟩ := succeeds_bind_iff.mp h.scalers
  exact ⟨half,JsonFile.writes_of_write hfeatures,JsonFile.writes_of_write htargets,
    JsonFile.writes_of_write h.metadata,JsonFile.writes_of_create h.history⟩

/-- Every file of a training is found at its end as it was written. -/
lemma IsTraining.found {e : Entry}
    (h : IsTraining s settings now r series t t' report p model made weighed scaled noted)
    (hweights : weighed.get? (s.path (Artifact.weights settings.kind) series.symbol) = some e) :
    t'.get? (s.path (Artifact.weights settings.kind) series.symbol) = some e ∧
      t'.get? (s.path .featureScaler series.symbol) =
        some (.file (.text p.featureScaler.toJson.toIndentedText)) ∧
      t'.get? (s.path .targetScaler series.symbol) =
        some (.file (.text p.targetScaler.toJson.toIndentedText)) ∧
      t'.get? (s.path .metadata series.symbol) =
        some (.file (.text (metadataOf settings series p now).toJson.toIndentedText)) := by
  obtain ⟨half,hfeatures,htargets,hmetadata,hhistory⟩ := h.exists_writes
  have hkind : ∀ a ∈ [Artifact.featureScaler,.targetScaler,.metadata,.history],
      Artifact.weights settings.kind ≠ a := by cases settings.kind <;> decide
  refine ⟨?_,?_,?_,?_⟩
  · exact get?_of_writes (hkind _ (by simp)) hhistory <|
      get?_of_writes (hkind _ (by simp)) hmetadata <|
      get?_of_writes (hkind _ (by simp)) htargets <|
      get?_of_writes (hkind _ (by simp)) hfeatures hweights
  · exact get?_of_writes (by decide) hhistory <| get?_of_writes (by decide) hmetadata <|
      get?_of_writes (by decide) htargets hfeatures.found
  · exact get?_of_writes (by decide) hhistory <| get?_of_writes (by decide) hmetadata htargets.found
  · exact get?_of_writes (by decide) hhistory hmetadata.found

/-- A forecast takes columns that are known, scalers of both widths, a model that forecasts and
enough clean candles. -/
lemma exists_forecast {features targets : Scaler}
    (hcolumns : Column.parseList (Column.joinNames metadata.features) = .ok Column.sequence)
    (hscalers : s.loadScalers t series.symbol = .ok (features,targets))
    (hfeatures : features.width = Column.sequence.length ∧
      features.scale.length = features.mean.length)
    (htargets : targets.width = Column.body.length ∧ targets.scale.length = targets.mean.length)
    (hload : Forecaster.load t (s.path (Artifact.weights metadata.kind) metadata.symbol) metadata
      Column.sequence.length Column.body.length = .ok model)
    (hpredict : ∀ window : List Column.Row, window.length = metadata.lookback →
      (∀ row ∈ window, row.length = Column.sequence.length) →
      ∃ values, model.predict window = .ok values ∧ values.length = Column.body.length)
    (hdelta : ∀ c ∈ series.candles, c.delta?.isSome)
    (henough : metadata.lookback ≤
      (series.candles.filter (isClean Column.sequence Column.body)).length) :
    ∃ body, s.forecast t series metadata = .ok body := by
  obtain ⟨rows,hrows⟩ : ∃ rows, cleanRows Column.sequence Column.body series.candles = .ok rows :=
    exists_cleanRows fun _ => hdelta
  have hlength : metadata.lookback ≤ rows.length := length_cleanRows hrows ▸ henough
  have hwidth : ∀ row ∈ lastRows metadata.lookback (rows.map (·.1)),
      row.length = features.width := fun row hrow =>
    (Column.length_of_mem_matrix? (matrix?_of_cleanRows hrows).1
      (List.mem_of_mem_drop hrow)).trans hfeatures.1.symm
  obtain ⟨window,hwindow,hcount,hwide⟩ := Scaler.exists_transform hfeatures.2 hwidth
  obtain ⟨scaled,hscaled,hsize⟩ := hpredict window
    (hcount.trans (length_lastRows (by simpa using hlength)))
    fun row hrow => (hwide row hrow).trans hfeatures.1
  obtain ⟨values,hvalues,hpair⟩ :=
    Scaler.exists_inverseRow htargets.2 (hsize.trans htargets.1.symm)
  obtain ⟨o,c,rfl⟩ := List.length_eq_two.mp (hpair.trans htargets.1)
  exact ⟨⟨o,c⟩,forecast_eq_ok_iff.mpr ⟨Column.sequence,features,targets,rows,window,model,scaled,
    [o,c],hcolumns,hscalers,hrows,hlength,hwindow,htargets.1.symm ▸ hload,hscaled,hvalues,rfl⟩⟩

lemma checkedMetadata_of_load {requested : Option Nat}
    (h : s.loadMetadata t symbol = .ok metadata)
    (hrequested : requested = none ∨ requested = some metadata.lookback) :
    s.checkedMetadata t symbol requested = .ok metadata := by
  rw [checkedMetadata, h]
  rcases hrequested with rfl | rfl
  · rfl
  · exact if_pos rfl

/-- A training that succeeds leaves files that serve: they are read with the columns, the widths and
the lookback of the training, and each series of the symbol with enough clean candles has a
forecast. The time is one of the calendar and the hidden size a word, as a machine has them; of the
fitted model it is asked that it serves once it is saved. -/
theorem servable_of_train (h : Succeeds (s.train settings now r series) t report t')
    (hnow : now.IsWritable) (hhidden : settings.lstm.hiddenSize < wordSize)
    (hmeans : ∀ p, prepare settings series.candles = .ok p →
      ∀ x ∈ p.featureScaler.mean ++ p.targetScaler.mean, Binary.isFinite x = true)
    (hserves : ∀ p model history, prepare settings series.candles = .ok p →
      Forecaster.fit settings p.train p.val r = .ok (model,history) →
      model.Serves (metadataOf settings series p now) Column.sequence.length
        Column.body.length) :
    ∃ metadata features targets,
      s.loadMetadata t' series.symbol = .ok metadata ∧
      s.loadScalers t' series.symbol = .ok (features,targets) ∧
      Column.parseList (Column.joinNames metadata.features) = .ok Column.sequence ∧
      metadata.lookback = max 1 settings.lookback ∧ features.width = 10 ∧ targets.width = 2 ∧
      ∀ (series' : Series) (requested : Option Nat), series'.symbol = series.symbol →
        (requested = none ∨ requested = some metadata.lookback) →
        (∀ c ∈ series'.candles, c.delta?.isSome) →
        metadata.lookback ≤
          (series'.candles.filter (isClean Column.sequence Column.body)).length →
        ∃ body, s.predictOn t' series' requested = .ok body := by
  obtain ⟨p,model,made,weighed,scaled,noted,htraining⟩ := exists_isTraining h
  obtain ⟨rows,xs,ys,hprepared⟩ := exists_isPrepared htraining.prepared
  have hp := htraining.prepared
  have hfitted := Scaler.isFitted_of_fit hprepared.featureScaler
  have hfitted' := Scaler.isFitted_of_fit hprepared.targetScaler
  obtain ⟨reloaded,hload,hpredict⟩ := hserves p model _ hp htraining.fitted _ _ _ htraining.saved
  obtain ⟨e,hweights⟩ := Forecaster.exists_get?_of_load hload
  obtain ⟨hmodel,hfeatures,htargets,hmetadata⟩ := htraining.found hweights
  have hreadFeatures := read_scaler_of_found hfitted
    (fun x hx => hmeans p hp x (List.mem_append_left _ hx)) hfeatures
  have hreadTargets := read_scaler_of_found hfitted'
    (fun x hx => hmeans p hp x (List.mem_append_right _ hx)) htargets
  have hwidth := width_reread hfitted
  have hwidth' := width_reread hfitted'
  have hread := loadMetadata_of_found (isWritable_metadataOf hp hnow hhidden) hmetadata
  have hscalers : s.loadScalers t' series.symbol =
      .ok (p.featureScaler.reread,p.targetScaler.reread) := by
    rw [loadScalers, hreadFeatures, hreadTargets]
    rfl
  have hcolumns : Column.parseList (Column.joinNames p.featureScaler.columns) =
      .ok Column.sequence := by
    rw [hfitted.named]
    decide
  refine ⟨_,_,_,hread,hscalers,hcolumns,Nat.max_comm ..,hwidth.1,hwidth'.1,
    fun series' requested hsymbol hrequested hdelta henough => ?_⟩
  rw [predictOn, hsymbol, checkedMetadata_of_load hread hrequested]
  exact exists_forecast hcolumns (hsymbol ▸ hscalers) hwidth hwidth'
    ((Forecaster.load_congr (hmodel.trans hweights.symm)).trans hload) hpredict hdelta henough

theorem servable_of_train_clouded :
    ∃ report t', Succeeds ((ModelStore.mk "models").train leafSettings ⟨0,0⟩ (.ofSeed 0)
        cloudedSeries) .empty report t' ∧
      ∃ body, (ModelStore.mk "models").predictOn t' cloudedSeries none = .ok body := by
  obtain ⟨report,t',hrun⟩ := exists_train_clouded
  have hevaluated : (prepare leafSettings cloudedSeries.candles).toOption.all fun p =>
      (p.featureScaler.mean ++ p.targetScaler.mean).all Binary.isFinite &&
        (Forecaster.fit leafSettings p.train p.val (.ofSeed 0)).toOption.all fun m =>
          m.1.isServing 10 2 := by decide +kernel
  have hprepared : ∀ p, prepare leafSettings cloudedSeries.candles = .ok p →
      (∀ x ∈ p.featureScaler.mean ++ p.targetScaler.mean, Binary.isFinite x = true) ∧
        (Forecaster.fit leafSettings p.train p.val (.ofSeed 0)).toOption.all fun m =>
          m.1.isServing 10 2 := by
    intro p hp
    rw [hp, Except.toOption, Option.all_some, Bool.and_eq_true, List.all_eq_true] at hevaluated
    exact hevaluated
  obtain ⟨metadata,_,_,-,-,-,hlookback,-,-,hserved⟩ := servable_of_train hrun
    ⟨by decide,by decide,by decide⟩ (by decide) (fun p hp => (hprepared p hp).1)
    fun p model history hp hmodel => Forecaster.serves_of_isServing rfl
      (show 0 < lookback leafSettings * Column.sequence.length by decide) <| by
        have hserving := (hprepared p hp).2
        rw [hmodel] at hserving
        exact hserving
  refine ⟨report,t',hrun,hserved cloudedSeries none rfl (.inl rfl) ?_ ?_⟩
  · decide +kernel
  · rw [hlookback]
    decide +kernel

end OrderFlow.ModelStore
