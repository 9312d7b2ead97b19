import OrderFlow.Forecast.Prediction
import OrderFlow.Proofs.Forecast.Preparation

/-! The steps of a forecast: what the symbol's files say, the last clean rows scaled, what the model
makes of them, and that brought back to prices. -/
namespace OrderFlow.ModelStore
open Training
variable {s : ModelStore} {t : FileTree} {series : Series} {metadata : ModelMetadata}
  {body : BodyForecast}

theorem forecast_eq_ok_iff :
    s.forecast t series metadata = .ok body ↔
      ∃ columns featureScaler targetScaler rows window model scaled values,
        Column.parseList (Column.joinNames metadata.features) = .ok columns ∧
        s.loadScalers t series.symbol = .ok (featureScaler,targetScaler) ∧
        cleanRows columns Column.body series.candles = .ok rows ∧
        metadata.lookback ≤ rows.length ∧
        featureScaler.transform (lastRows metadata.lookback (rows.map (·.1))) = .ok window ∧
        Forecaster.load t (s.path (Artifact.weights metadata.kind) metadata.symbol) metadata
          columns.length targetScaler.width = .ok model ∧
        model.predict window = .ok scaled ∧ targetScaler.inverseRow scaled = .ok values ∧
        BodyForecast.ofList? values = some body := by
  simp only [forecast, bind_eq_ok_iff, guard_fail_eq_ok_iff, mapError_eq_ok_iff, Nat.not_lt]
  constructor
  · rintro ⟨columns,hcolumns,⟨featureScaler,targetScaler⟩,hscalers,rows,hrows,henough,window,hwindow,
      model,hmodel,scaled,hscaled,values,hvalues,h⟩
    refine ⟨columns,featureScaler,targetScaler,rows,window,model,scaled,values,hcolumns,hscalers,
      hrows,henough,hwindow,hmodel,hscaled,hvalues,?_⟩
    split at h
    case h_1 found hfound => rw [hfound, pure_eq_ok_iff.mp h]
    case h_2 => cases h
  · rintro ⟨columns,featureScaler,targetScaler,rows,window,model,scaled,values,hcolumns,hscalers,
      hrows,henough,hwindow,hmodel,hscaled,hvalues,hbody⟩
    exact ⟨columns,hcolumns,(featureScaler,targetScaler),hscalers,rows,hrows,henough,window,hwindow,
      model,hmodel,scaled,hscaled,values,hvalues,by rw [hbody]; rfl⟩

end OrderFlow.ModelStore
