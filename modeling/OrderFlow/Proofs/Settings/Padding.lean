import OrderFlow.Proofs.Settings.Layers
import OrderFlow.Proofs.Text.Blanks

/-! Blanks around the values of variables. They change nothing, except around the name of a kind
and in a directory: a kind with a blank in it is refused. -/
namespace OrderFlow
open Text (isBlank trim lower lowerAscii)

namespace Text
variable {c : Char} {s : String} {raw raw' : String}

/-- Are both texts the same one, with blanks around it? -/
def SameBetweenBlanks (raw raw' : String) : Prop :=
  ∃ before after before' after' cs : List Char,
    (∀ c ∈ before ++ after ++ before' ++ after', isBlank c = true) ∧
      raw.toList = before ++ cs ++ after ∧ raw'.toList = before' ++ cs ++ after'

lemma SameBetweenBlanks.trim_eq (h : SameBetweenBlanks raw raw') : trim raw' = trim raw := by
  obtain ⟨before,after,before',after',cs,hblank,hraw,hraw'⟩ := h
  simp only [List.forall_mem_append] at hblank
  obtain ⟨⟨⟨hbefore,hafter⟩,hbefore'⟩,hafter'⟩ := hblank
  rw [trim, trim, hraw, hraw', trimmed_append hbefore hafter, trimmed_append hbefore' hafter']

/-- Blanks have no case. -/
lemma lowerAscii_of_isBlank (h : isBlank c = true) : lowerAscii c = c := by
  rw [lowerAscii, if_neg]
  rintro ⟨hfirst,hlast⟩
  simp only [Char.le_def, UInt32.le_iff_toNat_le] at hfirst hlast
  simp only [isBlank, Bool.or_eq_true, Bool.and_eq_true, decide_eq_true_eq, Char.toNat] at h
  have ha : 'A'.val.toNat = 65 := rfl
  have hz : 'Z'.val.toNat = 90 := rfl
  omega

lemma mem_toList_lower (hc : c ∈ s.toList) (h : isBlank c = true) : c ∈ (lower s).toList := by
  rw [lower, String.toList_ofList, List.mem_map]
  exact ⟨c,hc,lowerAscii_of_isBlank h⟩

end Text

/-- What names a kind has no blanks in it. -/
theorem ModelKind.ofText?_of_isBlank {raw : String} {c : Char} (hc : c ∈ raw.toList)
    (h : isBlank c = true) : ofText? raw = none := by
  have hmem := Text.mem_toList_lower hc h
  have hother (word : String) (hword : word.toList.any isBlank = false) : lower raw ≠ word := by
    rintro rfl
    exact List.any_eq_false.mp hword c hmem h
  rw [ofText?]
  split
  · exact absurd ‹_› (hother "lstm" (by decide))
  · exact absurd ‹_› (hother "forest" (by decide))
  · exact absurd ‹_› (hother "random_forest" (by decide))
  · rfl

namespace Settings
variable {file : FileSettings} {env env' : Environment} {kept : List String}

/-- Do two environments differ only in the blanks around values, and not for some variables? -/
def DifferInBlanks (kept : List String) (env env' : Environment) : Prop :=
  ∀ name, env' name = env name ∨ name ∉ kept ∧ ∃ raw raw',
    env name = some raw ∧ env' name = some raw' ∧ Text.SameBetweenBlanks raw raw'

lemma DifferInBlanks.eq (h : DifferInBlanks kept env env') {name : String} (hname : name ∈ kept) :
    env' name = env name :=
  (h name).resolve_right fun ⟨hnot,_⟩ => hnot hname

lemma DifferInBlanks.lookUp_eq (h : DifferInBlanks kept env env') {α : Type}
    (read : String → Except String α) (name : String) (otherwise : α) :
    lookUp env' read name otherwise = lookUp env read name otherwise := by
  rcases h name with heq | ⟨-,raw,raw',hraw,hraw',hsame⟩
  · rw [lookUp, lookUp, heq]
  · simp only [lookUp, hraw, hraw', hsame.trim_eq]

/-- The variables whose values are taken with the blanks around them. -/
def keptWhole : List String := ["DATA_DIR","MODEL_DIR","MODEL_KIND"]

lemma resolveData_eq_of_differInBlanks (h : DifferInBlanks keptWhole env env') :
    resolveData file.data env' = resolveData file.data env := by
  simp only [resolveData, h.lookUp_eq, directory, h.eq (by decide : "DATA_DIR" ∈ keptWhole)]

lemma resolveModel_eq_of_differInBlanks (h : DifferInBlanks keptWhole env env') :
    resolveModel file.model env' = resolveModel file.model env := by
  simp only [resolveModel, h.lookUp_eq, directory, kind,
    h.eq (by decide : "MODEL_DIR" ∈ keptWhole), h.eq (by decide : "MODEL_KIND" ∈ keptWhole)]

/-- A kind with a blank in it is refused as it stands. -/
lemma resolveModel_of_isBlank {raw : String} {c : Char} (hraw : env "MODEL_KIND" = some raw)
    (hc : c ∈ raw.toList) (hblank : isBlank c = true) :
    resolveModel file.model env = .error ⟨[],.unknownModelKind raw⟩ := by
  simp only [resolveModel, kind, hraw, ModelKind.parse, ModelKind.ofText?_of_isBlank hc hblank]
  rfl

/-- Blanks around the value of a variable that has to be read change nothing, neither what is in
force nor what is wrong, except around a kind. A kind with a blank in it is always refused. -/
theorem resolve_differInBlanks (file : FileSettings) (env : Environment) :
    (∀ env', DifferInBlanks keptWhole env env' → resolve file env' = resolve file env) ∧
    ∀ raw, env "MODEL_KIND" = some raw → (∃ c ∈ raw.toList, isBlank c = true) →
      (∀ s, resolve file env ≠ .ok s) ∧
      ∀ d, resolveData file.data env = .ok d → resolve file env =
        .error ⟨["Failed to load model config"],.unknownModelKind raw⟩ := by
  refine ⟨fun env' h => ?_,fun raw hraw ⟨c,hc,hblank⟩ => ?_⟩
  · rw [resolve, resolve, resolveData_eq_of_differInBlanks h, resolveModel_eq_of_differInBlanks h]
  · refine ⟨fun s hs => ?_,fun d hd => ?_⟩
    · have hread := (resolve_eq_ok_iff.mp hs).1 .kind rfl raw hraw
      rw [Setting.read?, ModelKind.ofText?_of_isBlank hc hblank] at hread
      exact Bool.false_ne_true hread
    · rw [resolve, hd, resolveModel_of_isBlank hraw hc hblank]
      rfl

/-- An environment with one variable. -/
def only (name value : String) : Environment := fun n => if n = name then some value else none

lemma differInBlanks_only {name raw raw' : String} (hname : name ∉ kept)
    (h : Text.SameBetweenBlanks raw raw') :
    DifferInBlanks kept (only name raw) (only name raw') := by
  intro n
  by_cases hn : n = name
  · exact .inr ⟨hn ▸ hname,raw,raw',if_pos hn,if_pos hn,h⟩
  · exact .inl (by rw [only, only, if_neg hn, if_neg hn])

theorem resolve_differInBlanks_count :
    resolve .empty (only "LOOKBACK" " 8\t") = resolve .empty (only "LOOKBACK" "8") ∧
      resolve .empty (only "MODEL_KIND" "lstm ") =
        .error ⟨["Failed to load model config"],.unknownModelKind "lstm "⟩ := by
  have hsame : Text.SameBetweenBlanks "8" " 8\t" :=
    ⟨[],[],[' '],['\t'],['8'],List.all_eq_true.mp (by decide),by decide,by decide⟩
  obtain ⟨hequal,-⟩ := resolve_differInBlanks .empty (only "LOOKBACK" "8")
  obtain ⟨-,hrefused⟩ := resolve_differInBlanks .empty (only "MODEL_KIND" "lstm ")
  exact ⟨hequal _ (differInBlanks_only (by decide) hsame),
    (hrefused "lstm " rfl ⟨' ',by decide,by decide⟩).2 _ rfl⟩

/-- Blanks around a kind decide whether it is accepted. -/
theorem resolve_kind_between_blanks :
    DifferInBlanks ["DATA_DIR","MODEL_DIR"] (only "MODEL_KIND" "forest")
      (only "MODEL_KIND" " forest ") ∧
    (∃ s, resolve .empty (only "MODEL_KIND" "forest") = .ok s) ∧
    resolve .empty (only "MODEL_KIND" " forest ") =
      .error ⟨["Failed to load model config"],.unknownModelKind " forest "⟩ := by
  have hsame : Text.SameBetweenBlanks "forest" " forest " :=
    ⟨[],[],[' '],[' '],"forest".toList,List.all_eq_true.mp (by decide),by decide,by decide⟩
  have hreadable (k : Setting) (_ : k.isTyped = true) :
      k.IsReadable (only "MODEL_KIND" "forest") := by
    intro raw hraw
    cases k <;> cases hraw
    rfl
  have hsound : (layers .empty (only "MODEL_KIND" "forest")).model.IsSound :=
    ⟨by decide,by decide,by decide,by decide,by decide +kernel,by decide +kernel⟩
  have hdata : resolveData FileSettings.empty.data (only "MODEL_KIND" " forest ") =
      .ok DataSettings.standard := rfl
  have hgiven : only "MODEL_KIND" " forest " "MODEL_KIND" = some " forest " := rfl
  have hmodel : resolveModel FileSettings.empty.model (only "MODEL_KIND" " forest ") =
      .error ⟨[],.unknownModelKind " forest "⟩ :=
    resolveModel_of_isBlank hgiven (c := ' ') (by decide) (by decide)
  refine ⟨differInBlanks_only (by decide) hsame,
    ⟨_,resolve_eq_ok_iff.mpr ⟨hreadable,hsound,rfl⟩⟩,?_⟩
  rw [resolve, hdata, hmodel]
  rfl

end Settings
end OrderFlow
