import OrderFlow.Proofs.Latest
import OrderFlow.Proofs.Store.Loading
import OrderFlow.Proofs.Store.Symbols

/-! Savings to a store, one after the other. Whatever comes of each, the files of a symbol hold what
the last saving of that symbol wrote into them, and that is what is loaded. -/
namespace OrderFlow
open FileTree Storing

/-- Something that is saved to a store. -/
inductive Saving where
  | metadata (m : ModelMetadata)
  | scalers (symbol : String) (features targets : Scaler)
  | history (symbol : String) (epochs : List EpochStats)

namespace Saving

def symbol : Saving → String
  | metadata m => m.symbol
  | scalers symbol _ _ => symbol
  | history symbol _ => symbol

def save (s : ModelStore) : Saving → Storing Unit
  | metadata m => s.saveMetadata m
  | scalers symbol features targets => s.saveScalers symbol features targets
  | history symbol epochs => s.writeHistory symbol epochs

/-- The metadata that are saved for a symbol. -/
def metadata? (x : String) : Saving → Option ModelMetadata
  | metadata m => if m.symbol = x then some m else none
  | _ => none

/-- The scalers of features and targets that are saved for a symbol. -/
def scalers? (x : String) : Saving → Option (Scaler × Scaler)
  | scalers symbol features targets => if symbol = x then some (features,targets) else none
  | _ => none

def history? (x : String) : Saving → Option (List EpochStats)
  | history symbol epochs => if symbol = x then some epochs else none
  | _ => none

/-- What is written into a file of a symbol. -/
def content? (x : String) (c : Saving) : Artifact → Option Content
  | .metadata => (c.metadata? x).map fun m => .text m.toJson.toIndentedText
  | .featureScaler => (c.scalers? x).map fun p => .text p.1.toJson.toIndentedText
  | .targetScaler => (c.scalers? x).map fun p => .text p.2.toJson.toIndentedText
  | .history => (c.history? x).map fun epochs => .text (History.text epochs)
  | .lstmWeights | .forestWeights => none

variable {c : Saving} {x y : String} {a : Artifact} {m : ModelMetadata}
  {features targets : Scaler} {p : Scaler × Scaler} {epochs : List EpochStats}

lemma content?_metadata :
    (metadata m).content? x a = if .metadata = a ∧ m.symbol = x then
      some (.text m.toJson.toIndentedText) else none := by
  by_cases hsymbol : m.symbol = x <;> cases a <;>
    simp [content?, metadata?, scalers?, history?, hsymbol]

lemma content?_scalers :
    (scalers y features targets).content? x a =
      (if .targetScaler = a ∧ y = x then
        some (.text targets.toJson.toIndentedText) else none).or
      (if .featureScaler = a ∧ y = x then
        some (.text features.toJson.toIndentedText) else none) := by
  by_cases hsymbol : y = x <;> cases a <;>
    simp [content?, metadata?, scalers?, history?, hsymbol]

lemma content?_history :
    (history y epochs).content? x a = if .history = a ∧ y = x then
      some (.text (History.text epochs)) else none := by
  by_cases hsymbol : y = x <;> cases a <;>
    simp [content?, metadata?, scalers?, history?, hsymbol]

/-- Is the symbol a single name, and does what is saved read back? -/
def IsWritable : Saving → Prop
  | metadata m => Path.IsComponent m.symbol ∧ m.IsWritable
  | scalers symbol features targets =>
    Path.IsComponent symbol ∧ features.IsWritable ∧ targets.IsWritable
  | history symbol _ => Path.IsComponent symbol

lemma IsWritable.symbol (h : c.IsWritable) : Path.IsComponent c.symbol := by
  cases c with
  | metadata m => exact h.1
  | scalers _ _ _ => exact h.1
  | history _ _ => exact h

lemma eq_of_metadata? (h : c.metadata? x = some m) : c = metadata m ∧ m.symbol = x := by
  cases c with
  | metadata m' =>
    rw [metadata?, Option.ite_none_right_eq_some, Option.some.injEq] at h
    obtain ⟨hsymbol,rfl⟩ := h
    exact ⟨rfl,hsymbol⟩
  | scalers _ _ _ => cases h
  | history _ _ => cases h

lemma eq_of_scalers? (h : c.scalers? x = some p) : c = scalers x p.1 p.2 := by
  cases c with
  | metadata _ => cases h
  | scalers symbol features targets =>
    rw [scalers?, Option.ite_none_right_eq_some] at h
    rw [h.1, ← Option.some.inj h.2]
  | history _ _ => cases h

end Saving

namespace ModelStore
variable {s : ModelStore} {x y : String} {t t' t'' : FileTree} {a b : Artifact} {content : Content}
  {f g : Artifact → Option Content} {c : Saving} {calls : List Saving}

/-- The tree after all savings, each of them tried whatever came of those before it. -/
def saveAll (s : ModelStore) (t : FileTree) (calls : List Saving) : FileTree :=
  calls.foldl (fun t c => (result (c.save s) t).2) t

/-- The files of a symbol hold what was written into them, or what they held. -/
structure Saves (s : ModelStore) (x : String) (written : Artifact → Option Content)
    (t t' : FileTree) : Prop where
  directories : SameDirectories t t'
  get? : ∀ a, t'.get? (s.path a x) = ((written a).map .file).or (t.get? (s.path a x))

lemma Saves.refl (s : ModelStore) (x : String) (t : FileTree) : Saves s x (fun _ => none) t t :=
  ⟨.refl t,fun _ => rfl⟩

lemma Saves.trans (h : Saves s x f t t') (h' : Saves s x g t' t'') :
    Saves s x (fun a => (g a).or (f a)) t t'' := by
  refine ⟨h.directories.trans h'.directories,fun a => ?_⟩
  rw [h'.get?, h.get?, Option.map_or, Option.or_assoc]

lemma Saves.congr (h : Saves s x f t t') (hfg : ∀ a, f a = g a) : Saves s x g t t' :=
  funext hfg ▸ h

/-- An attempt to write one file is seen under its own path alone. -/
lemma saves_of_attempts (hx : Path.IsComponent x) (hy : Path.IsComponent y)
    (htakes : ∀ a, t.Takes (s.path a x)) (h : Attempts t (s.path b y) content t') :
    Saves s x (fun a => if b = a ∧ y = x then some content else none) t t' := by
  refine ⟨h.directories,fun a => ?_⟩
  split_ifs with hsame
  · obtain ⟨rfl,rfl⟩ := hsame
    exact h.found (htakes b)
  · rw [Option.map_none, Option.none_or, FileTree.get?, FileTree.get?, h.directories.place?]
    refine Option.bind_congr fun q hplace => h.kept q fun hplace' => hsame ?_
    exact eq_and_eq_of_place? hy hx hplace' hplace

lemma saves_of_write (b : Artifact) (j : Json) (hx : Path.IsComponent x)
    (hy : Path.IsComponent y) (htakes : ∀ a, t.Takes (s.path a x)) :
    Saves s x (fun a => if b = a ∧ y = x then some (.text j.toIndentedText) else none) t
      (result (JsonFile.write (s.path b y) j) t).2 :=
  saves_of_attempts hx hy htakes <| JsonFile.attempts_write (endsInName_path hy) <|
    standsAbove_path hx hy (htakes b).standsAbove

/-- Where the files of a symbol can be written, each saving of it succeeds. -/
theorem exists_save (hx : Path.IsComponent x) (htakes : ∀ a, t.Takes (s.path a x))
    (hc : c.symbol = x) : ∃ t', Succeeds (c.save s) t () t' := by
  cases c with
  | metadata m =>
    obtain rfl : m.symbol = x := hc
    exact JsonFile.exists_write (endsInName_path hx) (htakes .metadata) m.toJson
  | scalers symbol features targets =>
    obtain rfl : symbol = x := hc
    obtain ⟨t₁,hfirst⟩ :=
      JsonFile.exists_write (endsInName_path hx) (htakes .featureScaler) features.toJson
    have hwritten := saves_of_write .featureScaler features.toJson hx hx htakes
    rw [show (result _ t).2 = t₁ from congrArg Prod.snd hfirst] at hwritten
    have htakes' := hwritten.directories.takes (htakes .targetScaler)
    obtain ⟨t₂,hsecond⟩ := JsonFile.exists_write (endsInName_path hx) htakes' targets.toJson
    exact ⟨t₂,succeeds_bind_iff.mpr ⟨(),t₁,hfirst,hsecond⟩⟩
  | history symbol epochs =>
    obtain rfl : symbol = x := hc
    exact JsonFile.exists_create (htakes .history) _

/-- One saving, by what it writes into the files of a symbol. -/
theorem saves_of_save (hx : Path.IsComponent x) (hc : Path.IsComponent c.symbol)
    (htakes : ∀ a, t.Takes (s.path a x)) :
    Saves s x (c.content? x) t (result (c.save s) t).2 := by
  cases c with
  | metadata m =>
    exact (saves_of_write .metadata m.toJson hx hc htakes).congr fun a =>
      Saving.content?_metadata.symm
  | scalers symbol features targets =>
    have hfirst := saves_of_write .featureScaler features.toJson hx hc htakes
    rw [Saving.save, saveScalers, result_bind]
    rcases hwrite : result (JsonFile.write (s.path .featureScaler symbol) features.toJson) t with
      ⟨e | ⟨⟩,t₁⟩
    · -- only the files of another symbol may be refused
      have hother : symbol ≠ x := by
        rintro rfl
        obtain ⟨t',hwritten⟩ :=
          JsonFile.exists_write (endsInName_path hx) (htakes .featureScaler) features.toJson
        rw [Succeeds, hwrite] at hwritten
        cases hwritten
      rw [Saving.symbol, hwrite] at hfirst
      refine hfirst.congr fun a => ?_
      simp [Saving.content?_scalers, hother]
    · rw [Saving.symbol, hwrite] at hfirst
      have hsecond := saves_of_write .targetScaler targets.toJson hx hc fun a =>
        hfirst.directories.takes (htakes a)
      exact (hfirst.trans hsecond).congr fun a => Saving.content?_scalers.symm
  | history symbol epochs =>
    exact (saves_of_attempts hx hc htakes JsonFile.attempts_create).congr fun a =>
      Saving.content?_history.symm

/-- All savings together leave in each file what the last of them wrote into it. -/
theorem saves_saveAll (hx : Path.IsComponent x) (htakes : ∀ a, t.Takes (s.path a x))
    (hcalls : ∀ c ∈ calls, Path.IsComponent c.symbol) :
    Saves s x (fun a => latest? (·.content? x a) calls) t (s.saveAll t calls) := by
  induction calls generalizing t with
  | nil => exact .refl s x t
  | cons c calls ih =>
    have hstep := saves_of_save hx (hcalls c List.mem_cons_self) htakes
    have hrun := ih (fun a => hstep.directories.takes (htakes a)) fun c hc =>
      hcalls c (List.mem_cons_of_mem _ hc)
    simp only [latest?_cons]
    exact hstep.trans hrun

lemma loadMetadata_saveAll (hx : Path.IsComponent x) (htakes : ∀ a, t.Takes (s.path a x))
    (hcalls : ∀ c ∈ calls, c.IsWritable) :
    s.loadMetadata (s.saveAll t calls) x =
      (latest? (·.metadata? x) calls).elim (s.loadMetadata t x) .ok := by
  have hsaved := (saves_saveAll hx htakes fun c hc => (hcalls c hc).symbol).get? .metadata
  have hcontent : latest? (·.content? x .metadata) calls = (latest? (·.metadata? x) calls).map
      fun m => .text m.toJson.toIndentedText := latest?_option_map ..
  rw [hcontent, Option.map_map] at hsaved
  cases hlast : latest? (·.metadata? x) calls with
  | none =>
    rw [hlast] at hsaved
    exact loadMetadata_congr hsaved
  | some m =>
    rw [hlast] at hsaved
    obtain ⟨c,hc,hm⟩ := exists_mem_of_latest? hlast
    obtain ⟨rfl,-⟩ := Saving.eq_of_metadata? hm
    exact loadMetadata_of_found (hcalls _ hc).2 hsaved

lemma loadScalers_saveAll (hx : Path.IsComponent x) (htakes : ∀ a, t.Takes (s.path a x))
    (hcalls : ∀ c ∈ calls, c.IsWritable) :
    s.loadScalers (s.saveAll t calls) x =
      (latest? (·.scalers? x) calls).elim (s.loadScalers t x) .ok := by
  have hsaved := saves_saveAll hx htakes fun c hc => (hcalls c hc).symbol
  have hfeatures := hsaved.get? .featureScaler
  have htargets := hsaved.get? .targetScaler
  have hcontent : latest? (·.content? x .featureScaler) calls =
      (latest? (·.scalers? x) calls).map fun p => .text p.1.toJson.toIndentedText :=
    latest?_option_map ..
  have hcontent' : latest? (·.content? x .targetScaler) calls =
      (latest? (·.scalers? x) calls).map fun p => .text p.2.toJson.toIndentedText :=
    latest?_option_map ..
  rw [hcontent, Option.map_map] at hfeatures
  rw [hcontent', Option.map_map] at htargets
  cases hlast : latest? (·.scalers? x) calls with
  | none =>
    rw [hlast] at hfeatures htargets
    exact loadScalers_congr hfeatures htargets
  | some p =>
    rw [hlast] at hfeatures htargets
    obtain ⟨c,hc,hp⟩ := exists_mem_of_latest? hlast
    obtain rfl := Saving.eq_of_scalers? hp
    obtain ⟨-,hwritable,hwritable'⟩ := hcalls _ hc
    rw [loadScalers, hwritable.read_of_found hfeatures, hwritable'.read_of_found htargets]
    rfl

/-- No two files of a store share a path or a place, and no saving disturbs another: whatever is
saved in whatever order, a symbol whose files can be written has each of its savings succeed, and
its metadata and scalers are loaded as the last saving of them left them, or as they were. -/
theorem savings_isolated (s : ModelStore) (t : FileTree) (calls : List Saving)
    (hcalls : ∀ c ∈ calls, c.IsWritable) :
    (∀ a b x y, Path.IsComponent x → Path.IsComponent y →
      (s.path a x = s.path b y → a = b ∧ x = y) ∧
      ∀ (t₁ t₂ : FileTree) q, t₁.place? (s.path a x) = some q →
        t₂.place? (s.path b y) = some q → a = b ∧ x = y) ∧
    ∀ x, Path.IsComponent x → (∀ a, t.Takes (s.path a x)) →
      (∀ before c after, calls = before ++ c :: after → c.symbol = x →
        ∃ t', Succeeds (c.save s) (s.saveAll t before) () t') ∧
      s.loadMetadata (s.saveAll t calls) x =
        (latest? (·.metadata? x) calls).elim (s.loadMetadata t x) .ok ∧
      (t.exists? (s.path .metadata x) = false → (∀ m, .metadata m ∈ calls → m.symbol ≠ x) →
        s.loadMetadata (s.saveAll t calls) x = fail (.notTrained (s.path .metadata x))) ∧
      s.loadScalers (s.saveAll t calls) x =
        (latest? (·.scalers? x) calls).elim (s.loadScalers t x) .ok := by
  refine ⟨fun a b x y hx hy => ⟨path_inj hx hy,fun _ _ _ => eq_and_eq_of_place? hx hy⟩,
    fun x hx htakes => ?_⟩
  have hmetadata := loadMetadata_saveAll hx htakes hcalls
  refine ⟨?_,hmetadata,fun hmissing hnever => ?_,loadScalers_saveAll hx htakes hcalls⟩
  · rintro before c after rfl hc
    have hbefore := saves_saveAll hx htakes fun c hc =>
      (hcalls c (List.mem_append_left _ hc)).symbol
    exact exists_save hx (fun a => hbefore.directories.takes (htakes a)) hc
  · have hnone : latest? (·.metadata? x) calls = none := by
      rw [Option.eq_none_iff_forall_ne_some]
      intro m hlast
      obtain ⟨c,hc,hm⟩ := exists_mem_of_latest? hlast
      obtain ⟨rfl,hsymbol⟩ := Saving.eq_of_metadata? hm
      exact hnever m hc hsymbol
    rw [hmetadata, hnone, Option.elim_none, loadMetadata, hmissing, if_neg (by decide)]

def leafMetadata (lookback : Nat) : ModelMetadata where
  symbol := "BTC"
  kind := .forest
  lookback := lookback
  hiddenSize := 0
  timeframe := .oneMinute
  features := []
  targets := []
  trainedAt := ⟨0,0⟩

def unitScaler : Scaler := ⟨["close"],[0.0],[1.0]⟩

/-- One symbol is named like a file of the other. -/
def mixedSavings : List Saving :=
  [.metadata (leafMetadata 1),.scalers "BTC_model.json" unitScaler unitScaler,
    .scalers "BTC" unitScaler ⟨[],[],[]⟩,.metadata (leafMetadata 2),.history "BTC" []]

/-- One empty directory. -/
def modelsTree : FileTree := (FileTree.empty.makeDirectories "models").2

theorem savings_isolated_mixed :
    let s := ModelStore.mk "models"
    let t := s.saveAll modelsTree mixedSavings
    s.loadMetadata t "BTC" = .ok (leafMetadata 2) ∧
      s.loadScalers t "BTC" = .ok (unitScaler,⟨[],[],[]⟩) ∧
      s.loadMetadata t "BTC_model.json" =
        fail (.notTrained "models/BTC_model.json_model.json") := by
  intro s t
  have hcalls : ∀ c ∈ mixedSavings, c.IsWritable := by
    have hmetadata (m : ModelMetadata) (hm : m ∈ [leafMetadata 1,leafMetadata 2]) :
        (Saving.metadata m).IsWritable := by
      simp only [List.mem_cons, List.not_mem_nil, or_false] at hm
      rcases hm with rfl | rfl <;>
        exact ⟨by decide,⟨by decide,by decide,⟨by decide,by decide,by decide⟩⟩⟩
    have hunit : unitScaler.IsWritable := ⟨by decide +kernel,by decide +kernel⟩
    have hempty : Scaler.IsWritable ⟨[],[],[]⟩ := ⟨by decide,by decide⟩
    simp only [mixedSavings, List.forall_mem_cons]
    exact ⟨hmetadata _ (by simp),⟨by decide,hunit,hunit⟩,⟨by decide,hunit,hempty⟩,
      hmetadata _ (by simp),(by decide : Path.IsComponent "BTC"),by simp⟩
  have htakes : ∀ x ∈ ["BTC","BTC_model.json"], ∀ a, modelsTree.Takes (s.path a x) := by
    have hopen : ∀ x ∈ ["BTC","BTC_model.json"], ∀ a ∈ Artifact.all,
        modelsTree.place? (s.path a x) = some [x ++ a.ending,"models"] ∧
          Path.isName (x ++ a.ending) = true ∧ modelsTree.isDirectoryAt ["models"] = true ∧
          modelsTree.isDirectoryAt [x ++ a.ending,"models"] = false := by decide +kernel
    intro x hx a
    obtain ⟨hplace,hname,hmodels,hfree⟩ := hopen x hx a (by cases a <;> decide)
    exact takes_iff.mpr ⟨_,_,hplace,hname,hmodels,hfree⟩
  obtain ⟨-,hsymbols⟩ := savings_isolated s modelsTree mixedSavings hcalls
  obtain ⟨-,hmetadata,-,hscalers⟩ := hsymbols "BTC" (by decide) (htakes _ (by simp))
  obtain ⟨-,-,hnever,-⟩ := hsymbols "BTC_model.json" (by decide) (htakes _ (by simp))
  have hpath : s.path .metadata "BTC_model.json" = "models/BTC_model.json_model.json" := by
    decide +kernel
  rw [hpath] at hnever
  exact ⟨hmetadata,hscalers,hnever (by decide +kernel) (by simp [mixedSavings, leafMetadata])⟩

end ModelStore
end OrderFlow
