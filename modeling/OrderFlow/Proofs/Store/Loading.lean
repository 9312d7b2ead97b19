import OrderFlow.Proofs.Files.Writing
import OrderFlow.Proofs.Store.Documents
import OrderFlow.Store.Models

/-! What is loaded from a store depends on the files alone. Where they hold the text of metadata or
of scalers, those are loaded. -/
namespace OrderFlow
open Json
variable {t t' : FileTree} {symbol : String}

namespace Scaler
variable {scaler : Scaler}

theorem read_of_found {p : Path} (hmean : ∀ x ∈ scaler.mean, Binary.isFinite x = true)
    (hscale : ∀ x ∈ scaler.scale, Binary.isFinite x = true)
    (hfound : t.get? p = some (.file (.text scaler.toJson.toIndentedText))) :
    JsonFile.read t p ofJson? = .ok scaler.reread := by
  refine JsonFile.read_of_found hfound ?_
  rw [parse?_toIndentedText scaler.fits_toJson, Option.bind_some, ofJson?_reread hmean hscale]

/-- Scalers that can be written: all their numbers are finite, and are read as they are from the
digits they are written with. -/
structure IsWritable (scaler : Scaler) : Prop where
  isFinite : ∀ x ∈ scaler.mean ++ scaler.scale, Binary.isFinite x = true
  readsBack : ∀ x ∈ scaler.mean ++ scaler.scale, (parse? (float x).toText).bind asFloat? = some x

lemma rereadDouble_of_readsBack {x : Float}
    (h : (parse? (float x).toText).bind asFloat? = some x) : rereadDouble x = x := by
  rw [parse?_toText rfl, Option.bind_some] at h
  have hfloat : (rereadFloat x).asFloat? = some x := h
  rw [rereadDouble, hfloat, Option.getD_some]

lemma IsWritable.reread_eq (h : scaler.IsWritable) : scaler.reread = scaler := by
  have hsame : ∀ xs ⊆ scaler.mean ++ scaler.scale, xs.map rereadDouble = xs := fun xs hxs => by
    rw [List.map_congr_left fun x hx => rereadDouble_of_readsBack (h.readsBack x (hxs hx)),
      List.map_id']
  rw [reread, hsame _ (List.subset_append_left ..), hsame _ (List.subset_append_right ..)]

/-- Such scalers are read as they were. -/
theorem IsWritable.read_of_found {p : Path} (h : scaler.IsWritable)
    (hfound : t.get? p = some (.file (.text scaler.toJson.toIndentedText))) :
    JsonFile.read t p ofJson? = .ok scaler := by
  rw [Scaler.read_of_found (fun x hx => h.isFinite x (List.mem_append_left _ hx))
    (fun x hx => h.isFinite x (List.mem_append_right _ hx)) hfound, h.reread_eq]

end Scaler

namespace ModelStore
variable {s : ModelStore} {metadata : ModelMetadata}

theorem loadMetadata_of_found (h : metadata.IsWritable)
    (hfound : t.get? (s.path .metadata symbol) =
      some (.file (.text metadata.toJson.toIndentedText))) :
    s.loadMetadata t symbol = .ok metadata := by
  rw [loadMetadata, if_pos (by rw [FileTree.exists?, hfound]; rfl)]
  refine JsonFile.read_of_found hfound ?_
  rw [parse?_toIndentedText h.fits, Option.bind_some, h.ofJson?_reread]

lemma loadMetadata_congr
    (h : t.get? (s.path .metadata symbol) = t'.get? (s.path .metadata symbol)) :
    s.loadMetadata t symbol = s.loadMetadata t' symbol := by
  rw [loadMetadata, loadMetadata, FileTree.exists?_congr h, JsonFile.read_congr h]

lemma loadScalers_congr
    (hfeatures : t.get? (s.path .featureScaler symbol) = t'.get? (s.path .featureScaler symbol))
    (htargets : t.get? (s.path .targetScaler symbol) = t'.get? (s.path .targetScaler symbol)) :
    s.loadScalers t symbol = s.loadScalers t' symbol := by
  rw [loadScalers, loadScalers, JsonFile.read_congr hfeatures, JsonFile.read_congr htargets]

end ModelStore
end OrderFlow
