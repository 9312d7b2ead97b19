import OrderFlow.Document.Records
import OrderFlow.Proofs.Json.RoundTrip
import OrderFlow.Proofs.Lookup

/-! Records in JSON: the fields of an object by name, and lists of texts and numbers. -/
namespace OrderFlow.Json
variable {ms : Members} {names ts : List String} {values js : List Json} {x : Float}
  {xs : List Float}

lemma rereadItems_eq (js : List Json) : rereadItems js = js.map reread := by
  induction js with
  | nil => rfl
  | cons j js ih => rw [rereadItems, ih, List.map_cons]

lemma rereadMembers_zip (names : List String) (values : List Json) :
    rereadMembers (names.zip values) = names.zip (values.map reread) := by
  induction names generalizing values with
  | nil => rfl
  | cons n names ih =>
    cases values with
    | nil => rfl
    | cons j js => rw [List.zip_cons_cons, rereadMembers, ih, List.map_cons, List.zip_cons_cons]

lemma fitsItems_eq (js : List Json) : fitsItems js = js.all fits := by
  induction js with
  | nil => rfl
  | cons j js ih => rw [fitsItems, ih, List.all_cons]

lemma fitsMembers_zip (h : values.all fits = true) : fitsMembers (names.zip values) = true := by
  induction names generalizing values with
  | nil => rfl
  | cons n names ih =>
    cases values with
    | nil => rfl
    | cons j js =>
      rw [List.all_cons, Bool.and_eq_true] at h
      rw [List.zip_cons_cons, fitsMembers, h.1, ih h.2]
      rfl

/-- An object with the fields of a record has each of them. -/
theorem fields?_object (h : names.Nodup) (hlength : names.length = values.length) :
    (Json.object (names.zip values)).fields? names = some (values.map some) := by
  have hkeys : (names.zip values).map (·.1) = names := List.map_fst_zip hlength.le
  have honce : names.all (fun n => ((names.zip values).filter (·.1 == n)).length ≤ 1) = true := by
    rw [List.all_eq_true]
    intro n _
    have hcount : ((names.zip values).filter (·.1 == n)).length = names.count n :=
      calc
        ((names.zip values).filter (·.1 == n)).length
            = ((names.zip values).map (·.1)).countP (· == n) := by
          rw [List.countP_map, List.countP_eq_length_filter]
          rfl
        _ = names.count n := by rw [hkeys, List.count]
    rw [hcount, decide_eq_true_eq]
    exact List.nodup_iff_count_le_one.mp h n
  have hget : names.map (get? (names.zip values)) = values.map some :=
    calc
      names.map (get? (names.zip values))
          = ((names.zip values).map (·.1)).map (get? (names.zip values)) := by rw [hkeys]
      _ = (names.zip values).map (some ·.2) := by
        rw [List.map_map]
        exact List.map_congr_left fun p hp => lookup_of_nodup (hkeys.symm ▸ h) hp
      _ = ((names.zip values).map (·.2)).map some := List.map_map.symm
      _ = values.map some := by rw [List.map_snd_zip hlength.ge]
  rw [fields?, if_pos honce, hget]

/-- A record that is written has each of its fields when it is read again. -/
theorem fields?_reread (h : names.Nodup) (hlength : names.length = values.length) :
    (reread (.object (names.zip values))).fields? names =
      some (values.map fun j => some (reread j)) := by
  rw [reread, rereadMembers_zip, fields?_object h (by rw [hlength, List.length_map]), List.map_map]
  rfl

lemma asString?_reread (t : String) : (reread (.string t)).asString? = some t := rfl

lemma strings?_reread (ts : List String) :
    strings? (reread (.array (ts.map .string))) = some ts := by
  simp only [strings?, reread, asArray?, rereadItems_eq, Option.bind_eq_bind, Option.bind_some]
  have hitems : (ts.map (reread ∘ .string)).mapM asString? = some (ts.map id) :=
    mapM_map_eq_some fun t _ => asString?_reread t
  rw [List.map_map, hitems, List.map_id]

/-- The double that the digits of a double are read as. -/
def rereadDouble (x : Float) : Float := (rereadFloat x).asFloat?.getD 0

lemma asFloat?_reread (h : Binary.isFinite x = true) :
    (reread (.float x)).asFloat? = some (rereadDouble x) := by
  obtain ⟨y,hy,-⟩ := rereadFloat_of_isFinite (r := []) h nofun
  rw [rereadDouble, reread, hy]
  rfl

lemma floats?_reread (h : ∀ x ∈ xs, Binary.isFinite x = true) :
    floats? (reread (.array (xs.map .float))) = some (xs.map rereadDouble) := by
  simp only [floats?, reread, asArray?, rereadItems_eq, Option.bind_eq_bind, Option.bind_some]
  rw [List.map_map]
  exact mapM_map_eq_some fun x hx => asFloat?_reread (h x hx)

lemma asNat64?_reread {n : Nat} (h : n < wordSize) :
    (reread (.integer n)).asNat64? = some n := by
  rw [wordSize] at h
  rw [reread_integer, asNat64?, asInteger?, if_pos (by omega)]
  rfl

end OrderFlow.Json
