import Mathlib.Data.List.Nodup
import Mathlib.Tactic.Lemma
import OrderFlow.Toml.Value

/-! Values by the keys that lead to them. Adding a value changes nothing but what its own key leads
to, opening a table changes no value at all, and no key stands twice in a table. -/
namespace OrderFlow.Toml
variable {es es' inner inner' : Entries} {v w : Value} {o o' : Origin} {key k : String}
  {path keys q : List String}

namespace Value

def isTable : Value → Bool
  | table .. => true
  | _ => false

/-- The value that keys lead to, from table to table. -/
def at? : List String → Value → Option Value
  | [], v => some v
  | key :: path, table _ es => (es.lookup key).bind (at? path)
  | _ :: _, _ => none

@[simp] theorem at?_nil (v : Value) : v.at? [] = some v := by
  cases v <;> rfl

@[simp] theorem at?_cons_table (o : Origin) (es : Entries) (key : String) (path : List String) :
    (table o es).at? (key :: path) = (es.lookup key).bind (at? path) := rfl

theorem at?_append (v : Value) (path q : List String) :
    v.at? (path ++ q) = (v.at? path).bind (at? q) := by
  induction path generalizing v with
  | nil => simp
  | cons key path ih =>
    cases v with
    | table o es =>
      simp only [List.cons_append, at?_cons_table, Option.bind_assoc]
      congr 1
      funext v
      exact ih v
    | _ => rfl

end Value

/-- The value that keys lead to in a table. -/
def at? (path : List String) (es : Entries) : Option Value := (Value.table .header es).at? path

lemma lookup_append_new (h : es.lookup key = none) (k : String) :
    (es ++ [(key,v)]).lookup k = if k = key then some v else es.lookup k := by
  rw [List.lookup_append]
  by_cases hk : k = key
  · subst hk
    simp [h]
  · simp [hk, List.lookup_cons, beq_eq_false_iff_ne.mpr hk]

lemma lookup_replace (key : String) (v : Value) (es : Entries) (k : String) :
    (replace key v es).lookup k =
      if k = key then (es.lookup k).map fun _ => v else es.lookup k := by
  induction es with
  | nil => simp [replace]
  | cons e rest ih =>
    obtain ⟨l,a⟩ := e
    rw [replace, List.map_cons, ← replace]
    by_cases hl : l = key
    · subst hl
      by_cases hk : k = l
      · simp [hk]
      · simpa [hk, List.lookup_cons, beq_eq_false_iff_ne.mpr hk] using ih
    · by_cases hk : k = l
      · subst hk
        simp [hl]
      · simpa [hl, List.lookup_cons, beq_eq_false_iff_ne.mpr hk] using ih

/-- Adding a value under a key of some parts: the key leads to it, and to nothing before; whatever
is no table and has another key is as it was; and keys that lead somewhere go on doing so. -/
structure Sets (path : List String) (v : Value) (es es' : Entries) : Prop where
  here : at? path es' = some v
  fresh : at? path es = none
  others : ∀ q w, ¬ path <+: q → w.isTable = false → (at? q es' = some w ↔ at? q es = some w)
  keeps : ∀ q, (at? q es).isSome = true → (at? q es').isSome = true

/-- Opening a table changes no value that is none. -/
structure Opens (path : List String) (es es' : Entries) : Prop where
  here : ∃ o inner, at? path es' = some (.table o inner)
  others : ∀ q w, w.isTable = false → (at? q es' = some w ↔ at? q es = some w)
  keeps : ∀ q, (at? q es).isSome = true → (at? q es').isSome = true

/-- A change of entries that touches one key at most, and puts a table there. -/
structure Under (key : String) (inner : Entries) (o : Origin) (inner' es es' : Entries) :
    Prop where
  before : es.lookup key = none ∧ inner = [] ∨ ∃ o, es.lookup key = some (.table o inner)
  after : es'.lookup key = some (.table o inner')
  others : ∀ k, k ≠ key → es'.lookup k = es.lookup k

lemma under_append (h : es.lookup key = none) (o : Origin) (inner' : Entries) :
    Under key [] o inner' es (es ++ [(key,.table o inner')]) where
  before := Or.inl ⟨h,rfl⟩
  after := by rw [lookup_append_new h, if_pos rfl]
  others k hk := by rw [lookup_append_new h, if_neg hk]

lemma under_replace (h : es.lookup key = some (.table o inner)) (o' : Origin) (inner' : Entries) :
    Under key inner o' inner' es (replace key (.table o' inner') es) where
  before := Or.inr ⟨o,h⟩
  after := by rw [lookup_replace, if_pos rfl, h, Option.map_some]
  others k hk := by rw [lookup_replace, if_neg hk]

@[simp] lemma at?_cons (key : String) (path : List String) (es : Entries) :
    at? (key :: path) es = (es.lookup key).bind (Value.at? path) := rfl

@[simp] lemma at?_nil (es : Entries) : at? [] es = some (.table .header es) := rfl

lemma at?_table (o : Origin) (es : Entries) (hq : q ≠ []) :
    (Value.table o es).at? q = at? q es := by
  cases q with
  | nil => exact absurd rfl hq
  | cons k r => rfl

lemma at?_nil_ne (hw : w.isTable = false) : at? [] es ≠ some w := by
  rintro ⟨⟩
  cases hw

lemma isSome_at?_table (o : Origin) (es : Entries) (q : List String) :
    ((Value.table o es).at? q).isSome = (at? q es).isSome := by
  cases q <;> rfl

/-- How a table came about does not matter for what is no table. -/
lemma at?_table_iff (hw : w.isTable = false) (o : Origin) (es : Entries) (q : List String) :
    (Value.table o es).at? q = some w ↔ at? q es = some w := by
  cases q with
  | nil =>
    refine iff_of_false ?_ (at?_nil_ne hw)
    rintro ⟨⟩
    cases hw
  | cons k r => rfl

namespace Under
variable (h : Under key inner o inner' es es')
include h

lemma at?_after (q : List String) : at? (key :: q) es' = (Value.table o inner').at? q := by
  rw [at?_cons, h.after, Option.bind_some]

lemma at?_other (hk : k ≠ key) (q : List String) : at? (k :: q) es' = at? (k :: q) es := by
  rw [at?_cons, at?_cons, h.others k hk]

lemma at?_before (hq : q ≠ []) : at? (key :: q) es = at? q inner := by
  rcases h.before with ⟨hnone,rfl⟩ | ⟨o,hsome⟩
  · cases q with
    | nil => exact absurd rfl hq
    | cons k r => simp [hnone]
  · rw [at?_cons, hsome, Option.bind_some, at?_table o inner hq]

lemma at?_before_iff (hw : w.isTable = false) (q : List String) :
    at? (key :: q) es = some w ↔ at? q inner = some w := by
  cases q with
  | nil =>
    rcases h.before with ⟨hnone,rfl⟩ | ⟨o,hsome⟩
    · simpa [hnone] using fun hw' => by subst hw'; cases hw
    · rw [at?_cons, hsome, Option.bind_some, at?_table_iff hw]
  | cons k r => rw [h.at?_before (List.cons_ne_nil k r)]

/-- What is no table is as it was where it was inside. -/
lemma at?_iff (hw : w.isTable = false) (q : List String)
    (hinner : ∀ r, q = key :: r → (at? r inner' = some w ↔ at? r inner = some w)) :
    at? q es' = some w ↔ at? q es = some w := by
  cases q with
  | nil => exact iff_of_false (at?_nil_ne hw) (at?_nil_ne hw)
  | cons k r =>
    by_cases hk : k = key
    · subst hk
      rw [h.at?_after, at?_table_iff hw, h.at?_before_iff hw, hinner r rfl]
    · rw [h.at?_other hk]

lemma isSome_at? (hinner : ∀ q, (at? q inner).isSome = true → (at? q inner').isSome = true)
    (q : List String) (hq : (at? q es).isSome = true) : (at? q es').isSome = true := by
  cases q with
  | nil => rfl
  | cons k r =>
    by_cases hk : k = key
    · subst hk
      rw [h.at?_after, isSome_at?_table]
      cases r with
      | nil => rfl
      | cons l r => exact hinner _ (by rwa [← h.at?_before (List.cons_ne_nil l r)])
    · rwa [h.at?_other hk]

/-- A value added to a table inside is added to the whole under the key of the table too. -/
theorem sets (hs : Sets path v inner inner') : Sets (key :: path) v es es' := by
  have hpath : path ≠ [] := by
    rintro rfl
    cases hs.fresh
  constructor
  · rw [h.at?_after, at?_table o inner' hpath, hs.here]
  · rw [h.at?_before hpath, hs.fresh]
  · intro q w hq hw
    refine h.at?_iff hw q fun r hr => hs.others r w (fun hpath => hq ?_) hw
    rw [hr]
    exact (List.prefix_cons_inj key).mpr hpath
  · exact h.isSome_at? hs.keeps

theorem opens (ho : Opens path inner inner') : Opens (key :: path) es es' := by
  constructor
  · obtain ⟨o',inner'',hhere⟩ := ho.here
    cases path with
    | nil => exact ⟨o,inner',by rw [h.at?_after, Value.at?_nil]⟩
    | cons k r =>
      refine ⟨o',inner'',?_⟩
      rw [h.at?_after, at?_table o inner' (List.cons_ne_nil k r), hhere]
  · intro q w hw
    exact h.at?_iff hw q fun r _ => ho.others r w hw
  · exact h.isSome_at? ho.keeps

end Under

lemma sets_append (h : es.lookup key = none) (v : Value) :
    Sets [key] v es (es ++ [(key,v)]) where
  here := by simp [lookup_append_new h]
  fresh := by simp [h]
  others q w hq hw := by
    cases q with
    | nil => exact iff_of_false (at?_nil_ne hw) (at?_nil_ne hw)
    | cons k r =>
      have hk : k ≠ key := by
        rintro rfl
        exact hq ((List.prefix_cons_inj k).mpr List.nil_prefix)
      rw [at?_cons, lookup_append_new h, if_neg hk, at?_cons]
  keeps q hq := by
    cases q with
    | nil => rfl
    | cons k r =>
      have hk : k ≠ key := by
        rintro rfl
        simp [h] at hq
      rwa [at?_cons, lookup_append_new h, if_neg hk]

/-- A value is added under a key that led nowhere before, or refused. -/
theorem sets_insert (h : insert path v es = some es') : Sets path v es es' := by
  fun_induction insert path v es generalizing es' with
  | case1 => cases h
  | case2 key v es hlookup =>
    obtain rfl := Option.some.inj h
    exact sets_append hlookup v
  | case3 => cases h
  | case4 key path v es _ hlookup ih =>
    obtain ⟨inner,hinner,rfl⟩ := Option.map_eq_some_iff.mp h
    exact (under_append hlookup .dotted inner).sets (ih hinner)
  | case5 key path v es _ inner hlookup ih =>
    obtain ⟨inner',hinner,rfl⟩ := Option.map_eq_some_iff.mp h
    exact (under_replace hlookup .dotted inner').sets (ih hinner)
  | case6 => cases h

/-- A value under the header of a table has the keys of the header before its own. -/
theorem sets_insertUnder (h : insertUnder path keys v es = some es') :
    Sets (path ++ keys) v es es' := by
  fun_induction insertUnder path keys v es generalizing es' with
  | case1 => exact sets_insert h
  | case2 es k rest o inner hlookup ih =>
    obtain ⟨inner',hinner,rfl⟩ := Option.map_eq_some_iff.mp h
    exact (under_replace hlookup o inner').sets (ih hinner)
  | case3 => cases h

/-- What is no table is reached as before, or inside the value that is added. -/
theorem Sets.at?_iff (h : Sets path v es es') (hw : w.isTable = false) (q : List String) :
    at? q es' = some w ↔ at? q es = some w ∨ ∃ r, q = path ++ r ∧ v.at? r = some w := by
  by_cases hpath : path <+: q
  · obtain ⟨r,rfl⟩ := hpath
    have hafter : at? (path ++ r) es' = v.at? r := by
      rw [at?, Value.at?_append, ← at?, h.here, Option.bind_some]
    have hbefore : at? (path ++ r) es = none := by
      rw [at?, Value.at?_append, ← at?, h.fresh, Option.bind_none]
    simp [hafter, hbefore]
  · rw [h.others q w hpath hw, or_iff_left]
    rintro ⟨r,rfl,-⟩
    exact hpath (List.prefix_append path r)

lemma opens_nil (es : Entries) : Opens [] es es where
  here := ⟨.header,es,rfl⟩
  others _ _ _ := Iff.rfl
  keeps _ h := h

/-- A header leads to a table, and no value is lost. -/
theorem opens_openTable (h : openTable path es = some es') : Opens path es es' := by
  fun_induction openTable path es generalizing es' with
  | case1 => cases h
  | case2 key es hlookup =>
    obtain rfl := Option.some.inj h
    exact (under_append hlookup .header []).opens (opens_nil [])
  | case3 key es inner hlookup =>
    obtain rfl := Option.some.inj h
    exact (under_replace hlookup .header inner).opens (opens_nil inner)
  | case4 => cases h
  | case5 key path es _ hlookup ih =>
    obtain ⟨inner,hinner,rfl⟩ := Option.map_eq_some_iff.mp h
    exact (under_append hlookup .implied inner).opens (ih hinner)
  | case6 => cases h
  | case7 key path es _ o inner _ hlookup ih =>
    obtain ⟨inner',hinner,rfl⟩ := Option.map_eq_some_iff.mp h
    exact (under_replace hlookup o inner').opens (ih hinner)
  | case8 => cases h

/-- No key stands twice in a table, nor in the tables inside it. -/
inductive Value.IsProper : Value → Prop
  | unusable : IsProper .unusable
  | string (text : String) : IsProper (.string text)
  | integer (i : Int) : IsProper (.integer i)
  | float (x : Float) : IsProper (.float x)
  | boolean (b : Bool) : IsProper (.boolean b)
  | array {items : List Value} (each : ∀ v ∈ items, IsProper v) : IsProper (.array items)
  | table {origin : Origin} {es : Entries} (keys : (es.map Prod.fst).Nodup)
    (each : ∀ e ∈ es, IsProper e.2) : IsProper (.table origin es)

/-- Entries of a proper table. -/
structure AreProper (es : Entries) : Prop where
  keys : (es.map Prod.fst).Nodup
  each : ∀ e ∈ es, e.2.IsProper

lemma isProper_table_iff : (Value.table o es).IsProper ↔ AreProper es := by
  constructor
  · rintro ⟨⟩
    exact ⟨‹_›,‹_›⟩
  · intro h
    exact .table h.keys h.each

lemma areProper_nil : AreProper [] := ⟨List.nodup_nil,by simp⟩

namespace AreProper
variable (h : AreProper es)
include h

lemma append (hlookup : es.lookup key = none) (hv : v.IsProper) : AreProper (es ++ [(key,v)]) where
  keys := by
    rw [List.map_append, List.nodup_append]
    refine ⟨h.keys,List.nodup_singleton key,?_⟩
    intro k hk l hl
    obtain ⟨e,he,rfl⟩ := List.mem_map.mp hk
    rw [List.mem_singleton.mp hl]
    rintro rfl
    simpa using List.lookup_eq_none_iff.mp hlookup e he
  each e he := by
    rcases List.mem_append.mp he with he | he
    · exact h.each e he
    · rw [List.mem_singleton.mp he]
      exact hv

lemma replace (key : String) (hv : v.IsProper) : AreProper (replace key v es) where
  keys := by
    have hkeys : (Toml.replace key v es).map Prod.fst = es.map Prod.fst := by
      rw [Toml.replace, List.map_map]
      apply List.map_congr_left
      intro e _
      by_cases he : e.1 = key <;> simp [he]
    rw [hkeys]
    exact h.keys
  each e he := by
    obtain ⟨d,hd,rfl⟩ := List.mem_map.mp he
    split_ifs
    · exact hv
    · exact h.each d hd

lemma of_lookup (hlookup : es.lookup key = some v) : v.IsProper := by
  obtain ⟨l,r,hes,-⟩ := List.lookup_eq_some_iff.mp hlookup
  exact h.each (key,v) (by simp [hes])

/-- Adding a proper value keeps keys apart. -/
theorem insert (hv : v.IsProper) (hinsert : insert path v es = some es') : AreProper es' := by
  fun_induction Toml.insert path v es generalizing es' with
  | case1 => cases hinsert
  | case2 key v es hlookup =>
    obtain rfl := Option.some.inj hinsert
    exact h.append hlookup hv
  | case3 => cases hinsert
  | case4 key path v es _ hlookup ih =>
    obtain ⟨inner,hinner,rfl⟩ := Option.map_eq_some_iff.mp hinsert
    exact h.append hlookup (isProper_table_iff.mpr (ih areProper_nil hv hinner))
  | case5 key path v es _ inner hlookup ih =>
    obtain ⟨inner',hinner,rfl⟩ := Option.map_eq_some_iff.mp hinsert
    exact h.replace key
      (isProper_table_iff.mpr (ih (isProper_table_iff.mp (h.of_lookup hlookup)) hv hinner))
  | case6 => cases hinsert

theorem insertUnder (hv : v.IsProper) (hinsert : insertUnder path keys v es = some es') :
    AreProper es' := by
  fun_induction Toml.insertUnder path keys v es generalizing es' with
  | case1 => exact h.insert hv hinsert
  | case2 es k rest o inner hlookup ih =>
    obtain ⟨inner',hinner,rfl⟩ := Option.map_eq_some_iff.mp hinsert
    exact h.replace k
      (isProper_table_iff.mpr (ih (isProper_table_iff.mp (h.of_lookup hlookup)) hinner))
  | case3 => cases hinsert

theorem openTable (hopen : openTable path es = some es') : AreProper es' := by
  fun_induction Toml.openTable path es generalizing es' with
  | case1 => cases hopen
  | case2 key es hlookup =>
    obtain rfl := Option.some.inj hopen
    exact h.append hlookup (isProper_table_iff.mpr areProper_nil)
  | case3 key es inner hlookup =>
    obtain rfl := Option.some.inj hopen
    exact h.replace key (isProper_table_iff.mpr (isProper_table_iff.mp (h.of_lookup hlookup)))
  | case4 => cases hopen
  | case5 key path es _ hlookup ih =>
    obtain ⟨inner,hinner,rfl⟩ := Option.map_eq_some_iff.mp hopen
    exact h.append hlookup (isProper_table_iff.mpr (ih areProper_nil hinner))
  | case6 => cases hopen
  | case7 key path es _ o inner _ hlookup ih =>
    obtain ⟨inner',hinner,rfl⟩ := Option.map_eq_some_iff.mp hopen
    exact h.replace key
      (isProper_table_iff.mpr (ih (isProper_table_iff.mp (h.of_lookup hlookup)) hinner))
  | case8 => cases hopen

end AreProper
end OrderFlow.Toml
