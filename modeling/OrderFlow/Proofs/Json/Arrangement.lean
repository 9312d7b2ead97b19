import Mathlib.Data.List.Forall2
import OrderFlow.Proofs.Json.Records

/-! Objects with their members in another order and with more members. A record is read from them
as from the object that was written. -/
namespace OrderFlow.Json
variable {j k : Json} {js ks : List Json} {ms ns : Members} {names : List String} {n : String}

/-- One object has the members of another in any order, and more members under other keys. What
stands under a shared key may differ in the same way. -/
inductive Rearranges : Json → Json → Prop
  | refl (j : Json) : Rearranges j j
  | object {known changed ms : Members}
      (keys : changed.map (·.1) = known.map (·.1))
      (values : List.Forall₂ Rearranges (known.map (·.2)) (changed.map (·.2)))
      (arranged : (ms.filter fun m => m.1 ∈ known.map (·.1)).Perm changed) :
      Rearranges (.object known) (.object ms)

lemma Rearranges.of_perm {known : Members}
    (h : (ms.filter fun m => m.1 ∈ known.map (·.1)).Perm known) :
    Rearranges (.object known) (.object ms) :=
  .object rfl (List.forall₂_same.mpr fun _ _ => .refl _) h

lemma Rearranges.eq_of_leaf (h : Rearranges k j) (hk : k.asObject? = none) : j = k := by
  cases h with
  | refl => rfl
  | object => cases hk

lemma Rearranges.eq_of_leaves (h : List.Forall₂ Rearranges ks js)
    (hks : ∀ k ∈ ks, k.asObject? = none) : js = ks := by
  induction h with
  | nil => rfl
  | @cons k j ks js hhead _ ih =>
    rw [hhead.eq_of_leaf (hks k List.mem_cons_self),
      ih fun k hk => hks k (List.mem_cons_of_mem _ hk)]

/-- The value under a key is that of the first member with the key. -/
lemma get?_eq_head? (ms : Members) (n : String) :
    get? ms n = ((ms.filter (·.1 == n)).head?).map (·.2) := by
  rw [get?]
  induction ms with
  | nil => rfl
  | cons m ms ih =>
    rw [List.lookup_cons, List.filter_cons, Bool.beq_comm]
    cases m.1 == n
    · exact ih
    · rfl

lemma eq_of_perm_of_length_le {α : Type} {l l' : List α} (h : l.Perm l') (hle : l.length ≤ 1) :
    l = l' := by
  match l, hle with
  | [], _ => exact (List.nil_perm.mp h).symm
  | [a], _ => exact List.singleton_perm.mp h

/-- Only the members under the names of a record count, in any order. -/
theorem fields?_congr
    (h : ∀ n ∈ names, (ms.filter (·.1 == n)).Perm (ns.filter (·.1 == n))) :
    (Json.object ms).fields? names = (Json.object ns).fields? names := by
  have honce : (names.all fun n => (ms.filter (·.1 == n)).length ≤ 1) =
      names.all fun n => (ns.filter (·.1 == n)).length ≤ 1 := by
    rw [Bool.eq_iff_iff, List.all_eq_true, List.all_eq_true]
    exact forall₂_congr fun n hn => by rw [(h n hn).length_eq]
  rw [fields?, fields?, honce]
  split_ifs with hall
  · refine congrArg some (List.map_congr_left fun n hn => ?_)
    have hle := of_decide_eq_true (List.all_eq_true.mp hall n hn)
    rw [get?_eq_head?, get?_eq_head?, eq_of_perm_of_length_le (h n hn).symm hle]
  · rfl

/-- What rearranges a record has its members under the names of the record, and the value under each
of them is as it was or rearranged itself. -/
theorem Rearranges.exists_members (hlength : names.length = ks.length)
    (h : Rearranges (.object (names.zip ks)) j) :
    ∃ ms js, j = .object ms ∧ List.Forall₂ Rearranges ks js ∧
      ∀ n ∈ names, (ms.filter (·.1 == n)).Perm ((names.zip js).filter (·.1 == n)) := by
  cases h with
  | refl => exact ⟨_,ks,rfl,List.forall₂_same.mpr fun k _ => .refl k,fun _ _ => .refl _⟩
  | @object _ changed ms keys values arranged =>
    have hnames : (names.zip ks).map (·.1) = names := List.map_fst_zip hlength.le
    rw [List.map_snd_zip hlength.ge] at values
    rw [hnames] at keys arranged
    refine ⟨ms,changed.map (·.2),rfl,values,fun n hn => ?_⟩
    have hzip : changed = names.zip (changed.map (·.2)) := List.zip_of_prod keys rfl
    have hfilter : (ms.filter (·.1 ∈ names)).filter (·.1 == n) = ms.filter (·.1 == n) := by
      rw [List.filter_filter]
      refine List.filter_congr fun m _ => ?_
      by_cases hm : m.1 = n
      · simp [hm, hn]
      · simp [hm]
    rw [← hzip, ← hfilter]
    exact arranged.filter _

/-- A record is read from what rearranges it as it was written, but for values that are rearranged
themselves. -/
theorem Rearranges.exists_fields? (hnames : names.Nodup) (hlength : names.length = ks.length)
    (h : Rearranges (.object (names.zip ks)) j) :
    ∃ js, List.Forall₂ Rearranges ks js ∧ j.fields? names = some (js.map some) := by
  obtain ⟨ms,js,rfl,hjs,hms⟩ := h.exists_members hlength
  exact ⟨js,hjs,(fields?_congr hms).trans (fields?_object hnames (hlength.trans hjs.length_eq))⟩

/-- A record without a member under one more name has no such field. -/
lemma fields?_append_of_filter_eq_nil {fs : List (Option Json)}
    (h : (Json.object ms).fields? names = some fs) (hn : ms.filter (·.1 == n) = []) :
    (Json.object ms).fields? (names ++ [n]) = some (fs ++ [none]) := by
  have hget : get? ms n = none := by
    rw [get?_eq_head?, hn]
    rfl
  rw [fields?] at h ⊢
  split_ifs at h with hall
  cases h
  have hlast : [n].all (fun n => (ms.filter (·.1 == n)).length ≤ 1) = true := by simp [hn]
  rw [List.all_append, hall, hlast, Bool.and_self, if_pos rfl, List.map_append, List.map_singleton,
    hget]

lemma exists_append_of_forall₂ {α β : Type} {R : α → β → Prop} {xs ys : List α} {zs : List β}
    (h : List.Forall₂ R (xs ++ ys) zs) :
    ∃ us vs, zs = us ++ vs ∧ List.Forall₂ R xs us ∧ List.Forall₂ R ys vs := by
  have htake := List.forall₂_take xs.length h
  have hdrop := List.forall₂_drop xs.length h
  rw [List.take_left] at htake
  rw [List.drop_left] at hdrop
  exact ⟨_,_,(List.take_append_drop ..).symm,htake,hdrop⟩

/-- Without the member under the last name the record is read without that field alone. -/
theorem Rearranges.exists_fields?_without (hnames : (names ++ [n]).Nodup)
    (hlength : names.length = ks.length)
    (h : Rearranges (.object ((names ++ [n]).zip (ks ++ [k]))) (.object ms)) :
    ∃ js, List.Forall₂ Rearranges ks js ∧
      (Json.object (ms.filter (·.1 != n))).fields? (names ++ [n]) =
        some (js.map some ++ [none]) := by
  obtain ⟨_,_,⟨⟩,hall,hms⟩ := h.exists_members (by simp [hlength])
  obtain ⟨js,_,rfl,hjs,hlast⟩ := exists_append_of_forall₂ hall
  obtain ⟨j,rfl⟩ : ∃ j, _ = [j] := List.length_eq_one_iff.mp hlast.length_eq.symm
  obtain ⟨hnames,-,hn⟩ := List.nodup_append.mp hnames
  have hlength' := hlength.trans hjs.length_eq
  have hrest : ((names ++ [n]).zip (js ++ [j])).filter (·.1 != n) = names.zip js := by
    rw [List.zip_append hlength', List.filter_append, List.filter_eq_self.mpr]
    · simp
    · intro m hm
      simpa using hn m.1 (List.of_mem_zip hm).1 n (List.mem_singleton_self n)
  have hfields := fields?_object hnames hlength'
  refine ⟨js,hjs,(fields?_congr fun m hm => ?_).trans (fields?_append_of_filter_eq_nil hfields ?_)⟩
  · rw [← hrest]
    simpa only [List.filter_filter, Bool.and_comm] using (hms m hm).filter (·.1 != n)
  · rw [← hrest, List.filter_filter]
    simp

end OrderFlow.Json
