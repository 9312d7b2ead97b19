import OrderFlow.Proofs.Toml.Tables
import OrderFlow.Toml.Reader

/-! Documents by what their lines assign. A document that is read holds the values that its lines
write, each under the key of its line below the header last seen, and nothing else; no key is set
twice. -/
namespace OrderFlow.Toml
variable {es es' : Entries} {v : Value} {cs r : List Char} {path k : List String}
  {depth fuel : Nat}

lemma isProper_signedInt (negative : Bool) (n : Nat) : (signedInt negative n).IsProper :=
  .integer _

lemma isProper_floatOf? {negative : Bool} (h : floatOf? negative cs = some v) : v.IsProper := by
  simp only [floatOf?, Option.bind_eq_bind, Option.bind_eq_some_iff, Option.pure_def,
    Option.some.injEq] at h
  obtain ⟨_,-,_,-,_,-,rfl⟩ := h
  split_ifs
  exacts [.float _,.unusable]

lemma isProper_based? {base : Nat} (h : based? base cs = some v) : v.IsProper := by
  rw [based?] at h
  split_ifs at h
  · obtain rfl := Option.some.inj h
    exact .unusable
  · simp only [Option.bind_eq_bind, Option.bind_eq_some_iff, Option.pure_def,
      Option.some.injEq] at h
    obtain ⟨_,-,_,-,rfl⟩ := h
    exact .integer _

lemma isProper_word? (h : word? cs = some v) : v.IsProper := by
  unfold word? at h
  split at h
  · obtain rfl := Option.some.inj h
    exact .boolean true
  · obtain rfl := Option.some.inj h
    exact .boolean false
  · split at h
    · exact isProper_based? h
    · exact isProper_based? h
    · exact isProper_based? h
    · dsimp only at h
      split at h
      · obtain rfl := Option.some.inj h
        exact .float _
      · obtain rfl := Option.some.inj h
        exact .float _
      · split_ifs at h
        · obtain rfl := Option.some.inj h
          exact .unusable
        · exact isProper_floatOf? h
        · obtain ⟨ds,-,rfl⟩ := Option.map_eq_some_iff.mp h
          exact isProper_signedInt ..

/-- What is read in one go is proper. -/
structure ReadsProper (fuel : Nat) : Prop where
  value : ∀ {depth cs v r}, value depth fuel cs = some (v,r) → v.IsProper
  items : ∀ {depth cs vs r}, items depth fuel cs = some (vs,r) → ∀ v ∈ vs, v.IsProper
  pairs : ∀ {depth es cs es' r}, pairs depth fuel es cs = some (es',r) → AreProper es →
    AreProper es'

namespace ReadsProper
variable (ih : ReadsProper fuel)
include ih

lemma value_succ (h : Toml.value depth (fuel + 1) cs = some (v,r)) : v.IsProper := by
  rw [Toml.value.eq_def] at h
  dsimp only at h
  split at h
  · split_ifs at h
    obtain ⟨⟨vs,r'⟩,hitems,h⟩ := Option.map_eq_some_iff.mp h
    cases h
    exact .array (ih.items hitems)
  · split_ifs at h
    obtain ⟨⟨es,r'⟩,hpairs,h⟩ := Option.map_eq_some_iff.mp h
    cases h
    exact isProper_table_iff.mpr (ih.pairs hpairs areProper_nil)
  · split_ifs at h
    · obtain ⟨⟨t,r'⟩,-,h⟩ := Option.map_eq_some_iff.mp h
      cases h
      exact .string _
    · obtain ⟨w,hword,h⟩ := Option.map_eq_some_iff.mp h
      cases h
      exact isProper_word? hword
  · cases h

lemma items_succ {vs : List Value} (h : Toml.items depth (fuel + 1) cs = some (vs,r)) :
    ∀ v ∈ vs, v.IsProper := by
  rw [Toml.items.eq_def] at h
  dsimp only at h
  split at h
  · cases h
    simp
  · obtain ⟨⟨v,r'⟩,hvalue,h⟩ := Option.bind_eq_some_iff.mp h
    dsimp only at h
    split at h
    · cases h
      simpa using ih.value hvalue
    · obtain ⟨⟨vs',r''⟩,hitems,h⟩ := Option.bind_eq_some_iff.mp h
      cases h
      exact List.forall_mem_cons.mpr ⟨ih.value hvalue,ih.items hitems⟩
    · cases h

lemma pairs_succ (h : Toml.pairs depth (fuel + 1) es cs = some (es',r)) (hes : AreProper es) :
    AreProper es' := by
  rw [Toml.pairs.eq_def] at h
  dsimp only at h
  split at h
  · cases h
    exact hes
  · obtain ⟨⟨k,r'⟩,-,h⟩ := Option.bind_eq_some_iff.mp h
    dsimp only at h
    split at h
    · obtain ⟨⟨v,r''⟩,hvalue,h⟩ := Option.bind_eq_some_iff.mp h
      obtain ⟨es₁,hinsert,h⟩ := Option.bind_eq_some_iff.mp h
      have hes₁ := hes.insert (ih.value hvalue) hinsert
      dsimp only at h
      split at h
      · cases h
        exact hes₁
      · exact ih.pairs h hes₁
      · cases h
    · cases h

end ReadsProper

/-- Whatever is read is proper: arrays and tables are made of what is read with less fuel. -/
theorem readsProper (fuel : Nat) : ReadsProper fuel := by
  induction fuel with
  | zero => exact ⟨nofun,nofun,nofun⟩
  | succ fuel ih => exact ⟨ih.value_succ,ih.items_succ,ih.pairs_succ⟩

/-- A reading of lines, under the header last seen, with all that they assign. A value has the keys
of its header before those of its line. -/
inductive Reads : List String → Entries → List Char → List (List String × Value) → Entries → Prop
  | done {path : List String} {es : Entries} {cs : List Char}
    (rest : skipLines cs.length cs = []) : Reads path es cs [] es
  | header {path k : List String} {es es₁ es' : Entries} {made : List (List String × Value)}
    {cs r r' next : List Char} (line : skipLines cs.length cs = '[' :: r)
    (name : key r = some (k,']' :: r')) (opened : openTable k es = some es₁)
    (ended : endOfLine? r' = some next) (tail : Reads k es₁ next made es') :
    Reads path es cs made es'
  | assignment {path k : List String} {v : Value} {es es₁ es' : Entries}
    {made : List (List String × Value)} {cs r r' next : List Char}
    (name : key (skipLines cs.length cs) = some (k,'=' :: r))
    (read : value maxDepth (r.length + 1) (skipBlank r) = some (v,r'))
    (inserted : insertUnder path k v es = some es₁) (ended : endOfLine? r' = some next)
    (tail : Reads path es₁ next made es') : Reads path es cs ((path ++ k,v) :: made) es'

/-- Lines that can be read are read one after the other. -/
theorem exists_reads (h : lines fuel path es cs = some es') :
    ∃ made, Reads path es cs made es' := by
  induction fuel generalizing path es cs with
  | zero => cases h
  | succ fuel ih =>
    rw [lines.eq_def] at h
    dsimp only at h
    generalize hline : skipLines cs.length cs = line at h
    split at h
    · obtain rfl := Option.some.inj h
      exact ⟨[],.done hline⟩
    · next r =>
      obtain ⟨⟨k,r'⟩,hname,h⟩ := Option.bind_eq_some_iff.mp h
      dsimp only at h
      split at h
      · next r' =>
        obtain ⟨es₁,hopened,h⟩ := Option.bind_eq_some_iff.mp h
        obtain ⟨next,hended,h⟩ := Option.bind_eq_some_iff.mp h
        obtain ⟨made,htail⟩ := ih h
        exact ⟨made,.header hline hname hopened hended htail⟩
      · cases h
    · subst hline
      obtain ⟨⟨k,r'⟩,hname,h⟩ := Option.bind_eq_some_iff.mp h
      dsimp only at h
      split at h
      · next r' =>
        obtain ⟨⟨v,r''⟩,hread,h⟩ := Option.bind_eq_some_iff.mp h
        obtain ⟨es₁,hinserted,h⟩ := Option.bind_eq_some_iff.mp h
        obtain ⟨next,hended,h⟩ := Option.bind_eq_some_iff.mp h
        obtain ⟨made,htail⟩ := ih h
        exact ⟨(path ++ k,v) :: made,.assignment hname hread hinserted hended htail⟩
      · cases h

namespace Reads
variable {made : List (List String × Value)} {w : Value}

/-- Lines hold what was there before and what they assign. -/
theorem at?_iff (h : Reads path es cs made es') (hw : w.isTable = false) (q : List String) :
    at? q es' = some w ↔ at? q es = some w ∨
      ∃ a ∈ made, ∃ r, q = a.1 ++ r ∧ a.2.at? r = some w := by
  induction h with
  | done => simp
  | header _ _ opened _ _ ih => rw [ih, (opens_openTable opened).others q w hw]
  | @assignment path k v es es₁ es' made cs r r' next _ _ inserted _ _ ih =>
    simp only [ih, (sets_insertUnder inserted).at?_iff hw, List.mem_cons, exists_eq_or_imp,
      or_assoc]

/-- What keys lead to may change, but they go on leading somewhere. -/
theorem keeps (h : Reads path es cs made es') (q : List String) (hq : (at? q es).isSome = true) :
    (at? q es').isSome = true := by
  induction h with
  | done => exact hq
  | header _ _ opened _ _ ih => exact ih ((opens_openTable opened).keeps q hq)
  | assignment _ _ inserted _ _ ih => exact ih ((sets_insertUnder inserted).keeps q hq)

/-- The keys of an assignment led nowhere before it. -/
theorem fresh (h : Reads path es cs made es') : ∀ a ∈ made, at? a.1 es = none := by
  have hback {es es₁ : Entries} (hkeeps : ∀ q, (at? q es).isSome = true → (at? q es₁).isSome = true)
      {q : List String} (hq : at? q es₁ = none) : at? q es = none := by
    by_contra hne
    have := hkeeps q (Option.ne_none_iff_isSome.mp hne)
    simp [hq] at this
  induction h with
  | done => simp
  | header _ _ opened _ _ ih => exact fun a ha => hback (opens_openTable opened).keeps (ih a ha)
  | assignment _ _ inserted _ _ ih =>
    have hsets := sets_insertUnder inserted
    rintro a (_ | ⟨_,ha⟩)
    · exact hsets.fresh
    · exact hback hsets.keeps (ih a ha)

/-- No keys are assigned to twice. -/
theorem keys_nodup (h : Reads path es cs made es') : (made.map Prod.fst).Nodup := by
  induction h with
  | done => exact List.nodup_nil
  | header _ _ _ _ _ ih => exact ih
  | assignment _ _ inserted _ tail ih =>
    rw [List.map_cons, List.nodup_cons]
    refine ⟨?_,ih⟩
    intro hmem
    obtain ⟨a,ha,hkeys⟩ := List.mem_map.mp hmem
    have hnone := tail.fresh a ha
    rw [hkeys, (sets_insertUnder inserted).here] at hnone
    cases hnone

theorem areProper (h : Reads path es cs made es') (hes : AreProper es) : AreProper es' := by
  induction h with
  | done => exact hes
  | header _ _ opened _ _ ih => exact ih (hes.openTable opened)
  | assignment _ read inserted _ _ ih =>
    exact ih (hes.insertUnder ((readsProper _).value read) inserted)

end Reads

/-- Entries that hold just what some assignments make, through inline tables too. No keys are
assigned to twice, and no key stands twice in a table. -/
structure Holds (made : List (List String × Value)) (es : Entries) : Prop where
  values : ∀ q w, w.isTable = false →
    (at? q es = some w ↔ ∃ a ∈ made, ∃ r, q = a.1 ++ r ∧ a.2.at? r = some w)
  keys : (made.map Prod.fst).Nodup
  proper : AreProper es

theorem Reads.holds {made : List (List String × Value)} (h : Reads [] [] cs made es) :
    Holds made es where
  values q w hw := by
    rw [h.at?_iff hw, or_iff_right]
    cases q with
    | nil => exact at?_nil_ne hw
    | cons k r => simp
  keys := h.keys_nodup
  proper := h.areProper areProper_nil

/-- A document that is read holds just what its lines assign. -/
theorem document?_holds {s : String} (h : document? s = some es) :
    ∃ cs made, (s.toList = cs ∨ s.toList = '\ufeff' :: cs) ∧ Reads [] [] cs made es ∧
      Holds made es := by
  unfold document? at h
  split at h
  · next cs hcs =>
    obtain ⟨made,hreads⟩ := exists_reads h
    exact ⟨cs,made,Or.inr hcs,hreads,hreads.holds⟩
  · obtain ⟨made,hreads⟩ := exists_reads h
    exact ⟨_,made,Or.inl rfl,hreads,hreads.holds⟩

end OrderFlow.Toml
