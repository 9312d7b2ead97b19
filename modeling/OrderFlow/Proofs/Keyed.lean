import Mathlib.Data.List.Basic

/-! Lists in order of a key. Such a list is determined by what it holds under each key; so a stable
sort commutes with selection, and the list is the concatenation of its fibres. -/
namespace OrderFlow.Keyed
variable {α : Type*} {key : α → Int}

def InOrder (key : α → Int) (xs : List α) : Prop := xs.Pairwise fun a b => key a ≤ key b

/-- What a list holds under one key, in the order of the list. -/
def fibre (key : α → Int) (k : Int) (xs : List α) : List α := xs.filter fun a => key a = k

/-- The stable sort by a key. -/
def sortBy (key : α → Int) (xs : List α) : List α := xs.mergeSort fun a b => key a ≤ key b

@[simp] theorem mem_fibre {k : Int} {xs : List α} {a : α} :
    a ∈ fibre key k xs ↔ a ∈ xs ∧ key a = k := by simp [fibre]

@[simp] theorem fibre_nil (k : Int) : fibre key k [] = [] := rfl

theorem fibre_cons_self (a : α) (xs : List α) :
    fibre key (key a) (a :: xs) = a :: fibre key (key a) xs := by simp [fibre]

theorem fibre_cons_of_ne {k : Int} {a : α} (h : key a ≠ k) (xs : List α) :
    fibre key k (a :: xs) = fibre key k xs := by simp [fibre, h]

theorem fibre_append (k : Int) (xs ys : List α) :
    fibre key k (xs ++ ys) = fibre key k xs ++ fibre key k ys := List.filter_append ..

lemma fibre_eq_nil_iff {k : Int} {xs : List α} : fibre key k xs = [] ↔ ∀ a ∈ xs, key a ≠ k := by
  simp [fibre]

theorem fibre_filter (k : Int) (p : α → Bool) (xs : List α) :
    fibre key k (xs.filter p) = (fibre key k xs).filter p := by
  simp [fibre, Bool.and_comm]

lemma mem_of_fibre_eq {xs ys : List α} (h : ∀ k, fibre key k xs = fibre key k ys) {a : α}
    (ha : a ∈ xs) : a ∈ ys := by
  have hk : a ∈ fibre key (key a) ys := by
    rw [← h]
    exact mem_fibre.mpr ⟨ha,rfl⟩
  exact (mem_fibre.mp hk).1

theorem InOrder.of_cons {x : α} {xs : List α} (h : InOrder key (x :: xs)) : InOrder key xs :=
  (List.pairwise_cons.mp h).2

theorem InOrder.head_le {x : α} {xs : List α} (h : InOrder key (x :: xs)) {a : α}
    (ha : a ∈ x :: xs) : key x ≤ key a := by
  rcases List.mem_cons.mp ha with rfl | ha
  · exact Int.le_refl _
  · exact (List.pairwise_cons.mp h).1 a ha

theorem InOrder.le_getLast {xs : List α} (h : InOrder key xs) {z : α} (hz : xs.getLast? = some z)
    {a : α} (ha : a ∈ xs) : key a ≤ key z := by
  obtain ⟨ys,rfl⟩ := List.getLast?_eq_some_iff.mp hz
  rcases List.mem_append.mp ha with ha | ha
  · exact (List.pairwise_append.mp h).2.2 a ha z List.mem_cons_self
  · obtain rfl := List.mem_singleton.mp ha
    exact Int.le_refl _

/-- A list in order is determined by what it holds under each key. -/
theorem eq_of_fibre_eq {xs ys : List α} (hx : InOrder key xs) (hy : InOrder key ys)
    (h : ∀ k, fibre key k xs = fibre key k ys) : xs = ys := by
  induction xs generalizing ys with
  | nil =>
    cases ys with
    | nil => rfl
    | cons y ys => exact absurd (mem_of_fibre_eq (fun k => (h k).symm) List.mem_cons_self) (by simp)
  | cons x xs ih =>
    cases ys with
    | nil => exact absurd (mem_of_fibre_eq h List.mem_cons_self) (by simp)
    | cons y ys =>
      -- both heads have the least key, and each is the head of its own fibre
      have hxy : key x ≤ key y :=
        hx.head_le (mem_of_fibre_eq (fun k => (h k).symm) List.mem_cons_self)
      have hyx : key y ≤ key x := hy.head_le (mem_of_fibre_eq h List.mem_cons_self)
      have hk := h (key x)
      rw [fibre_cons_self, Int.le_antisymm hxy hyx, fibre_cons_self] at hk
      obtain ⟨rfl,-⟩ := List.cons.inj hk
      congr 1
      apply ih hx.of_cons hy.of_cons
      intro k
      have hk := h k
      by_cases hxk : key x = k
      · subst hxk
        rw [fibre_cons_self, fibre_cons_self] at hk
        exact (List.cons.inj hk).2
      · rwa [fibre_cons_of_ne hxk, fibre_cons_of_ne hxk] at hk

theorem InOrder.filter {xs : List α} (h : InOrder key xs) (p : α → Bool) :
    InOrder key (xs.filter p) := List.Pairwise.filter p h

lemma keyLe_trans (key : α → Int) (a b c : α) (hab : decide (key a ≤ key b) = true)
    (hbc : decide (key b ≤ key c) = true) : decide (key a ≤ key c) = true := by
  simp only [decide_eq_true_eq] at hab hbc ⊢
  omega

lemma keyLe_total (key : α → Int) (a b : α) :
    (decide (key a ≤ key b) || decide (key b ≤ key a)) = true := by
  simp only [Bool.or_eq_true, decide_eq_true_eq]
  omega

theorem inOrder_sortBy (key : α → Int) (xs : List α) : InOrder key (sortBy key xs) := by
  have h := List.pairwise_mergeSort (keyLe_trans key) (keyLe_total key) xs
  exact h.imp fun hab => by simpa using hab

theorem sortBy_perm (key : α → Int) (xs : List α) : (sortBy key xs).Perm xs :=
  List.mergeSort_perm ..

@[simp] theorem mem_sortBy {xs : List α} {a : α} : a ∈ sortBy key xs ↔ a ∈ xs :=
  (sortBy_perm key xs).mem_iff

@[simp] theorem length_sortBy (key : α → Int) (xs : List α) : (sortBy key xs).length = xs.length :=
  (sortBy_perm key xs).length_eq

/-- Sorting is stable: entries of one key keep their order. -/
theorem fibre_sortBy (k : Int) (xs : List α) : fibre key k (sortBy key xs) = fibre key k xs := by
  have hp : (fibre key k xs).Pairwise fun a b => decide (key a ≤ key b) = true := by
    apply List.pairwise_of_forall_mem_list
    intro a ha b hb
    rw [(mem_fibre.mp ha).2, (mem_fibre.mp hb).2]
    simp
  have hs : (fibre key k xs).Sublist (sortBy key xs) :=
    List.sublist_mergeSort (keyLe_trans key) (keyLe_total key) hp List.filter_sublist
  have hf := hs.filter fun a => decide (key a = k)
  have hself : (fibre key k xs).filter (fun a => decide (key a = k)) = fibre key k xs := by
    simp [fibre]
  rw [hself] at hf
  have hlen : (fibre key k (sortBy key xs)).length = (fibre key k xs).length :=
    ((sortBy_perm key xs).filter _).length_eq
  exact (hf.eq_of_length hlen.symm).symm

theorem sortBy_filter (p : α → Bool) (xs : List α) :
    sortBy key (xs.filter p) = (sortBy key xs).filter p := by
  apply eq_of_fibre_eq (inOrder_sortBy key _) ((inOrder_sortBy key xs).filter p)
  intro k
  rw [fibre_sortBy, fibre_filter, fibre_filter, fibre_sortBy]

theorem sortBy_map {β : Type*} (key : α → Int) (f : β → α) (xs : List β) :
    sortBy key (xs.map f) = (sortBy (fun b => key (f b)) xs).map f := by
  symm
  apply List.map_mergeSort
  intro a _ b _
  rfl

/-- A list in order begins with what it holds under its least key. -/
lemma fibre_append_above {xs : List α} (hx : InOrder key xs) {k : Int} (h : ∀ a ∈ xs, k ≤ key a) :
    fibre key k xs ++ xs.filter (fun a => k < key a) = xs := by
  apply eq_of_fibre_eq _ hx
  · intro j
    rw [fibre_append, fibre_filter]
    by_cases hj : j = k
    · subst hj
      have h1 : fibre key j (fibre key j xs) = fibre key j xs := by simp [fibre]
      have h2 : (fibre key j xs).filter (fun a => decide (j < key a)) = [] := by
        simp +contextual [List.filter_eq_nil_iff, mem_fibre]
      rw [h1, h2, List.append_nil]
    · have h1 : fibre key j (fibre key k xs) = [] := by
        rw [fibre_eq_nil_iff]
        intro a ha he
        exact hj (he.symm.trans (mem_fibre.mp ha).2)
      rw [h1, List.nil_append, List.filter_eq_self]
      intro a ha
      obtain ⟨hxs,rfl⟩ := mem_fibre.mp ha
      have := h a hxs
      simp only [decide_eq_true_eq]
      omega
  · apply List.pairwise_append.mpr
    refine ⟨hx.filter _,hx.filter _,?_⟩
    intro a ha b hb
    have h1 : key a = k := (mem_fibre.mp ha).2
    have h2 : k < key b := by simpa using (List.mem_filter.mp hb).2
    omega

/-- A list in order is the concatenation of its fibres over any increasing keys that cover it. -/
theorem flatMap_fibre {xs : List α} (hx : InOrder key xs) {ks : List Int}
    (hk : ks.Pairwise (· < ·)) (hm : ∀ a ∈ xs, key a ∈ ks) :
    ks.flatMap (fun k => fibre key k xs) = xs := by
  induction ks generalizing xs with
  | nil =>
    cases xs with
    | nil => rfl
    | cons a xs => exact absurd (hm a List.mem_cons_self) (by simp)
  | cons k ks ih =>
    obtain ⟨hk1,hk2⟩ := List.pairwise_cons.mp hk
    have hrest : ks.flatMap (fun j => fibre key j xs) = xs.filter (fun a => k < key a) := by
      rw [← ih (hx.filter fun a => k < key a) hk2]
      · apply List.flatMap_congr
        intro j hj
        rw [fibre_filter, List.filter_eq_self.mpr]
        intro a ha
        simpa [(mem_fibre.mp ha).2] using hk1 j hj
      · intro a ha
        obtain ⟨ha,hlt⟩ := List.mem_filter.mp ha
        rcases List.mem_cons.mp (hm a ha) with he | hj
        · simp [he] at hlt
        · exact hj
    rw [List.flatMap_cons, hrest]
    apply fibre_append_above hx
    intro a ha
    rcases List.mem_cons.mp (hm a ha) with he | hj
    · exact Int.le_of_eq he.symm
    · exact Int.le_of_lt (hk1 _ hj)

/-- The entries of a list in order of a key, entries of one key as they stood. -/
structure StableSort (key : α → Int) (xs ys : List α) : Prop where
  inOrder : InOrder key ys
  perm : ys.Perm xs
  stable : ∀ k, fibre key k ys = fibre key k xs

/-- There is one stable sort of a list. -/
theorem stableSort_iff {xs ys : List α} : StableSort key xs ys ↔ ys = sortBy key xs := by
  constructor
  · intro h
    apply eq_of_fibre_eq h.inOrder (inOrder_sortBy key xs)
    intro k
    rw [h.stable, fibre_sortBy]
  · rintro rfl
    exact ⟨inOrder_sortBy key xs,sortBy_perm key xs,fun k => fibre_sortBy k xs⟩

/-- Sorting chunks first makes no difference to the sort of the whole. -/
theorem sortBy_append (xs ys : List α) :
    sortBy key (sortBy key xs ++ sortBy key ys) = sortBy key (xs ++ ys) := by
  apply eq_of_fibre_eq (inOrder_sortBy key _) (inOrder_sortBy key _)
  intro k
  rw [fibre_sortBy, fibre_sortBy, fibre_append, fibre_append, fibre_sortBy, fibre_sortBy]

end OrderFlow.Keyed
