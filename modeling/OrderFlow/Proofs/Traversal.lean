import Mathlib.Data.List.Forall2
import OrderFlow.Proofs.Outcome

/-! Steps that may fail, taken over a list. A traversal succeeds exactly where each of its steps
does, and its results then stand in the order of the list; else it fails as the first step that
does. -/
namespace OrderFlow
variable {α β γ ε : Type} {xs : List α} {ys : List β}

theorem mapM_eq_some_iff {f : α → Option β} :
    xs.mapM f = some ys ↔ List.Forall₂ (fun x y => f x = some y) xs ys := by
  induction xs generalizing ys with
  | nil => simp [eq_comm]
  | cons x xs ih =>
    rw [List.mapM_cons, List.forall₂_cons_left_iff]
    simp only [Option.bind_eq_bind, Option.bind_eq_some_iff, Option.pure_def, Option.some.injEq, ih]
    constructor
    · rintro ⟨y,hy,rest,hrest,rfl⟩
      exact ⟨y,rest,hy,hrest,rfl⟩
    · rintro ⟨y,rest,hy,hrest,rfl⟩
      exact ⟨y,hy,rest,hrest,rfl⟩

theorem mapM_eq_ok_iff {f : α → Except ε β} :
    xs.mapM f = .ok ys ↔ List.Forall₂ (fun x y => f x = .ok y) xs ys := by
  induction xs generalizing ys with
  | nil => simp [pure, Except.pure, eq_comm]
  | cons x xs ih =>
    rw [List.mapM_cons, List.forall₂_cons_left_iff]
    simp only [bind, Except.bind, pure, Except.pure]
    constructor
    · intro h
      cases hx : f x with
      | error e => simp [hx] at h
      | ok y =>
        cases hxs : xs.mapM f with
        | error e => simp [hx, hxs] at h
        | ok rest =>
          simp only [hx, hxs, Except.ok.injEq] at h
          exact ⟨y,rest,rfl,ih.mp hxs,h.symm⟩
    · rintro ⟨y,rest,hy,hrest,rfl⟩
      rw [hy, ih.mpr hrest]

theorem mapM_eq_error_iff {f : α → Except ε β} {e : ε} :
    xs.mapM f = .error e ↔ ∃ before x after, xs = before ++ x :: after ∧
      (∀ y ∈ before, ∃ z, f y = .ok z) ∧ f x = .error e := by
  induction xs with
  | nil => simp [pure, Except.pure]
  | cons x xs ih =>
    rw [List.mapM_cons, bind_eq_error_iff]
    simp only [bind_eq_error_iff, ih, pure, Except.pure, reduceCtorEq, and_false, exists_false,
      or_false]
    constructor
    · rintro (hx | ⟨y,hx,before,z,after,rfl,hbefore,hz⟩)
      · exact ⟨[],x,xs,rfl,nofun,hx⟩
      · exact ⟨x :: before,z,after,rfl,List.forall_mem_cons.mpr ⟨⟨y,hx⟩,hbefore⟩,hz⟩
    · rintro ⟨_ | ⟨w,before⟩,z,after,hxs,hbefore,hz⟩
      · cases hxs
        exact .inl hz
      · cases hxs
        obtain ⟨⟨y,hx⟩,hbefore⟩ := List.forall_mem_cons.mp hbefore
        exact .inr ⟨y,hx,before,z,after,rfl,hbefore,hz⟩

theorem exists_mapM_eq_some {f : α → Option β} (h : ∀ x ∈ xs, (f x).isSome) :
    ∃ ys, xs.mapM f = some ys := by
  induction xs with
  | nil => exact ⟨[],rfl⟩
  | cons x xs ih =>
    obtain ⟨y,hy⟩ := Option.isSome_iff_exists.mp (h x List.mem_cons_self)
    obtain ⟨ys,hys⟩ := ih fun z hz => h z (List.mem_cons_of_mem _ hz)
    exact ⟨y :: ys,mapM_eq_some_iff.mpr (.cons hy (mapM_eq_some_iff.mp hys))⟩

lemma mapM_map_eq_some {f : α → β} {g : β → Option γ} {k : α → γ}
    (h : ∀ x ∈ xs, g (f x) = some (k x)) : (xs.map f).mapM g = some (xs.map k) := by
  rw [mapM_eq_some_iff, List.forall₂_map_left_iff, List.forall₂_map_right_iff]
  exact List.forall₂_same.mpr h

lemma mapM_eq_ok_map {f : α → Except ε β} {g : α → β} (h : ∀ x ∈ xs, f x = .ok (g x)) :
    xs.mapM f = .ok (xs.map g) := by
  rw [mapM_eq_ok_iff, List.forall₂_map_right_iff]
  exact List.forall₂_same.mpr h

lemma exists_of_forall₂ {R : α → β → Prop} {y : β} (h : List.Forall₂ R xs ys) (hy : y ∈ ys) :
    ∃ x ∈ xs, R x y := by
  induction h with
  | nil => cases hy
  | @cons x z xs ys hxz _ ih =>
    rcases List.mem_cons.mp hy with rfl | hy
    · exact ⟨x,List.mem_cons_self,hxz⟩
    · obtain ⟨x',hx',hxy⟩ := ih hy
      exact ⟨x',List.mem_cons_of_mem _ hx',hxy⟩

theorem forall₂_comp {zs : List γ} {R : α → β → Prop} {S : β → γ → Prop}
    (h : List.Forall₂ R xs ys) (h' : List.Forall₂ S ys zs) :
    List.Forall₂ (fun x z => ∃ y, R x y ∧ S y z) xs zs := by
  induction h generalizing zs with
  | nil =>
    cases h'
    exact .nil
  | cons hxy _ ih =>
    cases h' with
    | cons hyz hrest => exact .cons ⟨_,hxy,hyz⟩ (ih hrest)

theorem forall₂_zip {zs : List γ} {R : α → β → Prop} {S : α → γ → Prop}
    (h : List.Forall₂ R xs ys) (h' : List.Forall₂ S xs zs) :
    List.Forall₂ (fun x p => R x p.1 ∧ S x p.2) xs (ys.zip zs) := by
  induction h generalizing zs with
  | nil => simp
  | cons hxy _ ih =>
    cases h' with
    | cons hxz hrest => exact .cons ⟨hxy,hxz⟩ (ih hrest)

/-- What a filter keeps on one side, a partial step keeps on the other. -/
theorem forall₂_filter_filterMap {R : α → β → Prop} {S : α → γ → Prop} {p : α → Bool}
    {f : β → Option γ} (h : List.Forall₂ R xs ys)
    (hkept : ∀ x y, R x y → p x = true → ∃ z, f y = some z ∧ S x z)
    (hdropped : ∀ x y, R x y → p x = false → f y = none) :
    List.Forall₂ S (xs.filter p) (ys.filterMap f) := by
  induction h with
  | nil => exact .nil
  | @cons x y xs ys hxy _ ih =>
    cases hp : p x with
    | true =>
      obtain ⟨z,hz,hS⟩ := hkept x y hxy hp
      rw [List.filter_cons_of_pos hp, List.filterMap_cons_some hz]
      exact .cons hS ih
    | false =>
      rw [List.filter_cons_of_neg (by simp [hp]), List.filterMap_cons_none (hdropped x y hxy hp)]
      exact ih

end OrderFlow
