import Mathlib.Data.List.Forall2
import Mathlib.Data.List.Induction

/-! Where the members that a filter keeps stand in the list. -/
namespace OrderFlow
variable {α : Type} {p : α → Bool} {xs : List α} {k : Nat}

/-- The positions of the members that are kept. -/
def positions (p : α → Bool) (xs : List α) : List Nat :=
  (List.range xs.length).filter fun k => xs[k]?.any p

lemma mem_positions : k ∈ positions p xs ↔ ∃ a, xs[k]? = some a ∧ p a = true := by
  rw [positions, List.mem_filter, List.mem_range, Option.any_eq_true]
  refine and_iff_right_of_imp ?_
  rintro ⟨a,ha,-⟩
  exact (List.getElem?_eq_some_iff.mp ha).1

lemma positions_pairwise : (positions p xs).Pairwise (· < ·) :=
  List.Pairwise.filter _ List.pairwise_lt_range

lemma positions_append_singleton (xs : List α) (a : α) :
    positions p (xs ++ [a]) = positions p xs ++ if p a then [xs.length] else [] := by
  have hbefore : ∀ k ∈ List.range xs.length,
      (xs ++ [a])[k]?.any p = xs[k]?.any p := fun k hk => by
    rw [List.getElem?_append_left (List.mem_range.mp hk)]
  rw [positions, List.length_append, List.length_singleton, List.range_succ, List.filter_append,
    List.filter_congr hbefore, positions]
  simp [List.filter_cons]

/-- The `i`-th kept member stands at the `i`-th position, and those kept before it stand before
it. -/
theorem forall₂_positions (p : α → Bool) (xs : List α) :
    List.Forall₂
      (fun k i => xs[k]? = (xs.filter p)[i]? ∧ (xs.take k).filter p = (xs.filter p).take i)
      (positions p xs) (List.range (xs.filter p).length) := by
  induction xs using List.reverseRecOn with
  | nil => simp [positions]
  | append_singleton xs a ih =>
    have hold : List.Forall₂
        (fun k i => (xs ++ [a])[k]? = ((xs ++ [a]).filter p)[i]? ∧
          ((xs ++ [a]).take k).filter p = ((xs ++ [a]).filter p).take i)
        (positions p xs) (List.range (xs.filter p).length) := by
      rw [List.forall₂_iff_get] at ih ⊢
      obtain ⟨hlength,h⟩ := ih
      refine ⟨hlength,fun j hj hj' => ?_⟩
      obtain ⟨hget,htake⟩ := h j hj hj'
      have hi : j < (xs.filter p).length := by simpa using hj'
      have hk : (positions p xs).get ⟨j,hj⟩ < xs.length :=
        List.mem_range.mp (List.mem_of_mem_filter (List.get_mem ..))
      generalize (positions p xs).get ⟨j,hj⟩ = k at hget htake hk ⊢
      simp only [List.get_eq_getElem, List.getElem_range] at hget htake ⊢
      rw [List.filter_append, List.getElem?_append_left hk, List.getElem?_append_left hi, hget,
        List.take_append_of_le_length (Nat.le_of_lt hk),
        List.take_append_of_le_length (Nat.le_of_lt hi), htake]
      exact ⟨rfl,rfl⟩
    rw [positions_append_singleton]
    cases ha : p a with
    | false => simpa [ha] using hold
    | true =>
      rw [List.filter_append, List.filter_singleton, ha, if_pos rfl, cond_true,
        List.length_append, List.length_singleton, List.range_succ]
      rw [List.filter_append, List.filter_singleton, ha, cond_true] at hold
      exact List.rel_append hold (.cons (by simp) .nil)

/-- As many members are kept before a position as there are positions before it. -/
lemma length_filter_take_position {i : Nat} (h : (positions p xs)[i]? = some k) :
    ((xs.take k).filter p).length = i := by
  obtain ⟨hi,rfl⟩ := List.getElem?_eq_some_iff.mp h
  obtain ⟨hlength,hget⟩ := List.forall₂_iff_get.mp (forall₂_positions p xs)
  have hi' : i < (xs.filter p).length := by simpa [hlength] using hi
  obtain ⟨-,htake⟩ := hget i hi (hlength ▸ hi)
  rw [List.get_eq_getElem, List.get_eq_getElem, List.getElem_range] at htake
  rw [htake, List.length_take, Nat.min_eq_left (Nat.le_of_lt hi')]

/-- The positions after the first `n`. -/
theorem mem_drop_positions {n : Nat} :
    k ∈ (positions p xs).drop n ↔
      (∃ a, xs[k]? = some a ∧ p a = true) ∧ n ≤ ((xs.take k).filter p).length := by
  rw [← mem_positions, List.mem_iff_getElem?]
  constructor
  · rintro ⟨i,hi⟩
    rw [List.getElem?_drop] at hi
    exact ⟨List.mem_of_getElem? hi,by rw [length_filter_take_position hi]; omega⟩
  · rintro ⟨hk,hn⟩
    obtain ⟨i,hi⟩ := List.mem_iff_getElem?.mp hk
    rw [length_filter_take_position hi] at hn
    exact ⟨i - n,by rw [List.getElem?_drop, Nat.add_sub_cancel' hn, hi]⟩

end OrderFlow
