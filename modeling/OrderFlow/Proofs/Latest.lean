import Mathlib.Data.List.Basic

/-! The latest value along a list. A run that carries the last value seen from one element to the
next holds, at each point, what a search from there backwards finds. -/
namespace OrderFlow
variable {α β γ : Type*} {f : α → Option β} {xs : List α} {x : α} {v : β}

/-- The value of the last element that has one. -/
def latest? (f : α → Option β) (xs : List α) : Option β := xs.reverse.findSome? f

theorem latest?_append (f : α → Option β) (xs ys : List α) :
    latest? f (xs ++ ys) = (latest? f ys).or (latest? f xs) := by
  simp [latest?, List.findSome?_append]

theorem latest?_cons (f : α → Option β) (x : α) (xs : List α) :
    latest? f (x :: xs) = (latest? f xs).or (f x) := by
  rw [← List.singleton_append, latest?_append]
  simp [latest?]

theorem latest?_map (f : α → Option β) (g : γ → α) (xs : List γ) :
    latest? f (xs.map g) = latest? (f ∘ g) xs := by
  rw [latest?, latest?, ← List.map_reverse, List.findSome?_map]

/-- What is made of each value is made of the latest. -/
theorem latest?_option_map (f : α → Option β) (g : β → γ) (xs : List α) :
    latest? (fun x => (f x).map g) xs = (latest? f xs).map g := by
  induction xs with
  | nil => rfl
  | cons x xs ih => rw [latest?_cons, latest?_cons, ih, Option.map_or]

theorem latest?_congr {g : α → Option β} (h : ∀ x ∈ xs, f x = g x) :
    latest? f xs = latest? g xs := by
  induction xs with
  | nil => rfl
  | cons x xs ih =>
    rw [latest?_cons, latest?_cons, h x List.mem_cons_self,
      ih fun y hy => h y (List.mem_cons_of_mem _ hy)]

theorem isSome_latest?_iff : (latest? f xs).isSome ↔ ∃ x ∈ xs, (f x).isSome := by
  simp [latest?]

/-- The latest value belongs to an element after which no other has one. -/
theorem latest?_eq_some_iff : latest? f xs = some v ↔
    ∃ before x after, xs = before ++ x :: after ∧ f x = some v ∧ ∀ y ∈ after, f y = none := by
  rw [latest?, List.findSome?_eq_some_iff]
  constructor
  · rintro ⟨after,x,before,hxs,hx,hafter⟩
    refine ⟨before.reverse,x,after.reverse,?_,hx,fun y hy => hafter y (List.mem_reverse.mp hy)⟩
    rw [List.reverse_eq_iff.mp hxs]
    simp
  · rintro ⟨before,x,after,rfl,hx,hafter⟩
    refine ⟨after.reverse,x,before.reverse,?_,hx,fun y hy => hafter y (List.mem_reverse.mp hy)⟩
    simp

theorem exists_mem_of_latest? (h : latest? f xs = some v) : ∃ x ∈ xs, f x = some v := by
  obtain ⟨before,x,after,rfl,hx,-⟩ := latest?_eq_some_iff.mp h
  exact ⟨x,by simp,hx⟩

end OrderFlow
