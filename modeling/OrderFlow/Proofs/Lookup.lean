import Mathlib.Data.List.Nodup

/-! Lists that hold one value under each key. What is found under a key is what the list holds
there, so the order of the list does not matter. -/
namespace OrderFlow
variable {α β : Type*} [BEq α] [LawfulBEq α] {l l' : List (α × β)} {p : α × β} {a : α} {b : β}

theorem lookup_of_nodup (h : (l.map Prod.fst).Nodup) (hp : p ∈ l) : l.lookup p.1 = some p.2 := by
  induction l with
  | nil => cases hp
  | cons q l ih =>
    rw [List.map_cons, List.nodup_cons] at h
    rw [List.lookup_cons]
    rcases List.mem_cons.mp hp with rfl | hp
    · simp
    · have hne : p.1 ≠ q.1 := fun heq => h.1 (heq ▸ List.mem_map_of_mem hp)
      rw [beq_false_of_ne hne]
      exact ih h.2 hp

theorem lookup_eq_some_iff_mem (h : (l.map Prod.fst).Nodup) : l.lookup a = some b ↔ (a,b) ∈ l := by
  refine ⟨fun hfound => ?_,lookup_of_nodup h⟩
  obtain ⟨before,after,rfl,-⟩ := List.lookup_eq_some_iff.mp hfound
  exact List.mem_append_right _ List.mem_cons_self

theorem lookup_perm (h : (l.map Prod.fst).Nodup) (hl : l'.Perm l) (a : α) :
    l'.lookup a = l.lookup a := by
  have h' : (l'.map Prod.fst).Nodup := (hl.map Prod.fst).nodup_iff.mpr h
  refine Option.ext fun b => ?_
  rw [lookup_eq_some_iff_mem h, lookup_eq_some_iff_mem h', hl.mem_iff]

end OrderFlow
