import Mathlib.Data.List.Basic
import OrderFlow.Store.MarketFiles

/-! The search for a data directory. It looks beside the path and then beside each directory above
it, so what it finds is the nearest one, and looking further up never changes it. -/
namespace OrderFlow

namespace Path

/-- The path a number of levels above another, while there are parents. -/
def above? (p : Path) : Nat → Option Path
  | 0 => some p
  | k + 1 => (above? p k).bind parent?

@[simp] theorem above?_zero (p : Path) : above? p 0 = some p := rfl

/-- Climbing starts with the parent. -/
theorem above?_succ (p : Path) (k : Nat) : above? p (k + 1) = (parent? p).bind (above? · k) := by
  induction k with
  | zero => simp [above?]
  | succ k ih =>
    rw [above?, ih, Option.bind_assoc]
    rfl

/-- The ancestors that are looked at are the first so many of the chain, as far as it goes. -/
theorem getElem?_ancestors (p : Path) (n k : Nat) :
    (ancestors p n)[k]? = if k < n then above? p k else none := by
  induction n generalizing p k with
  | zero => simp [ancestors]
  | succ n ih =>
    cases k with
    | zero => simp [ancestors]
    | succ k =>
      rw [ancestors, List.getElem?_cons_succ, above?_succ]
      cases parent? p with
      | none => simp
      | some q => simpa using ih q k

end Path

namespace MarketFiles
variable {t : FileTree} {start found p : Path} {levels more k : Nat}

/-- The data directory beside the path some levels above another, where no nearer path has one. -/
structure IsNearestData (t : FileTree) (start : Path) (k : Nat) (found : Path) : Prop where
  beside : ∃ p, start.above? k = some p ∧ found = p.join "data"
  isDirectory : t.isDirectory found = true
  nearest : ∀ j < k, ∀ p, start.above? j = some p → t.isDirectory (p.join "data") = false

/-- The paths that are looked at, by level. -/
def candidates (start : Path) (levels : Nat) : List Path :=
  (start.ancestors levels).map (Path.join · directoryName)

lemma getElem?_candidates (start : Path) (levels k : Nat) : (candidates start levels)[k]? =
    if k < levels then (start.above? k).map (Path.join · "data") else none := by
  rw [candidates, List.getElem?_map, Path.getElem?_ancestors, apply_ite (Option.map _)]
  rfl

lemma mem_candidates_iff : found ∈ candidates start levels ↔
    ∃ k < levels, ∃ p, start.above? k = some p ∧ p.join "data" = found := by
  simp [List.mem_iff_getElem?, getElem?_candidates, Option.ite_none_right_eq_some]

lemma findData_eq (t : FileTree) (start : Path) (levels : Nat) :
    findData t start levels = ((candidates start levels).find? t.isDirectory).elim
      (.error (.dataDirectoryNotFound start levels)) .ok := by
  rw [findData, candidates]
  cases (List.map _ _).find? t.isDirectory <;> rfl

lemma find?_candidates_iff : (candidates start levels).find? t.isDirectory = some found ↔
    ∃ k < levels, IsNearestData t start k found := by
  rw [List.find?_eq_some_iff_getElem]
  constructor
  · rintro ⟨hfound,k,hk,hget,hbefore⟩
    have hget' := List.getElem?_eq_some_iff.mpr ⟨hk,hget⟩
    rw [getElem?_candidates, Option.ite_none_right_eq_some, Option.map_eq_some_iff] at hget'
    obtain ⟨hlevels,p,hp,hjoin⟩ := hget'
    refine ⟨k,hlevels,⟨p,hp,hjoin.symm⟩,hfound,fun j hj q hq => ?_⟩
    have hjget := getElem?_candidates start levels j
    rw [if_pos (Nat.lt_trans hj hlevels), hq, Option.map_some, List.getElem?_eq_some_iff] at hjget
    obtain ⟨hlength,hplace⟩ := hjget
    simpa [hplace] using hbefore j hj
  · rintro ⟨k,hlevels,⟨p,hp,rfl⟩,hdirectory,hnearest⟩
    have hget := getElem?_candidates start levels k
    rw [if_pos hlevels, hp, Option.map_some, List.getElem?_eq_some_iff] at hget
    obtain ⟨hk,hget⟩ := hget
    refine ⟨hdirectory,k,hk,hget,fun j hj => ?_⟩
    have hjget := List.getElem?_eq_getElem (Nat.lt_trans hj hk)
    rw [getElem?_candidates, Option.ite_none_right_eq_some, Option.map_eq_some_iff] at hjget
    obtain ⟨-,q,hq,hjoin⟩ := hjget
    rw [← hjoin, hnearest j hj q hq]
    rfl

/-- The search finds exactly the data directory beside the nearest path of the chain that has one,
within its levels. It fails, and only for that reason, exactly where none of them has one. What it
finds it also finds when it may look further up. -/
theorem findData_nearest (t : FileTree) (start : Path) (levels : Nat) :
    (∀ found, findData t start levels = .ok found ↔ ∃ k < levels, IsNearestData t start k found) ∧
    (findData t start levels = .error (.dataDirectoryNotFound start levels) ↔
      ∀ k < levels, ∀ p, start.above? k = some p → t.isDirectory (p.join "data") = false) ∧
    (∀ cause, findData t start levels = .error cause →
      cause = .dataDirectoryNotFound start levels) ∧
    ∀ found more, findData t start levels = .ok found → levels ≤ more →
      findData t start more = .ok found := by
  have hfound (n : Nat) (found : Path) :
      findData t start n = .ok found ↔ ∃ k < n, IsNearestData t start k found := by
    rw [findData_eq, ← find?_candidates_iff]
    cases (candidates start n).find? t.isDirectory <;> simp
  refine ⟨hfound levels,?_,fun cause h => ?_,fun found more h hmore => ?_⟩
  · have hnone : findData t start levels = .error (.dataDirectoryNotFound start levels) ↔
        (candidates start levels).find? t.isDirectory = none := by
      rw [findData_eq]
      cases (candidates start levels).find? t.isDirectory <;> simp
    rw [hnone, List.find?_eq_none]
    constructor
    · intro h k hk p hp
      simpa using h _ (mem_candidates_iff.mpr ⟨k,hk,p,hp,rfl⟩)
    · intro h q hq
      obtain ⟨k,hk,p,hp,rfl⟩ := mem_candidates_iff.mp hq
      simp [h k hk p hp]
  · rw [findData_eq] at h
    cases hfind : (candidates start levels).find? t.isDirectory with
    | none =>
      rw [hfind] at h
      exact (Except.error.inj h).symm
    | some q => simp [hfind] at h
  · obtain ⟨k,hk,hnearest⟩ := (hfound levels found).mp h
    exact (hfound more found).mpr ⟨k,Nat.lt_of_lt_of_le hk hmore,hnearest⟩

/-- Data directories beside the start of relative paths and two levels below it. -/
def nestedDataTree : FileTree :=
  ["data","a/b/data","a/b/c/d"].foldl (fun t p => (t.makeDirectories p).2) .empty

theorem findData_nearest_nested :
    (∃ k < 3, IsNearestData nestedDataTree "a/b/c/d" k "a/b/data") ∧
      findData nestedDataTree "a/b/c/d" 9 = .ok "a/b/data" ∧
      ∀ k < 2, ∀ p, Path.above? "a/b/c/d" k = some p →
        nestedDataTree.isDirectory (p.join "data") = false := by
  have hthree : findData nestedDataTree "a/b/c/d" 3 = .ok "a/b/data" := by decide +kernel
  have htwo : findData nestedDataTree "a/b/c/d" 2 =
      .error (.dataDirectoryNotFound "a/b/c/d" 2) := by decide +kernel
  obtain ⟨hfound,-,-,hmore⟩ := findData_nearest nestedDataTree "a/b/c/d" 3
  obtain ⟨-,hnone,-⟩ := findData_nearest nestedDataTree "a/b/c/d" 2
  exact ⟨(hfound _).mp hthree,hmore _ 9 hthree (by decide),hnone.mp htwo⟩

end MarketFiles
end OrderFlow
