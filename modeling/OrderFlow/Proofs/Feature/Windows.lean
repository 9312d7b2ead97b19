import Mathlib.Data.List.Range
import OrderFlow.Feature.Windows
import OrderFlow.Proofs.Traversal

/-! Windows before targets. Pairing the slices of rows with the targets from the `n`-th on puts, at
each target, the `n` rows right before it. -/
namespace OrderFlow.Dataset
variable {α β : Type} {rows : List α} {targets : List β}

lemma getElem?_slices (n : Nat) (rows : List α) (j : Nat) :
    (slices n rows)[j]? = if j < rows.length then some ((rows.drop j).take n) else none := by
  induction rows generalizing j with
  | nil => simp [slices]
  | cons row rest ih =>
    cases j with
    | zero => simp [slices]
    | succ j => simpa [slices] using ih j

@[simp] lemma length_slices (n : Nat) (rows : List α) : (slices n rows).length = rows.length := by
  induction rows with
  | nil => rfl
  | cons row rest ih => simp [slices, ih]

/-- The `n` rows before an index. -/
def before (n i : Nat) (rows : List α) : List α := (rows.take i).drop (i - n)

lemma length_before {n i : Nat} (hn : n ≤ i) (hi : i ≤ rows.length) :
    (before n i rows).length = n := by
  simp [before]
  omega

lemma before_eq (n j : Nat) (rows : List α) : (rows.drop j).take n = before n (n + j) rows := by
  rw [before, List.drop_take, Nat.add_sub_cancel_left, Nat.add_sub_cancel]

/-- A window reads nothing at or after its index. -/
lemma before_congr {rows' : List α} {n i : Nat} (h : rows.take i = rows'.take i) :
    before n i rows = before n i rows' := by
  rw [before, before, h]

/-- Where rows are made one by one, so are windows. -/
lemma mapM_before {f : α → Option β} {made : List β} (h : rows.mapM f = some made) (n i : Nat) :
    (before n i rows).mapM f = some (before n i made) :=
  mapM_eq_some_iff.mpr (List.forall₂_drop _ (List.forall₂_take _ (mapM_eq_some_iff.mp h)))

/-- The targets from the `n`-th on, by their indices, each with the rows before it. -/
theorem preceded_before (n : Nat) (h : targets.length ≤ rows.length) :
    List.Forall₂
      (fun i (p : List α × β) => n ≤ i ∧ p.1 = before n i rows ∧ targets[i]? = some p.2)
      (List.range' n (targets.length - n)) (preceded n rows targets) := by
  rw [List.forall₂_iff_get]
  have hlength : (preceded n rows targets).length = targets.length - n := by
    simp [preceded]
    omega
  refine ⟨by rw [List.length_range', hlength],?_⟩
  intro j hj hj'
  rw [List.length_range'] at hj
  have hpair : (preceded n rows targets)[j]? = some ((preceded n rows targets).get ⟨j,hj'⟩) :=
    List.getElem?_eq_getElem hj'
  generalize (preceded n rows targets).get ⟨j,hj'⟩ = p at hpair ⊢
  rw [preceded, List.getElem?_zip_eq_some, getElem?_slices, if_pos (by omega),
    Option.some.injEq, List.getElem?_drop, before_eq] at hpair
  simpa [List.getElem_range'] using ⟨hpair.1.symm,hpair.2⟩

end OrderFlow.Dataset
