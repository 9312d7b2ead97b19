import Mathlib.Tactic.Lemma
import OrderFlow.Files.Storing
import OrderFlow.Proofs.Outcome

/-! Steps over files that succeed. A sequence succeeds where each of its steps does, on the tree
that the step before it left. -/
namespace OrderFlow.Storing
variable {α β : Type} {t t' : FileTree}

/-- What a step comes to on a tree, and the tree it leaves. -/
def result (x : Storing α) (t : FileTree) : Outcome α × FileTree := ExceptT.run x t

/-- A step on a tree that gives a value and leaves a tree. -/
def Succeeds (x : Storing α) (t : FileTree) (a : α) (t' : FileTree) : Prop :=
  result x t = (.ok a,t')

lemma result_bind (x : Storing α) (f : α → Storing β) (t : FileTree) :
    result (x >>= f) t = match result x t with
      | (.ok a,t₁) => result (f a) t₁
      | (.error e,t₁) => (.error e,t₁) := by
  unfold result
  rw [ExceptT.run_bind]
  simp only [bind, StateT.bind]
  rcases ExceptT.run x t with ⟨e | a,t₁⟩ <;> rfl

lemma result_reading (f : FileTree → Outcome α) (t : FileTree) :
    result (reading f) t = (f t,t) := rfl

theorem succeeds_bind_iff {x : Storing α} {f : α → Storing β} {b : β} :
    Succeeds (x >>= f) t b t' ↔ ∃ a t₁, Succeeds x t a t₁ ∧ Succeeds (f a) t₁ b t' := by
  simp only [Succeeds, result_bind]
  rcases result x t with ⟨e | a,t₁⟩ <;> simp [and_assoc]

@[simp] theorem succeeds_pure_iff {a b : α} :
    Succeeds (pure a : Storing α) t b t' ↔ a = b ∧ t = t' := by
  rw [Succeeds, show result (pure a : Storing α) t = (.ok a,t) from rfl]
  simp

@[simp] theorem succeeds_of_iff {o : Outcome α} {a : α} :
    Succeeds (of o) t a t' ↔ o = .ok a ∧ t = t' := by
  rw [Succeeds, show result (of o) t = (o,t) from rfl, Prod.mk.injEq]

lemma result_change (cause : Cause) (f : FileTree → Option FileTree) (t : FileTree) :
    result (change cause f) t = (f t).elim (fail cause,t) fun t₁ => (.ok (),t₁) := by
  unfold result change
  rw [ExceptT.run_mk]
  cases f t <;> rfl

theorem succeeds_change_iff {cause : Cause} {f : FileTree → Option FileTree} :
    Succeeds (change cause f) t () t' ↔ f t = some t' := by
  rw [Succeeds, result_change]
  cases f t <;> simp [fail]

theorem succeeds_changeThrough_iff {cause : Cause} {f : FileTree → Bool × FileTree} :
    Succeeds (changeThrough cause f) t () t' ↔ f t = (true,t') := by
  rw [Succeeds, show result (changeThrough cause f) t =
    (if (f t).1 then .ok () else fail cause,(f t).2) from rfl]
  rcases f t with ⟨_ | _,t₁⟩ <;> simp [fail]

theorem succeeds_attempting_iff {what : String} {x : Storing α} {a : α} :
    Succeeds (attempting what x) t a t' ↔ Succeeds x t a t' := by
  rw [Succeeds, Succeeds, show result (attempting what x) t =
    (OrderFlow.attempting what (result x t).1,(result x t).2) from rfl, Prod.mk.injEq,
    OrderFlow.attempting, mapError_eq_ok_iff, Prod.ext_iff]

end OrderFlow.Storing
