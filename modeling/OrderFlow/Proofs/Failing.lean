import Mathlib.Tactic.Lemma
import OrderFlow.Proofs.Files.Steps

/-! Operations by what they can fail with. A sequence fails with nothing but what its steps fail
with. -/
namespace OrderFlow

section Except
variable {α β ε ε' : Type} {P : ε → Prop} {x : Except ε α} {f : α → Except ε β} {xs : List α}

/-- Every failure of an operation is of a kind. -/
structure FailsWith (P : ε → Prop) (x : Except ε α) : Prop where
  error : ∀ e, x = .error e → P e

lemma failsWith_ok (P : ε → Prop) (a : α) : FailsWith P (.ok a) := ⟨nofun⟩

lemma failsWith_pure (P : ε → Prop) (a : α) : FailsWith P (pure a) := ⟨nofun⟩

lemma failsWith_error {e : ε} (h : P e) : FailsWith P (.error e : Except ε α) := by
  refine ⟨?_⟩
  rintro _ ⟨⟩
  exact h

/-- What fails with nothing succeeds. -/
lemma FailsWith.exists_ok (h : FailsWith (fun _ => False) x) : ∃ a, x = .ok a := by
  cases x with
  | error e => exact (h.error e rfl).elim
  | ok a => exact ⟨a,rfl⟩

theorem FailsWith.bind (h : FailsWith P x) (hf : ∀ a, x = .ok a → FailsWith P (f a)) :
    FailsWith P (x >>= f) := by
  cases x with
  | error e => exact failsWith_error (h.error e rfl)
  | ok a => exact hf a rfl

lemma FailsWith.map (h : FailsWith P x) (g : α → β) : FailsWith P (x.map g) := by
  cases x with
  | error e => exact failsWith_error (h.error e rfl)
  | ok a => exact failsWith_ok P (g a)

lemma FailsWith.mapError {P : ε' → Prop} {g : ε → ε'} (h : FailsWith (fun e => P (g e)) x) :
    FailsWith P (x.mapError g) := by
  cases x with
  | error e => exact failsWith_error (h.error e rfl)
  | ok a => exact failsWith_ok P a

theorem failsWith_mapM (h : ∀ a ∈ xs, FailsWith P (f a)) : FailsWith P (xs.mapM f) := by
  induction xs with
  | nil => exact failsWith_pure P []
  | cons a xs ih =>
    rw [List.mapM_cons]
    exact (h a List.mem_cons_self).bind fun _ _ =>
      (ih fun a ha => h a (List.mem_cons_of_mem _ ha)).bind fun _ _ => failsWith_pure P _

theorem failsWith_foldlM {g : β → α → Except ε β} (h : ∀ b, ∀ a ∈ xs, FailsWith P (g b a)) (b : β) :
    FailsWith P (xs.foldlM g b) := by
  induction xs generalizing b with
  | nil => exact failsWith_pure P b
  | cons a xs ih =>
    rw [List.foldlM_cons]
    exact (h b a List.mem_cons_self).bind fun b' _ =>
      ih (fun b a ha => h b a (List.mem_cons_of_mem _ ha)) b'

end Except

section Outcome
variable {α : Type} {P : Cause → Prop} {o : Outcome α} {c : Cause}

/-- Every cause for which an operation fails is of a kind, whatever was being attempted. -/
abbrev FailsFor (P : Cause → Prop) (o : Outcome α) : Prop := FailsWith (fun f => P f.cause) o

lemma failsFor_fail (h : P c) : FailsFor P (fail c : Outcome α) := failsWith_error h

lemma failsFor_guard {β : Type} {b : Prop} [Decidable b] {f : β → Outcome α} (hc : P c)
    (h : FailsFor P o) : FailsFor P (if b then fail c >>= f else o) := by
  by_cases hb : b
  · rw [if_pos hb]
    exact failsFor_fail hc
  · rwa [if_neg hb]

lemma FailsFor.attempting (h : FailsFor P o) (what : String) :
    FailsFor P (OrderFlow.attempting what o) :=
  FailsWith.mapError h

end Outcome

namespace Storing
variable {α β : Type} {P : Cause → Prop} {x : Storing α} {f : α → Storing β} {c : Cause}

/-- On every tree a step fails for causes of a kind. -/
def StepFailsFor (P : Cause → Prop) (x : Storing α) : Prop := ∀ t, FailsFor P (result x t).1

theorem StepFailsFor.bind (h : StepFailsFor P x)
    (hf : ∀ a t t', Succeeds x t a t' → StepFailsFor P (f a)) : StepFailsFor P (x >>= f) := by
  intro t
  rw [result_bind]
  have hx := h t
  rcases hrun : result x t with ⟨e | a,t'⟩
  · exact failsWith_error (hx.error e (by rw [hrun]))
  · exact hf a t t' hrun t'

lemma stepFailsFor_pure (P : Cause → Prop) (a : α) : StepFailsFor P (pure a : Storing α) :=
  fun _ => failsWith_pure _ a

lemma stepFailsFor_of {o : Outcome α} (h : FailsFor P o) : StepFailsFor P (of o) := fun _ => h

lemma stepFailsFor_change {g : FileTree → Option FileTree} (h : P c) :
    StepFailsFor P (change c g) := by
  intro t
  rw [result_change]
  cases g t with
  | none => exact failsFor_fail h
  | some t' => exact failsWith_ok _ ()

lemma stepFailsFor_changeThrough {g : FileTree → Bool × FileTree} (h : P c) :
    StepFailsFor P (changeThrough c g) := by
  intro t
  change FailsFor P (if (g t).1 then .ok () else fail c)
  cases (g t).1 with
  | false => exact failsFor_fail h
  | true => exact failsWith_ok _ ()

lemma StepFailsFor.attempting (h : StepFailsFor P x) (what : String) :
    StepFailsFor P (Storing.attempting what x) :=
  fun t => FailsFor.attempting (h t) what

end Storing
end OrderFlow
