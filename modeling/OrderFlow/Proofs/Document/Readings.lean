import Mathlib.Data.List.Forall2
import OrderFlow.Document.Trades

/-! What trades are read from. Null members count as missing, and of the others only the decimal
and the whole number that they stand for matter, but for the flag of the maker. Objects are compared
by what is found in them. -/
namespace OrderFlow

namespace Json
variable {ms : Members} {key : String}

/-- The value under a key, unless it is null. -/
def held? (ms : Members) (key : String) : Option Json := (get? ms key).filter (!·.isNull)

/-- A reading that makes nothing of null reads a member only where it is held. -/
lemma bind_get?_eq {α : Type} {f : Json → Option α} (hf : f .null = none) :
    (get? ms key).bind f = (held? ms key).bind f := by
  rw [held?]
  rcases get? ms key with _ | j
  · rfl
  · cases j <;> first | exact hf | rfl

lemma truthy_get?_eq :
    ((get? ms key).map truthy).getD false = ((held? ms key).map truthy).getD false := by
  rw [held?]
  rcases get? ms key with _ | j
  · rfl
  · cases j <;> rfl

lemma firstPresent?_eq (ms : Members) (keys : List String) :
    firstPresent? ms keys = (keys.filterMap (held? ms)).head? := by
  rw [firstPresent?, ← List.head?_filter, List.filter_filterMap]
  rfl

section
variable {α β : Type} {P Q : α → α → Prop} {R : β → β → Prop} {a a' b b' : Option α}

lemma rel_imp (h : Option.Rel P a a') (hPQ : ∀ x x', P x x' → Q x x') : Option.Rel Q a a' := by
  cases h with
  | none => exact .none
  | some hx => exact .some (hPQ _ _ hx)

lemma rel_or (ha : Option.Rel P a a') (hb : Option.Rel P b b') :
    Option.Rel P (a.or b) (a'.or b') := by
  cases ha with
  | none => exact hb
  | some hx => exact .some hx

lemma rel_bind {f : α → Option β} (h : Option.Rel P a a')
    (hf : ∀ x x', P x x' → Option.Rel R (f x) (f x')) : Option.Rel R (a.bind f) (a'.bind f) := by
  cases h with
  | none => exact .none
  | some hx => exact hf _ _ hx

end

/-- Where members are related one by one, under the same keys, so is what is found under a key. -/
lemma rel_get? {R : String × Json → String × Json → Prop} {ms ms' : Members}
    (hkey : ∀ {m m'}, R m m' → m.1 = m'.1) (h : List.Forall₂ R ms ms') (key : String) :
    Option.Rel (fun j j' => R (key,j) (key,j')) (get? ms key) (get? ms' key) := by
  rw [get?, get?]
  induction h with
  | nil => exact .none
  | @cons m m' _ _ hm _ ih =>
    obtain ⟨k,j⟩ := m
    obtain ⟨k',j'⟩ := m'
    obtain rfl : k = k' := hkey hm
    rw [List.lookup_cons, List.lookup_cons]
    by_cases hk : key = k
    · subst hk
      rw [beq_self_eq_true]
      exact .some hm
    · rw [beq_false_of_ne hk]
      exact ih

/-- Two values stand for the same decimal and the same whole number. -/
structure SameNumber (j j' : Json) : Prop where
  decimal : looseDecimal? j = looseDecimal? j'
  integer : looseInteger? j = looseInteger? j'

lemma SameNumber.refl (j : Json) : SameNumber j j := ⟨rfl,rfl⟩

end Json

namespace Document
open Json
variable {ms ms' : Members}

/-- Under each key both objects hold values that stand for the same numbers, or neither holds any.
The maker is the same value. -/
structure ReadAlike (ms ms' : Members) : Prop where
  held (key : String) : Option.Rel SameNumber (held? ms key) (held? ms' key)
  maker : held? ms "isBuyerMaker" = held? ms' "isBuyerMaker"

namespace ReadAlike

lemma of_held?_eq (h : held? ms = held? ms') : ReadAlike ms ms' where
  held key := by
    rw [h]
    cases held? ms' key with
    | none => exact .none
    | some j => exact .some (.refl j)
  maker := congrFun h _

lemma held_cases (h : ReadAlike ms ms') (key : String) :
    held? ms key = none ∧ held? ms' key = none ∨
      ∃ j j', held? ms key = some j ∧ held? ms' key = some j' ∧ SameNumber j j' := by
  have hheld := h.held key
  generalize held? ms key = a, held? ms' key = b at hheld ⊢
  cases hheld with
  | none => exact .inl ⟨rfl,rfl⟩
  | some hsame => exact .inr ⟨_,_,rfl,rfl,hsame⟩

/-- A reading as a number finds the same under each key. -/
lemma bind_get?_eq {α : Type} {f : Json → Option α} (h : ReadAlike ms ms') (hf : f .null = none)
    (hsame : ∀ {j j'}, SameNumber j j' → f j = f j') (key : String) :
    (get? ms key).bind f = (get? ms' key).bind f := by
  rw [Json.bind_get?_eq hf, Json.bind_get?_eq hf]
  obtain ⟨hj,hj'⟩ | ⟨j,j',hj,hj',hnumber⟩ := h.held_cases key
  · rw [hj, hj']
  · rw [hj, hj', Option.bind_some, Option.bind_some, hsame hnumber]

lemma tradeTime_eq (h : ReadAlike ms ms') : tradeTime ms = tradeTime ms' := by
  have htime : (fun k => (get? ms k).bind looseInteger?) =
      fun k => (get? ms' k).bind looseInteger? :=
    funext fun k => h.bind_get?_eq rfl (·.integer) k
  rw [tradeTime, tradeTime, htime]

lemma unnamedTrade?_eq (h : ReadAlike ms ms') : unnamedTrade? ms = unnamedTrade? ms' := by
  have hdecimal : ∀ key, (get? ms key).bind looseDecimal? = (get? ms' key).bind looseDecimal? :=
    h.bind_get?_eq rfl (·.decimal)
  have hmaker : ((get? ms "isBuyerMaker").map truthy).getD false =
      ((get? ms' "isBuyerMaker").map truthy).getD false := by
    rw [truthy_get?_eq, truthy_get?_eq, h.maker]
  simp only [unnamedTrade?, Option.bind_eq_bind, ← Option.bind_assoc, hdecimal, hmaker,
    h.tradeTime_eq]
  obtain ⟨hj,hj'⟩ | ⟨j,j',hj,hj',hnumber⟩ := h.held_cases "quoteQty" <;>
    rw [held?] at hj hj' <;> rw [hj, hj']
  simp only [hnumber.decimal]

lemma firstPresent?_eq (h : ReadAlike ms ms') (keys : List String) :
    (firstPresent? ms keys).bind looseInteger? = (firstPresent? ms' keys).bind looseInteger? := by
  rw [Json.firstPresent?_eq, Json.firstPresent?_eq]
  induction keys with
  | nil => rfl
  | cons key keys ih =>
    rw [List.filterMap_cons, List.filterMap_cons]
    obtain ⟨hj,hj'⟩ | ⟨j,j',hj,hj',hnumber⟩ := h.held_cases key
    · rw [hj, hj']
      exact ih
    · rw [hj, hj']
      exact hnumber.integer

end ReadAlike

/-- Objects that are read alike describe the same trade. -/
theorem trade?_congr (h : ReadAlike ms ms') : trade? (.object ms) = trade? (.object ms') := by
  simp only [trade?, asObject?, Option.bind_eq_bind, Option.bind_some]
  rw [h.unnamedTrade?_eq, h.firstPresent?_eq]

end Document
end OrderFlow
