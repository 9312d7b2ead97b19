import OrderFlow.Document.Books
import OrderFlow.Proofs.Document.Nulls

/-! Null means absent in book snapshots too, but for one key: where `depth` is null, a book under
`orderbook` is not looked for. Members over null under any other key may be put in or left out, and
so may a null `depth` where no side would be taken from under `orderbook`. -/
namespace OrderFlow

namespace Json
variable {ms ms' : Members} {key : String}

/-- Members become the others where members over null are put in and left out, any number of
times. -/
def SameMembers : Members → Members → Prop := Relation.EqvGen NullAdded

theorem SameMembers.held?_eq (h : SameMembers ms ms') : held? ms = held? ms' := by
  induction h with
  | rel _ _ hadded => exact hadded.held?_eq
  | refl _ => rfl
  | symm _ _ _ ih => exact ih.symm
  | trans _ _ _ _ _ ih ih' => exact ih.trans ih'

lemma held?_of_null (h : get? ms key = some .null) : held? ms key = none := by
  rw [held?, h]
  rfl

/-- A member that is held is found, and none is found where none is held unless it is null. -/
lemma get?_eq_held? (h : get? ms key ≠ some .null) : get? ms key = held? ms key := by
  rw [held?]
  rcases hget : get? ms key with _ | j
  · rfl
  · cases j <;> first | exact absurd hget h | rfl

/-- The members under all keys but one. -/
def without (key : String) (ms : Members) : Members := ms.filter (·.1 != key)

lemma get?_without (key : String) (ms : Members) (other : String) :
    get? (without key ms) other = if other = key then none else get? ms other := by
  induction ms with
  | nil => simp [without, get?]
  | cons m ms ih =>
    obtain ⟨k,j⟩ := m
    rw [without, get?] at ih
    rw [without, get?, get?, List.filter_cons, List.lookup_cons]
    by_cases hk : k = key
    · subst hk
      rw [if_neg (by simp), ih]
      split_ifs with hother
      · rfl
      · rw [beq_false_of_ne hother]
        rfl
    · rw [if_pos (by simpa using hk), List.lookup_cons]
      by_cases hother : other = k
      · subst hother
        rw [beq_self_eq_true, if_neg hk]
      · rw [beq_false_of_ne hother]
        exact ih

lemma held?_without (key : String) (ms : Members) (other : String) :
    held? (without key ms) other = if other = key then none else held? ms other := by
  rw [held?, get?_without]
  split_ifs <;> rfl

end Json

namespace Document
open Json
variable {ms ms' : Members} {key : String}

/-- The keys of the two sides of a book. -/
def sideKeys : List String := ["bids", "asks"]

/-- A null `depth` stands before every other place of a book. -/
lemma nestedBook?_of_null (h : get? ms "depth" = some .null) : nestedBook? ms = none := by
  rw [nestedBook?, h]
  rfl

lemma nestedBook?_of_not_null (h : get? ms "depth" ≠ some .null) :
    nestedBook? ms = ((held? ms "depth").or (held? ms "orderbook")).bind asObject? := by
  rw [nestedBook?, get?_eq_held? h]
  cases held? ms "depth" with
  | none => exact bind_get?_eq rfl
  | some j => rfl

/-- The inner book hangs on the members that are held, and on whether `depth` is null. -/
lemma nestedBook?_congr (h : held? ms = held? ms')
    (hnull : get? ms "depth" = some .null ↔ get? ms' "depth" = some .null) :
    nestedBook? ms = nestedBook? ms' := by
  by_cases hms : get? ms "depth" = some .null
  · rw [nestedBook?_of_null hms, nestedBook?_of_null (hnull.mp hms)]
  · rw [nestedBook?_of_not_null hms, nestedBook?_of_not_null (mt hnull.mpr hms), h]

/-- A side that the snapshot has itself is not looked for in the inner book. -/
lemma side_of_filled (h : filled ms key = true) (nested : Option Members) :
    side ms nested key = side ms none key := by
  obtain ⟨items,hitems,hne⟩ := filled_iff.mp h
  have hown : ((get? ms key).bind asArray?).filter (!·.isEmpty) = some items := by
    rw [array?_eq_some.mpr hitems, Option.filter_some, List.isEmpty_eq_false_iff.mpr hne]
    rfl
  rw [side, side, hown]
  rfl

lemma side_congr (h : held? ms key = held? ms' key) (nested : Option Members) :
    side ms nested key = side ms' nested key := by
  rw [side, side, bind_get?_eq rfl, bind_get?_eq rfl, h]

/-- Both sides of a book stand in the snapshot itself. -/
def HasSides (ms : Members) : Prop := ∀ key ∈ sideKeys, filled ms key = true

/-- A snapshot is read from the times and sides that are held and from the inner book, which does
not matter where the snapshot has both sides itself. -/
theorem snapshot?_congr (h : ∀ key ∈ snapshotTimeKeys ++ sideKeys, held? ms key = held? ms' key)
    (hbook : nestedBook? ms = nestedBook? ms' ∨ HasSides ms) :
    snapshot? (.object ms) = snapshot? (.object ms') := by
  have htime : firstPresent? ms snapshotTimeKeys = firstPresent? ms' snapshotTimeKeys := by
    rw [firstPresent?_eq, firstPresent?_eq,
      List.filterMap_congr fun key hkey => h key (List.mem_append_left _ hkey)]
  have hside : ∀ key ∈ sideKeys,
      side ms (nestedBook? ms) key = side ms' (nestedBook? ms') key := by
    intro key hkey
    rw [← side_congr (h key (List.mem_append_right _ hkey))]
    rcases hbook with hbook | hsides
    · rw [hbook]
    · rw [side_of_filled (hsides key hkey), ← side_of_filled (hsides key hkey)]
  simp only [snapshot?, asObject?, Option.bind_eq_bind, Option.bind_some, htime,
    hside "bids" (by decide), hside "asks" (by decide)]

/-- A side would be taken from a book under `orderbook`, should no other book stand before it. -/
def NeedsOrderbook (ms : Members) : Prop :=
  ((held? ms "orderbook").bind asObject?).isSome ∧ ¬ HasSides ms

/-- Where no book is under `orderbook`, it makes no difference whether `depth` is null. -/
lemma nestedBook?_of_no_orderbook (h : (held? ms "orderbook").bind asObject? = none) :
    nestedBook? ms = (held? ms "depth").bind asObject? := by
  by_cases hnull : get? ms "depth" = some .null
  · rw [nestedBook?_of_null hnull, held?_of_null hnull]
    rfl
  · rw [nestedBook?_of_not_null hnull]
    cases held? ms "depth" with
    | none => exact h
    | some j => rfl

/-- Members over null may be put into a snapshot or left out of it under any keys, except that a
null `depth` hides a book under `orderbook`: the snapshot is then read as if that were missing. -/
theorem snapshot?_sameMembers (h : SameMembers ms ms') :
    ((get? ms "depth" = some .null ↔ get? ms' "depth" = some .null) ∨ ¬ NeedsOrderbook ms →
      snapshot? (.object ms) = snapshot? (.object ms')) ∧
    (get? ms' "depth" = some .null →
      snapshot? (.object ms') = snapshot? (.object (without "orderbook" ms))) := by
  have hheld := h.held?_eq
  constructor
  · rintro (hnull | hneeds)
    · exact snapshot?_congr (fun key _ => congrFun hheld key) (.inl (nestedBook?_congr hheld hnull))
    · refine snapshot?_congr (fun key _ => congrFun hheld key) ?_
      rw [NeedsOrderbook, not_and_not_right] at hneeds
      cases hbook : (held? ms "orderbook").bind asObject? with
      | none =>
        left
        rw [nestedBook?_of_no_orderbook hbook, nestedBook?_of_no_orderbook (hheld ▸ hbook), hheld]
      | some book =>
        right
        exact hneeds (by rw [hbook]; rfl)
  · intro hnull
    have hdepth : held? ms "depth" = none := by rw [hheld, held?_of_null hnull]
    refine snapshot?_congr (fun key hkey => ?_) (.inl ?_)
    · have hother : key ≠ "orderbook" := by
        rintro rfl
        exact absurd hkey (by decide)
      rw [held?_without, if_neg hother, hheld]
    · rw [nestedBook?_of_null hnull, nestedBook?_of_no_orderbook, held?_without,
        if_neg (by decide), hdepth]
      · rfl
      · rw [held?_without, if_pos rfl]
        rfl

/-- A snapshot with its book under `orderbook`. -/
def nestedSnapshot : Members :=
  [("timestamp", .integer 1704067200000), ("orderbook", .object [
    ("asks", .array [.array [.string "101", .string "3"]]),
    ("bids", .array [.array [.string "99", .string "2"]])])]

/-- Null sides of its own do not matter to it, and with a null `depth` it has no book left. -/
theorem snapshot?_sameMembers_nested :
    SameMembers nestedSnapshot (("bids",.null) :: nestedSnapshot) ∧
    SameMembers nestedSnapshot (("depth",.null) :: nestedSnapshot) ∧
    (snapshot? (.object nestedSnapshot)).map DepthRecord.time = some 1704067200000 ∧
    snapshot? (.object nestedSnapshot) = snapshot? (.object (("bids",.null) :: nestedSnapshot)) ∧
    snapshot? (.object (("depth",.null) :: nestedSnapshot)) =
      snapshot? (.object (without "orderbook" nestedSnapshot)) := by
  have hbids : SameMembers nestedSnapshot (("bids",.null) :: nestedSnapshot) :=
    .rel _ _ (.intro [] nestedSnapshot "bids" (by simp [nestedSnapshot]))
  have hdepth : SameMembers nestedSnapshot (("depth",.null) :: nestedSnapshot) :=
    .rel _ _ (.intro [] nestedSnapshot "depth" (by simp [nestedSnapshot]))
  exact ⟨hbids,hdepth,by decide +kernel,
    (snapshot?_sameMembers hbids).1 (.inl Iff.rfl),
    (snapshot?_sameMembers hdepth).2 rfl⟩

/-- A null `depth` alone makes a snapshot unreadable. -/
theorem snapshot?_behind_null : NullAdded nestedSnapshot (("depth",.null) :: nestedSnapshot) ∧
    (snapshot? (.object nestedSnapshot)).isSome = true ∧
    snapshot? (.object (("depth",.null) :: nestedSnapshot)) = none :=
  ⟨.intro [] nestedSnapshot "depth" (by simp [nestedSnapshot]),by decide +kernel,
    Option.isNone_iff_eq_none.mp (by decide +kernel)⟩

end Document
end OrderFlow
