import OrderFlow.Proofs.Document.NullBooks

/-! Only the best ten levels of a book count, and only those before the first that cannot be read.
So the entries of a side past the tenth may be anything, and a side may as well be cut where an
entry is malformed. A side of the snapshot itself must not be cut to nothing, because the snapshot
then takes the one of its inner book. -/
namespace OrderFlow

namespace Depth
variable {bids bids' asks asks' : List Level}

/-- A summary is made of the best levels of both sides. -/
lemma ofLevels?_congr (hbids : bids.take levels = bids'.take levels)
    (hasks : asks.take levels = asks'.take levels) :
    ofLevels? bids asks = ofLevels? bids' asks' := by
  have hhead (side : List Level) : side.head? = (side.take levels).head? := by cases side <;> rfl
  rw [ofLevels?, ofLevels?, hhead bids, hhead asks, hhead bids', hhead asks', liquidity, liquidity,
    liquidity, liquidity, hbids, hasks]

lemma ofLevels?_of_nil (h : bids = [] ∨ asks = []) : ofLevels? bids asks = none := by
  rcases h with rfl | rfl
  · rfl
  · cases bids <;> rfl

end Depth

namespace Document
open Json
variable {items items' : List Json} {ms ms' book book' : Members} {key : String} {p : Nat}
  {R S R' S' : List Json → List Json → Prop}

lemma take_levels (n : Nat) (items : List Json) :
    (levels items).take n = levels (items.take n) := by
  induction items generalizing n with
  | nil => simp [levels]
  | cons j rest ih =>
    cases n with
    | zero => simp [levels]
    | succ n =>
      rw [List.take_succ_cons, levels, levels]
      cases level? j with
      | none => rfl
      | some l => exact congrArg (l :: ·) (ih n)

/-- An entry of a side that cannot be read. -/
def MalformedAt (items : List Json) (p : Nat) : Prop := ∃ j, items[p]? = some j ∧ level? j = none

/-- Nothing is read from a malformed entry on. -/
lemma levels_of_malformedAt (h : MalformedAt items p) : levels items = levels (items.take p) := by
  obtain ⟨j,hj,hmalformed⟩ := h
  induction items generalizing p with
  | nil => cases hj
  | cons first rest ih =>
    cases p with
    | zero =>
      cases hj
      rw [levels, hmalformed]
      rfl
    | succ p =>
      rw [List.take_succ_cons, levels, levels, ih hj]

/-- Two lists of entries with the same first ten, whatever comes after. -/
def SameTop (items items' : List Json) : Prop :=
  items.take Depth.levels = items'.take Depth.levels

/-- A list of entries and the part of it before a malformed one. -/
def CutAt (items items' : List Json) : Prop := ∃ p, MalformedAt items p ∧ items' = items.take p

/-- A list of entries and the part of it before a malformed one that is not the first. -/
def CutWithin (items items' : List Json) : Prop := CutAt items items' ∧ items' ≠ []

/-- The same member, or under the key of a side two lists of entries that are related. -/
inductive SideAlike (R : List Json → List Json → Prop) : String × Json → String × Json → Prop
  | same (m : String × Json) : SideAlike R m m
  | side {key : String} {items items' : List Json} (isSide : key ∈ sideKeys)
      (related : R items items') : SideAlike R (key,.array items) (key,.array items')

/-- The keys under which a snapshot may have an inner book. -/
def bookKeys : List String := ["depth", "orderbook"]

/-- Alike as sides of the snapshot itself, or under the key of an inner book two books with members
that are alike. -/
inductive SnapshotAlike (R S : List Json → List Json → Prop) :
    String × Json → String × Json → Prop
  | own {m m' : String × Json} (alike : SideAlike R m m') : SnapshotAlike R S m m'
  | inner {key : String} {book book' : Members} (isBook : key ∈ bookKeys)
      (alike : List.Forall₂ (SideAlike S) book book') :
      SnapshotAlike R S (key,.object book) (key,.object book')

lemma SideAlike.mono (hR : ∀ {items items'}, R items items' → R' items items')
    {m m' : String × Json} (h : SideAlike R m m') : SideAlike R' m m' := by
  cases h with
  | same m => exact .same m
  | side isSide related => exact .side isSide (hR related)

lemma SnapshotAlike.mono (hR : ∀ {items items'}, R items items' → R' items items')
    (hS : ∀ {items items'}, S items items' → S' items items') {m m' : String × Json}
    (h : SnapshotAlike R S m m') : SnapshotAlike R' S' m m' := by
  cases h with
  | own alike => exact .own (alike.mono hR)
  | inner isBook alike => exact .inner isBook (alike.imp fun _ _ => SideAlike.mono hS)

lemma SideAlike.key_eq {m m' : String × Json} (h : SideAlike R m m') : m.1 = m'.1 := by
  cases h <;> rfl

lemma SnapshotAlike.key_eq {m m' : String × Json} (h : SnapshotAlike R S m m') : m.1 = m'.1 := by
  cases h with
  | own alike => exact alike.key_eq
  | inner => rfl

lemma SnapshotAlike.eq {j j' : Json} (h : SnapshotAlike R S (key,j) (key,j'))
    (hside : key ∉ sideKeys) (hbook : key ∉ bookKeys) : j = j' := by
  cases h with
  | own alike =>
    cases alike with
    | same => rfl
    | side isSide _ => exact absurd isSide hside
  | inner isBook _ => exact absurd isBook hbook

lemma SideAlike.rel_asArray? (hR : ∀ items, R items items) {j j' : Json}
    (h : SideAlike R (key,j) (key,j')) : Option.Rel R j.asArray? j'.asArray? := by
  cases h with
  | same =>
    cases j.asArray? with
    | none => exact .none
    | some items => exact .some (hR items)
  | side _ related => exact .some related

lemma SnapshotAlike.rel_asArray? (hR : ∀ items, R items items) {j j' : Json}
    (h : SnapshotAlike R S (key,j) (key,j')) : Option.Rel R j.asArray? j'.asArray? := by
  cases h with
  | own alike => exact alike.rel_asArray? hR
  | inner => exact .none

/-- The same levels of two lists count. -/
def SameLevels (items items' : List Json) : Prop :=
  (levels items).take Depth.levels = (levels items').take Depth.levels

lemma SameLevels.refl (items : List Json) : SameLevels items items := rfl

/-- The same levels of two lists count, and both have entries or neither has. -/
def SameSide (items items' : List Json) : Prop :=
  SameLevels items items' ∧ items.isEmpty = items'.isEmpty

lemma SnapshotAlike.rel_asObject? (hkey : key ∈ bookKeys) {j j' : Json}
    (h : SnapshotAlike R S (key,j) (key,j')) :
    Option.Rel (List.Forall₂ (SideAlike S)) j.asObject? j'.asObject? := by
  have hside : key ∉ sideKeys := (by decide : ∀ key ∈ bookKeys, key ∉ sideKeys) key hkey
  cases h with
  | own alike =>
    cases alike with
    | same =>
      cases j.asObject? with
      | none => exact .none
      | some book => exact .some (List.forall₂_same.mpr fun m _ => .same m)
    | side isSide _ => exact absurd isSide hside
  | inner _ alike => exact .some alike

lemma rel_nestedBook? (h : List.Forall₂ (SnapshotAlike R S) ms ms') :
    Option.Rel (List.Forall₂ (SideAlike S)) (nestedBook? ms) (nestedBook? ms') := by
  have hget (key : String) := rel_get? SnapshotAlike.key_eq h key
  have hbook : ∀ key ∈ bookKeys, Option.Rel
      (fun j j' => Option.Rel (List.Forall₂ (SideAlike S)) j.asObject? j'.asObject?)
      (get? ms key) (get? ms' key) :=
    fun key hkey => rel_imp (hget key) fun _ _ hj => hj.rel_asObject? hkey
  exact rel_bind (rel_or (hbook "depth" (by decide)) (hbook "orderbook" (by decide)))
    fun _ _ hj => hj

lemma SameSide.filter {own own' : Option (List Json)} (h : Option.Rel SameSide own own') :
    Option.Rel SameLevels (own.filter (!·.isEmpty)) (own'.filter (!·.isEmpty)) := by
  cases h with
  | none => exact .none
  | @some items items' h =>
    obtain ⟨hlevels,hempty⟩ := h
    rw [Option.filter_some, Option.filter_some, hempty]
    split_ifs
    exacts [.some hlevels,.none]

/-- The levels of a side that count hang on the levels that count of the two places where it may
stand, and on whether there is anything in the first. -/
lemma take_side_congr {nested nested' : Option Members}
    (hown : Option.Rel SameSide ((get? ms key).bind asArray?) ((get? ms' key).bind asArray?))
    (hnested : Option.Rel SameLevels ((nested.bind (get? · key)).bind asArray?)
      ((nested'.bind (get? · key)).bind asArray?)) :
    (side ms nested key).take Depth.levels = (side ms' nested' key).take Depth.levels := by
  have hplace := rel_or (SameSide.filter hown) hnested
  have hlevels {a a' : Option (List Json)} (h : Option.Rel SameLevels a a') :
      ((a.map levels).getD []).take Depth.levels = ((a'.map levels).getD []).take Depth.levels := by
    cases h with
    | none => rfl
    | some h => exact h
  exact hlevels hplace

/-- A snapshot is made of its time and of the levels of its sides that count. -/
lemma snapshot?_of_sides
    (htime : firstPresent? ms snapshotTimeKeys = firstPresent? ms' snapshotTimeKeys)
    (hside : ∀ key ∈ sideKeys, (side ms (nestedBook? ms) key).take Depth.levels =
      (side ms' (nestedBook? ms') key).take Depth.levels) :
    snapshot? (.object ms) = snapshot? (.object ms') := by
  simp only [snapshot?, asObject?, Option.bind_eq_bind, Option.bind_some, htime,
    Depth.ofLevels?_congr (hside "bids" (by decide)) (hside "asks" (by decide))]

theorem snapshot?_alike (h : List.Forall₂ (SnapshotAlike SameSide SameLevels) ms ms') :
    snapshot? (.object ms) = snapshot? (.object ms') := by
  have hget (key : String) := rel_get? SnapshotAlike.key_eq h key
  refine snapshot?_of_sides ?_ fun key hkey => take_side_congr ?_ ?_
  · have hother : ∀ key ∈ snapshotTimeKeys, key ∉ sideKeys ∧ key ∉ bookKeys := by decide
    have hsame : ∀ key ∈ snapshotTimeKeys, get? ms key = get? ms' key := fun key hkey => by
      have hj := hget key
      generalize get? ms key = a, get? ms' key = a' at hj ⊢
      cases hj with
      | none => rfl
      | some hj => rw [hj.eq (hother key hkey).1 (hother key hkey).2]
    rw [firstPresent?, firstPresent?, List.filterMap_congr hsame]
  · exact rel_bind (hget key) fun _ _ hj => hj.rel_asArray? fun items => ⟨.refl items,rfl⟩
  · have hinner := rel_bind (rel_nestedBook? h) fun _ _ hbook =>
      rel_get? SideAlike.key_eq hbook key
    exact rel_bind hinner fun _ _ hj => hj.rel_asArray? SameLevels.refl

lemma SameTop.sameSide (h : SameTop items items') : SameSide items items' := by
  refine ⟨?_,?_⟩
  · rw [SameLevels, take_levels, take_levels, h]
  · have hempty (items : List Json) : items.isEmpty = (items.take Depth.levels).isEmpty := by
      cases items <;> rfl
    rw [hempty items, hempty items', h]

lemma CutAt.sameLevels (h : CutAt items items') : SameLevels items items' := by
  obtain ⟨p,hp,rfl⟩ := h
  rw [SameLevels, levels_of_malformedAt hp]

lemma CutWithin.sameSide (h : CutWithin items items') : SameSide items items' := by
  obtain ⟨hcut,hne⟩ := h
  refine ⟨hcut.sameLevels,?_⟩
  obtain ⟨p,-,rfl⟩ := hcut
  have hfull : items ≠ [] := fun hnil => hne (by rw [hnil, List.take_nil])
  rw [List.isEmpty_eq_false_iff.mpr hfull, List.isEmpty_eq_false_iff.mpr hne]

/-- The entries that the inner book of a snapshot has on a side. -/
def innerSide? (ms : Members) (key : String) : Option (List Json) :=
  ((nestedBook? ms).bind (get? · key)).bind asArray?

lemma snapshot?_of_side_nil (hkey : key ∈ sideKeys) (h : side ms (nestedBook? ms) key = []) :
    snapshot? (.object ms) = none := by
  have hnil : side ms (nestedBook? ms) "bids" = [] ∨ side ms (nestedBook? ms) "asks" = [] := by
    rcases List.mem_cons.mp hkey with rfl | hkey
    · exact .inl h
    · rw [List.mem_singleton] at hkey
      exact .inr (hkey ▸ h)
  simp only [snapshot?, Option.bind_eq_bind, asObject?, Option.bind_some,
    Depth.ofLevels?_of_nil hnil, Option.bind_none, Option.bind_fun_none]

lemma side_of_own (h : get? ms key = some (.array items)) (hne : items ≠ [])
    (nested : Option Members) : side ms nested key = levels items := by
  rw [side, h, Option.bind_some, asArray?, Option.filter_some, List.isEmpty_eq_false_iff.mpr hne]
  rfl

/-- Without entries of its own a snapshot takes those of its inner book. -/
lemma side_of_empty (h : get? ms key = some (.array [])) :
    side ms (nestedBook? ms) key = ((innerSide? ms key).map levels).getD [] := by
  rw [side, h]
  rfl

section
variable {before after : Members}

lemma get?_fresh (hfresh : ∀ m ∈ before, m.1 ≠ key) (j : Json) (other : String) :
    get? (before ++ (key,j) :: after) other =
      if other = key then some j else get? (before ++ after) other := by
  rw [get?, get?, List.lookup_append, List.lookup_append, List.lookup_cons]
  split_ifs with hother
  · subst hother
    rw [lookup_eq_none hfresh, beq_self_eq_true]
    rfl
  · rw [beq_false_of_ne hother]

lemma get?_fresh_self (hfresh : ∀ m ∈ before, m.1 ≠ key) (j : Json) :
    get? (before ++ (key,j) :: after) key = some j := by
  rw [get?_fresh hfresh, if_pos rfl]

/-- An own side has no part in the inner book. -/
lemma nestedBook?_fresh (hkey : key ∈ sideKeys) (hfresh : ∀ m ∈ before, m.1 ≠ key) (j : Json) :
    nestedBook? (before ++ (key,j) :: after) = nestedBook? (before ++ after) := by
  have hne : "depth" ≠ key ∧ "orderbook" ≠ key :=
    (by decide : ∀ key ∈ sideKeys, "depth" ≠ key ∧ "orderbook" ≠ key) key hkey
  rw [nestedBook?, nestedBook?, get?_fresh hfresh, get?_fresh hfresh, if_neg hne.1, if_neg hne.2]

/-- A snapshot has no side where the first entry of its own list is malformed. -/
lemma snapshot?_of_malformed_first (hkey : key ∈ sideKeys)
    (h : get? ms key = some (.array items)) (hfirst : MalformedAt items 0) :
    snapshot? (.object ms) = none := by
  refine snapshot?_of_side_nil hkey ?_
  have hne : items ≠ [] := by
    rintro rfl
    obtain ⟨j,hj,-⟩ := hfirst
    cases hj
  rw [side_of_own h hne, levels_of_malformedAt hfirst]
  rfl

/-- A side that is cut to nothing is taken from the inner book instead. -/
lemma snapshot?_of_cut (hkey : key ∈ sideKeys) (hfresh : ∀ m ∈ before, m.1 ≠ key)
    (h : innerSide? (before ++ (key,.array []) :: after) key = some items) :
    snapshot? (.object (before ++ (key,.array []) :: after)) =
      snapshot? (.object (before ++ (key,.array items) :: after)) := by
  have hbook (j : Json) :
      nestedBook? (before ++ (key,j) :: after) = nestedBook? (before ++ after) :=
    nestedBook?_fresh hkey hfresh j
  refine snapshot?_of_sides ?_ fun other _ => congrArg _ ?_
  · have htime : ∀ other ∈ snapshotTimeKeys, other ≠ key := fun other hother => by
      rintro rfl
      exact absurd hkey ((by decide : ∀ other ∈ snapshotTimeKeys, other ∉ sideKeys) other hother)
    have hsame : ∀ other ∈ snapshotTimeKeys,
        get? (before ++ (key,.array []) :: after) other =
          get? (before ++ (key,.array items) :: after) other := fun other hother => by
      rw [get?_fresh hfresh, get?_fresh hfresh, if_neg (htime other hother),
        if_neg (htime other hother)]
    rw [firstPresent?, firstPresent?, List.filterMap_congr hsame]
  · by_cases hother : other = key
    · subst hother
      rw [side_of_empty (get?_fresh_self hfresh _), h]
      by_cases hne : items = []
      · subst hne
        rw [side_of_empty (get?_fresh_self hfresh _), h]
      · rw [side_of_own (get?_fresh_self hfresh _) hne]
        rfl
    · rw [side, side, get?_fresh hfresh, get?_fresh hfresh, if_neg hother, if_neg hother, hbook,
        hbook]

end

/-- The entries of a side past the tenth make no difference to a snapshot, whether the side is its
own or in its inner book. Where an entry is malformed the side may as well be cut, unless it is the
snapshot's own and nothing is left of it: the snapshot cannot be read then, while without entries of
its own it is read with those of the inner book, if there are any. -/
theorem snapshot?_topLevels :
    (∀ ms ms', List.Forall₂ (SnapshotAlike SameTop SameTop) ms ms' →
      snapshot? (.object ms) = snapshot? (.object ms')) ∧
    (∀ ms ms', List.Forall₂ (SnapshotAlike CutWithin CutAt) ms ms' →
      snapshot? (.object ms) = snapshot? (.object ms')) ∧
    ∀ before after key items, key ∈ sideKeys → (∀ m ∈ before, m.1 ≠ key) → MalformedAt items 0 →
      snapshot? (.object (before ++ (key,.array items) :: after)) = none ∧
      (∀ inner, innerSide? (before ++ (key,.array []) :: after) key = some inner →
        snapshot? (.object (before ++ (key,.array []) :: after)) =
          snapshot? (.object (before ++ (key,.array inner) :: after))) ∧
      (innerSide? (before ++ (key,.array []) :: after) key = none →
        snapshot? (.object (before ++ (key,.array []) :: after)) = none) := by
  refine ⟨fun ms ms' h => ?_,fun ms ms' h => ?_,fun before after key items hkey hfresh hfirst => ?_⟩
  · exact snapshot?_alike (h.imp fun _ _ => .mono (·.sameSide) (·.sameSide.1))
  · exact snapshot?_alike (h.imp fun _ _ => .mono (·.sameSide) (·.sameLevels))
  · refine ⟨snapshot?_of_malformed_first hkey (get?_fresh_self hfresh _) hfirst,
      fun inner h => snapshot?_of_cut hkey hfresh h,fun h => snapshot?_of_side_nil hkey ?_⟩
    rw [side_of_empty (get?_fresh_self hfresh _), h]
    rfl

def writtenLevel (price quantity : String) : Json := .array [.string price, .string quantity]

/-- A snapshot with bids of its own and others in its inner book, which has the asks too. -/
def mixedSnapshot (bids asks : List Json) : Members :=
  [("timestamp", .integer 1704067200000), ("bids", .array bids), ("orderbook", .object [
    ("bids", .array [writtenLevel "98" "1"]), ("asks", .array asks)])]

def tenBids : List Json := List.replicate 10 (writtenLevel "99" "2")

/-- Litter after the tenth bid and after the only ask, and in place of the first bid. -/
theorem snapshot?_topLevels_littered :
    (snapshot? (.object (mixedSnapshot tenBids [writtenLevel "101" "3"]))).isSome = true ∧
    snapshot? (.object (mixedSnapshot tenBids [writtenLevel "101" "3"])) =
      snapshot? (.object (mixedSnapshot (tenBids ++ [.null, writtenLevel "97" "1"])
        [writtenLevel "101" "3"])) ∧
    snapshot? (.object (mixedSnapshot [writtenLevel "99" "2", .null, writtenLevel "97" "1"]
        [writtenLevel "101" "3", .string "-"])) =
      snapshot? (.object (mixedSnapshot [writtenLevel "99" "2"] [writtenLevel "101" "3"])) ∧
    snapshot? (.object (mixedSnapshot [.null] [writtenLevel "101" "3"])) = none ∧
    snapshot? (.object (mixedSnapshot [] [writtenLevel "101" "3"])) =
      snapshot? (.object (mixedSnapshot [writtenLevel "98" "1"] [writtenLevel "101" "3"])) := by
  obtain ⟨htop,hcut,hempty⟩ := snapshot?_topLevels
  have hbids : CutWithin [writtenLevel "99" "2", .null, writtenLevel "97" "1"]
      [writtenLevel "99" "2"] := ⟨⟨1,⟨.null,rfl,rfl⟩,rfl⟩,by simp⟩
  have hasks : CutAt [writtenLevel "101" "3", .string "-"] [writtenLevel "101" "3"] :=
    ⟨1,⟨.string "-",rfl,rfl⟩,rfl⟩
  obtain ⟨hnone,hinner,-⟩ := hempty [("timestamp", .integer 1704067200000)]
    [("orderbook", .object [("bids", .array [writtenLevel "98" "1"]),
      ("asks", .array [writtenLevel "101" "3"])])] "bids" [.null] (by decide) (by simp)
    ⟨.null,rfl,rfl⟩
  refine ⟨by decide +kernel,htop _ _ ?_,hcut _ _ ?_,hnone,hinner _ rfl⟩
  · exact .cons (.own (.same _)) <| .cons (.own (.side (by decide) rfl)) <|
      .cons (.own (.same _)) .nil
  · exact .cons (.own (.same _)) <| .cons (.own (.side (by decide) hbids)) <|
      .cons (.inner (by decide) (.cons (.same _) (.cons (.side (by decide) hasks) .nil))) .nil

end Document
end OrderFlow
