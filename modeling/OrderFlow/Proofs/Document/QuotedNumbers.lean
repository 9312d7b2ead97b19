import OrderFlow.Proofs.Document.Readings
import OrderFlow.Proofs.Json.NumberTexts

/-! Numbers and numeric strings are interchangeable in trades. A number may be written as a string
of its own text, with any blanks around it, under every key that is read as a number. -/
namespace OrderFlow

namespace Json
open OrderFlow.Text
variable {j j' : Json}

/-- The string of a number's own text, with any blanks around it. -/
inductive Quotes : Json → Json → Prop
  | intro {j : Json} {s : String} (before after : List Char) (number : isNumber j = true)
      (text : s.toList = before ++ j.toText.toList ++ after)
      (blankBefore : before.all isBlank = true) (blankAfter : after.all isBlank = true) :
      Quotes j (.string s)

/-- A number and a string of its text are read alike. -/
theorem Quotes.sameNumber (h : Quotes j j') : SameNumber j j' := by
  cases h with
  | @intro s before after number text blankBefore blankAfter =>
    have htrimmed : trimmed s.toList = j.toText.toList := by
      rw [text]
      exact trimmed_padded (List.all_eq_true.mp blankBefore) (List.all_eq_true.mp blankAfter)
        fun c hc => isBlank_of_isNumeral (numerals_toText number c hc)
    have htrim : trim s = j.toText := by rw [trim, htrimmed, String.ofList_toList]
    constructor
    · rw [looseDecimal?, looseDecimal?, looseText?_of_isNumber number, looseText?, htrim]
    · rw [looseInteger?_of_isNumber number, looseInteger?, htrimmed, htrim]

lemma Quotes.isNull_eq (h : Quotes j j') : j.isNull = j'.isNull := by
  obtain ⟨_,_,number,-,-,-⟩ := h
  cases j <;> first | rfl | cases number

end Json

namespace Document
open Json
variable {ms ms' : Members} {key : String}

/-- The keys under which a trade has numbers. -/
def numberKeys : List String := ["price", "qty", "quoteQty"] ++ idKeys ++ timeKeys

/-- The same value, or under a key for numbers a number and a string of its text. -/
def Requoted (key : String) (j j' : Json) : Prop := j = j' ∨ key ∈ numberKeys ∧ Quotes j j'

/-- Numbers of a trade in the first object may stand as strings of their texts in the second. -/
def RequotedMembers : Members → Members → Prop :=
  List.Forall₂ fun m m' => m.1 = m'.1 ∧ Requoted m.1 m.2 m'.2

/-- What is found under a key is the same or requoted. -/
lemma RequotedMembers.rel_get? (h : RequotedMembers ms ms') (key : String) :
    Option.Rel (Requoted key) (get? ms key) (get? ms' key) :=
  rel_imp (Json.rel_get? And.left h key) fun _ _ hj => hj.2

lemma Requoted.sameNumber {j j' : Json} (h : Requoted key j j') : SameNumber j j' := by
  rcases h with rfl | ⟨-,hquotes⟩
  exacts [.refl j,hquotes.sameNumber]

lemma Requoted.isNull_eq {j j' : Json} (h : Requoted key j j') : j.isNull = j'.isNull := by
  rcases h with rfl | ⟨-,hquotes⟩
  exacts [rfl,hquotes.isNull_eq]

theorem RequotedMembers.readAlike (h : RequotedMembers ms ms') : ReadAlike ms ms' where
  held key := by
    have hget := h.rel_get? key
    rw [held?, held?]
    generalize get? ms key = a, get? ms' key = b at hget ⊢
    cases hget with
    | none => exact .none
    | @some j j' hj =>
      rw [Option.filter_some, Option.filter_some, hj.isNull_eq]
      split_ifs
      exacts [.some hj.sameNumber,.none]
  maker := by
    have hget := h.rel_get? "isBuyerMaker"
    rw [held?, held?]
    generalize get? ms "isBuyerMaker" = a, get? ms' "isBuyerMaker" = b at hget ⊢
    cases hget with
    | none => rfl
    | some hj => rw [hj.resolve_right fun hnumber => absurd hnumber.1 (by decide)]

/-- A trade is read the same from numbers and from strings of their texts, with any blanks around
them, or is not read from either. -/
theorem trade?_requoted (h : RequotedMembers ms ms') :
    trade? (.object ms) = trade? (.object ms') := trade?_congr h.readAlike

/-- A trade with an identifier beyond a word with a sign, no time under the first key and a
fraction of a millisecond under a later one. -/
def numberTrade : Members :=
  [("id", .integer 9223372036854775808), ("price", .float 0.62), ("qty", .integer 40),
    ("time", .integer 0), ("ts", .float 1704067320500.5)]

def stringTrade : Members :=
  [("id", .string " 9223372036854775808"), ("price", .string "0.62"), ("qty", .string "\t40\n"),
    ("time", .integer 0), ("ts", .string "1704067320500.5 ")]

theorem trade?_requoted_strings : RequotedMembers numberTrade stringTrade ∧
    (trade? (.object numberTrade)).map (fun t => (t.id,t.time)) =
      some (some 9223372036854775807,1704067320500) ∧
    trade? (.object numberTrade) = trade? (.object stringTrade) := by
  have hid : Quotes (.integer 9223372036854775808) (.string " 9223372036854775808") :=
    .intro [' '] [] (by decide) (by decide +kernel) rfl rfl
  have hprice : Quotes (.float 0.62) (.string "0.62") :=
    .intro [] [] (by decide +kernel) (by decide +kernel) rfl rfl
  have hquantity : Quotes (.integer 40) (.string "\t40\n") :=
    .intro ['\t'] ['\n'] (by decide) (by decide +kernel) rfl rfl
  have htime : Quotes (.float 1704067320500.5) (.string "1704067320500.5 ") :=
    .intro [] [' '] (by decide +kernel) (by decide +kernel) rfl rfl
  have h : RequotedMembers numberTrade stringTrade :=
    .cons ⟨rfl,.inr ⟨by decide,hid⟩⟩ <| .cons ⟨rfl,.inr ⟨by decide,hprice⟩⟩ <|
      .cons ⟨rfl,.inr ⟨by decide,hquantity⟩⟩ <| .cons ⟨rfl,.inl rfl⟩ <|
      .cons ⟨rfl,.inr ⟨by decide,htime⟩⟩ .nil
  exact ⟨h,by decide +kernel,trade?_requoted h⟩

end Document
end OrderFlow
