import Mathlib.Tactic.Lemma
import Mathlib.Tactic.SplitIfs
import OrderFlow.Json.Printer
import OrderFlow.Json.Reader

/-! Strings in JSON text read back as they were written, whatever characters they hold. -/
namespace OrderFlow.Json
open OrderFlow.Text
variable {a b c d x : Char} {n : Nat} {r rest : List Char}

lemma stringBody_plain (hquote : c ≠ '"') (hslash : c ≠ '\\') (h : 32 ≤ c.toNat) (r : List Char) :
    stringBody (c :: r) = (stringBody r).map (Content.push c) := by
  rw [stringBody.eq_6 c r hquote (fun _ _ _ _ _ _ _ _ _ hc => absurd hc hslash)
    (fun _ _ _ _ _ hc => absurd hc hslash) (fun _ _ hc => absurd hc hslash), if_neg]
  · cases stringBody r <;> rfl
  · simpa [hslash] using h

lemma stringBody_escaped (hu : c ≠ 'u') (h : escaped? c = some x) (r : List Char) :
    stringBody ('\\' :: c :: r) = (stringBody r).map (Content.push x) := by
  rw [stringBody.eq_5 c r (fun _ _ _ _ _ _ _ _ _ hc => absurd hc hu)
    (fun _ _ _ _ _ hc => absurd hc hu), h]
  cases stringBody r <;> rfl

/-- Four hexadecimal digits stand for one character, also before another escape. -/
lemma stringBody_unicode (h : hex4? a b c d = some n) (hhigh : isHighSurrogate n = false)
    (hlow : isLowSurrogate n = false) (r : List Char) :
    stringBody ('\\' :: 'u' :: a :: b :: c :: d :: r) =
      (stringBody r).map (Content.push (Char.ofNat n)) := by
  by_cases hr : ∃ e f g i s, r = '\\' :: 'u' :: e :: f :: g :: i :: s
  · obtain ⟨e,f,g,i,s,rfl⟩ := hr
    rw [stringBody.eq_3, h]
    simp only [Option.bind_eq_bind, Option.bind_some, hhigh, hlow, Bool.false_eq_true, if_false]
    cases stringBody ('\\' :: 'u' :: e :: f :: g :: i :: s) <;> rfl
  · rw [stringBody.eq_4 a b c d r fun e f g i s hs => hr ⟨e,f,g,i,s,hs⟩, h]
    simp only [Option.bind_eq_bind, Option.bind_some, hhigh, hlow, Bool.or_false,
      Bool.false_eq_true, if_false]
    cases stringBody r <;> rfl

lemma hex4?_control (h : n < 32) : hex4? '0' '0' (hexChar (n / 16)) (hexChar (n % 16)) = some n := by
  have hall : ∀ n : Fin 32, hex4? '0' '0' (hexChar (n / 16)) (hexChar (n % 16)) = some ↑n := by
    decide
  exact hall ⟨n,h⟩

/-- A character is read back from what is written for it. -/
theorem stringBody_escapedChars (c : Char) (r : List Char) :
    stringBody (escapedChars c ++ r) = (stringBody r).map (Content.push c) := by
  rw [escapedChars.eq_def]
  split
  case h_8 hquote hslash _ _ _ _ _ =>
    split_ifs with hcontrol
    · have hsurrogate : isHighSurrogate c.toNat = false ∧ isLowSurrogate c.toNat = false := by
        simp only [isHighSurrogate, isLowSurrogate, Bool.and_eq_false_iff, decide_eq_false_iff_not]
        omega
      exact (stringBody_unicode (hex4?_control hcontrol) hsurrogate.1 hsurrogate.2 r).trans
        (by rw [Char.ofNat_toNat])
    · exact stringBody_plain hquote hslash (by omega) r
  -- The characters with an escape of their own.
  all_goals exact stringBody_escaped (by decide) rfl r

theorem stringBody_written (cs rest : List Char) :
    stringBody (cs.flatMap escapedChars ++ '"' :: rest) = some (some cs,rest) := by
  induction cs with
  | nil => exact stringBody.eq_2 rest
  | cons c cs ih =>
    rw [List.flatMap_cons, List.append_assoc, stringBody_escapedChars, ih]
    rfl

end OrderFlow.Json
