import Mathlib.Tactic.Common
import OrderFlow.EnvironmentFile.Statement
import OrderFlow.Proofs.Text.Blanks

/-! What a file of assignments adds to an environment. Which variables it sets does not hang on
their values, one that is set keeps its value, and loading a file again changes nothing. What is
written with single quotes reads back. -/
namespace OrderFlow.EnvironmentFile
open Settings (Environment)
variable {env env' : Environment} {n v : String} {cs : List Char} {lines : List (List Char)}

section
variable (env env' : Environment)

/-- How a value goes on does not hang on the variables. -/
lemma step?_part_congr (p : Part) (c : Char) :
    (p.step? env c).map Prod.fst = (p.step? env' c).map Prod.fst := by
  cases p with
  | name quoted read =>
    simp only [Part.step?]
    split_ifs <;> rfl
  | braces quoted read =>
    simp only [Part.step?]
    split_ifs <;> rfl
  | _ => rfl

lemma finish?_isSome_congr (p : Part) : (p.finish? env).isSome = (p.finish? env').isSome := by
  cases p with
  | plain quoted => cases quoted <;> rfl
  | escape quoted => cases quoted <;> rfl
  | name quoted read => cases quoted <;> rfl
  | _ => rfl

lemma valueFrom?_isSome_congr (p : Part) (cs : List Char) :
    (valueFrom? env p cs).isSome = (valueFrom? env' p cs).isSome := by
  induction cs generalizing p with
  | nil => exact finish?_isSome_congr env env' p
  | cons c r ih =>
    have hstep := step?_part_congr env env' p c
    rw [valueFrom?, valueFrom?]
    cases h : p.step? env c with
    | none =>
      rw [h, Option.map_none, eq_comm, Option.map_eq_none_iff] at hstep
      rw [hstep]
      rfl
    | some a =>
      rw [h, Option.map_some, eq_comm, Option.map_eq_some_iff] at hstep
      obtain ⟨b,hb,hnext⟩ := hstep
      have hrest := ih a.1
      rw [hb]
      simpa [hnext, Option.isSome_bind] using hrest

end

/-- The name that a statement assigns to, if it can be read. -/
def assigned? (cs : List Char) : Option String := (assignment? (fun _ => none) cs).map Prod.fst

/-- What a statement assigns to does not hang on the variables. -/
theorem map_assignment? (env : Environment) (cs : List Char) :
    (assignment? env cs).map Prod.fst = assigned? cs := by
  rw [assigned?, assignment?, assignment?]
  cases target? cs with
  | none => rfl
  | some a =>
    have hvalue := valueFrom?_isSome_congr env (fun _ => none) (.plain false) a.2
    simp only [Option.bind_eq_bind, Option.bind_some, value?]
    split_ifs
    · rfl
    · cases h : valueFrom? env (.plain false) a.2 with
      | none =>
        rw [h, Option.isSome_none, eq_comm, Option.isSome_eq_false_iff,
          Option.isNone_iff_eq_none] at hvalue
        rw [hvalue]
      | some written =>
        rw [h, Option.isSome_some, eq_comm, Option.isSome_iff_exists] at hvalue
        obtain ⟨written',h'⟩ := hvalue
        rw [h']
        rfl

/-- The names that statements assign to, up to the first that cannot be read. -/
def assignedNames : List (List Char) → List String
  | [] => []
  | line :: rest =>
    let cs := Text.trimmed line
    if isVoid cs then assignedNames rest
    else
      match assigned? cs with
      | some name => name :: assignedNames rest
      | none => []

/-- A run over statements that is not refused, from an environment to another. -/
inductive Extends : Environment → List (List Char) → Environment → Prop
  | done {env : Environment} : Extends env [] env
  | skip {env env' : Environment} {line rest} (hvoid : isVoid (Text.trimmed line) = true)
    (tail : Extends env rest env') : Extends env (line :: rest) env'
  | stop {env : Environment} {line rest} (hvoid : isVoid (Text.trimmed line) = false)
    (unread : assignment? env (Text.trimmed line) = none) : Extends env (line :: rest) env
  | give {env env' : Environment} {line rest name value}
    (hvoid : isVoid (Text.trimmed line) = false)
    (read : assignment? env (Text.trimmed line) = some (name,value))
    (usable : ((env name).isSome || isUsable value) = true)
    (tail : Extends (assign env name value) rest env') : Extends env (line :: rest) env'

theorem extend_eq_ok_iff : extend env lines = .ok env' ↔ Extends env lines env' := by
  constructor
  · intro h
    induction lines generalizing env with
    | nil =>
      obtain rfl := Except.ok.inj h
      exact .done
    | cons line rest ih =>
      rw [extend] at h
      cases hvoid : isVoid (Text.trimmed line) with
      | true => exact .skip hvoid (ih (by simpa [hvoid] using h))
      | false =>
        cases hread : assignment? env (Text.trimmed line) with
        | none =>
          obtain rfl : env = env' := by simpa [hvoid, hread] using h
          exact .stop hvoid hread
        | some a =>
          obtain ⟨name,value⟩ := a
          cases husable : (env name).isSome || isUsable value with
          | true => exact .give hvoid hread husable (ih (by simpa [hvoid, hread, husable] using h))
          | false => simp [hvoid, hread, husable, fail] at h
  · intro h
    induction h with
    | done => rfl
    | skip hvoid _ ih => simp [extend, hvoid, ih]
    | stop hvoid unread => simp [extend, hvoid, unread]
    | give hvoid read usable _ ih => simp [extend, hvoid, read, usable, ih]

lemma assigned?_eq (env : Environment) {a : String × String} (h : assignment? env cs = some a) :
    assigned? cs = some a.1 := by
  rw [← map_assignment? env, h, Option.map_some]

lemma isSome_assign (env : Environment) (name value n : String) :
    (assign env name value n).isSome = true ↔ (env n).isSome = true ∨ n = name := by
  by_cases h : n = name <;> simp [assign, h]

lemma assign_eq_self {name value : String} (h : (env name).isSome = true) :
    assign env name value = env := by
  obtain ⟨v,hv⟩ := Option.isSome_iff_exists.mp h
  funext n
  by_cases hn : n = name
  · rw [assign, hn, hv, Option.some_or]
  · rw [assign, if_neg hn, Option.or_none]

namespace Extends

/-- A variable that is set keeps its value. -/
theorem keeps (h : Extends env lines env') (hv : env n = some v) : env' n = some v := by
  induction h with
  | done => exact hv
  | skip _ _ ih => exact ih hv
  | stop => exact hv
  | give _ _ _ _ ih => exact ih (by rw [assign, hv, Option.some_or])

/-- Just the names that are assigned to are set besides those that were. -/
theorem isSome_iff (h : Extends env lines env') (n : String) :
    (env' n).isSome = true ↔ (env n).isSome = true ∨ n ∈ assignedNames lines := by
  induction h with
  | done => simp [assignedNames]
  | skip hvoid _ ih => simp [assignedNames, hvoid, ih]
  | stop hvoid unread =>
    have hnone := map_assignment? _ _ ▸ congrArg (Option.map Prod.fst) unread
    simp [assignedNames, hvoid, hnone]
  | give hvoid read usable _ ih => 
    simp [assignedNames, hvoid, assigned?_eq _ read, ih, isSome_assign, or_assoc]

/-- Carrying out the same statements again changes nothing. -/
theorem again (h : Extends env lines env') : Extends env' lines env' := by
  induction h with
  | done => exact .done
  | skip hvoid _ ih => exact .skip hvoid ih
  | stop hvoid unread => exact .stop hvoid unread
  | @give env env' line rest name value hvoid read _ tail ih =>
    have hset : (env' name).isSome = true := by
      obtain ⟨v,hv⟩ := Option.isSome_iff_exists.mp ((isSome_assign ..).mpr (Or.inr rfl))
      rw [tail.keeps hv, Option.isSome_some]
    obtain ⟨⟨name',value'⟩,hread',rfl⟩ := Option.map_eq_some_iff.mp
      ((map_assignment? env' _).trans (assigned?_eq env read))
    refine .give hvoid hread' (by rw [hset, Bool.true_or]) ?_
    rwa [assign_eq_self hset]

end Extends

/-- A file is refused only for a variable that is not set and cannot take its value. -/
theorem extend_eq_error {f : Failure} (h : extend env lines = .error f) :
    ∃ name, f = .ofCause (.unusableVariable name) ∧ env name = none := by
  induction lines generalizing env with
  | nil => cases h
  | cons line rest ih =>
    rw [extend] at h
    cases hvoid : isVoid (Text.trimmed line) with
    | true => exact ih (by simpa [hvoid] using h)
    | false =>
      cases hread : assignment? env (Text.trimmed line) with
      | none => simp [hvoid, hread] at h
      | some a =>
        obtain ⟨name,value⟩ := a
        cases husable : (env name).isSome || isUsable value with
        | true =>
          obtain ⟨name',hf,hnone⟩ := ih (by simpa [hvoid, hread, husable] using h)
          exact ⟨name',hf,(Option.or_eq_none_iff.mp hnone).1⟩
        | false =>
          simp only [Bool.or_eq_false_iff, Option.isSome_eq_false_iff, Option.isNone_iff_eq_none]
            at husable
          refine ⟨name,?_,husable.1⟩
          simpa [hvoid, hread, husable, fail] using h.symm

/-- A file keeps what is set, adds just the names that it assigns to, and changes nothing when it is
loaded again. -/
theorem load_eq_ok {text : String} (h : load env text = .ok env') :
    (∀ n v, env n = some v → env' n = some v) ∧
    (∀ n, (env' n).isSome = true ↔ (env n).isSome = true ∨
      n ∈ assignedNames (statements .start (withoutByteOrderMark text.toList))) ∧
    load env' text = .ok env' := by
  have hrun := extend_eq_ok_iff.mp h
  exact ⟨fun n v => hrun.keeps,hrun.isSome_iff,extend_eq_ok_iff.mpr hrun.again⟩

namespace Scan

/-- Characters that are all part of one statement, between two states. -/
inductive Runs : Scan → List Char → Scan → Prop
  | done {s} : Runs s [] s
  | next {s s' c cs} (sameLine : c = '\n' → s.endsLine = false) (kept : s.step c ≠ .comment)
    (tail : Runs (s.step c) cs s') : Runs s (c :: cs) s'

variable {s s' s'' : Scan} {ds rest : List Char}

theorem Runs.append (h : Runs s cs s') (h' : Runs s' ds s'') : Runs s (cs ++ ds) s'' := by
  induction h with
  | done => exact h'
  | next sameLine kept _ ih => exact .next sameLine kept (ih h')

/-- The characters of a statement make one line up to the line feed that ends it. -/
theorem Runs.statements (h : Runs s cs s') (hend : s'.endsLine = true) :
    statements s (cs ++ '\n' :: rest) = cs :: statements .start rest := by
  induction h with
  | done => simp [EnvironmentFile.statements, hend]
  | @next s s' c cs sameLine kept _ ih =>
    have hline : (c = '\n' && s.endsLine) = false := by
      cases hs : s.endsLine with
      | false => rw [Bool.and_false]
      | true => simpa using fun hc => by simp [sameLine hc] at hs
    simp [EnvironmentFile.statements, hline, kept, ih hend]

end Scan

/-- A line that gives a value to a variable, the value in single quotes. -/
def written (name value : String) : List Char :=
  name.toList ++ ['=','\''] ++ value.toList ++ ['\'']

/-- The text of such lines. -/
def writtenText (pairs : List (String × String)) : String :=
  String.ofList (pairs.flatMap fun p => written p.1 p.2 ++ ['\n'])

/-- A name in the usual form, and a value that can stand in single quotes. -/
structure IsWritable (name value : String) : Prop where
  name : ∃ c r, name.toList = c :: r ∧ isNameStart c = true ∧ ∀ d ∈ r, isNameChar d = true
  value : ∀ c ∈ value.toList, c ≠ '\'' ∧ c ≠ '\\' ∧ c ≠ '\x00'


section Written
variable {c : Char} {name value : String} {rest : List Char}

lemma isNameChar_of_isNameStart (h : isNameStart c = true) : isNameChar c = true := by
  simp only [isNameStart, isNameChar, Char.isAlphanum, Bool.or_eq_true] at h ⊢
  tauto

lemma isBlank_of_isNameChar (h : isNameChar c = true) : Text.isBlank c = false := by
  have hrange : 46 ≤ c.toNat ∧ c.toNat ≤ 122 := by
    have hwithin {low high : UInt32} (hlow : 46 ≤ low.toNat) (hhigh : high.toNat ≤ 122)
        (h : low ≤ c.val ∧ c.val ≤ high) : 46 ≤ c.toNat ∧ c.toNat ≤ 122 :=
      ⟨Nat.le_trans hlow h.1,Nat.le_trans h.2 hhigh⟩
    simp only [isNameChar, Char.isAlphanum, Char.isDigit, Bool.or_eq_true, Bool.and_eq_true,
      decide_eq_true_eq, beq_iff_eq] at h
    rcases h with ((h | h) | rfl) | rfl
    · rcases Bool.or_eq_true_iff.mp h with h | h
      · exact hwithin (by decide) (by decide) (of_decide_eq_true h)
      · obtain ⟨hlow,hhigh⟩ := Bool.and_eq_true_iff.mp h
        exact hwithin (by decide) (by decide) ⟨of_decide_eq_true hlow,of_decide_eq_true hhigh⟩
    · exact hwithin (by decide) (by decide) h
    · decide
    · decide
  simp only [Text.isBlank, Bool.or_eq_false_iff, Bool.and_eq_false_iff, decide_eq_false_iff_not]
  omega

lemma ne_of_isNameChar {d : Char} (h : isNameChar c = true) (hd : isNameChar d = false) :
    c ≠ d := by
  rintro rfl
  rw [h] at hd
  cases hd

lemma ofChar_of_isNameChar (h : isNameChar c = true) : Scan.ofChar c = .plain := by
  rw [Scan.ofChar, if_neg (ne_of_isNameChar h (by decide)), if_neg]
  rintro (rfl | rfl) <;> exact absurd h (by decide)

lemma runs_name {ds : List Char} (h : ∀ d ∈ ds, isNameChar d = true) :
    Scan.Runs .plain ds .plain := by
  induction ds with
  | nil => exact .done
  | cons d r ih =>
    have hd := h d List.mem_cons_self
    have hstep : Scan.step .plain d = .plain := by
      simp [Scan.step, isBlank_of_isNameChar hd, ofChar_of_isNameChar hd]
    refine .next (fun hfeed => absurd hfeed (ne_of_isNameChar hd (by decide))) (by simp [hstep]) ?_
    rw [hstep]
    exact ih fun e he => h e (List.mem_cons_of_mem d he)

lemma runs_quoted {ds : List Char} (h : ∀ d ∈ ds, d ≠ '\'' ∧ d ≠ '\\') :
    Scan.Runs (.quoted '\'') ds (.quoted '\'') := by
  induction ds with
  | nil => exact .done
  | cons d r ih =>
    obtain ⟨hquote,hbackslash⟩ := h d List.mem_cons_self
    have hstep : Scan.step (.quoted '\'') d = .quoted '\'' := by
      simp [Scan.step, hquote, hbackslash]
    refine .next (fun _ => rfl) (by simp [hstep]) ?_
    rw [hstep]
    exact ih fun e he => h e (List.mem_cons_of_mem d he)

/-- What stands in single quotes is kept as it is. -/
lemma valueFrom?_single (env : Environment) {ds : List Char} (h : ∀ d ∈ ds, d ≠ '\'') :
    valueFrom? env .single (ds ++ ['\'']) = some ds := by
  induction ds with
  | nil => rfl
  | cons d r ih =>
    have hd := h d List.mem_cons_self
    simp [valueFrom?, Part.step?, hd, ih fun e he => h e (List.mem_cons_of_mem d he)]

namespace IsWritable
variable (h : IsWritable name value)
include h

lemma runs : Scan.Runs .start (written name value) .plain := by
  obtain ⟨c,r,hname,hc,hr⟩ := h.name
  have hstart := isNameChar_of_isNameStart hc
  have hstep : Scan.step .start c = .plain := by
    simp [Scan.step, ne_of_isNameChar hstart (by decide : isNameChar '#' = false),
      isBlank_of_isNameChar hstart, ofChar_of_isNameChar hstart]
  have htarget : Scan.Runs .start name.toList .plain := by
    rw [hname]
    have hfeed := ne_of_isNameChar hstart (by decide : isNameChar '\n' = false)
    refine .next (fun h => absurd h hfeed) (by simp [hstep]) ?_
    rw [hstep]
    exact runs_name hr
  have hopen : Scan.Runs .plain ['=','\''] (.quoted '\'') :=
    .next (by decide) (by decide) (.next (by decide) (by decide) .done)
  have hvalue := runs_quoted fun d hd => ⟨(h.value d hd).1,(h.value d hd).2.1⟩
  have hclose : Scan.Runs (.quoted '\'') ['\''] .plain := .next (by decide) (by decide) .done
  exact ((htarget.append hopen).append hvalue).append hclose

lemma trimmed_written : Text.trimmed (written name value) = written name value := by
  obtain ⟨c,r,hname,hc,-⟩ := h.name
  apply Text.trimmed_of_ends
  · simp [written, hname, isBlank_of_isNameChar (isNameChar_of_isNameStart hc)]
  · rw [written, List.getLast?_concat]
    rintro _ ⟨⟩
    decide

lemma isVoid_written : isVoid (written name value) = false := by
  obtain ⟨c,r,hname,hc,-⟩ := h.name
  have hmark := ne_of_isNameChar (isNameChar_of_isNameStart hc) (by decide : isNameChar '#' = false)
  simp [written, hname, isVoid, hmark]

lemma target?_written :
    target? (written name value) = some (name,'\'' :: (value.toList ++ ['\''])) := by
  obtain ⟨c,r,hname,hc,hr⟩ := h.name
  have hchars : ∀ d ∈ name.toList, isNameChar d = true := by
    simpa [hname] using ⟨isNameChar_of_isNameStart hc,hr⟩
  have hmark : ∀ d ∈ ('=' :: '\'' :: (value.toList ++ ['\''])).head?, isNameChar d = false := by
    rintro _ ⟨⟩
    decide
  obtain ⟨htake,hdrop⟩ := Text.takeWhile_run hchars hmark
  have hcons : written name value = c :: (r ++ '=' :: '\'' :: (value.toList ++ ['\''])) := by
    simp [written, hname]
  rw [hname, List.cons_append] at htake hdrop
  have hname? : name? (written name value) =
      some (name,'=' :: '\'' :: (value.toList ++ ['\''])) := by
    rw [hcons, name?, if_pos hc, htake, hdrop, ← hname, String.ofList_toList]
  simp [target?, hname?, afterEquals?, skipBlank, Text.isBlank]

theorem assignment?_written (env : Environment) :
    assignment? env (written name value) = some (name,value) := by
  have hvalue := valueFrom?_single env fun d hd => (h.value d hd).1
  simp [assignment?, h.target?_written, isVoid, value?, valueFrom?, Part.step?, hvalue]

end IsWritable
end Written

variable {pairs : List (String × String)}

lemma withoutByteOrderMark_of_head (h : ∀ c ∈ cs.head?, c ≠ '\uFEFF') :
    withoutByteOrderMark cs = cs := by
  unfold withoutByteOrderMark
  split
  · exact absurd rfl (h _ rfl)
  · rfl

lemma statements_writtenText (h : ∀ p ∈ pairs, IsWritable p.1 p.2) :
    statements .start (writtenText pairs).toList =
      pairs.map (fun p => written p.1 p.2) ++ [[]] := by
  rw [writtenText, String.toList_ofList]
  induction pairs with
  | nil => rfl
  | cons p rest ih =>
    have hrest := ih fun q hq => h q (List.mem_cons_of_mem p hq)
    have hrun := (h p List.mem_cons_self).runs
    rw [List.flatMap_cons, List.append_assoc, List.singleton_append, hrun.statements rfl, hrest,
      List.map_cons, List.cons_append]

/-- Each variable that is not set takes the first value that is written for it. -/
lemma extends_written (h : ∀ p ∈ pairs, IsWritable p.1 p.2) (env : Environment) :
    Extends env (pairs.map (fun p => written p.1 p.2) ++ [[]])
      fun n => (env n).or (pairs.lookup n) := by
  induction pairs generalizing env with
  | nil =>
    have hblank : Extends env [[]] env := .skip rfl .done
    simpa using hblank
  | cons p rest ih =>
    obtain ⟨name,value⟩ := p
    have hp := h _ List.mem_cons_self
    have husable : isUsable value = true := by
      simpa [isUsable] using fun hzero => (hp.value _ hzero).2.2 rfl
    have hlater := ih (fun q hq => h q (List.mem_cons_of_mem _ hq)) (assign env name value)
    have hlookup : (fun n => (assign env name value n).or (rest.lookup n)) =
        fun n => (env n).or (((name,value) :: rest).lookup n) := by
      funext n
      by_cases hn : n = name
      · simp [assign, hn]
      · simp [assign, hn, List.lookup_cons, beq_eq_false_iff_ne.mpr hn]
    rw [hlookup] at hlater
    have hvoid : isVoid (Text.trimmed (written name value)) = false := by
      rw [hp.trimmed_written, hp.isVoid_written]
    have hread : assignment? env (Text.trimmed (written name value)) = some (name,value) := by
      rw [hp.trimmed_written, hp.assignment?_written]
    exact .give hvoid hread (by simp [husable]) hlater

/-- A file that is written reads back: each variable that is not set takes the first value that is
written for it. -/
theorem load_writtenText (h : ∀ p ∈ pairs, IsWritable p.1 p.2) (env : Environment) :
    load env (writtenText pairs) = .ok fun n => (env n).or (pairs.lookup n) := by
  have hmark : withoutByteOrderMark (writtenText pairs).toList = (writtenText pairs).toList := by
    apply withoutByteOrderMark_of_head
    cases pairs with
    | nil => simp [writtenText]
    | cons p rest =>
      obtain ⟨c,r,hname,hc,-⟩ := (h p List.mem_cons_self).name
      have hne := ne_of_isNameChar (isNameChar_of_isNameStart hc)
        (by decide : isNameChar '\uFEFF' = false)
      simp [writtenText, written, hname, hne]
  rw [load, hmark, statements_writtenText h, extend_eq_ok_iff]
  exact extends_written h env

end OrderFlow.EnvironmentFile
