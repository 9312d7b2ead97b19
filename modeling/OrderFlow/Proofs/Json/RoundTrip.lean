import OrderFlow.Json.Reader
import OrderFlow.Proofs.Json.Floats
import OrderFlow.Proofs.Json.Strings
import OrderFlow.Proofs.Traversal

/-! What is written as JSON is read again: the same value, with each double as its digits are read
and null where nothing else could be written. -/
namespace OrderFlow.Json
open OrderFlow.Text
variable {s : Spacing} {x : Float} {j : Json} {js : List Json} {k : String} {ms : Members}
  {fuel level : Nat} {c : Char} {bs cs r rest : List Char}

/-- What the text of a double is read as. -/
def rereadFloat (x : Float) : Json := ((number (floatChars x)).map (·.1)).getD .null

mutual

/-- What the text of a value is read as. -/
def reread : Json → Json
  | .float x => rereadFloat x
  | .array js => .array (rereadItems js)
  | .object ms => .object (rereadMembers ms)
  | .unreadable => .null
  | j => j

def rereadItems : List Json → List Json
  | [] => []
  | j :: js => reread j :: rereadItems js

def rereadMembers : List (String × Json) → List (String × Json)
  | [] => []
  | (k, j) :: ms => (k, reread j) :: rereadMembers ms

end

@[simp] lemma reread_null : reread .null = .null := rfl

@[simp] lemma reread_integer (i : Int) : reread (.integer i) = .integer i := rfl

@[simp] lemma reread_string (t : String) : reread (.string t) = .string t := rfl

mutual

/-- Do all whole numbers in a value fit words? -/
def fits : Json → Bool
  | .integer i => -2 ^ 63 ≤ i && i < 2 ^ 64
  | .array js => fitsItems js
  | .object ms => fitsMembers ms
  | _ => true

def fitsItems : List Json → Bool
  | [] => true
  | j :: js => fits j && fitsItems js

def fitsMembers : List (String × Json) → Bool
  | [] => true
  | (_, j) :: ms => fits j && fitsMembers ms

end

/-- Parts are set apart by blanks only. -/
structure Spacing.IsBlank (s : Spacing) : Prop where
  newline : ∀ n, ∀ c ∈ s.newline n, isSpace c = true
  colon : ∃ bs, s.colon = ':' :: bs ∧ ∀ c ∈ bs, isSpace c = true

lemma isBlank_compact : compact.IsBlank where
  newline _ _ hc := nomatch hc
  colon := ⟨[],rfl,nofun⟩

lemma isBlank_indented : indented.IsBlank where
  newline n c hc := by
    rcases List.mem_cons.mp hc with rfl | hc
    · rfl
    · rw [List.eq_of_mem_replicate hc]
      rfl
  colon := ⟨[' '],rfl,by simp [isSpace]⟩

lemma skipBlank_append (h : ∀ c ∈ bs, isSpace c = true) (r : List Char) :
    skipBlank (bs ++ r) = skipBlank r :=
  List.dropWhile_append_of_pos h

lemma skipBlank_cons (h : isSpace c = false) (r : List Char) : skipBlank (c :: r) = c :: r := by
  simp [skipBlank, h]

lemma rereadFloat_of_isFinite (hx : Binary.isFinite x = true) (hr : Ends r) :
    ∃ y, rereadFloat x = .float y ∧ number (floatChars x ++ r) = some (.float y,r) := by
  obtain ⟨y,hy⟩ := exists_number_floatChars hx
  have halone := hy [] nofun
  rw [List.append_nil] at halone
  exact ⟨y,by rw [rereadFloat, halone]; rfl,hy r hr⟩

/-- What a number starts with. -/
lemma starts_of_number {p : Json × List Char} (h : number cs = some p) :
    ∃ c r, cs = c :: r ∧ (c = '-' || isDigit c) = true := by
  cases cs with
  | nil => cases h
  | cons c r =>
    refine ⟨c,r,rfl,?_⟩
    by_contra hc
    rw [Bool.or_eq_true, decide_eq_true_eq, not_or, Bool.not_eq_true] at hc
    rw [number] at h
    · simp [unsignedNumber, hc.2] at h
    · rintro _ hminus
      exact hc.1 (List.cons.inj hminus).1

lemma value_of_number {p : Json × List Char} (hcs : skipBlank cs = r) (h : number r = some p) :
    value (fuel + 1) cs = some p := by
  obtain ⟨c,r,rfl,hc⟩ := starts_of_number h
  rw [value, hcs]
  split <;> next hhead => cases hhead <;> first | exact absurd hc (by decide) | exact (if_pos hc).trans h

lemma ends_of_head (h : isDigit c = false ∧ c ≠ '.' ∧ c ≠ 'e' ∧ c ≠ 'E') (r : List Char) :
    Ends (c :: r) := by
  rintro _ ⟨⟩
  exact h

lemma ends_of_isSpace (h : isSpace c = true) (r : List Char) : Ends (c :: r) := by
  refine ends_of_head ?_ r
  simp only [isSpace, Bool.or_eq_true, decide_eq_true_eq] at h
  rcases h with ((rfl | rfl) | rfl) | rfl <;> decide

lemma ends_append (hbs : ∀ c ∈ bs, isSpace c = true) (hr : Ends r) : Ends (bs ++ r) := by
  cases bs with
  | nil => exact hr
  | cons c bs => exact ends_of_isSpace (hbs c List.mem_cons_self) _

lemma not_isSpace_of_starts (hc : (c = '-' || isDigit c) = true) : isSpace c = false ∧ c ≠ ']' := by
  rw [Bool.or_eq_true, decide_eq_true_eq] at hc
  rcases hc with rfl | hc
  · decide
  · constructor
    · simp only [isSpace, Bool.or_eq_false_iff, decide_eq_false_iff_not]
      refine ⟨⟨⟨?_,?_⟩,?_⟩,?_⟩ <;> rintro rfl <;> cases hc
    · rintro rfl
      cases hc

lemma starts_of_integer (i : Int) :
    ∃ c r, (if i < 0 then ['-'] else []) ++ natDigits i.natAbs = c :: r ∧
      (c = '-' || isDigit c) = true := by
  obtain ⟨c,r,hcs⟩ := List.exists_cons_of_ne_nil (natDigits_ne_nil i.natAbs)
  split_ifs
  · exact ⟨'-',natDigits i.natAbs,rfl,rfl⟩
  · refine ⟨c,r,hcs,?_⟩
    rw [isDigit_of_mem_natDigits (hcs ▸ List.mem_cons_self), Bool.or_true]

/-- No value starts with a blank or a closing mark. -/
lemma exists_chars_cons (s : Spacing) (level : Nat) (j : Json) :
    ∃ c r, chars s level j = c :: r ∧ isSpace c = false ∧ c ≠ ']' := by
  cases j with
  | null => exact ⟨_,_,rfl,by decide,by decide⟩
  | bool b => cases b <;> exact ⟨_,_,rfl,by decide,by decide⟩
  | integer i =>
    obtain ⟨c,r,hcs,hc⟩ := starts_of_integer i
    exact ⟨c,r,hcs,not_isSpace_of_starts hc⟩
  | float x =>
    by_cases hx : Binary.isFinite x = true
    · obtain ⟨y,-,hread⟩ := rereadFloat_of_isFinite (r := []) hx nofun
      obtain ⟨c,r,hcs,hc⟩ := starts_of_number hread
      rw [List.append_nil] at hcs
      exact ⟨c,r,hcs,not_isSpace_of_starts hc⟩
    · exact ⟨'n',['u','l','l'],if_neg hx,by decide,by decide⟩
  | string t => exact ⟨_,_,rfl,by decide,by decide⟩
  | array js => cases js <;> exact ⟨_,_,rfl,by decide,by decide⟩
  | object ms => cases ms <;> exact ⟨_,_,rfl,by decide,by decide⟩
  | unreadable => exact ⟨_,_,rfl,by decide,by decide⟩

/-- What is written with some fuel is read as it should be: a value, the items of an array up to
its end, and the members of an object. -/
structure Reads (s : Spacing) (fuel : Nat) : Prop where
  value : ∀ j level cs rest, fits j = true → (chars s level j).length ≤ fuel → Ends rest →
    skipBlank cs = chars s level j ++ rest → Json.value fuel cs = some (reread j,rest)
  items : ∀ j js level cs bs rest, fitsItems (j :: js) = true →
    (chars s level j).length + (itemsChars s level js).length < fuel →
    (∀ c ∈ bs, isSpace c = true) →
    skipBlank cs = chars s level j ++ (itemsChars s level js ++ (bs ++ ']' :: rest)) →
    Json.items fuel cs = some (rereadItems (j :: js),rest)
  members : ∀ k j ms level cs bs rest, fitsMembers ((k,j) :: ms) = true →
    (chars s level j).length + (membersChars s level ms).length < fuel →
    (∀ c ∈ bs, isSpace c = true) →
    skipBlank cs = stringChars k ++ (s.colon ++ (chars s level j ++
      (membersChars s level ms ++ (bs ++ '}' :: rest)))) →
    Json.members fuel cs =
      some ((rereadMembers ((k,j) :: ms)).map fun m => (some m.1.toList,m.2),rest)

lemma reads_zero : Reads s 0 where
  value j level _ _ _ hfuel _ _ := by
    obtain ⟨c,r,hcs,-⟩ := exists_chars_cons s level j
    simp [hcs] at hfuel
  items _ _ _ _ _ _ _ hfuel := by omega
  members _ _ _ _ _ _ _ _ hfuel := by omega

lemma skipBlank_chars (hbs : ∀ c ∈ bs, isSpace c = true) (s : Spacing) (level : Nat) (j : Json)
    (r : List Char) : skipBlank (bs ++ (chars s level j ++ r)) = chars s level j ++ r := by
  obtain ⟨c,cs,hcs,hc,-⟩ := exists_chars_cons s level j
  rw [skipBlank_append hbs, hcs, List.cons_append, skipBlank_cons hc]

/-- Items are read one after the other. -/
lemma items_succ (hs : s.IsBlank) (h : Reads s fuel) (hfits : fitsItems (j :: js) = true)
    (hfuel : (chars s level j).length + (itemsChars s level js).length < fuel + 1)
    (hbs : ∀ c ∈ bs, isSpace c = true)
    (hcs : skipBlank cs = chars s level j ++ (itemsChars s level js ++ (bs ++ ']' :: rest))) :
    items (fuel + 1) cs = some (rereadItems (j :: js),rest) := by
  rw [fitsItems, Bool.and_eq_true] at hfits
  cases js with
  | nil =>
    have hend : skipBlank (bs ++ ']' :: rest) = ']' :: rest := by
      rw [skipBlank_append hbs, skipBlank_cons (by decide)]
    rw [itemsChars, List.nil_append] at hcs
    rw [items, h.value j level cs _ hfits.1 (by omega)
      (ends_append hbs (ends_of_head (by decide) rest)) hcs]
    simp only [Option.bind_eq_bind, Option.bind_some, hend]
    rfl
  | cons j' js =>
    simp only [itemsChars, List.cons_append, List.append_assoc, List.length_cons,
      List.length_append] at hcs hfuel
    rw [items, h.value j level cs _ hfits.1 (by omega) (ends_of_head (by decide) _) hcs]
    simp only [Option.bind_eq_bind, Option.bind_some, skipBlank_cons (by decide : isSpace ',' = false)]
    rw [h.items j' js level _ bs rest hfits.2 (by omega) hbs (skipBlank_chars (hs.newline level) ..)]
    rfl

/-- Members are read one after the other. -/
lemma members_succ (hs : s.IsBlank) (h : Reads s fuel) (hfits : fitsMembers ((k,j) :: ms) = true)
    (hfuel : (chars s level j).length + (membersChars s level ms).length < fuel + 1)
    (hbs : ∀ c ∈ bs, isSpace c = true)
    (hcs : skipBlank cs = stringChars k ++ (s.colon ++ (chars s level j ++
      (membersChars s level ms ++ (bs ++ '}' :: rest))))) :
    members (fuel + 1) cs =
      some ((rereadMembers ((k,j) :: ms)).map fun m => (some m.1.toList,m.2),rest) := by
  rw [fitsMembers, Bool.and_eq_true] at hfits
  obtain ⟨as,hcolon,has⟩ := hs.colon
  rw [stringChars, List.cons_append, List.cons_append, List.append_assoc, List.singleton_append] at hcs
  rw [members, hcs]
  simp only [stringBody_written, Option.bind_eq_bind, Option.bind_some, hcolon, List.cons_append,
    skipBlank_cons (by decide : isSpace ':' = false)]
  cases ms with
  | nil =>
    have hend : skipBlank (bs ++ '}' :: rest) = '}' :: rest := by
      rw [skipBlank_append hbs, skipBlank_cons (by decide)]
    rw [membersChars, List.nil_append, h.value j level _ _ hfits.1 (by omega)
      (ends_append hbs (ends_of_head (by decide) rest)) (skipBlank_chars has ..)]
    simp only [Option.bind_some, hend]
    rfl
  | cons m ms =>
    obtain ⟨k',j'⟩ := m
    simp only [membersChars, List.cons_append, List.append_assoc, List.length_cons,
      List.length_append] at hfuel ⊢
    rw [h.value j level _ _ hfits.1 (by omega) (ends_of_head (by decide) _) (skipBlank_chars has ..)]
    simp only [Option.bind_some, skipBlank_cons (by decide : isSpace ',' = false)]
    rw [h.members k' j' ms level _ bs rest hfits.2 (by omega) hbs ?_]
    · rfl
    · rw [skipBlank_append (hs.newline level)]
      exact skipBlank_cons (by decide) _

lemma array_succ (hs : s.IsBlank) (h : Reads s fuel) (hfits : fitsItems (j :: js) = true)
    (hfuel : (chars s level (.array (j :: js))).length ≤ fuel + 1)
    (hcs : skipBlank cs = chars s level (.array (j :: js)) ++ rest) :
    value (fuel + 1) cs = some (.array (rereadItems (j :: js)),rest) := by
  simp only [chars, List.cons_append, List.append_assoc, List.nil_append, List.length_cons,
    List.length_append, List.length_nil] at hcs hfuel
  have hstart := skipBlank_chars (hs.newline (level + 1)) s (level + 1) j
    (itemsChars s (level + 1) js ++ (s.newline level ++ ']' :: rest))
  have hitems := h.items j js (level + 1) _ (s.newline level) rest hfits (by omega)
    (hs.newline level) (@skipBlank_chars [] nofun ..)
  obtain ⟨c,r,hc,-,hclose⟩ := exists_chars_cons s (level + 1) j
  rw [value, hcs]
  simp only [hstart]
  rw [List.nil_append] at hitems
  rw [hc, List.cons_append] at hitems ⊢
  split
  · next hhead => exact absurd (List.cons.inj hhead).1 hclose
  · rw [hitems]
    rfl

lemma objectOf_written (ms : Members) :
    objectOf (ms.map fun m => (some m.1.toList,m.2)) = .object ms := by
  have hall : (ms.map fun m => (some m.1.toList,m.2)).mapM
      (fun m : Content × Json => m.1.map fun key => (String.ofList key,m.2)) = some ms := by
    rw [mapM_eq_some_iff, List.forall₂_map_left_iff]
    refine List.forall₂_same.mpr fun m _ => ?_
    rw [Option.map_some, String.ofList_toList]
  rw [objectOf, hall]

lemma object_succ (hs : s.IsBlank) (h : Reads s fuel) (hfits : fitsMembers ((k,j) :: ms) = true)
    (hfuel : (chars s level (.object ((k,j) :: ms))).length ≤ fuel + 1)
    (hcs : skipBlank cs = chars s level (.object ((k,j) :: ms)) ++ rest) :
    value (fuel + 1) cs = some (.object (rereadMembers ((k,j) :: ms)),rest) := by
  simp only [chars, List.cons_append, List.append_assoc, List.nil_append, List.length_cons,
    List.length_append, List.length_nil] at hcs hfuel
  have hquote : ∀ r, skipBlank (stringChars k ++ r) = stringChars k ++ r := fun r =>
    skipBlank_cons (by decide) _
  have hmembers := h.members k j ms (level + 1) _ (s.newline level) rest hfits (by omega)
    (hs.newline level) (hquote _)
  have hobject := congrArg (Option.map fun p : List (Content × Json) × List Char =>
    (objectOf p.1,p.2)) hmembers
  rw [Option.map_some, objectOf_written] at hobject
  rw [value, hcs]
  simp only [skipBlank_append (hs.newline (level + 1)), hquote]
  exact hobject

lemma value_succ (hs : s.IsBlank) (h : Reads s fuel) (hfits : fits j = true)
    (hfuel : (chars s level j).length ≤ fuel + 1) (hrest : Ends rest)
    (hcs : skipBlank cs = chars s level j ++ rest) :
    value (fuel + 1) cs = some (reread j,rest) := by
  cases j with
  | null => rw [value, hcs]; rfl
  | bool b => cases b <;> rw [value, hcs] <;> rfl
  | unreadable => rw [value, hcs]; rfl
  | integer i =>
    rw [fits, Bool.and_eq_true, decide_eq_true_eq, decide_eq_true_eq] at hfits
    exact value_of_number hcs (number_written hfits.1 hfits.2 hrest)
  | float x =>
    by_cases hx : Binary.isFinite x = true
    · obtain ⟨y,hy,hread⟩ := rereadFloat_of_isFinite hx hrest
      rw [reread, hy]
      exact value_of_number hcs hread
    · have hnull : floatChars x = ['n','u','l','l'] := if_neg hx
      rw [chars, hnull] at hcs
      rw [value, hcs, reread, rereadFloat, hnull]
      rfl
  | string t =>
    have hquote : skipBlank cs = '"' :: (t.toList.flatMap escapedChars ++ '"' :: rest) := by
      rw [hcs, chars, stringChars, List.cons_append, List.cons_append, List.append_assoc]
      rfl
    rw [value, hquote]
    simp only [stringBody_written, Option.map_some, stringOf, String.ofList_toList]
    rfl
  | array js =>
    cases js with
    | nil => rw [value, hcs]; rfl
    | cons j js => exact array_succ hs h hfits hfuel hcs
  | object ms =>
    cases ms with
    | nil => rw [value, hcs]; rfl
    | cons m ms => exact object_succ hs h hfits hfuel hcs

lemma reads_succ (hs : s.IsBlank) (h : Reads s fuel) : Reads s (fuel + 1) where
  value _ _ _ _ hfits hfuel hrest hcs := value_succ hs h hfits hfuel hrest hcs
  items _ _ _ _ _ _ hfits hfuel hbs hcs := items_succ hs h hfits hfuel hbs hcs
  members _ _ _ _ _ _ _ hfits hfuel hbs hcs := members_succ hs h hfits hfuel hbs hcs

theorem reads (hs : s.IsBlank) (fuel : Nat) : Reads s fuel := by
  induction fuel with
  | zero => exact reads_zero
  | succ fuel ih => exact reads_succ hs ih

/-- A written value is read again. -/
theorem parse?_chars (hs : s.IsBlank) (hfits : fits j = true) :
    parse? (String.ofList (chars s 0 j)) = some (reread j) := by
  obtain ⟨c,r,hcs,hc,-⟩ := exists_chars_cons s 0 j
  have hread := (reads hs (2 * (chars s 0 j).length + 2)).value j 0 (chars s 0 j) [] hfits
    (by omega) nofun (by rw [List.append_nil, hcs, skipBlank_cons hc])
  rw [parse?, String.toList_ofList]
  simp only [hread, Option.bind_eq_bind, Option.bind_some]
  rfl

theorem parse?_toText (hfits : fits j = true) : parse? j.toText = some (reread j) :=
  parse?_chars isBlank_compact hfits

theorem parse?_toIndentedText (hfits : fits j = true) :
    parse? j.toIndentedText = some (reread j) :=
  parse?_chars isBlank_indented hfits

end OrderFlow.Json
