import Mathlib.Tactic.Common
import OrderFlow.Csv.Reader
import OrderFlow.Proofs.Text.Pieces

/-! Rows that are written are read again, field by field: quoted or not, the reader ends a field
where the writer did. -/
namespace OrderFlow.Csv
variable {c : Char} {f rest : List Char} {fs fields header : List (List Char)}
  {rows : List (List (List Char))}

/-- A character that a field is quoted for. -/
def isSpecial (c : Char) : Bool := c = ',' || c = '"' || c = '\n' || c = '\r'

lemma not_isSpecial (hf : ¬ needsQuotes f = true) : ∀ c ∈ f, isSpecial c = false := by
  intro c hc
  rw [Bool.not_eq_true] at hf
  exact Bool.eq_false_iff.mpr (List.any_eq_false.mp hf c hc)

namespace Pending
variable {p q : Pending}

lemma records_of_step (h : p.step c = (none,q)) (rest : List Char) :
    p.records (c :: rest) = q.records rest := by
  rw [records, h]
  rfl

/-- The last field has been read up to its end. -/
structure Holds (p : Pending) (fields : List (List Char)) (f : List Char) : Prop where
  fields : p.fields = fields
  chars : p.chars = f.reverse
  place : p.place ≠ .quoted

lemma step_of_not_isSpecial (hp : p.place ≠ .quoted) (hquote : p.place ≠ .quote)
    (hc : isSpecial c = false) : p.step c = (none,p.put .plain c) := by
  simp only [isSpecial, Bool.or_eq_false_iff, decide_eq_false_iff_not] at hc
  obtain ⟨place,fields,chars⟩ := p
  cases place <;> simp_all [step, isLineEnd, unquoted]

/-- Without quotes every character of a field is kept. -/
lemma records_plain (hp : p.place = .plain) (hf : ∀ c ∈ f, isSpecial c = false)
    (rest : List Char) :
    p.records (f ++ rest) = Pending.records ⟨.plain,p.fields,f.reverse ++ p.chars⟩ rest := by
  induction f generalizing p with
  | nil =>
    obtain ⟨place,fields,chars⟩ := p
    rw [show place = .plain from hp]
    rfl
  | cons c f ih =>
    rw [List.forall_mem_cons] at hf
    rw [List.cons_append,
      records_of_step (step_of_not_isSpecial (by simp [hp]) (by simp [hp]) hf.1), ih rfl hf.2]
    simp [put]

/-- Between quotes every character is kept, and of two quotes one. -/
lemma records_doubled (hp : p.place = .quoted) (f rest : List Char) :
    p.records (doubled f ++ rest) =
      Pending.records ⟨.quoted,p.fields,f.reverse ++ p.chars⟩ rest := by
  induction f generalizing p with
  | nil =>
    obtain ⟨place,fields,chars⟩ := p
    rw [show place = .quoted from hp]
    rfl
  | cons c f ih =>
    have hcons : doubled (c :: f) = (if c = '"' then ['"','"'] else [c]) ++ doubled f := rfl
    rw [hcons, List.append_assoc, List.reverse_cons, List.append_assoc]
    split_ifs with hc
    · have hopen : p.step '"' = (none,{ p with place := .quote }) := by simp [step, hp]
      have hclose : Pending.step { p with place := .quote } '"' = (none,p.put .quoted '"') := rfl
      rw [List.cons_append, List.singleton_append, records_of_step hopen, records_of_step hclose,
        ih rfl, hc]
      rfl
    · have hkeep : p.step c = (none,p.put .quoted c) := by simp [step, hp, hc]
      rw [List.singleton_append, records_of_step hkeep, ih rfl]
      rfl

/-- A field is read up to its end. Only where nothing stands is the reader still before a record. -/
lemma exists_records_field (hp : p.place = .between ∨ p.place = .fieldStart) (hchars : p.chars = [])
    (f : List Char) :
    ∃ q : Pending, q.Holds p.fields f ∧ (q.place = .between → p.place = .between ∧ f = []) ∧
      ∀ rest, p.records (fieldChars f ++ rest) = q.records rest := by
  have hunquoted : p.place ≠ .quoted ∧ p.place ≠ .quote := by rcases hp with hp | hp <;> simp [hp]
  rw [fieldChars]
  split_ifs with hquotes
  · have hopen : p.step '"' = (none,{ p with place := .quoted }) := by
      rcases hp with hp | hp <;> simp [step, hp, isLineEnd]
    have hend : (⟨.quoted,p.fields,f.reverse⟩ : Pending).step '"' =
        (none,⟨.quote,p.fields,f.reverse⟩) := rfl
    refine ⟨⟨.quote,p.fields,f.reverse⟩,⟨rfl,rfl,nofun⟩,nofun,fun rest => ?_⟩
    rw [quoted, List.cons_append, List.cons_append, records_of_step hopen, List.append_assoc,
      records_doubled rfl, hchars, List.append_nil, List.singleton_append, records_of_step hend]
  · cases f with
    | nil => exact ⟨p,⟨rfl,hchars,hunquoted.1⟩,fun h => ⟨h,rfl⟩,fun _ => rfl⟩
    | cons c f =>
      obtain ⟨hc,hf⟩ := List.forall_mem_cons.mp (not_isSpecial hquotes)
      have hfirst : p.step c = (none,p.put .plain c) :=
        step_of_not_isSpecial hunquoted.1 hunquoted.2 hc
      refine ⟨⟨.plain,p.fields,(c :: f).reverse⟩,⟨rfl,rfl,nofun⟩,nofun,fun rest => ?_⟩
      rw [List.cons_append, records_of_step hfirst, records_plain rfl hf]
      simp [put, hchars]

lemma records_comma (h : p.Holds fields f) (rest : List Char) :
    p.records (',' :: rest) = Pending.records ⟨.fieldStart,f :: fields,[]⟩ rest := by
  have hstep : p.step ',' = (none,p.nextField) := by
    have := h.place
    obtain ⟨place,fields,chars⟩ := p
    cases place <;> simp_all [step, isLineEnd, unquoted]
  rw [records_of_step hstep, nextField, h.fields, h.chars, List.reverse_reverse]

lemma records_newline (h : p.Holds fields f) (hp : p.place ≠ .between) (rest : List Char) :
    p.records ('\n' :: rest) = (f :: fields).reverse :: start.records rest := by
  have hstep : p.step '\n' = (some p.closed,start) := by
    have := h.place
    obtain ⟨place,fields,chars⟩ := p
    cases place <;> simp_all [step, isLineEnd]
  rw [records, hstep, closed, h.fields, h.chars, List.reverse_reverse]
  rfl

/-- The fields of a row are read one after the other. A row of nothing at all would be skipped. -/
lemma records_joined (f : List Char) (fs : List (List Char)) (hchars : p.chars = [])
    (hp : p.place = .between ∧ f :: fs ≠ [[]] ∨ p.place = .fieldStart) (rest : List Char) :
    p.records (Text.joined [','] ((f :: fs).map fieldChars) ++ '\n' :: rest) =
      (p.fields.reverse ++ f :: fs) :: start.records rest := by
  induction fs generalizing p f with
  | nil =>
    obtain ⟨q,hq,hblank,hfield⟩ := exists_records_field (hp.imp_left And.left) hchars f
    have hstarted : q.place ≠ .between := fun hbetween => by
      obtain ⟨hplace,rfl⟩ := hblank hbetween
      rcases hp with hp | hp
      · exact hp.2 rfl
      · rw [hplace] at hp
        cases hp
    rw [List.map_singleton, Text.joined, hfield, records_newline hq hstarted, List.reverse_cons]
  | cons g fs ih =>
    obtain ⟨q,hq,-,hfield⟩ := exists_records_field (hp.imp_left And.left) hchars f
    rw [List.map_cons, Text.joined_cons _ _ (by simp), List.append_assoc, List.append_assoc,
      hfield, List.singleton_append, records_comma hq, ih g rfl (.inr rfl), List.reverse_cons,
      List.append_assoc, List.singleton_append]

end Pending

lemma toList_join_rows (table : List (List String)) :
    (String.join (table.map row)).toList =
      (table.map (List.map String.toList)).flatMap rowChars := by
  rw [String.toList_join, List.flatMap_map, List.flatMap_map]
  simp [row]

/-- A row that is written is read again. -/
lemma records_rowChars (h : fields ≠ []) (rest : List Char) :
    Pending.start.records (rowChars fields ++ rest) = fields :: Pending.start.records rest := by
  rw [rowChars]
  split_ifs with hempty
  · rw [hempty]
    rfl
  · obtain ⟨f,fs,rfl⟩ := List.exists_cons_of_ne_nil h
    rw [List.append_assoc, List.singleton_append,
      Pending.records_joined f fs rfl (.inl ⟨rfl,hempty⟩)]
    rfl

/-- Rows that are written are read again, unless the first of them begins with a byte order mark. -/
theorem records_rows (hrows : ∀ fields ∈ rows, fields ≠ [])
    (hmark : (rows.flatMap rowChars).head? ≠ some '\ufeff') :
    records (rows.flatMap rowChars) = rows := by
  have hall : Pending.start.records (rows.flatMap rowChars) = rows := by
    clear hmark
    induction rows with
    | nil => rfl
    | cons fields rows ih =>
      obtain ⟨hfields,hrows⟩ := List.forall_mem_cons.mp hrows
      rw [List.flatMap_cons, records_rowChars hfields, ih hrows]
  rw [records]
  · exact hall
  · intro rest hcs
    rw [hcs] at hmark
    exact hmark rfl

/-- A table that is written is read again if all its rows are as wide as its header. -/
theorem table?_rows (hheader : header ≠ [])
    (hwidth : ∀ fields ∈ rows, fields.length = header.length)
    (hmark : ((header :: rows).flatMap rowChars).head? ≠ some '\ufeff') :
    table? ((header :: rows).flatMap rowChars) = some (header,rows) := by
  have hrows : ∀ fields ∈ header :: rows, fields ≠ [] := by
    refine List.forall_mem_cons.mpr ⟨hheader,fun fields hfields => ?_⟩
    rw [← List.length_pos_iff, hwidth fields hfields]
    exact List.length_pos_iff.mpr hheader
  rw [table?, records_rows hrows hmark]
  exact if_pos (List.all_eq_true.mpr fun fields hfields => beq_iff_eq.mpr (hwidth fields hfields))

end OrderFlow.Csv
