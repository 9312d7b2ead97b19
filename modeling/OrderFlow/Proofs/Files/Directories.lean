import Mathlib.Data.List.Sort
import OrderFlow.Proofs.Files.ProperTrees
import OrderFlow.Proofs.Files.Standing

/-! What stands inside a directory. The names in a directory of a proper tree are listed once each
and in order, and a name joined to the path of its directory leads to it. -/
namespace OrderFlow

namespace Path
variable {p : Path} {n : String}

/-- A name is joined after the slash that a path ends in, or after a new one. -/
lemma join_cases (hp : p.isEmpty = false) (hn : '/' ∉ n.toList) :
    (∃ cs, p.toList = cs ++ ['/'] ∧ (p.join n).toList = cs ++ '/' :: n.toList) ∨
      (p.join n).toList = p.toList ++ '/' :: n.toList := by
  have hrooted : isRooted n = false := by
    cases hchars : n.toList with
    | nil => rw [isRooted, hchars]; rfl
    | cons c cs =>
      rw [hchars, List.mem_cons, not_or] at hn
      rw [isRooted, hchars]
      simpa using Ne.symm hn.1
  rw [join, hrooted, hp, Bool.or_false, if_neg (by decide)]
  split_ifs with hslash
  · rw [beq_iff_eq, List.getLast?_eq_some_iff] at hslash
    obtain ⟨cs,hcs⟩ := hslash
    exact .inl ⟨cs,hcs,by simp [hcs]⟩
  · exact .inr (by simp)

lemma begins_join (hp : p.isEmpty = false) (hn : '/' ∉ n.toList) :
    p.toList <+: (p.join n).toList := by
  rcases join_cases hp hn with ⟨cs,hcs,hjoin⟩ | hjoin
  · exact ⟨n.toList,by rw [hcs, hjoin, List.append_assoc, List.singleton_append]⟩
  · exact ⟨_,hjoin.symm⟩

lemma isRooted_join (hp : p.isEmpty = false) (hn : '/' ∉ n.toList) :
    (p.join n).isRooted = p.isRooted :=
  (isRooted_of_begins (begins_join hp hn) (by simpa using hp)).symm

lemma isEmpty_join (hp : p.isEmpty = false) (hn : '/' ∉ n.toList) :
    (p.join n).isEmpty = false := by
  obtain ⟨r,hr⟩ := begins_join hp hn
  have hne : p.toList ++ r ≠ [] := List.append_ne_nil_of_left_ne_nil (by simpa using hp) r
  rw [hr] at hne
  simpa using hne

end Path

namespace FileTree
variable {t t' : FileTree} {p : Path} {n : String} {q d d' : Place} {names : List (List Char)}

lemma isDirectory_iff :
    t.isDirectory p = true ↔ ∃ d, t.place? p = some d ∧ t.isDirectoryAt d = true := by
  rw [isDirectory, get?]
  cases t.place? p <;> simp [isDirectoryAt]

lemma isFile_iff :
    t.isFile p = true ↔ ∃ q c, t.place? p = some q ∧ t.at? q = some (.file c) := by
  rw [isFile, get?]
  cases t.place? p with
  | none => simp
  | some q =>
    rw [Option.bind_some]
    split
    case h_1 c hc => simp [hc]
    case h_2 hno => simpa using hno

lemma childName?_eq_some_iff : childName? d q = some n ↔ q = n :: d := by
  cases q with
  | nil => simp [childName?]
  | cons m rest =>
    rw [childName?, Option.ite_none_right_eq_some, Option.some.injEq, List.cons.injEq, and_comm]

lemma names_eq (hp : t.place? p = some d) : t.names p =
    ((t.entries.map Prod.fst).filterMap (childName? d)).mergeSort fun a b => !(b < a) := by
  rw [FileTree.names, hp, List.filterMap_map]
  rfl

theorem mem_names_iff (hp : t.place? p = some d) :
    n ∈ t.names p ↔ (t.at? (n :: d)).isSome = true := by
  simp [names_eq hp, isSome_at?_iff, childName?_eq_some_iff]

/-- The names in a directory are listed once each and in order. -/
theorem IsTree.names_pairwise (h : t.IsTree) (p : Path) : (t.names p).Pairwise (· < ·) := by
  cases hp : t.place? p with
  | none => simp [FileTree.names, hp]
  | some d =>
    have honce : (t.names p).Nodup := by
      rw [names_eq hp, (List.mergeSort_perm ..).nodup_iff]
      refine h.once.filterMap fun q q' n hq hq' => ?_
      rw [childName?_eq_some_iff.mp hq, childName?_eq_some_iff.mp hq']
    have hsorted : (t.names p).Pairwise (· ≤ ·) := by
      have hle (a b : String) : (!decide (b < a)) = true ↔ a ≤ b := by
        rw [Bool.not_eq_true', decide_eq_false_iff_not, Std.not_lt]
      rw [names_eq hp]
      refine (List.pairwise_mergeSort (fun a b c hab hbc => ?_) (fun a b => ?_) _).imp
        fun hab => (hle _ _).mp hab
      · exact (hle a c).mpr (Std.le_trans ((hle a b).mp hab) ((hle b c).mp hbc))
      · rw [Bool.or_eq_true, hle, hle]
        exact Std.le_total
    exact (hsorted.and honce).imp fun ⟨hle,hne⟩ => Std.lt_of_le_of_ne hle hne

lemma follow_singleton (hn : Path.IsEntryName n) (hd : t.isDirectoryAt d = true) :
    t.follow d [n.toList] = some (n :: d) := by
  have hspecial (m : String) (hm : m ∈ ["",".",".."]) : n.toList ≠ m.toList := fun h =>
    hn.2 (String.toList_inj.mp h ▸ hm)
  have hsame : ¬(n.toList = [] ∨ n.toList = ['.']) :=
    not_or.mpr ⟨hspecial "" (by decide),hspecial "." (by decide)⟩
  have hup : n.toList ≠ ['.','.'] := hspecial ".." (by decide)
  rw [follow, hd, Bool.not_true, if_neg (by decide), if_neg hsame, if_neg hup, follow,
    String.ofList_toList]

/-- A path that ends in a slash leads where it leads without the slash. -/
lemma follow_ended (h : t.follow q (names ++ [[]]) = some d) : t.follow q names = some d := by
  rw [follow_append, Option.bind_eq_some_iff] at h
  obtain ⟨d',hnames,hlast⟩ := h
  simp only [follow, true_or, if_true] at hlast
  split_ifs at hlast
  rwa [← Option.some.inj hlast]

lemma isEmpty_of_place? (hp : t.place? p = some d) : p.isEmpty = false := by
  rw [place?] at hp
  split_ifs at hp with hrefused
  rw [Bool.or_eq_true, not_or, Bool.not_eq_true] at hrefused
  exact hrefused.1

/-- A name joined to the path of a directory leads into it, where the whole path leads anywhere. -/
theorem place?_join (hp : t.place? p = some d) (hd : t.isDirectoryAt d = true)
    (hn : Path.IsEntryName n) :
    t.place? (p.join n) = if (p.join n).isUsable then some (n :: d) else none := by
  have hempty := isEmpty_of_place? hp
  rw [place?] at hp
  split_ifs at hp
  have horigin : t.origin (p.join n) = t.origin p := by
    rw [origin, origin, Path.isRooted_join hempty hn.1]
  have hlast : Text.pieces '/' n.toList = [n.toList] := Text.pieces_of_not_mem hn.1
  have hfollow : t.follow (t.origin (p.join n)) (p.join n).pieces = some (n :: d) := by
    rw [horigin]
    rcases Path.join_cases hempty hn.1 with ⟨cs,hcs,hjoin⟩ | hjoin
    · rw [Path.pieces, hcs, Text.pieces_append_separator] at hp
      rw [Path.pieces, hjoin, Text.pieces_append_separator, hlast, follow_append,
        follow_ended hp, Option.bind_some, follow_singleton hn hd]
    · rw [Path.pieces, hjoin, Text.pieces_append_separator, hlast, follow_append, ← Path.pieces,
        hp, Option.bind_some, follow_singleton hn hd]
  rw [place?, Path.isEmpty_join hempty hn.1, Bool.false_or, hfollow]
  cases (p.join n).isUsable <;> rfl

lemma place?_join_iff (hp : t.place? p = some d) (hd : t.isDirectoryAt d = true)
    (hn : Path.IsEntryName n) :
    t.place? (p.join n) = some q ↔ (p.join n).isUsable = true ∧ n :: d = q := by
  rw [place?_join hp hd hn, Option.ite_none_right_eq_some, Option.some.injEq]

/-- Where the path of what is inside a directory leads anywhere, so does that of the directory. -/
lemma isUsable_of_join (hp : p.isEmpty = false) (hn : Path.IsEntryName n)
    (h : (p.join n).isUsable = true) : p.isUsable = true :=
  Path.isUsable_of_begins (Path.begins_join hp hn.1) h

/-- Names lead to one place in all trees in which they lead anywhere. -/
lemma eq_of_follow (h : t.follow q names = some d) (h' : t'.follow q names = some d') :
    d' = d := by
  induction names generalizing q with
  | nil => exact (Option.some.inj h').symm.trans (Option.some.inj h)
  | cons n rest ih =>
    rw [follow] at h h'
    split_ifs at h h' with _ _ hsame hup
    · exact ih h h'
    · exact ih h h'
    · exact ih h h'

lemma eq_of_place? (hstart : t'.start = t.start) (h : t.place? p = some d)
    (h' : t'.place? p = some d') : d' = d := by
  rw [place?] at h h'
  split_ifs at h h'
  rw [origin, hstart] at h'
  exact eq_of_follow h h'

lemma sameDirectories_of_at? (hstart : t'.start = t.start) (h : ∀ q, t'.at? q = t.at? q) :
    SameDirectories t t' where
  grows := ⟨hstart,fun q => (isDirectoryAt_congr (h q)).trans⟩
  shrinks := ⟨hstart.symm,fun q => (isDirectoryAt_congr (h q)).symm.trans⟩

/-- What is found under a path hangs on what stands at each place alone. -/
lemma get?_congr (hstart : t'.start = t.start) (h : ∀ q, t'.at? q = t.at? q) (p : Path) :
    t'.get? p = t.get? p := by
  rw [get?, get?, (sameDirectories_of_at? hstart h).place? p, funext h]

end FileTree
end OrderFlow
