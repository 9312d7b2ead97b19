import OrderFlow.Proofs.Files.Directories
import OrderFlow.Store.MarketFiles

/-! The market files of a symbol. They are listed by day and then by name, whatever the order in
which the tree holds them, and a change of one file leaves the documents of all others as and where
they were. -/
namespace OrderFlow
open FileTree

namespace Path
variable {name : String}

/-- What has the extension is a name before it, and the extension. -/
theorem isJsonName_iff : isJsonName name = true ↔ ∃ stem, stem ≠ "" ∧ name = stem ++ ".json" := by
  have hending : "nosj.".toList = ".json".toList.reverse := by decide
  simp only [isJsonName, Bool.and_eq_true, beq_iff_eq, Bool.not_eq_true', List.isEmpty_eq_false_iff,
    hending]
  constructor
  · rintro ⟨htake,hdrop⟩
    refine ⟨String.ofList (name.toList.reverse.drop 5).reverse,by simpa using hdrop,?_⟩
    have hname := List.take_append_drop 5 name.toList.reverse
    rw [htake, ← List.reverse_inj, List.reverse_append, List.reverse_reverse,
      List.reverse_reverse] at hname
    rw [← String.toList_inj, String.toList_append, String.toList_ofList, hname]
  · rintro ⟨stem,hstem,rfl⟩
    rw [String.toList_append, List.reverse_append]
    exact ⟨rfl,by simpa using hstem⟩

end Path

namespace MarketFiles
variable {t t' : FileTree} {directory p : Path} {day name : String} {q d : Place}
  {k l m : String × String} {ks ks' : List (String × String)}

/-- By day, then by name. -/
def Precedes (k l : String × String) : Prop := k.1 < l.1 ∨ k.1 = l.1 ∧ k.2 < l.2

instance : DecidableRel Precedes := fun _ _ => inferInstanceAs (Decidable (_ ∨ _))

instance : Std.Irrefl Precedes := ⟨fun k => by simp [Precedes]⟩

lemma Precedes.trans (h : Precedes k l) (h' : Precedes l m) : Precedes k m := by
  rcases h with h | ⟨h,hn⟩ <;> rcases h' with h' | ⟨h',hn'⟩
  · exact .inl (String.lt_trans h h')
  · exact .inl (h' ▸ h)
  · exact .inl (h ▸ h')
  · exact .inr ⟨h.trans h',String.lt_trans hn hn'⟩

instance : Std.Antisymm Precedes :=
  ⟨fun k _ h h' => absurd (h.trans h') (Std.Irrefl.irrefl k)⟩

lemma precedes_or_eq_or_precedes (k l : String × String) : Precedes k l ∨ k = l ∨ Precedes l k := by
  have hstrings (a b : String) : a < b ∨ a = b ∨ b < a := by
    by_cases hlt : a < b
    · exact .inl hlt
    · by_cases hgt : b < a
      · exact .inr (.inr hgt)
      · exact .inr (.inl (String.le_antisymm (String.not_lt.mp hgt) (String.not_lt.mp hlt)))
  obtain ⟨day,name⟩ := k
  obtain ⟨day',name'⟩ := l
  rcases hstrings day day' with hday | rfl | hday
  · exact .inl (.inl hday)
  · rcases hstrings name name' with hname | rfl | hname
    · exact .inl (.inr ⟨rfl,hname⟩)
    · exact .inr (.inl rfl)
    · exact .inr (.inr (.inr ⟨rfl,hname⟩))
  · exact .inr (.inr (.inl hday))

/-- The path of a market file, given the directory of its symbol. -/
def filePath (directory : Path) (k : String × String) : Path := (directory.join k.1).join k.2

/-- Is this a file with the extension `json`, directly inside a directory of the symbol's? -/
structure IsMarketFile (t : FileTree) (directory : Path) (day name : String) : Prop where
  dayNamed : Path.IsEntryName day
  within : t.isDirectory (directory.join day) = true
  named : Path.IsEntryName name
  isFile : t.isFile (filePath directory (day,name)) = true
  json : ∃ stem, stem ≠ "" ∧ name = stem ++ ".json"

/-- The days and names of the market files in the directory of a symbol. -/
def listing (t : FileTree) (directory : Path) : List (String × String) :=
  ((t.names directory).filter fun day => t.isDirectory (directory.join day)).flatMap fun day =>
    ((t.names (directory.join day)).filter fun name =>
      t.isFile (filePath directory (day,name)) && Path.isJsonName name).map (day,·)

theorem files_eq (data : Path) (symbol : String) (h : t.isDirectory (data.join symbol) = true) :
    files t data symbol =
      .ok ((listing t (data.join symbol)).map (filePath (data.join symbol))) := by
  simp only [files, h, if_true, inside, listing, dayFiles, List.filter_map, List.flatMap_map,
    List.map_flatMap, List.map_map, List.filter_filter]
  rfl

/-- The listing goes by day and then by name, and holds nothing twice. -/
theorem listing_pairwise (h : t.IsTree) (directory : Path) :
    (listing t directory).Pairwise Precedes := by
  rw [listing, List.pairwise_flatMap]
  constructor
  · intro day _
    rw [List.pairwise_map]
    exact ((h.names_pairwise _).filter _).imp fun hname => .inr ⟨rfl,hname⟩
  · refine ((h.names_pairwise _).filter _).imp fun hday k hk l hl => ?_
    obtain ⟨_,_,rfl⟩ := List.mem_map.mp hk
    obtain ⟨_,_,rfl⟩ := List.mem_map.mp hl
    exact .inl hday

/-- A market file is a file two levels below the directory of its symbol, where a path leads
there. -/
theorem isMarketFile_iff (h : t.IsTree) (hp : t.place? directory = some d)
    (hd : t.isDirectoryAt d = true) : IsMarketFile t directory day name ↔
      (∃ c, t.at? (name :: day :: d) = some (.file c)) ∧
        (filePath directory (day,name)).isUsable = true ∧
        ∃ stem, stem ≠ "" ∧ name = stem ++ ".json" := by
  constructor
  · intro hfile
    obtain ⟨e,hday,he⟩ := isDirectory_iff.mp hfile.within
    obtain ⟨-,rfl⟩ := (place?_join_iff hp hd hfile.dayNamed).mp hday
    obtain ⟨q,c,hq,hc⟩ := isFile_iff.mp hfile.isFile
    obtain ⟨husable,rfl⟩ := (place?_join_iff hday he hfile.named).mp hq
    exact ⟨⟨c,hc⟩,husable,hfile.json⟩
  · rintro ⟨⟨c,hc⟩,husable,hjson⟩
    have hstands : (t.at? (name :: day :: d)).isSome = true := by rw [hc]; rfl
    have hwithin := h.isDirectoryAt_of_at? hstands
    have hday := isSome_at?_of_isDirectoryAt hwithin
    have hnamed := h.isEntryName hstands
    have hdayNamed := h.isEntryName hday
    have hempty := Path.isEmpty_join (isEmpty_of_place? hp) hdayNamed.1
    have hplace := (place?_join_iff hp hd hdayNamed).mpr
      ⟨isUsable_of_join hempty hnamed husable,rfl⟩
    exact ⟨hdayNamed,isDirectory_iff.mpr ⟨_,hplace,hwithin⟩,hnamed,
      isFile_iff.mpr ⟨_,c,(place?_join_iff hplace hwithin hnamed).mpr ⟨husable,rfl⟩,hc⟩,hjson⟩

/-- The path of a market file leads to its name inside its day. -/
lemma IsMarketFile.place? (h : IsMarketFile t directory day name)
    (hp : t.place? directory = some d) (hd : t.isDirectoryAt d = true) :
    t.place? (filePath directory (day,name)) = some (name :: day :: d) := by
  obtain ⟨e,hday,he⟩ := isDirectory_iff.mp h.within
  obtain ⟨-,rfl⟩ := (place?_join_iff hp hd h.dayNamed).mp hday
  obtain ⟨q,-,hq,-⟩ := isFile_iff.mp h.isFile
  obtain ⟨-,rfl⟩ := (place?_join_iff hday he h.named).mp hq
  exact hq

theorem mem_listing_iff (h : t.IsTree) (hdirectory : t.isDirectory directory = true) :
    (day,name) ∈ listing t directory ↔ IsMarketFile t directory day name := by
  obtain ⟨d,hp,hd⟩ := isDirectory_iff.mp hdirectory
  simp only [listing, List.mem_flatMap, List.mem_filter, List.mem_map, Bool.and_eq_true,
    Path.isJsonName_iff, Prod.mk.injEq]
  constructor
  · rintro ⟨_,⟨hday,hwithin⟩,_,⟨hname,hfile,hjson⟩,rfl,rfl⟩
    have hdayNamed := h.isEntryName ((mem_names_iff hp).mp hday)
    obtain ⟨e,hplace,he⟩ := isDirectory_iff.mp hwithin
    exact ⟨hdayNamed,hwithin,h.isEntryName ((mem_names_iff hplace).mp hname),hfile,hjson⟩
  · intro hfile
    obtain ⟨e,hplace,he⟩ := isDirectory_iff.mp hfile.within
    obtain ⟨-,rfl⟩ := (place?_join_iff hp hd hfile.dayNamed).mp hplace
    obtain ⟨c,hc⟩ := ((isMarketFile_iff h hp hd).mp hfile).1
    refine ⟨day,⟨(mem_names_iff hp).mpr (isSome_at?_of_isDirectoryAt he),hfile.within⟩,name,
      ⟨(mem_names_iff hplace).mpr ?_,hfile.isFile,hfile.json⟩,rfl,rfl⟩
    rw [hc]
    rfl

/-- Market files are found by what stands under each path alone. -/
lemma IsMarketFile.congr (hget : ∀ p, t'.get? p = t.get? p)
    (h : IsMarketFile t directory day name) : IsMarketFile t' directory day name := by
  refine ⟨h.dayNamed,?_,h.named,?_,h.json⟩
  · rw [isDirectory, hget]
    exact h.within
  · rw [FileTree.isFile, hget]
    exact h.isFile

theorem files_congr (h : t.IsTree) (h' : t'.IsTree) (hget : ∀ p, t'.get? p = t.get? p)
    (data : Path) (symbol : String) : files t' data symbol = files t data symbol := by
  have hsame : t'.isDirectory (data.join symbol) = t.isDirectory (data.join symbol) := by
    rw [isDirectory, isDirectory, hget]
  cases hdirectory : t.isDirectory (data.join symbol) with
  | false => simp [files, hsame, hdirectory]
  | true =>
    rw [files_eq data symbol hdirectory, files_eq data symbol (hsame.trans hdirectory)]
    have hlisting : listing t' (data.join symbol) = listing t (data.join symbol) := by
      refine (listing_pairwise h' _).eq_of_mem_iff (listing_pairwise h _) fun k => ?_
      obtain ⟨day,name⟩ := k
      rw [mem_listing_iff h' (hsame.trans hdirectory), mem_listing_iff h hdirectory]
      exact ⟨.congr fun p => (hget p).symm,.congr hget⟩
    rw [hlisting]

lemma document?_congr (hget : t'.get? p = t.get? p) : document? t' p = document? t p := by
  rw [document?, document?, text?, text?, content?, content?, hget]

theorem documents_congr (h : t.IsTree) (h' : t'.IsTree) (hget : ∀ p, t'.get? p = t.get? p)
    (data : Path) (symbol : String) : documents t' data symbol = documents t data symbol := by
  have hdocument : document? t' = document? t := funext fun p => document?_congr (hget p)
  rw [documents, documents, files_congr h h' hget, hdocument]

theorem documents_eq (data : Path) (symbol : String)
    (h : t.isDirectory (data.join symbol) = true) : documents t data symbol =
      .ok ((listing t (data.join symbol)).filterMap
        fun k => document? t (filePath (data.join symbol) k)) := by
  rw [documents, files_eq data symbol h]
  exact congrArg Except.ok (List.filterMap_map ..)

/-- A listing is cut at any entry into what comes before it, the entry and what comes after. -/
lemma eq_append_of_pairwise (h : ks.Pairwise Precedes) (k : String × String) :
    ks = ks.filter (Precedes · k) ++ ks.filter (· = k) ++ ks.filter (Precedes k ·) := by
  refine h.eq_of_mem_iff ?_ fun l => ?_
  · simp only [List.pairwise_append, List.mem_append, List.mem_filter, decide_eq_true_eq]
    refine ⟨⟨h.filter _,h.filter _,?_⟩,h.filter _,?_⟩
    · rintro l ⟨-,hl⟩ _ ⟨-,rfl⟩
      exact hl
    · rintro l (⟨-,hl⟩ | ⟨-,rfl⟩) m ⟨-,hm⟩
      · exact hl.trans hm
      · exact hm
  · have hcases := precedes_or_eq_or_precedes l k
    simp only [List.mem_append, List.mem_filter, decide_eq_true_eq]
    tauto

lemma filter_sublist_singleton (h : ks.Pairwise Precedes) (k : String × String) :
    (ks.filter (· = k)).Sublist [k] := by
  rw [List.filter_eq]
  exact (List.replicate_sublist_replicate k).mpr (List.nodup_iff_count_le_one.mp h.nodup k)

/-- The document in the file at a place. -/
def documentAt? (t : FileTree) (q : Place) : Option Json :=
  match t.at? q with
  | some (.file c) => c.text?.bind Json.document?
  | _ => none

lemma document?_eq (hp : t.place? p = some q) : document? t p = documentAt? t q := by
  rw [document?, text?, content?, get?, hp, Option.bind_some, documentAt?]
  rcases t.at? q with _ | _ | c <;> rfl

/-- Do two trees hold the same files, except at one place? -/
def SameFilesBut (q : Place) (t t' : FileTree) : Prop :=
  ∀ r ≠ q, ∀ c, t'.at? r = some (.file c) ↔ t.at? r = some (.file c)

lemma sameFilesBut_put (hq : q ≠ []) (e : Entry) : SameFilesBut q t (t.put q e) := by
  intro r hr c
  rw [at?_put hq, if_neg hr]

/-- Two trees with the directory of a symbol at one place, and the same files except at another. -/
structure DiffersAt (q d : Place) (directory : Path) (t t' : FileTree) : Prop where
  tree : t.IsTree
  tree' : t'.IsTree
  place : t.place? directory = some d
  place' : t'.place? directory = some d
  within : t.isDirectoryAt d = true
  within' : t'.isDirectoryAt d = true
  files : SameFilesBut q t t'

namespace DiffersAt
variable (h : DiffersAt q d directory t t')
include h

lemma isMarketFile_iff (hne : name :: day :: d ≠ q) :
    IsMarketFile t' directory day name ↔ IsMarketFile t directory day name := by
  rw [MarketFiles.isMarketFile_iff h.tree' h.place' h.within',
    MarketFiles.isMarketFile_iff h.tree h.place h.within]
  simp only [h.files _ hne]

lemma mem_listing : ((day,name) ∈ listing t directory ↔ IsMarketFile t directory day name) ∧
    ((day,name) ∈ listing t' directory ↔ IsMarketFile t' directory day name) :=
  ⟨mem_listing_iff h.tree (isDirectory_iff.mpr ⟨d,h.place,h.within⟩),
    mem_listing_iff h.tree' (isDirectory_iff.mpr ⟨d,h.place',h.within'⟩)⟩

/-- What is listed elsewhere is the same document in both trees. -/
lemma document?_eq (hne : name :: day :: d ≠ q) (hfile : IsMarketFile t directory day name) :
    document? t' (filePath directory (day,name)) = document? t (filePath directory (day,name)) := by
  have hfile' := (h.isMarketFile_iff hne).mpr hfile
  obtain ⟨c,hc⟩ := ((MarketFiles.isMarketFile_iff h.tree h.place h.within).mp hfile).1
  have hc' := (h.files _ hne c).mpr hc
  rw [MarketFiles.document?_eq (hfile.place? h.place h.within),
    MarketFiles.document?_eq (hfile'.place? h.place' h.within'), documentAt?, documentAt?, hc, hc']

/-- The documents of a part of the listing that leaves out the one place. -/
lemma filterMap_listing (s : String × String → Bool)
    (hs : ∀ k, s k = true → k.2 :: k.1 :: d ≠ q) :
    ((listing t' directory).filter s).filterMap (fun k => document? t' (filePath directory k)) =
      ((listing t directory).filter s).filterMap fun k => document? t (filePath directory k) := by
  have hpart : (listing t' directory).filter s = (listing t directory).filter s := by
    refine ((listing_pairwise h.tree' _).filter s).eq_of_mem_iff
      ((listing_pairwise h.tree _).filter s) fun k => ?_
    obtain ⟨day,name⟩ := k
    rw [List.mem_filter, List.mem_filter, h.mem_listing.1, h.mem_listing.2]
    exact and_congr_left fun hsel => h.isMarketFile_iff (hs _ hsel)
  rw [hpart]
  refine List.filterMap_congr fun k hk => ?_
  obtain ⟨day,name⟩ := k
  obtain ⟨hlisted,hsel⟩ := List.mem_filter.mp hk
  exact h.document?_eq (hs _ hsel) (h.mem_listing.1.mp hlisted)

end DiffersAt

/-- The documents of what is listed at one place are at most the one that stands there. -/
lemma filterMap_sublist (h : t.IsTree) (hp : t.place? directory = some d)
    (hd : t.isDirectoryAt d = true) (day name : String) :
    (((listing t directory).filter (· = (day,name))).filterMap
      fun k => document? t (filePath directory k)).Sublist
        (documentAt? t (name :: day :: d)).toList := by
  have hown := filter_sublist_singleton (listing_pairwise h directory) (day,name)
  by_cases hlisted : (day,name) ∈ listing t directory
  · have hfile := (mem_listing_iff h (isDirectory_iff.mpr ⟨d,hp,hd⟩)).mp hlisted
    have hdocument := document?_eq (hfile.place? hp hd)
    have hdocuments := hown.filterMap fun k => document? t (filePath directory k)
    rw [← hdocument]
    cases hread : document? t (filePath directory (day,name)) <;>
      simpa [List.filterMap_cons, hread] using hdocuments
  · have hnone : (listing t directory).filter (· = (day,name)) = [] := by
      rw [List.filter_eq, List.count_eq_zero.mpr hlisted, List.replicate_zero]
    rw [hnone]
    exact List.nil_sublist _

/-- A change of one file leaves the documents of all others as and where they were. -/
theorem DiffersAt.exists_documents (h : DiffersAt q d directory t t') :
    ∃ before own own' after : List Json,
      (listing t directory).filterMap (fun k => document? t (filePath directory k)) =
        before ++ own ++ after ∧
      (listing t' directory).filterMap (fun k => document? t' (filePath directory k)) =
        before ++ own' ++ after ∧
      own.Sublist (documentAt? t q).toList ∧ own'.Sublist (documentAt? t' q).toList := by
  by_cases hplace : ∃ day name, q = name :: day :: d
  -- Both listings are cut where the place is, or would be; what lies around it is the same.
  · obtain ⟨day,name,rfl⟩ := hplace
    have hne (l : String × String) (hl : l ≠ (day,name)) : l.2 :: l.1 :: d ≠ name :: day :: d := by
      intro heq
      injection heq with hname hrest
      injection hrest with hday
      exact hl (Prod.ext hday hname)
    have hbefore := h.filterMap_listing (Precedes · (day,name)) fun l hl =>
      hne l fun heq => Std.Irrefl.irrefl (r := Precedes) l (by simpa [heq] using hl)
    have hafter := h.filterMap_listing (Precedes (day,name) ·) fun l hl =>
      hne l fun heq => Std.Irrefl.irrefl (r := Precedes) l (by simpa [heq] using hl)
    let read := fun k => document? t (filePath directory k)
    refine ⟨((listing t directory).filter (Precedes · (day,name))).filterMap read,_,_,
      ((listing t directory).filter (Precedes (day,name) ·)).filterMap read,?_,?_,
      filterMap_sublist h.tree h.place h.within day name,
      filterMap_sublist h.tree' h.place' h.within' day name⟩
    · conv_lhs => rw [eq_append_of_pairwise (listing_pairwise h.tree directory) (day,name)]
      rw [List.filterMap_append, List.filterMap_append]
    · conv_lhs => rw [eq_append_of_pairwise (listing_pairwise h.tree' directory) (day,name)]
      rw [List.filterMap_append, List.filterMap_append, hbefore, hafter]
  -- The place is in no day of the symbol, so nothing that is listed changes.
  · have hall := h.filterMap_listing (fun _ => true) fun k _ heq => hplace ⟨k.1,k.2,heq.symm⟩
    rw [List.filter_true, List.filter_true] at hall
    exact ⟨(listing t directory).filterMap fun k => document? t (filePath directory k),[],[],[],
      by simp,by simp [hall],List.nil_sublist _,List.nil_sublist _⟩

/-- Listed files have different paths: each leads to its own place. -/
lemma nodup_paths (h : t.IsTree) (hp : t.place? directory = some d)
    (hd : t.isDirectoryAt d = true) :
    ((listing t directory).map (filePath directory)).Nodup := by
  have hplace (k : String × String) (hk : k ∈ listing t directory) :
      t.place? (filePath directory k) = some (k.2 :: k.1 :: d) :=
    ((mem_listing_iff h (isDirectory_iff.mpr ⟨d,hp,hd⟩)).mp hk).place? hp hd
  refine (List.nodup_map_iff_inj_on (listing_pairwise h directory).nodup).mpr ?_
  intro k hk l hl heq
  have hplaces := (hplace k hk).symm.trans (heq ▸ hplace l hl)
  simp only [Option.some.injEq, List.cons.injEq, and_true] at hplaces
  exact Prod.ext hplaces.2 hplaces.1

/-- Two days of market files, held out of order, with a file that is no document, one of another
kind and one beside the days. -/
def twoDayTree : FileTree where
  entries := [(["data"],.directory), (["btc","data"],.directory),
    (["2024-01-02","btc","data"],.directory), (["2024-01-01","btc","data"],.directory),
    (["b.json","2024-01-02","btc","data"],.file (.text "[2]")),
    (["b.json","2024-01-01","btc","data"],.file (.text "[1]")),
    (["a.json","2024-01-02","btc","data"],.file (.text "[")),
    (["notes.txt","2024-01-01","btc","data"],.file (.text "[3]")),
    (["summary.json","btc","data"],.file (.text "[4]"))]
  start := []

/-- The same files with the broken one mended. -/
def mendedTree : FileTree :=
  twoDayTree.put ["a.json","2024-01-02","btc","data"] (.file (.text "[0]"))

end MarketFiles
end OrderFlow
