import LinkageCheck.Files.Discovery
import LinkageCheck.Proofs.Files.Components
import LinkageCheck.Proofs.Text.ByteOrder
import Mathlib.Data.List.Perm.Basic

/-! Discovery finds each file with the name of expected results below a directory, once, and lists
what it found in the byte order of the relative paths, so that the order in which directories list
their entries does not show. -/

namespace LinkageCheck

/-! ### Files of a tree -/

namespace FileTree

variable {t t' : FileTree} {directory path : String} {names : List String} {content : List UInt8}
  {node : FileNode}

theorem node_eq_ok_iff : t.node path = .ok node ↔ path ≠ "" ∧ '\x00' ∉ path.toList ∧
    path.utf8ByteSize ≤ maxPathSize ∧ t.root.walk []
      ((if Path.isAbsolute path then [] else t.working.map String.toList) ++ Path.parts path)
        = .ok node := by
  rw [FileTree.node]
  by_cases hempty : path = ""
  · simp [hempty]
  · by_cases hnul : '\x00' ∈ path.toList
    · simp [hempty, hnul]
    · by_cases hlong : maxPathSize < path.utf8ByteSize
      · have hnot := Nat.not_le.mpr hlong
        simp [hempty, hnul, hlong, hnot]
      · have hshort := Nat.not_lt.mp hlong
        simp [hempty, hnul, hlong, hshort]

/-- Below this directory the names lead to a file with this content. -/
def HoldsFile (t : FileTree) (directory : String) (names : List String) (content : List UInt8) :
    Prop :=
  ∃ entries, t.node directory = .ok (.directory entries)
    ∧ (FileNode.directory entries).Holds names content

theorem HoldsFile.isEntryName (hwell : t.root.WellFormed)
    (h : t.HoldsFile directory names content) :
    names ≠ [] ∧ ∀ name ∈ names, IsEntryName name := by
  obtain ⟨entries, hnode, hholds⟩ := h
  obtain ⟨-, -, -, hwalk⟩ := node_eq_ok_iff.mp hnode
  have hentries := FileNode.WellFormed.walk (List.forall_mem_singleton.mpr hwell) hwalk
  refine ⟨?_, hentries.isEntryName hholds⟩
  rintro rfl
  cases hholds

theorem node_join (hwell : t.root.WellFormed) (hfile : t.HoldsFile directory names content)
    (hsize : (Path.join directory ("/".intercalate names)).utf8ByteSize ≤ maxPathSize) :
    t.node (Path.join directory ("/".intercalate names)) = .ok (.file content) := by
  obtain ⟨hne, hnames⟩ := hfile.isEntryName hwell
  obtain ⟨entries, hnode, hholds⟩ := hfile
  obtain ⟨hdirectory, hnul, -, hwalk⟩ := node_eq_ok_iff.mp hnode
  have hentries := FileNode.WellFormed.walk (List.forall_mem_singleton.mpr hwell) hwalk
  have hrelative := Path.isAbsolute_intercalate hnames
  have habsolute := Path.isAbsolute_join hdirectory hrelative
  have hnul' := Path.nul_not_mem_join hnul hnames
  obtain ⟨stem, hstem, hjoin⟩ := Path.exists_stem hdirectory
  refine node_eq_ok_iff.mpr ⟨Path.join_ne_empty hdirectory hrelative, hnul', hsize, ?_⟩
  · rw [habsolute, hjoin _ hrelative, Path.parts_append, Path.parts_intercalate (fun name hname =>
      (hnames name hname).slash_not_mem) hne, ← List.append_assoc]
    -- If the directory ends in a slash, its path has an empty part more than the stem.
    have hreached : t.root.walk [] ((if Path.isAbsolute directory then []
        else t.working.map String.toList) ++ Path.parts stem) = .ok (.directory entries) := by
      rcases hstem with rfl | rfl
      · exact hwalk
      · apply FileNode.walk_of_walk_slash
        rw [List.append_assoc, ← Path.parts_append_slash]
        exact hwalk
    obtain ⟨above, hmore⟩ := FileNode.exists_walk_append hreached
    rw [hmore, hholds.walk_eq hentries]

theorem read_eq_of_node (h : t.node path = .ok (.file content)) : t.read path = .ok content := by
  rw [read, h]

theorem entries_eq_of_node {entries : List (String × FileNode)}
    (h : t.node path = .ok (.directory entries)) : t.entries path = entries := by
  rw [FileTree.entries, h]

theorem entries_eq_nil (h : ∀ entries, t.node path ≠ .ok (.directory entries)) :
    t.entries path = [] := by
  rw [FileTree.entries]
  split
  · next entries hnode => exact absurd hnode (h entries)
  · rfl

theorem holdsFile_iff : t.HoldsFile directory names content
    ↔ (FileNode.directory (t.entries directory)).Holds names content := by
  constructor
  · rintro ⟨entries, hnode, h⟩
    rw [entries_eq_of_node hnode]
    exact h
  · intro h
    by_cases hdirectory : ∃ entries, t.node directory = .ok (.directory entries)
    · obtain ⟨entries, hnode⟩ := hdirectory
      rw [entries_eq_of_node hnode] at h
      exact ⟨entries, hnode, h⟩
    · rw [entries_eq_nil (not_exists.mp hdirectory)] at h
      cases h with
      | inside hentry => cases hentry

theorem wellFormed_entries (hwell : t.root.WellFormed) (directory : String) :
    (FileNode.directory (t.entries directory)).WellFormed := by
  by_cases hdirectory : ∃ entries, t.node directory = .ok (.directory entries)
  · obtain ⟨entries, hnode⟩ := hdirectory
    rw [entries_eq_of_node hnode]
    obtain ⟨-, -, -, hwalk⟩ := node_eq_ok_iff.mp hnode
    exact FileNode.WellFormed.walk (List.forall_mem_singleton.mpr hwell) hwalk
  · rw [entries_eq_nil (not_exists.mp hdirectory)]
    exact .directory List.nodup_nil (by simp) (by simp)

/-! ### Trees in another order -/

structure Relisted (t t' : FileTree) : Prop where
  root : t.root.Relisted t'.root
  working : t.working = t'.working

theorem Relisted.symm (h : t.Relisted t') : t'.Relisted t := ⟨h.root.symm, h.working.symm⟩

theorem Relisted.exists_node (hwell : t.root.WellFormed) (h : t.Relisted t')
    (hnode : t.node path = .ok node) : ∃ node', t'.node path = .ok node' ∧ node.Relisted node' := by
  obtain ⟨hempty, hnul, hshort, hwalk⟩ := node_eq_ok_iff.mp hnode
  obtain ⟨node', hwalk', hsame⟩ := FileNode.Relisted.walk (List.forall_mem_singleton.mpr hwell)
    (.cons h.root .nil) hwalk
  rw [h.working] at hwalk'
  exact ⟨node', node_eq_ok_iff.mpr ⟨hempty, hnul, hshort, hwalk'⟩, hsame⟩

theorem Relisted.filesOfEntries_perm (hwell : t.root.WellFormed) (h : t.Relisted t')
    (directory : String) : (FileNode.filesOfEntries (t.entries directory)).Perm
      (FileNode.filesOfEntries (t'.entries directory)) := by
  by_cases hdirectory : ∃ entries, t.node directory = .ok (.directory entries)
  · obtain ⟨entries, hnode⟩ := hdirectory
    obtain ⟨node', hnode', hsame⟩ := h.exists_node hwell hnode
    obtain ⟨entries', rfl, -⟩ := hsame.of_directory
    rw [entries_eq_of_node hnode, entries_eq_of_node hnode']
    simpa only [FileNode.files] using hsame.files_perm
  · have hdirectory' : ¬ ∃ entries, t'.node directory = .ok (.directory entries) := by
      rintro ⟨entries, hnode'⟩
      obtain ⟨node, hnode, hsame⟩ := h.symm.exists_node (hwell.relisted h.root) hnode'
      obtain ⟨entries, rfl, -⟩ := hsame.of_directory
      exact hdirectory ⟨entries, hnode⟩
    rw [entries_eq_nil (not_exists.mp hdirectory), entries_eq_nil (not_exists.mp hdirectory')]

end FileTree

/-! ### What is discovered -/

def ResultsName.ofLast? (names : List String) : Option ResultsName := names.getLast?.bind parse?

namespace ResultsFile

variable {t : FileTree} {directory : String} {names : List String} {r : ResultsFile}

/-- The file that the names lead to, as discovery describes it. -/
structure StandsFor (t : FileTree) (directory : String) (names : List String) (r : ResultsFile) :
    Prop where
  name : ResultsName.ofLast? names = some r.name
  relative : r.relative = "/".intercalate names
  path : r.path = Path.join directory r.relative
  read : ∀ content, t.HoldsFile directory names content →
    r.path.utf8ByteSize ≤ FileTree.maxPathSize → t.read r.path = .ok content

def ofNames? (directory : String) (names : List String) : Option ResultsFile :=
  (ResultsName.ofLast? names).map fun name =>
    ⟨Path.join directory ("/".intercalate names), "/".intercalate names, name⟩

theorem isSome_ofNames? (directory : String) (names : List String) :
    (ofNames? directory names).isSome = (ResultsName.ofLast? names).isSome := by
  rw [ofNames?, Option.isSome_map]

theorem standsFor_of_ofNames? (hwell : t.root.WellFormed) (h : ofNames? directory names = some r) :
    r.StandsFor t directory names := by
  obtain ⟨name, hname, rfl⟩ := Option.map_eq_some_iff.mp h
  exact ⟨hname, rfl, rfl, fun content hfile hsize =>
    FileTree.read_eq_of_node (FileTree.node_join hwell hfile hsize)⟩

theorem at?_foldl_join (hdirectory : directory ≠ "") (hnames : ∀ name ∈ names, IsEntryName name)
    (hne : names ≠ []) : at? directory (names.foldl Path.join directory)
      = ofNames? directory names := by
  rw [Path.foldl_join hdirectory hnames hne, at?, Path.fileName?_join hnames hne hdirectory,
    Path.stripBase?_join hnames hne hdirectory, Option.getD_some, ofNames?, ResultsName.ofLast?]
  cases names.getLast? with
  | none => rfl
  | some last =>
    rw [Option.bind_eq_bind, Option.bind_some, Option.bind_some]
    cases ResultsName.parse? last <;> rfl

theorem foundAmong_eq_flatMap (base directory : String) (entries : List (String × FileNode)) :
    foundAmong base directory entries =
      entries.flatMap fun entry => foundAt base (Path.join directory entry.1) entry.2 := by
  induction entries with
  | nil => rw [foundAmong, List.flatMap_nil]
  | cons entry entries ih =>
    obtain ⟨name, node⟩ := entry
    rw [foundAmong, List.flatMap_cons, ih]

/-- The path grows by one name for each directory on the way; where it ends, all the names that were
joined are the way to the file. -/
theorem foundAt_foldl_join {node : FileNode} {before : List String} (hdirectory : directory ≠ "")
    (hwell : node.WellFormed) (hbefore : ∀ name ∈ before, IsEntryName name) (hne : before ≠ []) :
    foundAt directory (before.foldl Path.join directory) node =
      node.files.filterMap fun names => ofNames? directory (before ++ names) := by
  induction hwell generalizing before with
  | file content =>
    rw [foundAt, at?_foldl_join hdirectory hbefore hne, FileNode.files, List.filterMap_cons,
      List.append_nil, List.filterMap_nil]
    cases ofNames? directory before <;> rfl
  | @directory entries hnodup hnames hnodes ih =>
    rw [foundAt, foundAmong_eq_flatMap, FileNode.files, FileNode.filesOfEntries_eq,
      List.filterMap_flatMap]
    refine List.flatMap_congr fun entry hentry => ?_
    have hlonger : ∀ name ∈ before ++ [entry.1], IsEntryName name :=
      List.forall_mem_append.mpr ⟨hbefore, List.forall_mem_singleton.mpr (hnames entry hentry)⟩
    have hfound := ih entry hentry hlonger (List.append_ne_nil_of_right_ne_nil _ (by simp))
    rw [List.foldl_append, List.foldl_cons, List.foldl_nil] at hfound
    rw [hfound, List.filterMap_map]
    refine List.filterMap_congr fun names _ => ?_
    rw [List.append_assoc, List.singleton_append, Function.comp_apply]

theorem precedes_trans (a b c : ResultsFile) (hab : precedes a b = true)
    (hbc : precedes b c = true) : precedes a c = true :=
  decide_eq_true (String.le_trans (of_decide_eq_true hab) (of_decide_eq_true hbc))

theorem precedes_total (a b : ResultsFile) : (precedes a b || precedes b a) = true := by
  rw [precedes, precedes, Bool.or_eq_true, decide_eq_true_eq, decide_eq_true_eq]
  exact String.le_total _ _

end ResultsFile

namespace FileTree

variable {t t' : FileTree} {directory : String}

theorem discover_eq_mergeSort (hwell : t.root.WellFormed) (directory : String) :
    t.discover directory =
    ((FileNode.filesOfEntries (t.entries directory)).filterMap
      (ResultsFile.ofNames? directory)).mergeSort ResultsFile.precedes := by
  rw [discover]
  congr 1
  by_cases hdirectory : directory = ""
  · have hnone : t.entries directory = [] := entries_eq_nil fun entries hnode =>
      (node_eq_ok_iff.mp hnode).1 hdirectory
    rw [hnone, ResultsFile.foundAmong, FileNode.filesOfEntries, List.filterMap_nil]
  · rw [ResultsFile.foundAmong_eq_flatMap, FileNode.filesOfEntries_eq, List.filterMap_flatMap]
    refine List.flatMap_congr fun entry hentry => ?_
    cases wellFormed_entries hwell directory with
    | directory _ hnames hnodes =>
      have hfound := ResultsFile.foundAt_foldl_join hdirectory (hnodes entry hentry)
        (List.forall_mem_singleton.mpr (hnames entry hentry)) (List.cons_ne_nil _ _)
      rw [List.foldl_cons, List.foldl_nil] at hfound
      rw [hfound, List.filterMap_map]
      rfl

theorem exists_files (hwell : t.root.WellFormed) (directory : String) :
    ∃ files : List (List String), files.Nodup ∧
      (∀ names, names ∈ files ↔ (∃ content, t.HoldsFile directory names content)
        ∧ (ResultsName.ofLast? names).isSome) ∧
      List.Forall₂ (fun names r => r.StandsFor t directory names) files
        (t.discover directory) := by
  have hfound : (FileNode.directory (t.entries directory)).files
      = FileNode.filesOfEntries (t.entries directory) := by rw [FileNode.files]
  rw [discover_eq_mergeSort hwell]
  obtain ⟨files, hfiles, hperm⟩ := List.perm_comp_forall₂ (List.mergeSort_perm _ _)
    (forall₂_filterMap (ResultsFile.ofNames? directory)
      (FileNode.filesOfEntries (t.entries directory))).flip
  refine ⟨files, ?_, fun names => ?_, hfiles.flip.imp fun names r hr => ?_⟩
  · have hnodup := (wellFormed_entries hwell directory).nodup_files
    rw [hfound] at hnodup
    exact hperm.nodup_iff.mpr (hnodup.filter _)
  · rw [hperm.mem_iff, List.mem_filter, ResultsFile.isSome_ofNames?, ← hfound,
      FileNode.mem_files_iff]
    simp only [holdsFile_iff]
  · exact ResultsFile.standsFor_of_ofNames? hwell hr

theorem nodup_relatives (hwell : t.root.WellFormed) (directory : String) :
    ((t.discover directory).map (·.relative)).Nodup := by
  obtain ⟨files, hnodup, hmem, hstands⟩ := exists_files hwell directory
  have hrelatives : files.map "/".intercalate = (t.discover directory).map (·.relative) := by
    rw [← List.forall₂_eq_eq_eq, List.forall₂_map_left_iff, List.forall₂_map_right_iff]
    exact hstands.imp fun names r h => h.relative.symm
  rw [← hrelatives]
  refine hnodup.map_on fun names hnames names' hnames' heq => ?_
  obtain ⟨⟨content, hfile⟩, -⟩ := (hmem names).mp hnames
  obtain ⟨⟨content', hfile'⟩, -⟩ := (hmem names').mp hnames'
  obtain ⟨hne, hentry⟩ := hfile.isEntryName hwell
  obtain ⟨hne', hentry'⟩ := hfile'.isEntryName hwell
  have hparts := Path.parts_intercalate (fun name hname => (hentry name hname).slash_not_mem) hne
  rw [heq, Path.parts_intercalate (fun name hname => (hentry' name hname).slash_not_mem) hne']
    at hparts
  exact (List.map_injective_iff.mpr fun _ _ => String.toList_inj.mp) hparts.symm

open Text.Utf8 in
theorem pairwise_discover (hwell : t.root.WellFormed) (directory : String) :
    (t.discover directory).Pairwise fun a b =>
      encode a.relative.toList < encode b.relative.toList := by
  have hsorted : (t.discover directory).Pairwise fun a b => ResultsFile.precedes a b = true :=
    List.pairwise_mergeSort ResultsFile.precedes_trans ResultsFile.precedes_total _
  have hdifferent := List.pairwise_map.mp (nodup_relatives hwell directory)
  refine (hsorted.and hdifferent).imp fun {a b} hab => ?_
  obtain ⟨hle, hne⟩ := hab
  by_contra hnot
  have hge := (le_iff_not_encode_lt b.relative a.relative).mpr hnot
  exact hne (String.le_antisymm (of_decide_eq_true hle) hge)

theorem Relisted.discover_eq (hwell : t.root.WellFormed) (h : t.Relisted t') (directory : String) :
    t'.discover directory = t.discover directory := by
  have hfound := ((h.filesOfEntries_perm hwell directory).filterMap
    (ResultsFile.ofNames? directory)).symm
  have hperm : (t'.discover directory).Perm (t.discover directory) := by
    rw [discover_eq_mergeSort (hwell.relisted h.root), discover_eq_mergeSort hwell]
    exact ((List.mergeSort_perm _ _).trans hfound).trans (List.mergeSort_perm _ _).symm
  -- The order is strict, so there is one way only to list what was found.
  refine hperm.eq_of_pairwise (fun a b _ _ hab hba => ?_)
    (pairwise_discover (hwell.relisted h.root) directory) (pairwise_discover hwell directory)
  exact absurd hba (List.lt_asymm hab)

open Text.Utf8 in
/-- Each file below the directory whose last name can be read is found once, and nothing else is.
The list is in strict byte order, so that no order of the entries on disk shows in it. -/
theorem discover_finds (hwell : t.root.WellFormed) (directory : String) :
    (∃ files : List (List String), files.Nodup ∧
      (∀ names, names ∈ files ↔ (∃ content, t.HoldsFile directory names content)
        ∧ (ResultsName.ofLast? names).isSome) ∧
      List.Forall₂ (fun names r => r.StandsFor t directory names) files
        (t.discover directory)) ∧
    ((t.discover directory).Pairwise fun a b =>
      encode a.relative.toList < encode b.relative.toList) ∧
    (∀ e, t.node directory = .error e → t.discover directory = []) ∧
    (∀ content, t.node directory = .ok (.file content) → t.discover directory = []) ∧
    ∀ t', t.Relisted t' → t'.discover directory = t.discover directory := by
  have hnone (h : t.entries directory = []) : t.discover directory = [] := by
    rw [discover, h, ResultsFile.foundAmong, List.mergeSort_nil]
  refine ⟨exists_files hwell directory, pairwise_discover hwell directory, fun e hnode => ?_,
    fun content hnode => ?_, fun t' h => h.discover_eq hwell directory⟩
  · exact hnone (entries_eq_nil (by simp [hnode]))
  · exact hnone (entries_eq_nil (by simp [hnode]))

theorem discover_finds_nested :
    let nested : FileNode := .directory [("notes", .file []), ("parses-old-de.txt", .file [])]
    let tree (entries : List (String × FileNode)) : FileTree :=
      ⟨.directory [("data", .directory entries)], []⟩
    let t := tree [("parses-fr.txt", nested), ("parses-en.txt", .file [])]
    let t' := tree [("parses-en.txt", .file []), ("parses-fr.txt", nested)]
    t.root.WellFormed ∧ t.Relisted t' ∧ t'.discover "data" = t.discover "data" ∧
      (t.discover "data").map (·.relative) =
        ["parses-en.txt", "parses-fr.txt/parses-old-de.txt"] := by
  intro nested tree t t'
  have hnested : nested.WellFormed := .directory (by decide) (by decide)
    (List.forall_mem_cons.mpr ⟨.file [], List.forall_mem_singleton.mpr (.file [])⟩)
  have hdata : (FileNode.directory
      [("parses-fr.txt", nested), ("parses-en.txt", .file [])]).WellFormed :=
    .directory (by decide) (by decide)
      (List.forall_mem_cons.mpr ⟨hnested, List.forall_mem_singleton.mpr (.file [])⟩)
  have hroot : t.root.WellFormed :=
    .directory (by decide) (by decide) (List.forall_mem_singleton.mpr hdata)
  have hrelisted : t.Relisted t' := ⟨.entry (.swap _ _ _) (.refl _), rfl⟩
  obtain ⟨-, -, -, -, hsame⟩ := discover_finds hroot "data"
  refine ⟨hroot, hrelisted, hsame t' hrelisted, ?_⟩
  have hentries : t.entries "data" = [("parses-fr.txt", nested), ("parses-en.txt", .file [])] := rfl
  have hfound : FileNode.filesOfEntries (t.entries "data") = [["parses-fr.txt", "notes"],
      ["parses-fr.txt", "parses-old-de.txt"], ["parses-en.txt"]] := by
    simp [hentries, nested, FileNode.filesOfEntries, FileNode.files]
  have hread : ([["parses-fr.txt", "notes"], ["parses-fr.txt", "parses-old-de.txt"],
      ["parses-en.txt"]].filterMap (ResultsFile.ofNames? "data")).map (·.relative) =
      ["parses-fr.txt/parses-old-de.txt", "parses-en.txt"] := by decide
  have hsorted := List.map_mergeSort (r := ResultsFile.precedes) (s := fun a b => decide (a ≤ b))
    (f := (·.relative)) (l := (FileNode.filesOfEntries (t.entries "data")).filterMap
      (ResultsFile.ofNames? "data")) fun a _ b _ => rfl
  have hafter : ¬ "parses-fr.txt/parses-old-de.txt" ≤ "parses-en.txt" := by decide
  rw [discover_eq_mergeSort hroot, hsorted, hfound, hread]
  simp [List.mergeSort, hafter]

end FileTree

end LinkageCheck
