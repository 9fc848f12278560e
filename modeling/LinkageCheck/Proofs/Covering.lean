import LinkageCheck.Proofs.Files.Discovery
import LinkageCheck.Proofs.Files.Naming
import LinkageCheck.Proofs.Suite

/-! Which files the cases of a suite stand for, and what discovery adds. A case stands for a file
that was found just when it reads that file and does not name it from the root or from a dot. -/

namespace LinkageCheck

variable {t : FileTree} {srcdir : String} {f g : ResultsFile} {names : List String} {c : SuiteCase}

namespace ResultsName

theorem plain_text (n : ResultsName) : Path.Plain n.text :=
  Path.plain_of_toList (n.toList_text.trans rfl) (by decide) (by decide)

end ResultsName

/-! ### Files that were found -/

structure ResultsFile.Below (directory : String) (names : List String) (f : ResultsFile) :
    Prop where
  directory_ne : directory ≠ ""
  names_ne : names ≠ []
  isEntryName : ∀ name ∈ names, IsEntryName name
  name : ResultsName.ofLast? names = some f.name
  relative : f.relative = "/".intercalate names
  path : f.path = Path.join directory f.relative

theorem FileTree.exists_below (hwell : t.root.WellFormed) (hf : f ∈ t.discover srcdir) :
    ∃ names, f.Below srcdir names := by
  obtain ⟨files, -, hmem, hstands⟩ := exists_files hwell srcdir
  obtain ⟨names, hnames, hf⟩ := exists_of_mem_forall₂ hstands hf
  obtain ⟨⟨content, hholds⟩, -⟩ := (hmem names).mp hnames
  obtain ⟨hne, hentry⟩ := hholds.isEntryName hwell
  obtain ⟨entries, hnode, -⟩ := hholds
  obtain ⟨hdirectory, -⟩ := node_eq_ok_iff.mp hnode
  exact ⟨names, hdirectory, hne, hentry, hf.name, hf.relative, hf.path⟩

namespace ResultsFile.Below

theorem plain_relative (hf : f.Below srcdir names) : Path.Plain f.relative :=
  hf.relative ▸ Path.plain_intercalate hf.isEntryName hf.names_ne

theorem components_relative (hf : f.Below srcdir names) :
    Path.components f.relative = names.map .name := by
  rw [hf.relative, Path.components_intercalate hf.isEntryName hf.names_ne]

theorem components_path (hf : f.Below srcdir names) :
    Path.components f.path = Path.components srcdir ++ Path.components f.relative := by
  rw [hf.path, Path.components_join hf.directory_ne hf.plain_relative.relative,
    Path.components_of_plain hf.plain_relative]

theorem fileName?_path (hf : f.Below srcdir names) : Path.fileName? f.path = some f.name.text := by
  obtain ⟨last, hlast, hparse⟩ := Option.bind_eq_some_iff.mp hf.name
  obtain ⟨hname, -⟩ := ResultsName.parse?_eq_some_iff.mp hparse
  rw [hf.path, hf.relative, Path.fileName?_join hf.isEntryName hf.names_ne hf.directory_ne, hlast,
    hname]

theorem eq_of_components (hf : f.Below srcdir names) {names' : List String}
    (hg : g.Below srcdir names')
    (h : Path.components f.relative = Path.components g.relative) : f = g := by
  have hnames : names = names' := by
    rw [hf.components_relative, hg.components_relative] at h
    exact List.map_injective_iff.mpr (fun _ _ => PathComponent.name.inj) h
  subst hnames
  have hname : f.name = g.name := Option.some.inj (hf.name.symm.trans hg.name)
  have hrelative : f.relative = g.relative := hf.relative.trans hg.relative.symm
  have hpath : f.path = g.path := by rw [hf.path, hg.path, hrelative]
  calc f = ⟨f.path, f.relative, f.name⟩ := rfl
    _ = ⟨g.path, g.relative, g.name⟩ := by rw [hpath, hrelative, hname]

end ResultsFile.Below

theorem FileTree.pairwise_components (hwell : t.root.WellFormed) (srcdir : String) :
    (t.discover srcdir).Pairwise fun a b =>
      Path.components a.relative ≠ Path.components b.relative := by
  refine (List.pairwise_map.mp (nodup_relatives hwell srcdir)).imp_of_mem ?_
  intro a b ha hb hne heq
  obtain ⟨_, ha⟩ := exists_below hwell ha
  obtain ⟨_, hb⟩ := exists_below hwell hb
  exact hne (congrArg _ (ha.eq_of_components hb heq))

/-! ### Cases -/

namespace SuiteCase

theorem file_eq (c : SuiteCase) (srcdir : String) :
    c.file srcdir = Path.join srcdir (c.path.getD c.name) := by
  rw [file]
  cases c.path <;> rfl

theorem covers_iff {relative : String} : c.covers relative = true ↔
    Path.components (c.path.getD c.name) = Path.components relative := by
  rw [covers, beq_iff_eq]

/-- The path that the case is run on is that of the file. -/
def Reads (c : SuiteCase) (srcdir : String) (f : ResultsFile) : Prop :=
  Path.components (c.file srcdir) = Path.components f.path

instance (c : SuiteCase) (srcdir : String) (f : ResultsFile) : Decidable (c.Reads srcdir f) :=
  inferInstanceAs (Decidable (_ = _))

theorem plain_getD_iff : Path.Plain (c.path.getD c.name) ↔ ∀ path ∈ c.path, Path.Plain path := by
  cases c.path with
  | none => exact ⟨fun _ _ h => absurd h (Option.not_mem_none _), fun _ => c.resultsName.plain_text⟩
  | some path => simp

/-- The case is compared with the file before it is put below the directory, and run after that. -/
theorem covers_iff_reads (hf : f.Below srcdir names) : c.covers f.relative = true ↔
    c.Reads srcdir f ∧ ∀ path ∈ c.path, Path.Plain path := by
  rw [covers_iff, Reads, file_eq, hf.components_path, ← plain_getD_iff]
  generalize c.path.getD c.name = path
  -- Behind the directory the lead of the path is lost, so only without one are the two the same.
  constructor
  · intro h
    have hplain : Path.Plain path :=
      Path.plain_of_components (h.trans hf.components_relative)
    refine ⟨?_, hplain⟩
    rw [Path.components_join hf.directory_ne hplain.relative, ← Path.components_of_plain hplain, h]
  · rintro ⟨h, hplain⟩
    rw [Path.components_join hf.directory_ne hplain.relative] at h
    rw [Path.components_of_plain hplain]
    exact List.append_cancel_left h

end SuiteCase

namespace Suite

variable {s : Suite} {cases : List SuiteCase} {files : List ResultsFile}

/-! ### Adding cases -/

def casesFor (cases : List SuiteCase) (files : List ResultsFile) : List SuiteCase :=
  (files.filter fun f => !cases.any (·.covers f.relative)).map caseFor

theorem covers_caseFor : (caseFor f).covers g.relative = true ↔
    Path.components f.relative = Path.components g.relative := SuiteCase.covers_iff

theorem name_caseFor (f : ResultsFile) : (caseFor f).name = f.name.text := rfl

theorem mem_casesFor : c ∈ casesFor cases files ↔
    ∃ f ∈ files, (¬ ∃ b ∈ cases, b.covers f.relative = true) ∧ caseFor f = c := by
  simp [casesFor, and_assoc]

theorem casesFor_eq_nil (h : ∀ f ∈ files, ∃ c ∈ cases, c.covers f.relative = true) :
    casesFor cases files = [] := by
  refine List.eq_nil_iff_forall_not_mem.mpr fun c hc => ?_
  obtain ⟨f, hf, hnew, -⟩ := mem_casesFor.mp hc
  exact hnew (h f hf)

theorem exists_of_casesFor_eq {before after : List SuiteCase}
    (hfiles : files.Pairwise fun a b =>
      Path.components a.relative ≠ Path.components b.relative)
    (h : casesFor cases files = before ++ c :: after) :
    ∃ f ∈ files, caseFor f = c ∧ ∀ b ∈ cases ++ before, b.covers f.relative = false := by
  obtain ⟨earlier, rest, hnew, rfl, hrest⟩ := List.map_eq_append_iff.mp h
  obtain ⟨f, later, rfl, rfl, -⟩ := List.map_eq_cons_iff.mp hrest
  have hapart : (earlier ++ f :: later).Pairwise fun a b =>
      Path.components a.relative ≠ Path.components b.relative := hnew ▸ hfiles.filter _
  obtain ⟨hf, hold⟩ :=
    List.mem_filter.mp (hnew ▸ List.mem_append_right earlier List.mem_cons_self)
  refine ⟨f, hf, rfl, fun b hb => ?_⟩
  rcases List.mem_append.mp hb with hb | hb
  · exact Bool.eq_false_iff.mpr (List.any_eq_false.mp (Bool.not_eq_true' _ |>.mp hold) b hb)
  · obtain ⟨g, hg, rfl⟩ := List.mem_map.mp hb
    have hne := (List.pairwise_append.mp hapart).2.2 g hg f List.mem_cons_self
    exact Bool.eq_false_iff.mpr fun hcovers => hne (covers_caseFor.mp hcovers)

theorem addFile_eq (cases : List SuiteCase) (f : ResultsFile) :
    addFile cases f = cases ++ casesFor cases [f] := by
  rw [addFile, casesFor]
  by_cases h : cases.any (·.covers f.relative) = true <;> simp [h]

theorem foldl_addFile (hfiles : files.Pairwise fun a b =>
      Path.components a.relative ≠ Path.components b.relative) (cases : List SuiteCase) :
    files.foldl addFile cases = cases ++ casesFor cases files := by
  -- A case that was added stands for no later file, so each file meets the cases at the start.
  induction files generalizing cases with
  | nil => simp [casesFor]
  | cons f files ih =>
    obtain ⟨hf, hfiles⟩ := List.pairwise_cons.mp hfiles
    have hlater : casesFor (addFile cases f) files = casesFor cases files := by
      rw [casesFor, casesFor]
      congr 1
      refine List.filter_congr fun g hg => ?_
      have hnot : (caseFor f).covers g.relative = false :=
        Bool.eq_false_iff.mpr fun h => hf g hg (covers_caseFor.mp h)
      rw [addFile]
      split
      · rfl
      · rw [List.any_append, List.any_cons, List.any_nil, hnot, Bool.or_false, Bool.or_false]
    rw [List.foldl_cons, ih hfiles, hlater, addFile_eq, List.append_assoc]
    rw [casesFor, casesFor, casesFor, ← List.map_append, ← List.filter_append,
      List.singleton_append]

theorem addDiscovered_eq (hwell : t.root.WellFormed) (s : Suite) (srcdir : String) :
    s.addDiscovered t srcdir = (⟨s.cases ++ casesFor s.cases (t.discover srcdir)⟩,
      (casesFor s.cases (t.discover srcdir)).length) := by
  have hcases := foldl_addFile (t.pairwise_components hwell srcdir) s.cases
  rw [addDiscovered, hcases, List.length_append, Nat.add_sub_cancel_left]

/-- What is added are cases behind the old ones, one for each file that no case before stands for,
with the name of that file; they leave no file over, so that a second search adds nothing. -/
theorem addDiscovered_completes (hwell : t.root.WellFormed) (s : Suite) (srcdir : String) :
    ∃ added : List SuiteCase,
      (s.addDiscovered t srcdir).1.cases = s.cases ++ added ∧
      (s.addDiscovered t srcdir).2 = added.length ∧
      (∀ f ∈ t.discover srcdir, ∃ c ∈ s.cases ++ added, c.covers f.relative = true) ∧
      (∀ before c after, added = before ++ c :: after → ∃ f ∈ t.discover srcdir,
        (∀ g ∈ t.discover srcdir, c.covers g.relative = true ↔ g = f) ∧
        (∀ b ∈ s.cases ++ before, b.covers f.relative = false) ∧
        Path.fileName? f.path = some c.name) ∧
      ∀ t', t.Relisted t' →
        (s.addDiscovered t srcdir).1.addDiscovered t' srcdir =
          ((s.addDiscovered t srcdir).1, 0) := by
  have hcovered : ∀ f ∈ t.discover srcdir,
      ∃ c ∈ s.cases ++ casesFor s.cases (t.discover srcdir), c.covers f.relative = true := by
    intro f hf
    by_cases hold : ∃ c ∈ s.cases, c.covers f.relative = true
    · obtain ⟨c, hc, hcovers⟩ := hold
      exact ⟨c, List.mem_append_left _ hc, hcovers⟩
    · exact ⟨caseFor f, List.mem_append_right _ (mem_casesFor.mpr ⟨f, hf, hold, rfl⟩),
        covers_caseFor.mpr rfl⟩
  refine ⟨casesFor s.cases (t.discover srcdir), by rw [addDiscovered_eq hwell],
    by rw [addDiscovered_eq hwell], hcovered, ?_, ?_⟩
  · intro before c after hsplit
    obtain ⟨f, hf, rfl, hnew⟩ :=
      exists_of_casesFor_eq (t.pairwise_components hwell srcdir) hsplit
    obtain ⟨names, hbelow⟩ := FileTree.exists_below hwell hf
    refine ⟨f, hf, fun g hg => ?_, hnew, by rw [hbelow.fileName?_path, name_caseFor]⟩
    obtain ⟨names', hbelow'⟩ := FileTree.exists_below hwell hg
    rw [covers_caseFor]
    exact ⟨fun h => (hbelow.eq_of_components hbelow' h).symm, fun h => by rw [h]⟩
  · intro t' hrelisted
    rw [addDiscovered_eq hwell, addDiscovered_eq (hwell.relisted hrelisted.root),
      hrelisted.discover_eq hwell, casesFor_eq_nil hcovered, List.append_nil]
    rfl

def lithuanianTree : FileTree :=
  ⟨.directory [("lt", .directory [("parses-lt.txt", .file [])]), ("parses-en.txt", .file [])], []⟩

theorem wellFormed_lithuanianTree : lithuanianTree.root.WellFormed :=
  .directory (by decide) (by decide) (List.forall_mem_cons.mpr
    ⟨.directory (by decide) (by decide) (List.forall_mem_singleton.mpr (.file [])),
      List.forall_mem_singleton.mpr (.file [])⟩)

theorem mem_discover_lithuanianTree :
    ⟨"./lt/parses-lt.txt", "lt/parses-lt.txt", ⟨"lt", none⟩⟩ ∈ lithuanianTree.discover "." ∧
      ⟨"./parses-en.txt", "parses-en.txt", ⟨"en", none⟩⟩ ∈ lithuanianTree.discover "." := by
  have hentries : lithuanianTree.entries "." =
      [("lt", .directory [("parses-lt.txt", .file [])]), ("parses-en.txt", .file [])] := rfl
  have hfound : FileNode.filesOfEntries (lithuanianTree.entries ".") =
      [["lt", "parses-lt.txt"], ["parses-en.txt"]] := by
    simp [hentries, FileNode.filesOfEntries, FileNode.files]
  have hlt : ResultsFile.ofNames? "." ["lt", "parses-lt.txt"] =
      some ⟨"./lt/parses-lt.txt", "lt/parses-lt.txt", ⟨"lt", none⟩⟩ := by decide
  have hen : ResultsFile.ofNames? "." ["parses-en.txt"] =
      some ⟨"./parses-en.txt", "parses-en.txt", ⟨"en", none⟩⟩ := by decide
  simp only [FileTree.discover_eq_mergeSort wellFormed_lithuanianTree, hfound, List.mem_mergeSort,
    List.mem_filterMap]
  exact ⟨⟨_, List.mem_cons_self, hlt⟩, ⟨_, List.mem_cons_of_mem _ List.mem_cons_self, hen⟩⟩

theorem addDiscovered_completes_lithuanian :
    let t' : FileTree := ⟨.directory
      [("parses-en.txt", .file []), ("lt", .directory [("parses-lt.txt", .file [])])], []⟩
    lithuanianTree.root.WellFormed ∧ lithuanianTree.Relisted t' ∧
      (∃ c ∈ (standard.addDiscovered lithuanianTree ".").1.cases,
        c.covers "lt/parses-lt.txt" = true) ∧
      (standard.addDiscovered lithuanianTree ".").1.addDiscovered t' "." =
        ((standard.addDiscovered lithuanianTree ".").1, 0) := by
  intro t'
  have hrelisted : lithuanianTree.Relisted t' := ⟨.swap _ _ _, rfl⟩
  obtain ⟨added, hcases, -, hcovered, -, hagain⟩ :=
    addDiscovered_completes wellFormed_lithuanianTree standard "."
  rw [← hcases] at hcovered
  exact ⟨wellFormed_lithuanianTree, hrelisted, hcovered _ mem_discover_lithuanianTree.1,
    hagain t' hrelisted⟩

/-! ### What is left out -/

/-- No case that is added reads the file. -/
def LeavesOut (s : Suite) (t : FileTree) (srcdir : String) (f : ResultsFile) : Prop :=
  ∀ c ∈ (s.addDiscovered t srcdir).1.cases.drop s.cases.length, ¬ c.Reads srcdir f

/-- A file is left out just when a case reads it whose path, if it has one, begins with a name or
with the parent directory. -/
theorem leavesOut_iff (hwell : t.root.WellFormed) (s : Suite) (hf : f ∈ t.discover srcdir) :
    s.LeavesOut t srcdir f ↔
      ∃ c ∈ s.cases, c.Reads srcdir f ∧ ∀ path ∈ c.path, Path.Plain path := by
  obtain ⟨names, hbelow⟩ := FileTree.exists_below hwell hf
  have hadded : (s.addDiscovered t srcdir).1.cases.drop s.cases.length =
      casesFor s.cases (t.discover srcdir) := by
    rw [addDiscovered_eq hwell, List.drop_left]
  simp only [LeavesOut, hadded, ← SuiteCase.covers_iff_reads hbelow]
  constructor
  · intro h
    -- A file that nothing stands for gets a case of its own, and that case reads it.
    by_contra hnew
    have hreads : (caseFor f).Reads srcdir f :=
      ((SuiteCase.covers_iff_reads hbelow).mp (covers_caseFor.mpr rfl)).1
    exact h (caseFor f) (mem_casesFor.mpr ⟨f, hf, hnew, rfl⟩) hreads
  · intro hcovered c hc hreads
    obtain ⟨g, hg, hnew, rfl⟩ := mem_casesFor.mp hc
    obtain ⟨names', hbelow'⟩ := FileTree.exists_below hwell hg
    have hcovers : (caseFor g).covers f.relative = true :=
      (SuiteCase.covers_iff_reads hbelow).mpr ⟨hreads, fun path hpath => by
        obtain rfl : g.relative = path := Option.some.inj hpath
        exact hbelow'.plain_relative⟩
    obtain rfl := hbelow'.eq_of_components hbelow (covers_caseFor.mp hcovers)
    exact hnew hcovered

theorem leavesOut_iff_english : lithuanianTree.root.WellFormed ∧
    standard.LeavesOut lithuanianTree "." ⟨"./parses-en.txt", "parses-en.txt", ⟨"en", none⟩⟩ :=
  ⟨wellFormed_lithuanianTree,
    (leavesOut_iff wellFormed_lithuanianTree standard mem_discover_lithuanianTree.2).mpr
      ⟨.ofLang "en", List.mem_cons_self, by decide, fun _ h => absurd h (Option.not_mem_none _)⟩⟩

def dottedCase : SuiteCase := { SuiteCase.ofLang "en" with path := some "./parses-en.txt" }

def englishFile : ResultsFile := ⟨"./parses-en.txt", "parses-en.txt", ⟨"en", none⟩⟩

theorem discover_englishTree : englishTree.discover "." = [englishFile] := by
  have hentries : englishTree.entries "." = [("parses-en.txt", .file treeFile)] := rfl
  have hread : ResultsFile.at? "." (Path.join "." "parses-en.txt") = some englishFile := by decide
  simp [FileTree.discover, hentries, ResultsFile.foundAmong, ResultsFile.foundAt, hread]

def englishReportAt (path : String) : Report :=
  { englishReport with
    path := path
    failures := englishReport.failures.map fun f => { f with path := path } }

/-- A path with a dot in front is that of the file, and yet the file is added and read twice. -/
theorem dottedCase_adds_again :
    let s := (addDiscovered ⟨[dottedCase]⟩ englishTree ".").1
    englishFile ∈ englishTree.discover "." ∧
      ¬ (LeavesOut ⟨[dottedCase]⟩ englishTree "." englishFile ↔
        ∃ c ∈ [dottedCase], c.Reads "." englishFile) ∧
      s.run englishTree englishConfig openTreeless =
        .ok [.ran (englishReportAt "././parses-en.txt"),
          .ran (englishReportAt "./parses-en.txt")] := by
  intro s
  have hs : s.cases = [dottedCase, caseFor englishFile] := by
    have hnew : [dottedCase].any (·.covers englishFile.relative) = false := by decide
    simp only [s, addDiscovered, discover_englishTree, List.foldl_cons, List.foldl_nil, addFile,
      hnew]
    rfl
  have hreads : (caseFor englishFile).Reads "." englishFile := by decide
  refine ⟨by rw [discover_englishTree]; exact List.mem_singleton_self _, fun hiff => ?_, ?_⟩
  · have hleft := hiff.mpr ⟨dottedCase, List.mem_singleton_self _, by decide⟩
    have hadded : caseFor englishFile ∈ s.cases.drop 1 := by
      rw [hs]
      exact List.mem_singleton_self _
    exact hleft _ hadded hreads
  · have hsuite : s = ⟨[dottedCase, caseFor englishFile]⟩ := congrArg Suite.mk hs
    rw [hsuite]
    decide +kernel

end Suite

end LinkageCheck
