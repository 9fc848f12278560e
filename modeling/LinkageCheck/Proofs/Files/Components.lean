import LinkageCheck.Proofs.Files.Tree
import LinkageCheck.Proofs.Text.Blank

/-! The components of joined paths. What a path leads with, a slash or a dot, counts on its own and
is lost behind a directory, where the rest of the path goes on from that of the directory. -/

namespace LinkageCheck

namespace Path

variable {directory path relative : String} {names : List String}

/-! ### Joined paths -/

theorem slash_toList : ("/" : String).toList = ['/'] := by decide

theorem parts_append (a b : String) : parts (a ++ "/" ++ b) = parts a ++ parts b := by
  rw [parts, String.toList_append, String.toList_append, slash_toList, List.append_assoc,
    List.singleton_append, List.splitOn_append_cons_self]
  rfl

theorem parts_append_slash (stem : String) : parts (stem ++ "/") = parts stem ++ [[]] := by
  have hempty : parts "" = [[]] := by decide
  rw [← hempty, ← parts_append, String.append_empty]

theorem parts_intercalate (h : ∀ name ∈ names, '/' ∉ name.toList) (hne : names ≠ []) :
    parts ("/".intercalate names) = names.map String.toList := by
  rw [parts, String.toList_intercalate, slash_toList]
  refine List.splitOn_intercalate '/' (fun part hpart => ?_) (List.map_eq_nil_iff.not.mpr hne)
  obtain ⟨name, hname, rfl⟩ := List.mem_map.mp hpart
  exact h name hname

theorem exists_stem (hdirectory : directory ≠ "") :
    ∃ stem, (directory = stem ∨ directory = stem ++ "/")
      ∧ ∀ relative, isAbsolute relative = false →
        join directory relative = stem ++ "/" ++ relative := by
  have hempty : directory.isEmpty = false := by simpa using hdirectory
  by_cases hslash : directory.toList.getLast? = some '/'
  · obtain ⟨init, hinit⟩ := List.getLast?_eq_some_iff.mp hslash
    have hstem : directory = String.ofList init ++ "/" := by
      apply String.toList_inj.mp
      rw [String.toList_append, String.toList_ofList, slash_toList, hinit]
    refine ⟨String.ofList init, .inr hstem, fun relative hrelative => ?_⟩
    rw [join, hrelative, hempty, if_neg (by simp), if_pos hslash, ← hstem]
  · refine ⟨directory, .inl rfl, fun relative hrelative => ?_⟩
    rw [join, hrelative, hempty, if_neg (by simp), if_neg hslash]

theorem isAbsolute_intercalate (h : ∀ name ∈ names, IsEntryName name) :
    isAbsolute ("/".intercalate names) = false := by
  cases names with
  | nil => decide
  | cons name names =>
    have hname := h name List.mem_cons_self
    obtain ⟨c, cs, hcs⟩ : ∃ c cs, name.toList = c :: cs :=
      List.exists_cons_of_ne_nil fun hnil => hname.ne_empty (String.toList_inj.mp hnil)
    have hc : c ≠ '/' := by
      rintro rfl
      exact hname.slash_not_mem (hcs ▸ List.mem_cons_self)
    rw [isAbsolute, String.toList_intercalate, List.map_cons, hcs]
    cases names <;> simp [List.intercalate_cons_cons, hc]

theorem isAbsolute_entryName {name : String} (h : IsEntryName name) : isAbsolute name = false := by
  simpa using isAbsolute_intercalate (List.forall_mem_singleton.mpr h)

theorem isAbsolute_append (hdirectory : directory ≠ "") (more : String) :
    isAbsolute (directory ++ more) = isAbsolute directory := by
  have hne : directory.toList ≠ [] := fun h => hdirectory (String.toList_inj.mp h)
  rw [isAbsolute, isAbsolute, String.toList_append, List.head?_append_of_ne_nil _ hne]

theorem isAbsolute_join (hdirectory : directory ≠ "") (hrelative : isAbsolute relative = false) :
    isAbsolute (join directory relative) = isAbsolute directory := by
  obtain ⟨stem, rfl | rfl, hjoin⟩ := exists_stem hdirectory
  · rw [hjoin relative hrelative, String.append_assoc, isAbsolute_append hdirectory]
  · rw [hjoin relative hrelative, isAbsolute_append hdirectory]

theorem mem_join {c : Char} (h : c ∈ (join directory relative).toList) :
    c ∈ directory.toList ∨ c = '/' ∨ c ∈ relative.toList := by
  rw [join] at h
  split at h
  · exact .inr (.inr h)
  · split at h
    · rw [String.toList_append, List.mem_append] at h
      exact h.imp_right .inr
    · rw [String.toList_append, String.toList_append, slash_toList, List.append_assoc,
        List.singleton_append, List.mem_append, List.mem_cons] at h
      exact h

theorem nul_not_mem_join (hdirectory : '\x00' ∉ directory.toList)
    (h : ∀ name ∈ names, IsEntryName name) :
    '\x00' ∉ (join directory ("/".intercalate names)).toList := by
  intro hnul
  rcases mem_join hnul with hnul | hnul | hnul
  · exact hdirectory hnul
  · exact absurd hnul (by decide)
  · rw [String.toList_intercalate, slash_toList] at hnul
    rcases Text.mem_intercalate hnul with hslash | ⟨part, hpart, hnul⟩
    · exact absurd hslash (by decide)
    · obtain ⟨name, hname, rfl⟩ := List.mem_map.mp hpart
      exact (h name hname).nul_not_mem hnul

theorem join_append_name {name : String} (hname : IsEntryName name) (before : String)
    (hrelative : isAbsolute relative = false) :
    join (before ++ name) relative = before ++ name ++ "/" ++ relative := by
  have hne : name.toList ≠ [] := fun h => hname.ne_empty (String.toList_inj.mp h)
  have hslash : (before ++ name).toList.getLast? ≠ some '/' := by
    rw [String.toList_append, List.getLast?_append_of_ne_nil _ hne]
    exact fun h => hname.slash_not_mem (List.mem_of_getLast? h)
  have hempty : (before ++ name).isEmpty = false := by simp [hname.ne_empty]
  rw [join, hrelative, hempty, if_neg (by simp), if_neg hslash]

theorem join_join {name : String} (hdirectory : directory ≠ "") (hname : IsEntryName name)
    (hrelative : isAbsolute relative = false) :
    join (join directory name) relative = join directory (name ++ "/" ++ relative) := by
  have hbelow : isAbsolute (name ++ "/" ++ relative) = false := by
    rw [String.append_assoc, isAbsolute_append hname.ne_empty, isAbsolute_entryName hname]
  obtain ⟨stem, -, hjoin⟩ := exists_stem hdirectory
  rw [hjoin name (isAbsolute_entryName hname), hjoin _ hbelow, join_append_name hname _ hrelative]
  simp only [String.append_assoc]

theorem join_ne_empty (hdirectory : directory ≠ "") (hrelative : isAbsolute relative = false) :
    join directory relative ≠ "" := by
  obtain ⟨stem, -, hjoin⟩ := exists_stem hdirectory
  simp [hjoin relative hrelative]

theorem foldl_join (hdirectory : directory ≠ "") (h : ∀ name ∈ names, IsEntryName name)
    (hne : names ≠ []) : names.foldl join directory = join directory ("/".intercalate names) := by
  induction names generalizing directory with
  | nil => exact absurd rfl hne
  | cons name names ih =>
    obtain ⟨hname, hlater⟩ := List.forall_mem_cons.mp h
    by_cases hlast : names = []
    · simp [hlast]
    · have hnext := join_ne_empty hdirectory (isAbsolute_entryName hname)
      rw [List.foldl_cons, ih hnext hlater hlast,
        join_join hdirectory hname (isAbsolute_intercalate hlater),
        String.intercalate_cons_of_ne_nil hlast]

/-! ### Where a path begins and how it goes on -/

def lead (path : String) : List PathComponent :=
  if isAbsolute path then [.root] else if (parts path).head? = some ['.'] then [.here] else []

def course (path : String) : List PathComponent := (parts path).filterMap componentOf

/-- The path begins with a name or with the parent directory. -/
structure Plain (path : String) : Prop where
  relative : isAbsolute path = false
  head_ne : (parts path).head? ≠ some ['.']

theorem components_eq (path : String) : components path = lead path ++ course path := rfl

theorem plain_iff_lead : Plain path ↔ lead path = [] := by
  rw [lead]
  constructor
  · rintro ⟨hrelative, hhead⟩
    simp [hrelative, hhead]
  · intro h
    by_cases habsolute : isAbsolute path = true
    · simp [habsolute] at h
    · by_cases hhead : (parts path).head? = some ['.']
      · simp [habsolute, hhead] at h
      · exact ⟨by simpa using habsolute, hhead⟩

theorem components_of_plain (h : Plain path) : components path = course path := by
  rw [components_eq, plain_iff_lead.mp h, List.nil_append]

theorem plain_of_components (h : components path = names.map .name) : Plain path := by
  rw [plain_iff_lead]
  rw [components_eq, lead] at h
  rw [lead]
  split at h
  · cases names <;> cases h
  · split at h
    · cases names <;> cases h
    · next habsolute hhead => rw [if_neg habsolute, if_neg hhead]

theorem course_append (a b : String) : course (a ++ "/" ++ b) = course a ++ course b := by
  rw [course, parts_append, List.filterMap_append]
  rfl

theorem course_append_slash (stem : String) : course (stem ++ "/") = course stem := by
  have hempty : componentOf [] = none := by decide
  rw [course, parts_append_slash, List.filterMap_append, List.filterMap_cons_none hempty,
    List.filterMap_nil, List.append_nil]
  rfl

theorem parts_ne_nil (path : String) : parts path ≠ [] := List.splitOn_ne_nil _ _

theorem course_stem {stem : String} (h : directory = stem ∨ directory = stem ++ "/") :
    course directory = course stem := by
  rcases h with rfl | rfl
  · rfl
  · rw [course_append_slash]

theorem head?_parts_append (a b : String) : (parts (a ++ "/" ++ b)).head? = (parts a).head? := by
  rw [parts_append, List.head?_append_of_ne_nil _ (parts_ne_nil a)]

theorem components_join (hdirectory : directory ≠ "") (hrelative : isAbsolute relative = false) :
    components (join directory relative) = components directory ++ course relative := by
  have habsolute := isAbsolute_join hdirectory hrelative
  obtain ⟨stem, hstem, hjoin⟩ := exists_stem hdirectory
  have hhead : (parts directory).head? = (parts stem).head? := by
    rcases hstem with rfl | rfl
    · rfl
    · rw [parts_append_slash, List.head?_append_of_ne_nil _ (parts_ne_nil stem)]
  have hlead : lead (join directory relative) = lead directory := by
    rw [lead, lead, habsolute, hjoin relative hrelative, head?_parts_append, hhead]
  rw [components_eq, components_eq, hlead, course_stem hstem, hjoin relative hrelative,
    course_append, List.append_assoc]

theorem plain_of_toList {c : Char} {cs : List Char} (hpath : path.toList = c :: cs)
    (hslash : c ≠ '/') (hdot : c ≠ '.') : Plain path := by
  refine ⟨by simp [isAbsolute, hpath, hslash], fun hhead => hdot ?_⟩
  obtain ⟨later, hparts⟩ := List.head?_eq_some_iff.mp hhead
  have hjoined : ['/'].intercalate (['.'] :: later) = c :: cs := by
    rw [← hparts, parts, List.intercalate_splitOn, hpath]
  cases later with
  | nil => exact (List.cons.inj hjoined).1.symm
  | cons next later =>
    rw [List.intercalate_cons_cons] at hjoined
    exact (List.cons.inj hjoined).1.symm

/-! ### Paths of names -/

theorem partsBehind_course {stem : String} {later : List (List Char)}
    (h : ∀ part ∈ later, (componentOf part).isNone = false) :
    partsBehind (course stem).length (parts stem ++ later) = later := by
  rw [course]
  induction parts stem with
  | nil =>
    cases later with
    | nil => rfl
    | cons part later => simp [partsBehind, h part List.mem_cons_self]
  | cons part parts ih =>
    cases hpart : componentOf part with
    | none => simpa [partsBehind, hpart] using ih
    | some component => simpa [partsBehind, hpart] using ih

theorem isNone_componentOf (h : ∀ name ∈ names, IsEntryName name) :
    ∀ part ∈ names.map String.toList, (componentOf part).isNone = false := by
  intro part hpart
  obtain ⟨name, hname, rfl⟩ := List.mem_map.mp hpart
  rw [(h name hname).componentOf_eq, Option.isNone_some]

section Names

variable (hnames : ∀ name ∈ names, IsEntryName name) (hne : names ≠ [])

include hnames hne

theorem course_intercalate : course ("/".intercalate names) = names.map .name := by
  have hcomponent : ∀ name ∈ names,
      (componentOf ∘ String.toList) name = some (PathComponent.name name) :=
    fun name hname => (hnames name hname).componentOf_eq
  rw [course, parts_intercalate (fun name hname => (hnames name hname).slash_not_mem) hne,
    List.filterMap_map, List.filterMap_congr hcomponent, List.filterMap_eq_map']

theorem plain_intercalate : Plain ("/".intercalate names) := by
  refine ⟨isAbsolute_intercalate hnames, ?_⟩
  rw [parts_intercalate (fun name hname => (hnames name hname).slash_not_mem) hne]
  obtain ⟨name, later, rfl⟩ := List.exists_cons_of_ne_nil hne
  have hdot : name.toList ≠ ['.'] := fun h =>
    (hnames name List.mem_cons_self).ne_here (String.toList_inj.mp h)
  simpa using hdot

theorem components_intercalate : components ("/".intercalate names) = names.map .name := by
  rw [components_of_plain (plain_intercalate hnames hne), course_intercalate hnames hne]

theorem components_join_intercalate (hdirectory : directory ≠ "") :
    components (join directory ("/".intercalate names))
      = components directory ++ names.map .name := by
  rw [components_join hdirectory (isAbsolute_intercalate hnames), course_intercalate hnames hne]

theorem fileName?_join (hdirectory : directory ≠ "") :
    fileName? (join directory ("/".intercalate names)) = names.getLast? := by
  rw [fileName?, components_join_intercalate hnames hne hdirectory,
    List.getLast?_append_of_ne_nil _ (List.map_eq_nil_iff.not.mpr hne), List.getLast?_map]
  cases names.getLast? <;> rfl

theorem partsBehind_join (hdirectory : directory ≠ "") :
    partsBehind (course directory).length (parts (join directory ("/".intercalate names)))
      = names.map String.toList := by
  have hparts := parts_intercalate (fun name hname => (hnames name hname).slash_not_mem) hne
  obtain ⟨stem, hstem, hjoin⟩ := exists_stem hdirectory
  rw [hjoin _ (isAbsolute_intercalate hnames), parts_append, course_stem hstem, hparts]
  exact partsBehind_course (isNone_componentOf hnames)

theorem stripBase?_join (hdirectory : directory ≠ "") :
    stripBase? directory (join directory ("/".intercalate names))
      = some ("/".intercalate names) := by
  have hprefix : (components directory).isPrefixOf
      (components (join directory ("/".intercalate names))) = true := by
    rw [List.isPrefixOf_iff_prefix, components_join_intercalate hnames hne hdirectory]
    exact List.prefix_append _ _
  have hbehind := partsBehind_join hnames hne hdirectory
  have hend : Text.dropTail (fun part => (componentOf part).isNone) (names.map String.toList)
      = names.map String.toList := by
    rw [Text.dropTail_eq_rdropWhile, List.rdropWhile_eq_self_iff]
    exact fun hlast =>
      Bool.eq_false_iff.mp (isNone_componentOf hnames _ (List.getLast_mem hlast))
  rw [course] at hbehind
  rw [stripBase?, if_pos hprefix, hbehind]
  simp only [hend]
  refine congrArg some (String.toList_inj.mp ?_)
  rw [String.toList_ofList, String.toList_intercalate, slash_toList]

end Names

end Path

end LinkageCheck
