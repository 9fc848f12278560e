import LinkageCheck.Files.Tree
import LinkageCheck.Proofs.Text.Separated
import LinkageCheck.Proofs.Traversal
import Mathlib.Data.List.Nodup

/-! What a tree holds: the files below a directory, by the names that lead to them. A path that goes
on from a directory by such names leads to the file, and neither depends on the order in which the
entries of directories are listed. -/

namespace LinkageCheck

/-- A text that can name an entry: it is a part of a path that leads down, and not a long one. -/
structure IsEntryName (name : String) : Prop where
  ne_empty : name ≠ ""
  ne_here : name ≠ "."
  ne_parent : name ≠ ".."
  slash_not_mem : '/' ∉ name.toList
  nul_not_mem : '\x00' ∉ name.toList
  size_le : name.utf8ByteSize ≤ FileNode.maxNameSize

instance (name : String) : Decidable (IsEntryName name) :=
  decidable_of_iff (name ≠ "" ∧ name ≠ "." ∧ name ≠ ".." ∧ '/' ∉ name.toList
    ∧ '\x00' ∉ name.toList ∧ name.utf8ByteSize ≤ FileNode.maxNameSize)
    ⟨fun ⟨h₁, h₂, h₃, h₄, h₅, h₆⟩ => ⟨h₁, h₂, h₃, h₄, h₅, h₆⟩,
      fun ⟨h₁, h₂, h₃, h₄, h₅, h₆⟩ => ⟨h₁, h₂, h₃, h₄, h₅, h₆⟩⟩

theorem IsEntryName.componentOf_eq {name : String} (h : IsEntryName name) :
    Path.componentOf name.toList = some (.name name) := by
  have hplain : ¬ (name.toList = [] ∨ name.toList = ['.']) := by
    rintro (heq | heq)
    · exact h.ne_empty (String.toList_inj.mp heq)
    · exact h.ne_here (String.toList_inj.mp heq)
  have hparent : name.toList ≠ ['.', '.'] := fun heq => h.ne_parent (String.toList_inj.mp heq)
  rw [Path.componentOf, if_neg hplain, if_neg hparent, String.ofList_toList]

namespace FileNode

variable {node node' : FileNode} {entries : List (String × FileNode)} {names : List String}
  {name : String} {content : List UInt8}

/-! ### The files below a node -/

/-- The names lead from the node to a file with this content. -/
inductive Holds : FileNode → List String → List UInt8 → Prop
  | here (content : List UInt8) : Holds (file content) [] content
  | inside {name : String} {node : FileNode} {entries : List (String × FileNode)}
      {names : List String} {content : List UInt8} :
      (name, node) ∈ entries → Holds node names content →
      Holds (directory entries) (name :: names) content

mutual

def files : FileNode → List (List String)
  | file _ => [[]]
  | directory entries => filesOfEntries entries

def filesOfEntries : List (String × FileNode) → List (List String)
  | [] => []
  | (name, node) :: entries => node.files.map (name :: ·) ++ filesOfEntries entries

end

theorem filesOfEntries_eq (entries : List (String × FileNode)) :
    filesOfEntries entries = entries.flatMap fun entry => entry.2.files.map (entry.1 :: ·) := by
  induction entries with
  | nil => rw [filesOfEntries, List.flatMap_nil]
  | cons entry entries ih =>
    obtain ⟨name, node⟩ := entry
    rw [filesOfEntries, List.flatMap_cons, ih]

theorem mem_filesOfEntries_iff : names ∈ filesOfEntries entries ↔
    ∃ entry ∈ entries, ∃ below ∈ entry.2.files, entry.1 :: below = names := by
  simp only [filesOfEntries_eq, List.mem_flatMap, List.mem_map]

theorem mem_files_iff : names ∈ node.files ↔ ∃ content, node.Holds names content := by
  induction names generalizing node with
  | nil =>
    cases node with
    | file content =>
      rw [files]
      exact ⟨fun _ => ⟨content, .here content⟩, fun _ => List.mem_cons_self⟩
    | directory entries =>
      rw [files, mem_filesOfEntries_iff]
      constructor
      · rintro ⟨entry, -, below, -, hnames⟩
        cases hnames
      · rintro ⟨content, h⟩
        cases h
  | cons name names ih =>
    cases node with
    | file content =>
      rw [files, List.mem_singleton]
      constructor
      · intro hnames
        cases hnames
      · rintro ⟨content, h⟩
        cases h
    | directory entries =>
      rw [files, mem_filesOfEntries_iff]
      constructor
      · rintro ⟨entry, hentry, below, hbelow, hnames⟩
        cases hnames
        obtain ⟨content, h⟩ := ih.mp hbelow
        exact ⟨content, .inside hentry h⟩
      · rintro ⟨content, h⟩
        cases h with
        | inside hentry h => exact ⟨_, hentry, names, ih.mpr ⟨content, h⟩, rfl⟩

/-! ### Well-formed trees -/

/-- In every directory the entries have names, and no two of them the same. -/
inductive WellFormed : FileNode → Prop
  | file (content : List UInt8) : WellFormed (file content)
  | directory {entries : List (String × FileNode)} : (entries.map (·.1)).Nodup →
      (∀ entry ∈ entries, IsEntryName entry.1) → (∀ entry ∈ entries, WellFormed entry.2) →
      WellFormed (directory entries)

theorem WellFormed.nodup_files (h : node.WellFormed) : node.files.Nodup := by
  induction h with
  | file content =>
    rw [files]
    exact List.nodup_singleton _
  | @directory entries hnodup _ _ ih =>
    rw [files, filesOfEntries_eq, List.nodup_flatMap]
    refine ⟨fun entry hentry => (ih entry hentry).map (List.cons_injective), ?_⟩
    refine (List.pairwise_map.mp hnodup).imp fun {entry entry'} hne => ?_
    intro names hnames hnames'
    obtain ⟨below, -, rfl⟩ := List.mem_map.mp hnames
    obtain ⟨below', -, heq⟩ := List.mem_map.mp hnames'
    exact hne (List.cons.inj heq).1.symm

theorem WellFormed.isEntryName (h : node.WellFormed) (hfile : node.Holds names content) :
    ∀ name ∈ names, IsEntryName name := by
  induction hfile with
  | here content => simp
  | inside hentry _ ih =>
    cases h with
    | directory _ hnames hnodes =>
      exact List.forall_mem_cons.mpr ⟨hnames _ hentry, ih (hnodes _ hentry)⟩

theorem mem_of_child? (h : child? entries name = some node) : (name, node) ∈ entries := by
  obtain ⟨entry, hfound, rfl⟩ := Option.map_eq_some_iff.mp h
  obtain rfl : entry.1 = name := by simpa using List.find?_some hfound
  exact List.mem_of_find?_eq_some hfound

theorem child?_eq_some_iff (hnodup : (entries.map (·.1)).Nodup) :
    child? entries name = some node ↔ (name, node) ∈ entries := by
  refine ⟨mem_of_child?, fun hentry => ?_⟩
  cases hchild : child? entries name with
  | none =>
    have hnone := List.find?_eq_none.mp (Option.map_eq_none_iff.mp hchild) _ hentry
    exact absurd (beq_self_eq_true name) hnone
  | some other =>
    have hsame := List.inj_on_of_nodup_map hnodup (mem_of_child? hchild) hentry rfl
    rw [(Prod.mk.inj hsame).2]

/-! ### Walking -/

/-- One part further: the directories above the node, nearest first, and the node. -/
def step (place : List FileNode × FileNode) (part : List Char) :
    Except FileFault (List FileNode × FileNode) :=
  match place.2 with
  | file _ => .error .notDirectory
  | directory entries =>
    match Path.componentOf part with
    | some (.name name) =>
      if maxNameSize < name.utf8ByteSize then .error .nameTooLong
      else
        match child? entries name with
        | some next => .ok (place.2 :: place.1, next)
        | none => .error .notFound
    | some .parent => .ok (place.1.tail, place.1.headD place.2)
    | _ => .ok place

theorem walk_cons (parents : List FileNode) (node : FileNode) (part : List Char)
    (parts : List (List Char)) : walk parents node (part :: parts) =
      (step (parents, node) part).bind fun place => walk place.1 place.2 parts := by
  cases node with
  | file content => rfl
  | directory entries =>
    simp only [walk, step]
    cases Path.componentOf part with
    | none => rfl
    | some component =>
      cases component with
      | root => rfl
      | here => rfl
      | parent => cases parents <;> rfl
      | name name =>
        by_cases hlong : maxNameSize < name.utf8ByteSize
        · simp only [if_pos hlong]
          rfl
        · simp only [if_neg hlong]
          cases child? entries name <;> rfl

theorem walk_eq (parents : List FileNode) (node : FileNode) (parts : List (List Char)) :
    walk parents node parts = (parts.foldlM step (parents, node)).map (·.2) := by
  induction parts generalizing parents node with
  | nil => rfl
  | cons part parts ih =>
    rw [walk_cons, List.foldlM_cons]
    cases step (parents, node) part with
    | error e => rfl
    | ok place => exact ih place.1 place.2

theorem exists_walk_append {parents : List FileNode} {parts : List (List Char)}
    (h : walk parents node parts = .ok node') :
    ∃ above, ∀ more, walk parents node (parts ++ more) = walk above node' more := by
  rw [walk_eq] at h
  obtain ⟨⟨above, reached⟩, hplace, rfl⟩ := ok_of_map_ok h
  refine ⟨above, fun more => ?_⟩
  rw [walk_eq, walk_eq, List.foldlM_append, hplace]
  rfl

theorem walk_of_walk_slash {parents : List FileNode} {parts : List (List Char)}
    (h : walk parents node (parts ++ [[]]) = .ok node') : walk parents node parts = .ok node' := by
  induction parts generalizing parents node with
  | nil =>
    cases node with
    | file content => cases h
    | directory entries => exact h
  | cons part parts ih =>
    rw [List.cons_append, walk_cons] at h
    obtain ⟨place, hstep, hwalk⟩ := ok_of_bind_ok h
    rw [walk_cons, hstep]
    exact ih hwalk

inductive StepsTo (part : List Char) : List FileNode × FileNode → List FileNode × FileNode → Prop
  | down {parents : List FileNode} {entries : List (String × FileNode)} {name : String}
      {next : FileNode} : Path.componentOf part = some (.name name) →
      name.utf8ByteSize ≤ maxNameSize → child? entries name = some next →
      StepsTo part (parents, directory entries) (directory entries :: parents, next)
  | up {parents : List FileNode} {entries : List (String × FileNode)} :
      Path.componentOf part = some .parent →
      StepsTo part (parents, directory entries) (parents.tail, parents.headD (directory entries))
  | stay {parents : List FileNode} {entries : List (String × FileNode)} :
      (∀ name, Path.componentOf part ≠ some (.name name)) →
      Path.componentOf part ≠ some .parent →
      StepsTo part (parents, directory entries) (parents, directory entries)

theorem step_eq_ok_iff {part : List Char} {place place' : List FileNode × FileNode} :
    step place part = .ok place' ↔ StepsTo part place place' := by
  constructor
  · intro h
    obtain ⟨parents, node⟩ := place
    cases node with
    | file content => cases h
    | directory entries =>
      simp only [step] at h
      split at h
      · next name hpart =>
        split at h
        · cases h
        · next hshort =>
          split at h
          · next next hnext =>
            cases h
            exact .down hpart (Nat.not_lt.mp hshort) hnext
          · cases h
      · next hpart =>
        cases h
        exact .up hpart
      · next hname hparent =>
        cases h
        exact .stay hname hparent
  · intro h
    cases h with
    | down hpart hshort hnext => simp only [step, hpart, if_neg (Nat.not_lt.mpr hshort), hnext]
    | up hpart => simp only [step, hpart]
    | stay hname hparent =>
      simp only [step]

theorem Holds.walk_eq (h : node.WellFormed) (hfile : node.Holds names content)
    (parents : List FileNode) :
    walk parents node (names.map String.toList) = .ok (file content) := by
  induction hfile generalizing parents with
  | here content => rfl
  | inside hentry _ ih =>
    cases h with
    | directory hnodup hnames hnodes =>
      have hname := hnames _ hentry
      rw [List.map_cons, walk_cons, step_eq_ok_iff.mpr (.down hname.componentOf_eq hname.size_le
        ((child?_eq_some_iff hnodup).mpr hentry))]
      exact ih (hnodes _ hentry) _

theorem StepsTo.wellFormed {part : List Char} {parents : List FileNode}
    {place : List FileNode × FileNode} (h : ∀ known ∈ node :: parents, known.WellFormed)
    (hstep : StepsTo part (parents, node) place) :
    ∀ known ∈ place.2 :: place.1, known.WellFormed := by
  cases hstep with
  | @down parents entries name next _ _ hnext =>
    obtain ⟨hnode, -⟩ := List.forall_mem_cons.mp h
    cases hnode with
    | directory hnodup hnames hnodes =>
      exact List.forall_mem_cons.mpr ⟨hnodes _ (mem_of_child? hnext), h⟩
  | @up parents entries _ =>
    cases parents with
    | nil => exact h
    | cons above parents => exact (List.forall_mem_cons.mp h).2
  | stay => exact h

theorem WellFormed.walk {parents : List FileNode} {parts : List (List Char)}
    (h : ∀ known ∈ node :: parents, known.WellFormed)
    (hwalk : walk parents node parts = .ok node') : node'.WellFormed := by
  induction parts generalizing parents node with
  | nil =>
    cases hwalk
    exact h _ List.mem_cons_self
  | cons part parts ih =>
    rw [walk_cons] at hwalk
    obtain ⟨place, hstep, hwalk⟩ := ok_of_bind_ok hwalk
    exact ih ((step_eq_ok_iff.mp hstep).wellFormed h) hwalk

/-! ### The order of entries -/

/-- The second tree lists the entries of directories in another order. -/
inductive Relisted : FileNode → FileNode → Prop
  | refl (node : FileNode) : Relisted node node
  | entry {name : String} {node node' : FileNode} {entries entries' : List (String × FileNode)} :
      Relisted node node' → Relisted (directory entries) (directory entries') →
      Relisted (directory ((name, node) :: entries)) (directory ((name, node') :: entries'))
  | swap (first second : String × FileNode) (entries : List (String × FileNode)) :
      Relisted (directory (first :: second :: entries)) (directory (second :: first :: entries))
  | trans {node₁ node₂ node₃ : FileNode} :
      Relisted node₁ node₂ → Relisted node₂ node₃ → Relisted node₁ node₃

theorem Relisted.symm (h : Relisted node node') : Relisted node' node := by
  induction h with
  | refl node => exact .refl node
  | entry _ _ ih ih' => exact .entry ih ih'
  | swap first second entries => exact .swap second first entries
  | trans _ _ ih ih' => exact .trans ih' ih

theorem Relisted.files_perm (h : Relisted node node') : node.files.Perm node'.files := by
  induction h with
  | refl node => exact .refl _
  | entry _ _ ih ih' =>
    simp only [files] at ih' ⊢
    rw [filesOfEntries, filesOfEntries]
    exact (ih.map _).append ih'
  | swap first second entries =>
    simp only [files, filesOfEntries]
    exact List.perm_append_comm_assoc ..
  | trans _ _ ih ih' => exact ih.trans ih'

theorem Relisted.eq_of_file (h : Relisted (file content) node) : node = file content := by
  generalize hfile : file content = first at h
  induction h with
  | refl node => rfl
  | entry => cases hfile
  | swap => cases hfile
  | trans _ _ ih ih' =>
    obtain rfl := ih hfile
    exact ih' hfile

structure EntriesRelisted (entries entries' : List (String × FileNode)) : Prop where
  names : (entries.map (·.1)).Perm (entries'.map (·.1))
  forth : ∀ entry ∈ entries, ∃ entry' ∈ entries', entry.1 = entry'.1 ∧ Relisted entry.2 entry'.2

theorem Relisted.of_directory (h : Relisted (directory entries) node) :
    ∃ entries', node = directory entries' ∧ EntriesRelisted entries entries' := by
  -- The induction is on the way from one node to the other, which may pass further directories.
  generalize hdirectory : directory entries = first at h
  induction h generalizing entries with
  | refl node =>
    exact ⟨entries, hdirectory.symm, .refl _, fun entry hentry => ⟨entry, hentry, rfl, .refl _⟩⟩
  | @entry name node node' rest rest' hnode _ _ ih =>
    cases hdirectory
    obtain ⟨rest'', heq, hrest⟩ := ih rfl
    cases heq
    refine ⟨_, rfl, hrest.names.cons name, List.forall_mem_cons.mpr ⟨?_, fun entry hentry => ?_⟩⟩
    · exact ⟨_, List.mem_cons_self, rfl, hnode⟩
    · obtain ⟨entry', hentry', hsame⟩ := hrest.forth entry hentry
      exact ⟨entry', List.mem_cons_of_mem _ hentry', hsame⟩
  | swap one two rest =>
    cases hdirectory
    refine ⟨_, rfl, .swap _ _ _, fun entry hentry => ⟨entry, ?_, rfl, .refl _⟩⟩
    exact (List.Perm.swap two one rest).mem_iff.mp hentry
  | trans _ _ ih ih' =>
    obtain ⟨mid, rfl, hmid⟩ := ih hdirectory
    obtain ⟨entries', rfl, hentries'⟩ := ih' rfl
    refine ⟨entries', rfl, hmid.names.trans hentries'.names, fun entry hentry => ?_⟩
    obtain ⟨entry', hentry', hname, hnode⟩ := hmid.forth entry hentry
    obtain ⟨entry'', hentry'', hname', hnode'⟩ := hentries'.forth entry' hentry'
    exact ⟨entry'', hentry'', hname.trans hname', hnode.trans hnode'⟩

theorem WellFormed.relisted (h : node.WellFormed) (hnode : Relisted node node') :
    node'.WellFormed := by
  induction h generalizing node' with
  | file content =>
    rw [hnode.eq_of_file]
    exact .file content
  | @directory entries hnodup hnames hnodes ih =>
    obtain ⟨entries', rfl, hforth⟩ := hnode.of_directory
    -- Each entry of the second directory comes from one of the first, seen from there.
    obtain ⟨again, heq, hback⟩ := hnode.symm.of_directory
    cases heq
    refine .directory (hforth.names.nodup_iff.mp hnodup) (fun entry' hentry' => ?_)
      fun entry' hentry' => ?_
    · obtain ⟨entry, hentry, hname, -⟩ := hback.forth entry' hentry'
      exact hname ▸ hnames entry hentry
    · obtain ⟨entry, hentry, -, hsame⟩ := hback.forth entry' hentry'
      exact ih entry hentry hsame.symm

theorem StepsTo.relisted {part : List Char} {parents parents' : List FileNode}
    {place : List FileNode × FileNode} (hwell : ∀ known ∈ node :: parents, known.WellFormed)
    (h : List.Forall₂ Relisted (node :: parents) (node' :: parents'))
    (hstep : StepsTo part (parents, node) place) : ∃ place', StepsTo part (parents', node') place' ∧
      List.Forall₂ Relisted (place.2 :: place.1) (place'.2 :: place'.1) := by
  cases hstep with
  | @down parents entries name next hpart hshort hnext =>
    obtain ⟨hnode, -⟩ := List.forall₂_cons.mp h
    obtain ⟨entries', rfl, hentries⟩ := hnode.of_directory
    obtain ⟨⟨_, next'⟩, hentry', rfl, hsame⟩ := hentries.forth _ (mem_of_child? hnext)
    -- With two entries of one name the other directory could lead elsewhere.
    cases (List.forall_mem_cons.mp hwell).1.relisted hnode with
    | directory hnodup _ _ =>
      exact ⟨_, .down hpart hshort ((child?_eq_some_iff hnodup).mpr hentry'), .cons hsame h⟩
  | @up parents entries hpart =>
    obtain ⟨hnode, hparents⟩ := List.forall₂_cons.mp h
    obtain ⟨entries', rfl, -⟩ := hnode.of_directory
    refine ⟨_, .up hpart, ?_⟩
    cases hparents with
    | nil => exact h
    | cons habove hparents => exact .cons habove hparents
  | @stay parents entries hname hparent =>
    obtain ⟨entries', rfl, -⟩ := (List.forall₂_cons.mp h).1.of_directory
    exact ⟨_, .stay hname hparent, h⟩

theorem Relisted.walk {parents parents' : List FileNode} {parts : List (List Char)}
    {reached : FileNode} (hwell : ∀ known ∈ node :: parents, known.WellFormed)
    (h : List.Forall₂ Relisted (node :: parents) (node' :: parents'))
    (hwalk : walk parents node parts = .ok reached) :
    ∃ reached', FileNode.walk parents' node' parts = .ok reached' ∧ Relisted reached reached' := by
  induction parts generalizing parents parents' node node' with
  | nil =>
    cases hwalk
    exact ⟨node', rfl, (List.forall₂_cons.mp h).1⟩
  | cons part parts ih =>
    rw [walk_cons] at hwalk
    obtain ⟨place, hstep, hwalk⟩ := ok_of_bind_ok hwalk
    have hsteps := step_eq_ok_iff.mp hstep
    obtain ⟨place', hstep', hplaces⟩ := hsteps.relisted hwell h
    rw [walk_cons, step_eq_ok_iff.mpr hstep']
    exact ih (hsteps.wellFormed hwell) hplaces hwalk

end FileNode

end LinkageCheck
