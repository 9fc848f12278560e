import LinkageCheck.Proofs.Record.Blocks
import LinkageCheck.Proofs.Run.Requests
import Mathlib.Data.List.TakeWhile
import Mathlib.Order.Bounds.Basic

/-! The grammar of expected-results files, and the files that a run accepts. -/

namespace LinkageCheck

def Opcode.isHead : Opcode → Bool
  | .sentence | .next => true
  | _ => false

/-- The lines up to the next sentence or next line. -/
def entryOf (ls : List Line) : List Line := ls.takeWhile fun l => !l.opcode.isHead

theorem entryOf_append (ls : List Line) :
    entryOf ls ++ ls.dropWhile (fun l => !l.opcode.isHead) = ls :=
  List.takeWhile_append_dropWhile

theorem not_isHead_of_mem {ls : List Line} {l : Line} (h : l ∈ entryOf ls) :
    l.opcode.isHead = false := by
  have := List.mem_takeWhile_imp h
  rwa [Bool.not_eq_true'] at this

/-- What the lines of a file must be like, the end of the file aside. -/
structure Lawful (o : Options) (ls : List Line) : Prop where
  directives : EachLine (fun before l _ => l.opcode = .directive →
    ∃ current, l.direct o (before.foldl (fun o' l => l.optionsAfter o o') o) = .ok current) ls
  opened : EachLine (fun before l _ => l.opcode.isRecord → l.opcode ≠ .sentence →
    ∃ first ∈ before, first.opcode = .sentence) ls
  blocks : EachLine (fun _ l after => l.opcode.isHead →
    ∀ kind : SectionKind, kind.OneBlock (entryOf after)) ls

/-- The last line of a record is a section line. -/
def Compared (ls : List Line) : Prop :=
  ∃ l, (ls.filter (·.opcode.isRecord)).getLast? = some l ∧ l.opcode.section?.isSome

/-- However a file goes on behind these lines, it is not lawful. -/
def Violated (o : Options) (items : List (Except ScanError Line)) : Prop :=
  ∀ more ls, items ++ more = ls.map .ok → ¬ Lawful o ls

/-! ### Lines that an outline takes -/

namespace Outline

/-- What lines must be like behind the lines that an outline has seen. -/
structure Admits (baseline : Options) (s : Outline) (ls : List Line) : Prop where
  directives : EachLine (fun before l _ => l.opcode = .directive → ∃ current,
    l.direct baseline (before.foldl (fun o l => l.optionsAfter baseline o) s.options) =
      .ok current) ls
  opened : EachLine (fun before l _ => l.opcode.isRecord → l.opcode ≠ .sentence →
    s.started = true ∨ ∃ first ∈ before, first.opcode = .sentence) ls
  entry : ∀ kind : SectionKind, kind.Reads (s.collected kind) (entryOf ls)
  blocks : EachLine (fun _ l after => l.opcode.isHead →
    ∀ kind : SectionKind, kind.Reads (some "") (entryOf after)) ls

def Sound (s : Outline) : Prop := ∀ kind, s.collected kind ≠ none → s.started = true

variable {baseline : Options} {s out : Outline} {l : Line} {ls : List Line} {event : Event}

theorem section?_of_isHead {opcode : Opcode} (h : opcode.isHead = true) :
    opcode.section? = none := by
  cases opcode <;> first | rfl | cases h

theorem entryOf_of_isHead (h : l.opcode.isHead = true) : entryOf (l :: ls) = [] := by
  rw [entryOf, List.takeWhile_cons_of_neg (by simpa using h)]

theorem entryOf_of_not_isHead (h : l.opcode.isHead = false) :
    entryOf (l :: ls) = l :: entryOf ls := by
  rw [entryOf, List.takeWhile_cons_of_pos (by simpa using h), entryOf]

theorem Act.take_eq (h : Act baseline (s.arrive l) l out event)
    (hfree : s.unfinished? l.opcode = none) (hhead : l.opcode.isHead = false) (kind : SectionKind) :
    kind.take (s.collected kind) l = some (out.collected kind) := by
  have hother : l.opcode.section? ≠ some kind →
      kind.take (s.collected kind) l = some (s.collected kind) := by
    intro hne
    have hrest := unfinished?_eq_none.mp hfree kind hne
    rw [SectionKind.take_of_other hne, hrest]
    rfl
  have hown : ∀ {own : SectionKind} {earlier : String} {buffer : Option String},
      l.opcode.section? = some own → s.collected own = some earlier →
      buffer = (if (own.closing? earlier l.text).isSome then none else some (earlier ++ l.text)) →
      kind.take (s.collected kind) l = some (Function.update s.collected own buffer kind) := by
    rintro own earlier _ hopcode hopen rfl
    by_cases hkind : kind = own
    · rw [hkind, SectionKind.take_of_section hopcode, hopen, Function.update_self]
      rfl
    · rw [Function.update_of_ne hkind]
      exact hother (by rw [hopcode]; exact fun heq => hkind (Option.some.inj heq).symm)
  -- a line changes the section it belongs to, and finds no other section pending
  cases h with
  | comment hopcode => exact hother (by rw [hopcode]; exact (Option.some_ne_none kind).symm)
  | directive hopcode => exact hother (by rw [hopcode]; exact (Option.some_ne_none kind).symm)
  | sentence hopcode => rw [hopcode] at hhead; cases hhead
  | next hopcode => rw [hopcode] at hhead; cases hhead
  | collect hopcode hopen hrule => exact hown hopcode hopen (by rw [hrule]; rfl)
  | close hopcode hopen hrule => exact hown hopcode hopen (by rw [hrule]; rfl)

theorem Act.collected_of_isHead (h : Act baseline (s.arrive l) l out event)
    (hhead : l.opcode.isHead = true) (kind : SectionKind) : out.collected kind = some "" := by
  cases h with
  | comment hopcode => rw [hopcode] at hhead; cases hhead
  | directive hopcode => rw [hopcode] at hhead; cases hhead
  | sentence hopcode => rfl
  | next hopcode => rfl
  | collect hopcode => rw [section?_of_isHead hhead] at hopcode; cases hopcode
  | close hopcode => rw [section?_of_isHead hhead] at hopcode; cases hopcode

theorem Act.started_eq (h : Act baseline (s.arrive l) l out event) :
    out.started = true ↔ s.started = true ∨ l.opcode = .sentence := by
  have keep : l.opcode ≠ .sentence →
      (s.started = true ↔ s.started = true ∨ l.opcode = .sentence) := by
    intro hne
    rw [or_iff_left hne]
  cases h with
  | comment hopcode => exact keep (by rw [hopcode]; decide)
  | directive hopcode => exact keep (by rw [hopcode]; decide)
  | sentence hopcode => exact ⟨fun _ => .inr hopcode, fun _ => rfl⟩
  | next hopcode => exact keep (by rw [hopcode]; decide)
  | collect hopcode => exact keep fun h => by rw [h] at hopcode; cases hopcode
  | close hopcode => exact keep fun h => by rw [h] at hopcode; cases hopcode

theorem Act.sound (h : Act baseline (s.arrive l) l out event) (hs : s.Sound) : out.Sound := by
  intro kind hkind
  rw [h.started_eq]
  cases h with
  | comment => exact .inl (hs kind hkind)
  | directive => exact .inl (hs kind hkind)
  | sentence hopcode => exact .inr hopcode
  | next _ hstarted => exact .inl hstarted
  | collect _ hopen => exact .inl (hs _ (ne_of_eq_of_ne hopen (Option.some_ne_none _)))
  | close _ hopen => exact .inl (hs _ (ne_of_eq_of_ne hopen (Option.some_ne_none _)))

theorem Act.options_after (h : Act baseline (s.arrive l) l out event) (before : List Line) :
    before.foldl (fun o l => l.optionsAfter baseline o) out.options =
      (l :: before).foldl (fun o l => l.optionsAfter baseline o) s.options := by
  rw [List.foldl_cons, h.options_eq]
  rfl

theorem Admits.unfinished?_eq (h : s.Admits baseline (l :: ls)) :
    s.unfinished? l.opcode = none := by
  rw [unfinished?_eq_none]
  intro kind hne
  have hreads := h.entry kind
  by_cases hhead : l.opcode.isHead = true
  · rw [entryOf_of_isHead hhead] at hreads
    exact hreads
  · rw [entryOf_of_not_isHead (Bool.eq_false_iff.mpr hhead)] at hreads
    obtain ⟨later, htake, -⟩ := hreads
    rw [SectionKind.take_of_other hne] at htake
    by_contra hpending
    rw [if_pos (Bool.not_eq_false _ ▸ hpending)] at htake
    exact Option.some_ne_none later htake.symm

theorem Admits.step_eq (h : s.Admits baseline (l :: ls)) :
    ∃ out event, s.step baseline l = .ok (out, event) := by
  have hact : ∃ out event, Act baseline (s.arrive l) l out event := by
    -- a section line is in its place if its section reads it, any other line by its own condition
    rcases hsection : l.opcode.section? with _ | kind
    · cases hopcode : l.opcode with
      | comment => exact ⟨_, _, .comment hopcode⟩
      | directive =>
        obtain ⟨o, hdirect⟩ := (eachLine_cons.mp h.directives).1 hopcode
        exact ⟨_, _, .directive hopcode hdirect⟩
      | sentence => exact ⟨_, _, .sentence hopcode⟩
      | next =>
        have hopened := (eachLine_cons.mp h.opened).1
        rw [hopcode] at hopened
        rcases hopened rfl (by decide) with hstarted | ⟨first, hfirst, -⟩
        · exact ⟨_, _, .next hopcode hstarted⟩
        · exact absurd hfirst List.not_mem_nil
      | diagram => rw [hopcode] at hsection; cases hsection
      | constituents => rw [hopcode] at hsection; cases hsection
      | wordPositions => rw [hopcode] at hsection; cases hsection
    · have hhead : l.opcode.isHead = false := by
        by_contra hne
        rw [section?_of_isHead (Bool.not_eq_false _ ▸ hne)] at hsection
        cases hsection
      have hreads := h.entry kind
      rw [entryOf_of_not_isHead hhead] at hreads
      obtain ⟨later, htake, -⟩ := hreads
      rw [SectionKind.take_of_section hsection] at htake
      rcases hopen : s.collected kind with _ | earlier
      · rw [hopen] at htake
        cases htake
      · rcases hrule : kind.closing? earlier l.text with _ | closing
        · exact ⟨_, _, .collect hsection hopen hrule⟩
        · exact ⟨_, _, .close hsection hopen hrule⟩
  obtain ⟨out, event, hact⟩ := hact
  exact ⟨out, event, step_eq_ok_iff.mpr ⟨h.unfinished?_eq, hact⟩⟩

theorem Admits.tail (h : s.Admits baseline (l :: ls))
    (hact : Act baseline (s.arrive l) l out event) : out.Admits baseline ls where
  directives := by
    refine (eachLine_cons.mp h.directives).2.imp fun before m after hm hopcode => ?_
    rw [hact.options_after]
    exact hm hopcode
  opened := by
    refine (eachLine_cons.mp h.opened).2.imp fun before m after hm hrecord hne => ?_
    rw [hact.started_eq]
    rcases hm hrecord hne with hstarted | ⟨first, hfirst, hsentence⟩
    · exact .inl (.inl hstarted)
    · rcases List.mem_cons.mp hfirst with rfl | hfirst
      · exact .inl (.inr hsentence)
      · exact .inr ⟨first, hfirst, hsentence⟩
  entry := by
    intro kind
    -- behind a head line all sections begin anew; else they go on from what this line left
    by_cases hhead : l.opcode.isHead = true
    · rw [hact.collected_of_isHead hhead]
      exact (eachLine_cons.mp h.blocks).1 hhead kind
    · have hentry := Bool.eq_false_iff.mpr hhead
      have hreads := h.entry kind
      rw [entryOf_of_not_isHead hentry] at hreads
      obtain ⟨later, htake, hrest⟩ := hreads
      rw [hact.take_eq h.unfinished?_eq hentry] at htake
      rw [Option.some.inj htake]
      exact hrest
  blocks := (eachLine_cons.mp h.blocks).2

theorem Admits.cons (h : out.Admits baseline ls) (hs : s.Sound)
    (hfree : s.unfinished? l.opcode = none) (hact : Act baseline (s.arrive l) l out event) :
    s.Admits baseline (l :: ls) where
  directives := by
    refine eachLine_cons.mpr ⟨fun hopcode => ?_,
      h.directives.imp fun before m after hm hdirective => ?_⟩
    · exact hact.direct_eq hopcode
    · rw [← hact.options_after]
      exact hm hdirective
  opened := by
    refine eachLine_cons.mpr ⟨fun hrecord hne => ?_,
      h.opened.imp fun before m after hm hrecord hne => ?_⟩
    · cases hact with
      | directive hopcode => rw [hopcode] at hrecord; cases hrecord
      | comment hopcode => rw [hopcode] at hrecord; cases hrecord
      | sentence hopcode => exact absurd hopcode hne
      | next _ hstarted => exact .inl hstarted
      | collect _ hopen => exact .inl (hs _ (ne_of_eq_of_ne hopen (Option.some_ne_none _)))
      | close _ hopen => exact .inl (hs _ (ne_of_eq_of_ne hopen (Option.some_ne_none _)))
    · rcases hm hrecord hne with hstarted | ⟨first, hfirst, hsentence⟩
      · rcases hact.started_eq.mp hstarted with hstarted | hsentence
        · exact .inl hstarted
        · exact .inr ⟨l, List.mem_cons_self, hsentence⟩
      · exact .inr ⟨first, List.mem_cons_of_mem _ hfirst, hsentence⟩
  entry := by
    intro kind
    by_cases hhead : l.opcode.isHead = true
    · rw [entryOf_of_isHead hhead]
      refine unfinished?_eq_none.mp hfree kind ?_
      rw [section?_of_isHead hhead]
      exact (Option.some_ne_none kind).symm
    · have hentry := Bool.eq_false_iff.mpr hhead
      rw [entryOf_of_not_isHead hentry]
      exact ⟨out.collected kind, hact.take_eq hfree hentry kind, h.entry kind⟩
  blocks := by
    refine eachLine_cons.mpr ⟨fun hhead kind => ?_, h.blocks⟩
    rw [← hact.collected_of_isHead hhead kind]
    exact h.entry kind

theorem admits_nil : s.Admits baseline [] ↔ s.pending = [] := by
  rw [pending_eq_nil]
  exact ⟨fun h => h.entry, fun h => ⟨eachLine_nil _, eachLine_nil _, h, eachLine_nil _⟩⟩

theorem admits_iff (hs : s.Sound) :
    s.Admits baseline ls ↔ ∃ out, s.through baseline ls = some out ∧ out.pending = [] := by
  induction ls generalizing s with
  | nil =>
    rw [admits_nil, through]
    refine ⟨fun h => ⟨s, rfl, h⟩, fun h => ?_⟩
    obtain ⟨out, hout, h⟩ := h
    rwa [Option.some.inj hout]
  | cons l ls ih =>
    refine ⟨fun h => ?_, fun h => ?_⟩
    · obtain ⟨out, event, hstep⟩ := h.step_eq
      have hact := (step_eq_ok_iff.mp hstep).2
      rw [through, hstep]
      exact (ih (hact.sound hs)).mp (h.tail hact)
    · obtain ⟨out, hout, hrest⟩ := h
      obtain ⟨next, event, hstep, hout⟩ := through_cons.mp hout
      obtain ⟨hfree, hact⟩ := step_eq_ok_iff.mp hstep
      exact ((ih (hact.sound hs)).mpr ⟨out, hout, hrest⟩).cons hs hfree hact

/-! ### What a run of lines leaves behind -/

theorem Act.arrived (h : Act baseline (s.arrive l) l out event) :
    out.lastRecord = (if l.opcode.isRecord then some l.opcode else s.lastRecord)
      ∧ out.lastLine = l.number := by
  cases h <;> exact ⟨rfl, rfl⟩

theorem lastLine_through (h : s.through baseline ls = some out) :
    out.lastLine = (ls.getLast?.map (·.number)).getD s.lastLine := by
  induction ls generalizing s with
  | nil =>
    obtain rfl := Option.some.inj h
    rfl
  | cons l ls ih =>
    obtain ⟨next, event, hstep, h⟩ := through_cons.mp h
    rw [ih h, (step_eq_ok_iff.mp hstep).2.arrived.2, List.getLast?_cons]
    rcases ls.getLast? with _ | last
    · rfl
    · rfl

theorem lastRecord_through (h : s.through baseline ls = some out) :
    out.lastRecord =
      ((ls.filter (·.opcode.isRecord)).getLast?.map (·.opcode)).or s.lastRecord := by
  induction ls generalizing s with
  | nil =>
    obtain rfl := Option.some.inj h
    rfl
  | cons l ls ih =>
    obtain ⟨next, event, hstep, h⟩ := through_cons.mp h
    rw [ih h, (step_eq_ok_iff.mp hstep).2.arrived.1]
    by_cases hrecord : l.opcode.isRecord = true
    · rw [if_pos hrecord, List.filter_cons_of_pos (by exact hrecord), List.getLast?_cons]
      generalize List.getLast? _ = last
      cases last <;> rfl
    · rw [if_neg hrecord, List.filter_cons_of_neg (by exact hrecord)]

theorem sound_through (hs : s.Sound) (h : s.through baseline ls = some out) : out.Sound := by
  induction ls generalizing s with
  | nil =>
    obtain rfl := Option.some.inj h
    exact hs
  | cons l ls ih =>
    obtain ⟨next, event, hstep, h⟩ := through_cons.mp h
    exact ih ((step_eq_ok_iff.mp hstep).2.sound hs) h

theorem Act.section?_of_pending (h : Act baseline (s.arrive l) l out event)
    (hfree : s.unfinished? l.opcode = none) {kind : SectionKind}
    (hpending : (out.collected kind).any (· != "") = true) : l.opcode.section? = some kind := by
  by_cases hhead : l.opcode.isHead = true
  · rw [h.collected_of_isHead hhead kind] at hpending
    cases hpending
  · by_contra hne
    have htake := h.take_eq hfree (Bool.eq_false_iff.mpr hhead) kind
    have hrest := unfinished?_eq_none.mp hfree kind hne
    rw [SectionKind.take_of_other hne, hrest, if_neg Bool.false_ne_true] at htake
    rw [← Option.some.inj htake, hrest] at hpending
    cases hpending

def Lone (s : Outline) : Prop :=
  ∀ kind other, (s.collected kind).any (· != "") = true →
    (s.collected other).any (· != "") = true → kind = other

theorem lone_through (hs : s.Lone) (h : s.through baseline ls = some out) : out.Lone := by
  induction ls generalizing s with
  | nil =>
    obtain rfl := Option.some.inj h
    exact hs
  | cons l ls ih =>
    obtain ⟨next, event, hstep, h⟩ := through_cons.mp h
    obtain ⟨hfree, hact⟩ := step_eq_ok_iff.mp hstep
    refine ih (fun kind other hkind hother => ?_) h
    have hsection := hact.section?_of_pending hfree hkind
    rw [hact.section?_of_pending hfree hother] at hsection
    exact (Option.some.inj hsection).symm

end Outline

theorem sound_initial (o : Options) : (Outline.initial o).Sound := by
  intro kind h
  exact absurd rfl h

end LinkageCheck
