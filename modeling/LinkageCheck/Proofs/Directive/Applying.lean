import LinkageCheck.Proofs.Directive.Reading
import LinkageCheck.Proofs.Options.Cells

/-! Options set in place, by name or by directive. A value is read before its cell is written, so
that what fails leaves all cells as they are, and what succeeds writes the one it names. -/

namespace LinkageCheck

/-- A program on one record of options, which keeps what it has written when it fails. -/
abbrev Update (ε : Type) := ExceptT ε (StateM Options)

def Update.on {ε : Type} (x : Update ε Unit) (o : Options) : Except ε Unit × Options :=
  (StateT.run (ExceptT.run x) o).run

def settled {ε : Type} (o : Options) : Except ε Options → Except ε Unit × Options
  | .ok after => (.ok (), after)
  | .error e => (.error e, o)

namespace Options

def store {β : Type} (read : Except OptionError β) (write : β → Options → Options) :
    Update OptionError Unit := do
  let x ← read
  modify (write x)

def storeAt (v : OptionValue) (name : OptionName) : Update OptionError Unit :=
  match name with
  | .verbosity => store (readInt32 name v) fun x o => { o with verbosity := x }
  | .linkageLimit => store (readCount name v) fun x o => { o with linkageLimit := x }
  | .minNullCount => store (readCount name v) fun x o => { o with minNullCount := x }
  | .maxNullCount => store (readCount name v) fun x o => { o with maxNullCount := x }
  | .islandsOk => store (readBoolean name v) fun x o => { o with islandsOk := x }
  | .shortLength => store (readCount name v) fun x o => { o with shortLength := x }
  | .allShortConnectors => store (readBoolean name v) fun x o => { o with allShortConnectors := x }
  | .displayMorphology => store (readBoolean name v) fun x o => { o with displayMorphology := x }
  | .spellGuess => store (readCount name v) fun x o => { o with spellGuess := x }
  | .disjunctCost => store (readNumber name v) fun x o => { o with disjunctCost := x }
  | .maxParseTime => store (readInt32 name v) fun x o => { o with maxParseTime := x }
  | .repeatableRand => store (readBoolean name v) fun x o => { o with repeatableRand := x }
  | .test => store (readText name v) fun x o => { o with test := x }
  | .debug => store (readText name v) fun x o => { o with debug := x }
  | .dialect => store (readText name v) fun x o => { o with dialect := x }

def update (text : String) (v : OptionValue) : Update OptionError Unit := do
  storeAt v (← lookup text)

theorem on_store {β : Type} (read : Except OptionError β) (write : β → Options → Options)
    (o : Options) : (store read write).on o = settled o (read.map fun x => write x o) := by
  rcases read with e | x <;> rfl

theorem on_storeAt (v : OptionValue) (name : OptionName) (o : Options) :
    (storeAt v name).on o = settled o (o.set name v) := by
  cases name <;> exact on_store _ _ o

theorem on_update (text : String) (v : OptionValue) (o : Options) :
    (update text v).on o = settled o (o.setByName text v) := by
  rw [setByName]
  rcases hname : lookup text with e | name
  · rw [update, hname]
    rfl
  · rw [update, hname]
    exact on_storeAt v name o

end Options

namespace Directive

def perform (baseline : Options) : Directive → Update Error Unit
  | assign name value => ExceptT.adapt .option (Options.update name value)
  | call name arguments =>
    if name = "reset" then
      if arguments.isEmpty then set baseline else throw (.arity name 0 arguments.length)
    else
      match arguments with
      | [value] => ExceptT.adapt .option (Options.update name value)
      | _ => do
        let _ ← ((← get).getByName name).mapError Error.option
        throw (.arity name 1 arguments.length)

def behind (baseline : Options) (o : Options) (directives : List Directive) : Options :=
  directives.foldl (fun o directive => ((directive.perform baseline).on o).2) o

variable {baseline o after : Options} {directive : Directive}

theorem on_adapt_update (name : String) (value : OptionValue) (o : Options) :
    Update.on (ExceptT.adapt Error.option (Options.update name value)) o =
      settled o ((o.setByName name value).mapError Error.option) := by
  have hadapt : Update.on (ExceptT.adapt Error.option (Options.update name value)) o =
      ((Update.on (Options.update name value) o).1.mapError Error.option,
        (Update.on (Options.update name value) o).2) := rfl
  rw [hadapt, Options.on_update]
  rcases o.setByName name value with e | after <;> rfl

theorem on_look_up (name : String) (e : Error) (o : Options) :
    Update.on (do
      let _ ← ((← get).getByName name).mapError Error.option
      throw e : Update Error Unit) o =
    settled o (match o.getByName name with
      | .ok _ => .error e
      | .error e => .error (.option e)) := by
  change Update.on (do
    let _ ← (o.getByName name).mapError Error.option
    throw e : Update Error Unit) o = _
  rcases o.getByName name with e | v <;> rfl

theorem on_perform (baseline : Options) (directive : Directive) (o : Options) :
    (directive.perform baseline).on o = settled o (directive.apply baseline o) := by
  cases directive with
  | assign name value => exact on_adapt_update name value o
  | call name arguments =>
    simp only [perform, apply]
    split
    · split <;> rfl
    · rcases arguments with _ | ⟨value, _ | ⟨next, rest⟩⟩
      · exact on_look_up _ _ o
      · exact on_adapt_update _ _ o
      · exact on_look_up _ _ o

/-- All that a directive can do: go back to the first options, or set the one that it names. -/
theorem apply_cases (h : directive.apply baseline o = .ok after) :
    (directive = .call "reset" [] ∧ after = baseline) ∨
      ∃ value, o.setByName directive.name value = .ok after := by
  cases directive with
  | assign name value => exact .inr ⟨value, ok_of_mapError_ok h⟩
  | call name arguments =>
    simp only [apply] at h
    split at h
    · next hname =>
      split at h
      · next harguments =>
        cases h
        exact .inl ⟨by rw [hname, List.isEmpty_iff.mp harguments], rfl⟩
      · cases h
    · split at h
      · next value => exact .inr ⟨value, ok_of_mapError_ok h⟩
      · split at h <;> cases h

theorem apply_reset (baseline o : Options) :
    (call "reset" []).apply baseline o = .ok baseline := rfl

end Directive

namespace Options

/-- The options that come from the standard ones by setting options and applying directives. -/
inductive Reachable : Options → Prop where
  | standard : Reachable .standard
  | update {o : Options} (h : Reachable o) (text : String) (v : OptionValue) :
    Reachable ((Options.update text v).on o).2
  | perform {baseline o : Options} (hbaseline : Reachable baseline) (h : Reachable o)
    (directive : Directive) : Reachable ((directive.perform baseline).on o).2

variable {o : Options}

theorem Typed.of_setByName {after : Options} {text : String} {v : OptionValue} (h : o.Typed)
    (hset : o.setByName text v = .ok after) : after.Typed := by
  obtain ⟨name, -, hset⟩ := setByName_eq_ok_iff.mp hset
  exact h.of_set hset

theorem Reachable.typed (h : o.Reachable) : o.Typed := by
  induction h with
  | standard => exact typed_standard
  | @update o h text v ih =>
    rw [on_update]
    rcases hset : o.setByName text v with e | after
    · exact ih
    · exact ih.of_setByName hset
  | @perform baseline o hbaseline h directive ihbaseline ih =>
    rw [Directive.on_perform]
    rcases happly : directive.apply baseline o with e | after
    · exact ih
    · rcases Directive.apply_cases happly with ⟨-, rfl⟩ | ⟨v, hset⟩
      · exact ihbaseline
      · exact ih.of_setByName hset

/-- Options are cells that do not depend on each other. Each holds a value of its type, so that
setting it to that value changes nothing. A value is taken just if the name is known and the value
fits; then it is read back, and all other options are as they were. In place, what fails leaves all
options as they were. So a directive that fails changes nothing, one that succeeds changes at most
the option it names, and `reset()` goes back to the first options wherever directives have led. -/
theorem reachable_cells (h : o.Reachable) :
    (∀ name : OptionName, o.setByName name.text (o.get name) = .ok o) ∧
    (∀ text v,
      ((∃ after, o.setByName text v = .ok after) ↔
        ∃ name ∈ OptionName.all, name.text = text ∧ name.cell.Takes v) ∧
      (∀ name after, OptionName.text name = text → o.setByName text v = .ok after →
        after.getByName text = .ok (name.cell.held v) ∧
          ∀ other, other ≠ text → after.getByName other = o.getByName other) ∧
      (Options.update text v).on o = settled o (o.setByName text v)) ∧
    ∀ baseline,
      (∀ directive,
        (∀ after, Directive.apply baseline o directive = .ok after →
          (directive = .call "reset" [] ∧ after = baseline) ∨
            ∀ other, other ≠ directive.name → after.getByName other = o.getByName other) ∧
        (directive.perform baseline).on o = settled o (directive.apply baseline o)) ∧
      ∀ earlier, ((Directive.call "reset" []).perform baseline).on
        (Directive.behind baseline o earlier) = (.ok (), baseline) := by
  refine ⟨fun name => ?_, fun text v => ⟨exists_setByName_iff, ?_, on_update text v o⟩,
    fun baseline =>
      ⟨fun directive => ⟨fun after happly => ?_, directive.on_perform baseline o⟩, ?_⟩⟩
  · exact setByName_eq_ok_iff.mpr ⟨name, rfl, h.typed.set_get name⟩
  · rintro name after rfl hset
    exact ⟨getByName_setByName hset, fun other => getByName_setByName_of_ne hset⟩
  · rcases Directive.apply_cases happly with hreset | ⟨v, hset⟩
    · exact .inl hreset
    · exact .inr fun other => getByName_setByName_of_ne hset
  · intro earlier
    rw [Directive.on_perform, Directive.apply_reset]
    rfl

theorem reachable_cells_disjunctCost :
    let o := ((update "disjunct_cost" (.integer 3)).on .standard).2
    o.Reachable ∧ o.get .disjunctCost = .number (.ofInt 3) ∧
      (¬ ∃ after, o.setByName "verbosity" (.integer (2 ^ 31)) = .ok after) ∧
      (∃ after, o.setByName "linkage_limit" (.integer 5) = .ok after ∧
        after.getByName "linkage_limit" = .ok (.integer 5) ∧
        after.getByName "disjunct_cost" = .ok (.number (.ofInt 3))) ∧
      ((Directive.call "reset" []).perform .standard).on
        (Directive.behind .standard o
          [.assign "islands_ok" (.boolean true), .assign "test" (.integer 1)]) =
        (.ok (), .standard) := by
  intro o
  have hreachable : o.Reachable := .update .standard "disjunct_cost" (.integer 3)
  have hcells := reachable_cells hreachable
  have hcost : o.get .disjunctCost = .number (.ofInt 3) := by decide +kernel
  refine ⟨hreachable, hcost, ?_, ?_, (hcells.2.2 .standard).2 _⟩
  · rw [(hcells.2.1 _ _).1]
    rintro ⟨name, -, hname, htakes⟩
    obtain rfl : name = .verbosity := OptionName.text_injective hname
    exact absurd htakes.2 (by decide)
  · obtain ⟨after, hset⟩ := (hcells.2.1 "linkage_limit" (.integer 5)).1.mpr
      ⟨.linkageLimit, by decide, by decide, Int.natCast_nonneg 5⟩
    obtain ⟨hself, hothers⟩ := (hcells.2.1 _ _).2.1 .linkageLimit after (by decide) hset
    have hother := hothers "disjunct_cost" (by decide)
    rw [hcost.symm]
    exact ⟨after, hset, hself, hother.trans (o.getByName_text .disjunctCost)⟩

end Options

end LinkageCheck
