import LinkageCheck.Proofs.Record.Reference
import LinkageCheck.Proofs.Run.Requests

/-! A run that ends without an error reports what the records of the file say one by one. The run
holds three section buffers, a cursor that pulls candidates and a mark for failed records; what ties
them to the records is `Owes`: the verdict that the current record still has to give. -/

namespace LinkageCheck

variable {α : Type} [Linkage α]

/-! ### The sections of an entry -/

namespace Line

variable {l : Line} {kind : SectionKind}

end Line

def Collects (collected : SectionKind → Option String) (entry : List Line) : Prop :=
  ∀ kind earlier, collected kind = some earlier → earlier = textOf kind entry

theorem Collects.append {collected : SectionKind → Option String} {entry : List Line}
    (h : Collects collected entry) {l : Line} (hl : l.opcode.section? = none) :
    Collects collected (entry ++ [l]) := by
  intro kind earlier hcollected
  rw [textOf_concat_of_ne (by rw [hl]; exact (Option.some_ne_none kind).symm)]
  exact h kind earlier hcollected

theorem Collects.update {collected : SectionKind → Option String} {entry : List Line}
    (h : Collects collected entry) {l : Line} {kind : SectionKind}
    (hl : l.opcode.section? = some kind) {buffer : Option String}
    (hbuffer : ∀ text, buffer = some text → text = textOf kind entry ++ l.text) :
    Collects (Function.update collected kind buffer) (entry ++ [l]) := by
  intro other earlier hcollected
  by_cases hother : other = kind
  · rw [hother, Function.update_self] at hcollected
    rw [hother, textOf_concat hl]
    exact hbuffer earlier hcollected
  · rw [Function.update_of_ne hother] at hcollected
    have hne : l.opcode.section? ≠ some other := by
      rw [hl]
      exact fun heq => hother (Option.some.inj heq).symm
    rw [textOf_concat_of_ne hne]
    exact h other earlier hcollected

namespace Outline.Act

variable {baseline : Options} {s out : Outline} {l : Line} {event : Event}

theorem event_ne_sentence (h : Act baseline s l out event) (hopcode : l.opcode ≠ .sentence)
    (text : String) : event ≠ .sentence text := by
  intro heq
  cases heq
  cases h with
  | sentence hsentence => exact hopcode hsentence

end Outline.Act

/-! ### Comparisons -/

namespace Closing

/-- What a cursor at place `i` says about the end of a section is what the place says. -/
theorem compare_spec {c : Cursor α} {xs : List α} {i : Nat} (h : c.At xs i) (kind : SectionKind)
    (closing : Closing) :
    (judge xs i (.closed kind closing)).1 = some (closing.compare c kind).1
      ∧ (closing.compare c kind).2.At xs (judge xs i (.closed kind closing)).2 := by
  cases closing with
  | noLinkage =>
    refine ⟨?_, h⟩
    rw [judge, compare, Comparison.checkNone, h.current]
    by_cases hi : i < xs.length
    · rw [if_pos hi, List.getElem?_eq_getElem hi, Option.isSome_some, if_pos rfl]
    · rw [if_neg hi, List.getElem?_eq_none (Nat.le_of_not_lt hi), Option.isSome_none,
        if_neg Bool.false_ne_true]
  | text expected =>
    rcases hi : xs[i]? with _ | linkage
    · have hnone : c.current = none := h.current.trans hi
      rw [judge, hi]
      cases kind with
      | diagram => exact ⟨by rw [compare, hnone]; rfl, h⟩
      | constituents => exact ⟨by rw [compare, hnone]; rfl, h⟩
      | wordPositions =>
        rw [compare, Comparison.checkPositions_of_none expected hnone]
        exact ⟨rfl, h⟩
    · have hsome : c.current = some linkage := h.current.trans hi
      rw [judge, hi]
      cases kind with
      | diagram => exact ⟨by rw [compare, hsome]; rfl, h⟩
      | constituents => exact ⟨by rw [compare, hsome]; rfl, h⟩
      | wordPositions =>
        rw [compare]
        rcases hmark : Comparison.isMarked expected with _ | _
        · rw [Comparison.checkPositions_of_not_marked hsome hmark]
          exact ⟨rfl, h⟩
        · have hlt := (List.getElem?_eq_some_iff.mp hi).1
          obtain ⟨hresult, hcursor⟩ := Comparison.checkPositions_of_marked h hlt hmark
          rw [hresult, Comparison.searched, Nat.zero_add]
          exact ⟨rfl, hcursor⟩

end Closing

namespace RunSetup

theorem settle_spec (r : RunSetup α) {s : RunState α} {xs : List α} {i : Nat}
    (hcursor : s.cursor.At xs i) (hskip : s.skipping = false) (number : Nat) {event : Event}
    (hevent : ∀ text, event ≠ .sentence text) :
    ∃ cursor : Cursor α, cursor.At xs (judge xs i event).2
      ∧ r.settle s number event = .ok (match (judge xs i event).1 with
        | none => (.goOn, { s with cursor })
        | some outcome => r.record { s with cursor } number outcome) := by
  cases event with
  | quiet => exact ⟨s.cursor, hcursor, rfl⟩
  | sentence text => exact absurd rfl (hevent text)
  | next =>
    have hadvance := hcursor.advance
    refine ⟨s.cursor.advance, hadvance, ?_⟩
    rw [settle, hskip, if_neg Bool.false_ne_true, judge]
    simp only [hadvance.current]
    by_cases hi : min (i + 1) xs.length = xs.length
    · rw [List.getElem?_eq_none hi.ge, if_pos hi]
      rfl
    · have hlt : min (i + 1) xs.length < xs.length := lt_of_le_of_ne (Nat.min_le_right _ _) hi
      rw [List.getElem?_eq_getElem hlt, if_neg hi]
      rfl
  | closed kind closing =>
    obtain ⟨hjudge, hat⟩ := closing.compare_spec hcursor kind
    refine ⟨_, hat, ?_⟩
    rw [settle, hskip, if_neg Bool.false_ne_true, hjudge]

theorem settle_of_skipping (r : RunSetup α) {s : RunState α} (hskip : s.skipping = true)
    (number : Nat) {event : Event} (hevent : ∀ text, event ≠ .sentence text) :
    r.settle s number event = .ok (.goOn, s) := by
  cases event with
  | quiet => rfl
  | sentence text => exact absurd rfl (hevent text)
  | next => rw [settle, hskip, if_pos rfl]
  | closed kind closing => rw [settle, hskip, if_pos rfl]

end RunSetup

/-! ### The run of a file -/

namespace Report

def extend (report : Report) (v : Verdict) (vs : List Verdict) : Report :=
  { report with
    sentences := report.sentences + vs.length
    checks := report.checks + ((v :: vs).map (·.checks)).sum
    passed := report.passed + ((v :: vs).map (·.passed)).sum
    failures := report.failures ++ (v :: vs).filterMap (·.failure) }

end Report

namespace RunSetup

variable {r : RunSetup α} {s : RunState α} {l : Line} {rest : List Line} {report : Report}

end RunSetup

theorem staysExhausted_ofTrees (trees : List String) (text : String) (o : Options)
    (c : Candidates RecordedLinkage) (h : (ofTrees trees).parse text o = .ok c) :
    c.StaysExhausted := by
  cases h
  exact Candidates.staysExhausted_ofList _

end LinkageCheck
