import LinkageCheck.Proofs.Run.Mirrored
import LinkageCheck.Proofs.Run.Requests
import LinkageCheck.Proofs.Ties

/-! In the order of equal costs, a run does not depend on how the engine orders its ties. -/

namespace LinkageCheck

variable {α : Type} [Linkage α]

/-- Both answers refuse alike, or bring the same candidates up to the order of ties. -/
inductive AnswersUpToTies :
    Except EngineError (Candidates α) → Except EngineError (Candidates α) → Prop where
  | refused (e : EngineError) : AnswersUpToTies (.error e) (.error e)
  | answered {c c' : Candidates α} (hc : c.StaysExhausted) (hc' : c'.StaysExhausted)
    (hties : TiesPermuted c.toList c'.toList) : AnswersUpToTies (.ok c) (.ok c')

def Dictionary.SameUpToTies (d d' : Dictionary α) : Prop :=
  ∀ text o, AnswersUpToTies (d.parse text o) (d'.parse text o)

theorem Dictionary.SameUpToTies.start_alike {d d' : Dictionary α} (h : d.SameUpToTies d')
    (c c' : Cursor α) (text : String) (o : Options) :
    (c.start d text o .equalCost).1 = (c'.start d' text o .equalCost).1
      ∧ (c.start d text o .equalCost).2.Alike (c'.start d' text o .equalCost).2 := by
  have hanswers := h text o
  generalize hparse : d.parse text o = answer at hanswers
  generalize hparse' : d'.parse text o = answer' at hanswers
  cases hanswers with
  | refused e =>
    rw [Cursor.start, Cursor.start, hparse, hparse']
    exact ⟨rfl, Cursor.alike_of_standing rfl⟩
  | answered hc hc' hties =>
    obtain ⟨hok, hat⟩ := c.at_start .equalCost hparse hc
    obtain ⟨hok', hat'⟩ := c'.at_start .equalCost hparse' hc'
    exact ⟨hok.trans hok'.symm, hat.alike hties.sortRuns_alike hat'⟩

/-- Neither the report, nor the error, nor the options left behind depend on the order of ties. -/
theorem runBytes_ties {d d' : Dictionary α} (h : d.SameUpToTies d') (stopOnFailure : Bool)
    (path : String) (o : Options) (content : List UInt8) :
    runBytes d .equalCost stopOnFailure path o content =
      runBytes d' .equalCost stopOnFailure path o content := by
  have hmirrors : RunSetup.Mirrors ⟨d, .equalCost, stopOnFailure, path, o⟩
      ⟨d', .equalCost, stopOnFailure, path, o⟩ := ⟨rfl, rfl, h.start_alike⟩
  exact hmirrors.lines_initial rfl path o (scan content)

def offering (linkages : List RecordedLinkage) : Dictionary RecordedLinkage where
  lang := "en"
  hasSpellGuess := false
  parse _ _ := .ok (.ofList linkages)

def wordLinkage (word tree : String) (unused : Int) : RecordedLinkage :=
  ⟨[], .ofWords [word], tree, ⟨unused, .zero, 0⟩, false⟩

theorem runBytes_ties_words :
    let b := wordLinkage "b" "S" 0
    let a := wordLinkage "a" "T" 0
    let c := wordLinkage "c" "S" 1
    (runBytes (offering [b, a, c]) .engine false "t" .standard treeFile).result ≠
        (runBytes (offering [a, b, c]) .engine false "t" .standard treeFile).result
      ∧ runBytes (offering [b, a, c]) .equalCost false "t" .standard treeFile =
        runBytes (offering [a, b, c]) .equalCost false "t" .standard treeFile := by
  intro b a c
  have hruns : [b, a, c].splitBy tied = [[b, a], [c]] := rfl
  have hties : TiesPermuted [b, a, c] [a, b, c] := by
    refine ⟨⟨[[a, b], [c]], ?_, rfl⟩, ?_⟩
    · rw [hruns]
      exact .cons (.swap a b []) (.cons (.refl [c]) .nil)
    · rw [hruns]
      unfold ToldByDiagram
      decide +kernel
  refine ⟨by decide +kernel, ?_⟩
  refine runBytes_ties (fun text o => ?_) false "t" .standard treeFile
  refine .answered (Candidates.staysExhausted_ofList _) (Candidates.staysExhausted_ofList _) ?_
  rw [Candidates.toList_ofList, Candidates.toList_ofList]
  exact hties

end LinkageCheck
