import LinkageCheck.Corpus.Recorded
import LinkageCheck.Proofs.Alignment.Boundaries
import LinkageCheck.Proofs.Candidates
import LinkageCheck.Proofs.Record.Recordable

/-! What a dictionary made from a corpus serves: linkages whose placed words are the words of their
diagram. -/

namespace LinkageCheck

/-! ### Prepared linkages -/

def RecordedLinkage.Consistent (l : RecordedLinkage) : Prop :=
  l.words.map (·.text) = l.diagram.words

namespace Corpus

def Linkage.place (text : String) (l : Linkage) : Except Alignment.Error (List PlacedWord) :=
  match l.spans with
  | some spans => Alignment.explicit text l.words spans
  | none => Alignment.align text l.words

def Linkage.diagramLinks (l : Linkage) : List Link :=
  l.links.map fun (left, right, label) => ⟨left, right, label⟩

/-- The linkage as it is served: its words in their places, and the diagram of its links. -/
structure Linkage.Kept (text : String) (l : Linkage) (p : RecordedLinkage) : Prop where
  placed : l.place text = .ok p.words
  words : p.diagram.words = l.words
  links : p.diagram.links = l.diagramLinks
  constituents : p.constituents = l.constituents
  metrics : p.metrics = l.metrics
  spellGuess : p.spellGuess = l.spellGuess

theorem Linkage.Kept.consistent {text : String} {l : Linkage} {p : RecordedLinkage}
    (h : l.Kept text p) : p.Consistent := by
  have hplaced := h.placed
  rw [RecordedLinkage.Consistent, h.words]
  rw [place] at hplaced
  split at hplaced
  · exact (Alignment.explicit_eq_ok hplaced).1
  · exact Alignment.map_text_placeWords hplaced

end Corpus

namespace RecordedLinkage

section Prepare

variable {text : String} {number : Nat} {l : Corpus.Linkage} {p : RecordedLinkage}
  {ls : List Corpus.Linkage} {ps : List RecordedLinkage}

theorem prepare_eq (text : String) (number : Nat) (l : Corpus.Linkage) :
    prepare text number l = (do
      let words ← (l.place text).mapError (.alignment text number)
      let diagram ← ((Diagram.ofWords l.words).addLinks l.diagramLinks).mapError
        (.diagram text number)
      return ⟨words, diagram, l.constituents, l.metrics, l.spellGuess⟩) := rfl

theorem prepare_eq_ok_iff : prepare text number l = .ok p ↔ l.Kept text p := by
  rw [prepare_eq]
  constructor
  · intro h
    obtain ⟨words, hwords, h⟩ := ok_of_bind_ok h
    obtain ⟨diagram, hdiagram, h⟩ := ok_of_bind_ok h
    obtain ⟨htexts, hlinks⟩ := Diagram.addLinks_eq_ok_iff.mp (ok_of_mapError_ok hdiagram)
    cases h
    exact ⟨ok_of_mapError_ok hwords, htexts, hlinks, rfl, rfl, rfl⟩
  · intro h
    have hdiagram : (Diagram.ofWords l.words).addLinks l.diagramLinks = .ok p.diagram :=
      Diagram.addLinks_eq_ok_iff.mpr ⟨h.words, h.links⟩
    obtain ⟨words, diagram, constituents, metrics, spellGuess⟩ := p
    obtain ⟨hplaced, -, -, rfl, rfl, rfl⟩ := h
    rw [hplaced, hdiagram]
    rfl

theorem prepareAll_eq_ok_iff :
    prepareAll text number ls = .ok ps ↔ List.Forall₂ (Corpus.Linkage.Kept text) ls ps := by
  induction ls generalizing number ps with
  | nil =>
    rw [prepareAll, List.forall₂_nil_left_iff, Except.ok.injEq, eq_comm]
  | cons l ls ih =>
    rw [prepareAll, List.forall₂_cons_left_iff]
    constructor
    · intro h
      obtain ⟨first, hfirst, h⟩ := ok_of_bind_ok h
      obtain ⟨rest, hrest, h⟩ := ok_of_bind_ok h
      cases h
      exact ⟨first, rest, prepare_eq_ok_iff.mp hfirst, ih.mp hrest, rfl⟩
    · rintro ⟨first, rest, hfirst, hrest, rfl⟩
      rw [prepare_eq_ok_iff.mpr hfirst, ih.mpr hrest]
      rfl

theorem consistent_prepareAll (h : prepareAll text number ls = .ok ps) :
    ∀ p ∈ ps, p.Consistent := by
  intro p hp
  obtain ⟨l, -, hkept⟩ := exists_of_mem_forall₂ (prepareAll_eq_ok_iff.mp h) hp
  exact hkept.consistent

end Prepare

def Plain (l : RecordedLinkage) : Prop :=
  l.diagram.Plain ∧ ∀ line ∈ pieces (Linkage.constituents l), isBlankLine line = false

instance (l : RecordedLinkage) : Decidable l.Plain := inferInstanceAs (Decidable (_ ∧ _))

theorem recordable {l : RecordedLinkage} (hconsistent : l.Consistent) (h : l.Plain) :
    Recordable l where
  endsIn kind := by
    cases kind with
    | diagram => exact h.1.endsIn_render
    | constituents => exact endsIn_constituents h.2
    | wordPositions =>
      have hwords : ∀ w ∈ l.words, '\n' ∉ w.text.toList := by
        intro w hw hfeed
        have hword : w.text ∈ l.diagram.words := by
          rw [← hconsistent]
          exact List.mem_map_of_mem hw
        exact (h.1.1 w.text hword).1 hfeed
      exact endsIn_positionText hwords
  lineEnd kind := by
    cases kind with
    | diagram =>
      refine ⟨"\n" ++ l.diagram.text ++ "\n", ?_⟩
      rw [String.append_assoc]
      rfl
    | constituents => exact ⟨_, rfl⟩
    | wordPositions => exact ⟨_, rfl⟩

end RecordedLinkage

/-! ### Candidates handed out one by one -/

namespace RecordedCandidates

variable {c : RecordedCandidates} {l : RecordedLinkage}

/-- The linkages still to be handed out. -/
def coming (c : RecordedCandidates) : List RecordedLinkage :=
  ((c.recorded.drop c.place).filter c.admits).take c.remaining

theorem seek_spec {ls : List RecordedLinkage} (hplace : c.recorded.drop c.place = ls)
    (hremaining : c.remaining ≠ 0) :
    (c.seek ls).1 = c.coming.head? ∧ (c.seek ls).2.coming = c.coming.tail := by
  fun_induction seek c ls with
  | case1 c => simp [coming, hplace]
  | case2 c l ls later hadmits =>
    have hlater : c.recorded.drop (c.place + 1) = ls := by
      rw [← List.tail_drop, hplace, List.tail_cons]
    obtain ⟨remaining, hsucc⟩ := Nat.exists_eq_succ_of_ne_zero hremaining
    have hcoming : c.coming = l :: (ls.filter c.admits).take remaining := by
      rw [coming, hplace, List.filter_cons_of_pos hadmits, hsucc, List.take_succ_cons]
    refine ⟨by rw [hcoming, List.head?_cons], ?_⟩
    rw [hcoming, List.tail_cons, coming, hsucc, ← hlater]
    rfl
  | case3 c l ls later hadmits ih =>
    have hlater : later.recorded.drop later.place = ls := by
      rw [← List.tail_drop, hplace, List.tail_cons]
    have hcoming : c.coming = later.coming := by
      rw [coming, coming, hplace, hlater, List.filter_cons_of_neg hadmits]
      rfl
    rw [hcoming]
    exact ih hlater hremaining

theorem next_spec (c : RecordedCandidates) :
    c.next.1 = c.coming.head? ∧ c.next.2.coming = c.coming.tail := by
  rw [next]
  split
  · next hnone => simp [coming, hnone]
  · next hremaining => exact seek_spec rfl hremaining

theorem next_iterate (c : RecordedCandidates) (k : Nat) :
    ((fun c => c.next.2)^[k] c).next.1 = c.coming[k]? := by
  induction k generalizing c with
  | zero =>
    rw [← List.head?_eq_getElem?]
    exact (next_spec c).1
  | succ k ih => rw [Function.iterate_succ_apply, ih, (next_spec c).2, List.getElem?_tail]

theorem answersUpTo_eq_take (n : Nat) (c : RecordedCandidates) :
    answersUpTo n c = c.coming.take n := by
  induction n generalizing c with
  | zero => rw [answersUpTo, List.take_zero]
  | succ n ih =>
    obtain ⟨hhead, htail⟩ := next_spec c
    rcases hnext : c.next with ⟨_ | l, later⟩
    · rw [hnext] at hhead
      rw [answersUpTo, hnext, List.head?_eq_none_iff.mp hhead.symm, List.take_nil]
    · rw [hnext] at hhead htail
      have hcoming : c.coming = l :: later.coming := by
        rw [htail]
        exact List.eq_cons_of_mem_head? hhead.symm
      rw [answersUpTo, hnext, hcoming, List.take_succ_cons, ← ih]

theorem answers_eq_coming (c : RecordedCandidates) : c.answers = c.coming := by
  rw [answers, answersUpTo_eq_take, coming, List.take_take, Nat.min_self]

theorem mem_recorded_of_mem_answers (h : l ∈ c.answers) : l ∈ c.recorded := by
  rw [answers_eq_coming] at h
  exact List.mem_of_mem_drop (List.mem_filter.mp (List.mem_of_mem_take h)).1

end RecordedCandidates

namespace RecordedDictionary

theorem consistent_addSentences {known prepared : List RecordedSentence}
    {ss : List Corpus.Sentence} (hknown : ∀ s ∈ known, ∀ l ∈ s.linkages, l.Consistent)
    (h : addSentences known ss = .ok prepared) :
    ∀ s ∈ prepared, ∀ l ∈ s.linkages, l.Consistent := by
  induction ss generalizing known with
  | nil =>
    cases h
    exact hknown
  | cons s ss ih =>
    rw [addSentences] at h
    obtain ⟨linkages, hlinkages, h⟩ := ok_of_bind_ok h
    split at h
    · cases h
    · refine ih (fun s' hs' => ?_) h
      rcases List.mem_append.mp hs' with hs' | hs'
      · exact hknown s' hs'
      · rw [List.mem_singleton.mp hs']
        exact RecordedLinkage.consistent_prepareAll hlinkages

theorem consistent_ofCorpus {c : Corpus} {d : RecordedDictionary} (h : ofCorpus c = .ok d) :
    ∀ s ∈ d.sentences, ∀ l ∈ s.linkages, l.Consistent := by
  rw [ofCorpus] at h
  obtain ⟨sentences, hsentences, h⟩ := ok_of_bind_ok h
  cases h
  exact consistent_addSentences (fun s hs => absurd hs List.not_mem_nil) hsentences

theorem parse_of_contains {d : RecordedDictionary} {text : String} (h : d.contains text = true)
    (o : Options) :
    ∃ s ∈ d.sentences, d.parse text o = .ok (.ofList (d.candidates s o).answers) := by
  rw [contains, Option.isSome_iff_exists] at h
  obtain ⟨s, hs⟩ := h
  refine ⟨s, List.mem_of_find?_eq_some hs, ?_⟩
  rw [parse, hs]

end RecordedDictionary

end LinkageCheck
