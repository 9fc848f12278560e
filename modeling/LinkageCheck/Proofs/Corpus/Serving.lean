import LinkageCheck.Proofs.Corpus.Recorded
import LinkageCheck.Proofs.Pulls
import Mathlib.Data.List.Forall2
import Mathlib.Data.List.Nodup

/-! A dictionary made from a corpus answers the recorded sentences, each with the recorded linkages
that the options let through, in their order and up to the limit. -/

namespace LinkageCheck

theorem Candidates.answer_ofList {α : Type} (linkages : List α) (k : Nat) :
    (ofList linkages).answer k = linkages[k]? := by
  rw [answer_of_staysExhausted (staysExhausted_ofList linkages), toList_ofList]

namespace Corpus

/-- A guess needs a speller and options with guesses, and the number of words without a link, which
is not below zero, lies within the limits. -/
def Linkage.Admitted (l : Linkage) (speller : Bool) (o : Options) : Prop :=
  (l.spellGuess = true → speller = true ∧ 0 < o.spellGuess)
    ∧ o.minNullCount ≤ max l.metrics.unusedWordCost 0
    ∧ max l.metrics.unusedWordCost 0 ≤ o.maxNullCount

instance (l : Linkage) (speller : Bool) (o : Options) : Decidable (l.Admitted speller o) :=
  inferInstanceAs (Decidable (_ ∧ _))

def Sentence.served (s : Sentence) (speller : Bool) (o : Options) : List (Linkage × Nat) :=
  (s.linkages.zipIdx.filter (·.1.Admitted speller o)).take o.linkageLimit

end Corpus

namespace RecordedLinkage

theorem costs_prepare {text : String} {number : Nat} {l : Corpus.Linkage}
    {prepared : RecordedLinkage} (h : prepare text number l = .ok prepared) :
    prepared.spellGuess = l.spellGuess ∧ prepared.metrics = l.metrics := by
  have hkept := prepare_eq_ok_iff.mp h
  exact ⟨hkept.spellGuess, hkept.metrics⟩

theorem forall₂_prepareAll {text : String} {number : Nat} {ls : List Corpus.Linkage}
    {prepared : List RecordedLinkage} (h : prepareAll text number ls = .ok prepared) :
    List.Forall₂ (fun l p => prepare text l.2 l.1 = .ok p) (ls.zipIdx number) prepared := by
  induction ls generalizing number prepared with
  | nil =>
    cases h
    exact .nil
  | cons l ls ih =>
    rw [prepareAll] at h
    obtain ⟨first, hfirst, h⟩ := ok_of_bind_ok h
    obtain ⟨rest, hrest, h⟩ := ok_of_bind_ok h
    cases h
    exact .cons hfirst (ih hrest)

end RecordedLinkage

theorem RecordedCandidates.answer_answers (c : RecordedCandidates) (k : Nat) :
    (Candidates.ofList c.answers).answer k = ((fun c => c.next.2)^[k] c).next.1 := by
  rw [Candidates.answer_ofList, answers_eq_coming, next_iterate]

namespace RecordedDictionary

section Candidates

variable (d : RecordedDictionary) (r : RecordedSentence) (o : Options)

theorem admits_prepare {text : String} {number : Nat} {l : Corpus.Linkage}
    {prepared : RecordedLinkage} (h : RecordedLinkage.prepare text number l = .ok prepared) :
    (d.candidates r o).admits prepared = true ↔ l.Admitted d.spellGuess o := by
  obtain ⟨hguess, hmetrics⟩ := RecordedLinkage.costs_prepare h
  have hnulls : max l.metrics.unusedWordCost 0 = (l.metrics.unusedWordCost.toNat : Int) := by omega
  have hspeller : (!l.spellGuess || (d.spellGuess && decide (0 < o.spellGuess))) = true
      ↔ (l.spellGuess = true → d.spellGuess = true ∧ 0 < o.spellGuess) := by
    cases l.spellGuess <;> simp
  rw [Corpus.Linkage.Admitted, hnulls, Int.ofNat_le, Int.ofNat_le, ← hspeller]
  simp only [RecordedCandidates.admits, candidates, hguess, hmetrics, Bool.and_eq_true,
    decide_eq_true_eq, and_assoc]

theorem forall₂_coming {s : Corpus.Sentence}
    (h : RecordedLinkage.prepareAll s.text 0 s.linkages = .ok r.linkages) :
    List.Forall₂ (fun l p => RecordedLinkage.prepare s.text l.2 l.1 = .ok p)
      (s.served d.spellGuess o) (d.candidates r o).coming := by
  apply List.forall₂_take
  refine List.rel_filter (fun l p hprepare => ?_) (RecordedLinkage.forall₂_prepareAll h)
  have hadmits := d.admits_prepare r o hprepare
  simpa using hadmits.symm

end Candidates

/-- The sentences of the corpus in their order, no two with the same text. -/
structure Records (d : RecordedDictionary) (c : Corpus) : Prop where
  lang : d.lang = c.lang
  spellGuess : d.spellGuess = c.spellGuess
  sentences : d.sentences.map (fun r => (r.text, .ok r.linkages))
    = c.sentences.map fun s => (s.text, RecordedLinkage.prepareAll s.text 0 s.linkages)
  nodup : (d.sentences.map (·.text)).Nodup

theorem nodup_append_singleton {known : List RecordedSentence} {r : RecordedSentence}
    (hknown : (known.map (·.text)).Nodup) (hnew : r.text ∉ known.map (·.text)) :
    ((known ++ [r]).map (·.text)).Nodup := by
  rw [List.map_append, List.nodup_append_comm]
  exact List.nodup_cons.mpr ⟨hnew, hknown⟩

theorem addSentences_eq_ok {known all : List RecordedSentence} {ss : List Corpus.Sentence}
    (h : addSentences known ss = .ok all) (hknown : (known.map (·.text)).Nodup) :
    (all.map (·.text)).Nodup ∧ all.map (fun r => (r.text, .ok r.linkages))
      = known.map (fun r => (r.text, .ok r.linkages))
        ++ ss.map fun s => (s.text, RecordedLinkage.prepareAll s.text 0 s.linkages) := by
  induction ss generalizing known with
  | nil =>
    cases h
    exact ⟨hknown, (List.append_nil _).symm⟩
  | cons s ss ih =>
    rw [addSentences] at h
    obtain ⟨linkages, hlinkages, h⟩ := ok_of_bind_ok h
    split at h
    · cases h
    · next hnew =>
      have hfresh : s.text ∉ known.map (·.text) := by
        simpa [find?] using hnew
      obtain ⟨hall, hsentences⟩ := ih h (nodup_append_singleton hknown hfresh)
      refine ⟨hall, ?_⟩
      simp [hsentences, hlinkages]

theorem records_ofCorpus {c : Corpus} {d : RecordedDictionary} (h : ofCorpus c = .ok d) :
    d.Records c := by
  rw [ofCorpus] at h
  obtain ⟨sentences, hsentences, h⟩ := ok_of_bind_ok h
  cases h
  obtain ⟨hnodup, hall⟩ := addSentences_eq_ok hsentences List.nodup_nil
  exact ⟨rfl, rfl, hall, hnodup⟩

theorem Records.texts {d : RecordedDictionary} {c : Corpus} (h : d.Records c) :
    d.sentences.map (·.text) = c.sentences.map (·.text) := by
  have htexts := congrArg (List.map Prod.fst) h.sentences
  rwa [List.map_map, List.map_map] at htexts

theorem Records.exists_sentence {d : RecordedDictionary} {c : Corpus} (h : d.Records c)
    {s : Corpus.Sentence} (hs : s ∈ c.sentences) : ∃ r ∈ d.sentences, r.text = s.text
      ∧ RecordedLinkage.prepareAll s.text 0 s.linkages = .ok r.linkages := by
  have hmem := List.mem_map_of_mem (f := fun s : Corpus.Sentence =>
    (s.text, RecordedLinkage.prepareAll s.text 0 s.linkages)) hs
  rw [← h.sentences] at hmem
  obtain ⟨r, hr, hsame⟩ := List.mem_map.mp hmem
  exact ⟨r, hr, congrArg Prod.fst hsame, (congrArg Prod.snd hsame).symm⟩

theorem find?_eq_none_iff (sentences : List RecordedSentence) (text : String) :
    find? sentences text = none ↔ text ∉ sentences.map (·.text) := by
  simp [find?]

theorem find?_of_mem {sentences : List RecordedSentence}
    (hnodup : (sentences.map (·.text)).Nodup) {r : RecordedSentence} (hr : r ∈ sentences) :
    find? sentences r.text = some r := by
  have hfound : find? sentences r.text ≠ none := fun hnone =>
    (find?_eq_none_iff sentences r.text).mp hnone (List.mem_map_of_mem hr)
  obtain ⟨r', hr'⟩ := Option.ne_none_iff_exists'.mp hfound
  have htext : r'.text = r.text := by simpa using List.find?_some hr'
  have hsame : r' = r :=
    List.inj_on_of_nodup_map hnodup (List.mem_of_find?_eq_some hr') hr htext
  rw [hr', hsame]

/-- A sentence that was not recorded is refused. A recorded one is answered with its linkages that
are let through, as they were prepared, up to the limit; the pulls behind them bring nothing. -/
theorem parse_ofCorpus {c : Corpus} {d : RecordedDictionary} (h : ofCorpus c = .ok d)
    (text : String) (o : Options) :
    (∀ e, d.parse text o = .error e
        ↔ e = .unknownSentence c.lang text ∧ ∀ s ∈ c.sentences, s.text ≠ text)
      ∧ ∀ s ∈ c.sentences, s.text = text → ∃ candidates, d.parse text o = .ok candidates
        ∧ ∀ k, (candidates.answer k).map .ok = (s.served c.spellGuess o)[k]?.map fun l =>
          RecordedLinkage.prepare text l.2 l.1 := by
  have hrecords := records_ofCorpus h
  have hknown : find? d.sentences text = none ↔ ∀ s ∈ c.sentences, s.text ≠ text := by
    rw [find?_eq_none_iff, hrecords.texts]
    simp
  refine ⟨fun e => ?_, fun s hs htext => ?_⟩
  · rw [parse, ← hknown, hrecords.lang]
    rcases hfound : find? d.sentences text with _ | r
    · simp [eq_comm]
    · simp
  · obtain ⟨r, hr, hrtext, hlinkages⟩ := hrecords.exists_sentence hs
    have hfound := find?_of_mem hrecords.nodup hr
    have hcoming := d.forall₂_coming r o hlinkages
    rw [hrtext, htext] at hfound
    rw [htext] at hcoming
    refine ⟨.ofList (d.candidates r o).answers, ?_, fun k => ?_⟩
    · rw [parse, hfound]
    · have hmap : (s.served d.spellGuess o).map (fun l => RecordedLinkage.prepare text l.2 l.1)
          = (d.candidates r o).coming.map .ok := by
        rw [← List.forall₂_eq_eq_eq, List.forall₂_map_left_iff, List.forall₂_map_right_iff]
        exact hcoming
      rw [RecordedCandidates.answer_answers, RecordedCandidates.next_iterate, ← List.getElem?_map,
        ← hmap, List.getElem?_map, hrecords.spellGuess]

def humming : Corpus.Sentence :=
  ⟨"bees hum", [
    ⟨["bees[~]", "hum"], some [⟨0, 4⟩, ⟨5, 8⟩], [], "", .zero, true⟩,
    ⟨["bees", "[hum]"], some [⟨0, 4⟩, ⟨5, 8⟩], [], "", ⟨1, .zero, 0⟩, false⟩,
    ⟨["bees", "hum"], some [⟨0, 4⟩, ⟨5, 8⟩], [(0, 1, "S")], "", ⟨-3, .zero, 0⟩, false⟩,
    ⟨["bees", "hum"], some [⟨0, 4⟩, ⟨5, 8⟩], [], "", .zero, false⟩]⟩

theorem parse_ofCorpus_humming :
    let o := { Options.standard with spellGuess := 0, linkageLimit := 1 }
    ∃ d candidates, ofCorpus ⟨"en", true, [humming]⟩ = .ok d
      ∧ d.parse "bees hum" o = .ok candidates
      ∧ (candidates.answer 0).map (·.metrics.unusedWordCost) = some (-3)
      ∧ candidates.answer 1 = none
      ∧ d.parse "bees" o = .error (.unknownSentence "en" "bees") := by
  intro o
  have hcorpus : ofCorpus ⟨"en", true, [humming]⟩ = .ok _ := rfl
  obtain ⟨hunknown, -⟩ := parse_ofCorpus hcorpus "bees" o
  obtain ⟨-, hrecorded⟩ := parse_ofCorpus hcorpus "bees hum" o
  obtain ⟨candidates, hparse, hanswers⟩ := hrecorded humming List.mem_cons_self rfl
  have hserved : humming.served true o = [(⟨["bees", "hum"], some [⟨0, 4⟩, ⟨5, 8⟩],
      [(0, 1, "S")], "", ⟨-3, .zero, 0⟩, false⟩, 2)] := by
    decide +kernel
  refine ⟨_, candidates, hcorpus, hparse, ?_, ?_, (hunknown _).mpr ⟨rfl, by decide⟩⟩
  · have hfirst := hanswers 0
    rw [hserved] at hfirst
    obtain ⟨l, hl, hprepare⟩ := Option.map_eq_some_iff.mp hfirst
    rw [hl, Option.map_some, (RecordedLinkage.costs_prepare hprepare.symm).2]
  · have hsecond := hanswers 1
    rw [hserved] at hsecond
    exact Option.map_eq_none_iff.mp hsecond

end RecordedDictionary

end LinkageCheck
