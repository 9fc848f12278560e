import LinkageCheck.Proofs.Corpus.Serving

/-! A corpus is accepted just if it is sound: all words have places, all links are valid, and no
text is recorded twice. Otherwise it is refused for its first defect. -/

namespace LinkageCheck

open Diagram (Within)

/-! ### Sound corpora -/

namespace Corpus

structure Linkage.Sound (text : String) (l : Linkage) : Prop where
  placed : ∃ words, l.place text = .ok words
  linked : ∀ link ∈ l.diagramLinks, Within l.words.length link

def Sentence.Sound (s : Sentence) : Prop := ∀ l ∈ s.linkages, l.Sound s.text

structure AllSound (sentences : List Sentence) : Prop where
  each : ∀ s ∈ sentences, s.Sound
  distinct : (sentences.map (·.text)).Nodup

theorem allSound_iff {sentences : List Sentence} : AllSound sentences
    ↔ (∀ s ∈ sentences, s.Sound) ∧ (sentences.map (·.text)).Nodup :=
  ⟨fun h => ⟨h.each, h.distinct⟩, fun ⟨heach, hdistinct⟩ => ⟨heach, hdistinct⟩⟩

/-- What is wrong with a linkage: first the places of its words, then its first bad link. -/
inductive Linkage.Flaw (text : String) (number : Nat) (l : Linkage) : Defect → Prop
  | alignment {error : Alignment.Error} (hplace : l.place text = .error error) :
    Flaw text number l (.alignment text number error)
  | diagram {words : List PlacedWord} {before after : List Link} {link : Link}
    (hplace : l.place text = .ok words) (hsplit : l.diagramLinks = before ++ link :: after)
    (hbefore : ∀ b ∈ before, Within l.words.length b) (hlink : ¬ Within l.words.length link) :
    Flaw text number l (.diagram text number ⟨link, l.words.length⟩)

/-- What is wrong with a sentence behind others with the given texts: its first bad linkage, or
else that its text is one of them. -/
inductive Sentence.Flaw (earlier : List String) (s : Sentence) : Defect → Prop
  | linkage {before after : List Linkage} {l : Linkage} {e : Defect}
    (hsplit : s.linkages = before ++ l :: after) (hbefore : ∀ b ∈ before, b.Sound s.text)
    (hflaw : l.Flaw s.text before.length e) : Flaw earlier s e
  | duplicate (hsound : s.Sound) (hearlier : s.text ∈ earlier) :
    Flaw earlier s (.duplicate s.text)

/-- The defect of the first sentence that has one. -/
def FirstDefect (sentences : List Sentence) (e : Defect) : Prop :=
  ∃ before s after, sentences = before ++ s :: after ∧ AllSound before
    ∧ s.Flaw (before.map (·.text)) e

theorem Linkage.Sound.exists_kept {text : String} {l : Linkage} (h : l.Sound text) :
    ∃ p, l.Kept text p := by
  obtain ⟨words, hwords⟩ := h.placed
  let diagram : Diagram := ⟨l.words, l.diagramLinks, h.linked⟩
  exact ⟨⟨words, diagram, l.constituents, l.metrics, l.spellGuess⟩, hwords, rfl, rfl, rfl, rfl, rfl⟩

theorem Linkage.Kept.sound {text : String} {l : Linkage} {p : RecordedLinkage}
    (h : l.Kept text p) : l.Sound text where
  placed := ⟨p.words, h.placed⟩
  linked := by
    rw [← h.links, ← h.words]
    exact p.diagram.valid

theorem Linkage.exists_kept_iff {text : String} {l : Linkage} :
    (∃ p, l.Kept text p) ↔ l.Sound text := ⟨fun ⟨_, hp⟩ => hp.sound, fun h => h.exists_kept⟩

end Corpus

open Corpus (Defect Sentence AllSound FirstDefect)

/-! ### One linkage -/

namespace RecordedLinkage

variable {text : String} {number : Nat} {l : Corpus.Linkage} {p : RecordedLinkage} {e : Defect}

theorem exists_prepare_eq_ok_iff : (∃ p, prepare text number l = .ok p) ↔ l.Sound text := by
  simp only [prepare_eq_ok_iff, Corpus.Linkage.exists_kept_iff]

theorem prepare_eq_error_iff : prepare text number l = .error e ↔ l.Flaw text number e := by
  rw [prepare_eq]
  constructor
  · intro h
    rcases hplace : l.place text with error | words
    · rw [hplace] at h
      cases h
      exact .alignment hplace
    · rcases hlinks : (Diagram.ofWords l.words).addLinks l.diagramLinks with error | diagram
      · obtain ⟨before, link, after, hsplit, hbefore, hlink, rfl⟩ :=
          Diagram.addLinks_eq_error_iff.mp hlinks
        rw [hplace, hlinks] at h
        cases h
        exact .diagram hplace hsplit hbefore hlink
      · rw [hplace, hlinks] at h
        cases h
  · rintro (hplace | ⟨hplace, hsplit, hbefore, hlink⟩)
    · rw [hplace]
      rfl
    · have hlinks : (Diagram.ofWords l.words).addLinks l.diagramLinks = .error _ :=
        Diagram.addLinks_eq_error_iff.mpr ⟨_, _, _, hsplit, hbefore, hlink, rfl⟩
      rw [hplace, hlinks]
      rfl

/-! ### The linkages of a sentence -/

variable {ls : List Corpus.Linkage} {ps : List RecordedLinkage}

theorem exists_prepareAll_eq_ok_iff :
    (∃ ps, prepareAll text number ls = .ok ps) ↔ ∀ l ∈ ls, l.Sound text := by
  simp only [prepareAll_eq_ok_iff, exists_forall₂_iff, Corpus.Linkage.exists_kept_iff]

theorem prepareAll_cons_eq_error_iff :
    prepareAll text number (l :: ls) = .error e
      ↔ l.Flaw text number e ∨ l.Sound text ∧ prepareAll text (number + 1) ls = .error e := by
  rw [prepareAll, bind_eq_error_iff, prepare_eq_error_iff]
  simp only [bind_eq_error_iff, pure, Except.pure, reduceCtorEq, and_false, exists_false,
    or_false, exists_and_right, exists_prepare_eq_ok_iff]

theorem prepareAll_eq_error_iff :
    prepareAll text number ls = .error e ↔ ∃ before l after, ls = before ++ l :: after
      ∧ (∀ b ∈ before, b.Sound text) ∧ l.Flaw text (number + before.length) e := by
  induction ls generalizing number with
  | nil =>
    simp only [prepareAll, exists_first_nil, reduceCtorEq]
  | cons l ls ih =>
    rw [prepareAll_cons_eq_error_iff, ih, exists_first_cons]
    simp only [List.length_nil, List.length_cons, Nat.add_zero, ← Nat.add_assoc,
      Nat.add_right_comm number 1]

end RecordedLinkage

/-! ### All sentences -/

theorem Corpus.Sentence.flaw_iff {earlier : List String} {s : Sentence} {e : Defect} :
    s.Flaw earlier e ↔ RecordedLinkage.prepareAll s.text 0 s.linkages = .error e
      ∨ s.Sound ∧ s.text ∈ earlier ∧ .duplicate s.text = e := by
  simp only [RecordedLinkage.prepareAll_eq_error_iff, Nat.zero_add]
  constructor
  · rintro (⟨hsplit, hbefore, hflaw⟩ | ⟨hsound, hearlier⟩)
    · exact .inl ⟨_, _, _, hsplit, hbefore, hflaw⟩
    · exact .inr ⟨hsound, hearlier, rfl⟩
  · rintro (⟨before, l, after, hsplit, hbefore, hflaw⟩ | ⟨hsound, hearlier, rfl⟩)
    · exact .linkage hsplit hbefore hflaw
    · exact .duplicate hsound hearlier

namespace RecordedDictionary

variable {known : List RecordedSentence} {s : Sentence} {ss : List Sentence} {e : Defect}

theorem addSentences_cons :
    addSentences known (s :: ss) = (do
      let linkages ← RecordedLinkage.prepareAll s.text 0 s.linkages
      if s.text ∈ known.map (·.text) then .error (.duplicate s.text)
      else addSentences (known ++ [⟨s.text, linkages⟩]) ss) := by
  have hknown : (find? known s.text).isSome = true ↔ s.text ∈ known.map (·.text) := by
    rw [Option.isSome_iff_ne_none, ne_eq, find?_eq_none_iff, not_not]
  simp only [addSentences, hknown]

theorem exists_addSentences_eq_ok (hsound : ∀ s ∈ ss, s.Sound)
    (hnodup : (known.map (·.text) ++ ss.map (·.text)).Nodup) :
    ∃ all, addSentences known ss = .ok all := by
  induction ss generalizing known with
  | nil => exact ⟨known, rfl⟩
  | cons s ss ih =>
    obtain ⟨hs, hss⟩ := List.forall_mem_cons.mp hsound
    obtain ⟨linkages, hlinkages⟩ := RecordedLinkage.exists_prepareAll_eq_ok_iff.mpr hs
    have hnew : s.text ∉ known.map (·.text) := fun hmem =>
      List.disjoint_of_nodup_append hnodup hmem List.mem_cons_self
    obtain ⟨all, hall⟩ := @ih (known ++ [⟨s.text, linkages⟩]) hss (by simpa using hnodup)
    refine ⟨all, ?_⟩
    rw [addSentences_cons, hlinkages]
    show (if _ then _ else _) = _
    rw [if_neg hnew, hall]

theorem addSentences_eq_error_iff (hknown : (known.map (·.text)).Nodup) :
    addSentences known ss = .error e ↔ ∃ before s after, ss = before ++ s :: after
      ∧ (∀ b ∈ before, b.Sound) ∧ (known.map (·.text) ++ before.map (·.text)).Nodup
      ∧ s.Flaw (known.map (·.text) ++ before.map (·.text)) e := by
  induction ss generalizing known with
  | nil =>
    simp only [addSentences, exists_first_nil, reduceCtorEq]
  | cons s ss ih =>
    have hsound : (∃ linkages, RecordedLinkage.prepareAll s.text 0 s.linkages = .ok linkages)
        ↔ s.Sound := RecordedLinkage.exists_prepareAll_eq_ok_iff
    rw [addSentences_cons, bind_eq_error_iff, exists_first_cons, Corpus.Sentence.flaw_iff]
    simp only [List.map_nil, List.append_nil, hknown, true_and]
    by_cases hmem : s.text ∈ known.map (·.text)
    · -- The sentence repeats a text: it is faulty unless a linkage is, and none behind it is first.
      have hrepeated (before : List Sentence) :
          ¬ (known.map (·.text) ++ (s :: before).map (·.text)).Nodup := fun hnodup =>
        List.disjoint_of_nodup_append hnodup hmem List.mem_cons_self
      simp only [hmem, if_true, hrepeated, Except.error.injEq, exists_and_right, hsound,
        true_and, false_and, and_false, exists_false, or_false]
    · have hnew (linkages : List RecordedLinkage) :
          ((known ++ [RecordedSentence.mk s.text linkages]).map (·.text)).Nodup :=
        nodup_append_singleton hknown hmem
      simp only [hmem, if_false, ih (hnew _), List.map_append, List.map_cons, List.map_nil,
        List.append_assoc, List.singleton_append, false_and, and_false, or_false]
      rw [exists_and_right, hsound]

theorem Records.allSound {d : RecordedDictionary} {c : Corpus} (h : d.Records c) :
    AllSound c.sentences where
  each := by
    intro s hs
    obtain ⟨r, -, -, hlinkages⟩ := h.exists_sentence hs
    exact RecordedLinkage.exists_prepareAll_eq_ok_iff.mp ⟨_, hlinkages⟩
  distinct := by
    rw [← h.texts]
    exact h.nodup

/-- The sentences of the corpus and no others, each with all its linkages in their order. -/
structure Keeps (d : RecordedDictionary) (c : Corpus) : Prop where
  size : d.size = c.sentences.length
  contains : ∀ text, d.contains text = true ↔ ∃ s ∈ c.sentences, s.text = text
  linkages : ∀ s ∈ c.sentences, ∃ r, find? d.sentences s.text = some r
    ∧ List.Forall₂ (Corpus.Linkage.Kept s.text) s.linkages r.linkages

theorem Records.keeps {d : RecordedDictionary} {c : Corpus} (h : d.Records c) : d.Keeps c where
  size := by
    have hlength := congrArg List.length h.texts
    rwa [List.length_map, List.length_map] at hlength
  contains := by
    intro text
    rw [contains, Option.isSome_iff_ne_none, ne_eq, find?_eq_none_iff, not_not, h.texts,
      List.mem_map]
  linkages := by
    intro s hs
    obtain ⟨r, hr, htext, hlinkages⟩ := h.exists_sentence hs
    have hfound := find?_of_mem h.nodup hr
    rw [htext] at hfound
    exact ⟨r, hfound, RecordedLinkage.prepareAll_eq_ok_iff.mp hlinkages⟩

/-- A corpus makes a dictionary just if it is sound, one that keeps all that it holds, and it is
refused just for its first defect. -/
theorem ofCorpus_checks (c : Corpus) :
    ((∃ d, ofCorpus c = .ok d) ↔ AllSound c.sentences)
      ∧ (∀ d, ofCorpus c = .ok d → d.Keeps c)
      ∧ ∀ e, ofCorpus c = .error e ↔ FirstDefect c.sentences e := by
  refine ⟨⟨?_, fun h => ?_⟩, fun d hd => (records_ofCorpus hd).keeps, fun e => ?_⟩
  · rintro ⟨d, hd⟩
    exact (records_ofCorpus hd).allSound
  · obtain ⟨all, hall⟩ : ∃ all, addSentences [] c.sentences = .ok all :=
      exists_addSentences_eq_ok h.each h.distinct
    exact ⟨⟨c.lang, c.spellGuess, all⟩, by rw [ofCorpus, hall]; rfl⟩
  · have hempty : (([] : List RecordedSentence).map (·.text)).Nodup := List.nodup_nil
    rw [ofCorpus, bind_eq_error_iff, addSentences_eq_error_iff hempty]
    simp only [FirstDefect, Corpus.allSound_iff, List.map_nil, List.nil_append, pure, Except.pure,
      reduceCtorEq, and_false, exists_false, or_false, and_assoc]

def hummingAgain : Corpus where
  lang := "en"
  spellGuess := true
  sentences := [humming, ⟨"bees hum", [
    ⟨["bees"], some [⟨0, 4⟩], [], "", .zero, false⟩,
    ⟨["bees", "hum"], some [⟨0, 4⟩, ⟨5, 9⟩], [(1, 0, "S")], "", .zero, false⟩]⟩]

theorem ofCorpus_checks_humming :
    (∃ d, ofCorpus ⟨"en", true, [humming]⟩ = .ok d ∧ AllSound [humming]
        ∧ d.Keeps ⟨"en", true, [humming]⟩)
      ∧ ofCorpus hummingAgain = .error (.alignment "bees hum" 1 (.outside ⟨5, 9⟩ "hum"))
      ∧ FirstDefect hummingAgain.sentences (.alignment "bees hum" 1 (.outside ⟨5, 9⟩ "hum")) := by
  obtain ⟨hsound, hkeeps, -⟩ := ofCorpus_checks ⟨"en", true, [humming]⟩
  obtain ⟨-, -, hdefect⟩ := ofCorpus_checks hummingAgain
  exact ⟨⟨_, rfl, hsound.mp ⟨_, rfl⟩, hkeeps _ rfl⟩, rfl, (hdefect _).mp rfl⟩

end RecordedDictionary

end LinkageCheck
