import LinkageCheck.Proofs.Alignment.Placing

/-! Character spans and byte spans: the spans that are derived from the segments of a sentence are
those that the recorded characters give, and all of them lie between characters. -/

namespace LinkageCheck.Alignment

open Text (Cuts)

/-! ### Explicit spans -/

theorem getElem?_boundariesFrom {byte n b : Nat} {cs : List Char} :
    (boundariesFrom byte cs)[n]? = some b ↔ n ≤ cs.length ∧ b = byte + byteLength (cs.take n) := by
  induction cs generalizing byte n with
  | nil => cases n <;> simp [boundariesFrom, byteLength, eq_comm]
  | cons c cs ih =>
    rw [boundariesFrom]
    cases n with
    | zero => simp [byteLength, eq_comm]
    | succ n =>
      rw [List.getElem?_cons_succ, ih, List.length_cons, Nat.succ_le_succ_iff, List.take_succ_cons,
        byteLength, Nat.add_assoc]

theorem getElem?_boundaries {n b : Nat} {cs : List Char} :
    (boundariesFrom 0 cs)[n]? = some b ↔ n ≤ cs.length ∧ b = byteLength (cs.take n) := by
  rw [getElem?_boundariesFrom, Nat.zero_add]

variable {cs : List Char} {word : String} {span : Span} {w : PlacedWord} {words : List String}
  {spans : List Span} {placed : List PlacedWord}

theorem placeSpan_eq_ok (h : placeSpan (boundariesFrom 0 cs) word span = .ok w) :
    w.text = word ∧ (spot w).LiesIn cs := by
  rw [placeSpan] at h
  split at h
  · next start stop hstart hstop =>
    split at h
    · next hordered =>
      cases h
      obtain ⟨-, rfl⟩ := getElem?_boundaries.mp hstart
      obtain ⟨hinside, rfl⟩ := getElem?_boundaries.mp hstop
      exact ⟨rfl, hordered, hinside, rfl⟩
    · cases h
  · cases h

theorem spot_liesIn_iff : (spot w).LiesIn cs ↔ w.chars.start ≤ w.chars.stop
    ∧ w.chars.stop ≤ cs.length
    ∧ w.bytes = ⟨byteLength (cs.take w.chars.start), byteLength (cs.take w.chars.stop)⟩ :=
  ⟨fun h => ⟨h.ordered, h.inside, h.bytes⟩, fun ⟨hordered, hinside, hbytes⟩ =>
    ⟨hordered, hinside, hbytes⟩⟩

theorem placeSpan_of_liesIn (h : (spot w).LiesIn cs) :
    placeSpan (boundariesFrom 0 cs) w.text w.chars = .ok w := by
  obtain ⟨hordered, hinside, hbytes⟩ := spot_liesIn_iff.mp h
  have hstart := getElem?_boundaries.mpr ⟨Nat.le_trans hordered hinside, rfl⟩
  have hstop := getElem?_boundaries.mpr ⟨hinside, rfl⟩
  rw [placeSpan, hstart, hstop]
  simp only [if_pos hordered]
  rw [← hbytes]

theorem placeSpans_eq_ok (hlength : words.length = spans.length)
    (h : placeSpans (boundariesFrom 0 cs) words spans = .ok placed) :
    placed.map (·.text) = words ∧ ∀ w ∈ placed, (spot w).LiesIn cs := by
  induction words generalizing spans placed with
  | nil =>
    unfold placeSpans at h
    cases h
    exact ⟨rfl, fun w hw => absurd hw List.not_mem_nil⟩
  | cons word words ih =>
    cases spans with
    | nil => cases hlength
    | cons span spans =>
      rw [placeSpans] at h
      obtain ⟨first, hfirst, h⟩ := ok_of_bind_ok h
      obtain ⟨rest, hrest, h⟩ := ok_of_bind_ok h
      cases h
      obtain ⟨htext, hspot⟩ := placeSpan_eq_ok hfirst
      obtain ⟨htexts, hspots⟩ := ih (Nat.succ.inj hlength) hrest
      exact ⟨by rw [List.map_cons, htext, htexts], List.forall_mem_cons.mpr ⟨hspot, hspots⟩⟩

theorem explicit_eq_ok {sentence : String} (h : explicit sentence words spans = .ok placed) :
    placed.map (·.text) = words ∧ ∀ w ∈ placed, (spot w).LiesIn sentence.toList := by
  rw [explicit] at h
  split at h
  · cases h
  · next hlength => exact placeSpans_eq_ok (Decidable.not_not.mp hlength) h

theorem placeSpans_of_liesIn (h : ∀ w ∈ placed, (spot w).LiesIn cs) :
    placeSpans (boundariesFrom 0 cs) (placed.map (·.text)) (placed.map (·.chars)) = .ok placed := by
  induction placed with
  | nil => rfl
  | cons w placed ih =>
    obtain ⟨hw, hplaced⟩ := List.forall_mem_cons.mp h
    rw [List.map_cons, List.map_cons, placeSpans, placeSpan_of_liesIn hw, ih hplaced]
    rfl

/-! ### Boundaries between characters -/

def Boundary (sentence : String) (chars bytes : Nat) : Prop :=
  ∃ before after : String, sentence = before ++ after ∧ before.length = chars
    ∧ before.utf8ByteSize = bytes

theorem boundary_take {sentence : String} {n : Nat} (h : n ≤ sentence.length) :
    Boundary sentence n (byteLength (sentence.toList.take n)) := by
  refine ⟨String.ofList (sentence.toList.take n), String.ofList (sentence.toList.drop n), ?_, ?_,
    utf8ByteSize_ofList _⟩
  · rw [← String.ofList_append, List.take_append_drop, String.ofList_toList]
  · rw [String.length_ofList, List.length_take, String.length_toList, Nat.min_eq_left h]

/-- The byte span begins and ends between characters, where the character span does. -/
structure OnBoundaries (sentence : String) (w : PlacedWord) : Prop where
  start : Boundary sentence w.chars.start w.bytes.start
  stop : Boundary sentence w.chars.stop w.bytes.stop

theorem onBoundaries_of_liesIn {sentence : String} (h : (spot w).LiesIn sentence.toList) :
    OnBoundaries sentence w := by
  obtain ⟨hordered, hinside, hbytes⟩ := spot_liesIn_iff.mp h
  rw [String.length_toList] at hinside
  refine ⟨?_, ?_⟩
  · rw [hbytes]
    exact boundary_take (Nat.le_trans hordered hinside)
  · rw [hbytes]
    exact boundary_take hinside

/-- The characters of the placed words, taken as recorded spans, give the same words again, and the
words stand between boundaries. -/
structure Agrees (sentence : String) (words : List String) (placed : List PlacedWord) : Prop where
  again : explicit sentence words (placed.map (·.chars)) = .ok placed
  onBoundaries : ∀ w ∈ placed, OnBoundaries sentence w

theorem agrees_alignSegments {sentence : String} {segments : List (List Char)}
    (hcuts : Cuts segments sentence.toList) (h : alignSegments segments words = .ok placed) :
    Agrees sentence words placed := by
  have hlies : ∀ w ∈ placed, (spot w).LiesIn sentence.toList := by
    intro w hw
    rw [← hcuts.flatten]
    exact spot_liesIn h hw
  have htexts : placed.map (·.text) = words :=
    map_text_placeWords (alignSegments_eq segments words ▸ h)
  refine ⟨?_, fun w hw => onBoundaries_of_liesIn (hlies w hw)⟩
  rw [explicit, ← htexts, if_neg (by simp), placeSpans_of_liesIn hlies]

/-- Words placed on the segments of a sentence, and in particular on those between its word
boundaries, are placed alike by the spans of their characters; and no word that is placed one way or
the other splits a character. -/
theorem explicit_align (sentence : String) (words : List String) :
    (∀ segments placed, Cuts segments sentence.toList →
        alignSegments segments words = .ok placed → Agrees sentence words placed)
      ∧ (∀ placed, align sentence words = .ok placed → Agrees sentence words placed)
      ∧ ∀ spans placed, explicit sentence words spans = .ok placed →
          ∀ w ∈ placed, OnBoundaries sentence w :=
  ⟨fun _ _ hcuts h => agrees_alignSegments hcuts h,
    fun _ h => agrees_alignSegments (Text.cuts_wordSegments _) h,
    fun _ _ h w hw => onBoundaries_of_liesIn ((explicit_eq_ok h).2 w hw)⟩

theorem explicit_align_lait :
    let sentence := "café au lait"
    let words := ["LEFT-WALL", "café", "au", "lait", "RIGHT-WALL"]
    let placed : List PlacedWord := [⟨"LEFT-WALL", ⟨0, 0⟩, ⟨0, 0⟩⟩, ⟨"café", ⟨0, 4⟩, ⟨0, 5⟩⟩,
      ⟨"au", ⟨5, 7⟩, ⟨6, 8⟩⟩, ⟨"lait", ⟨8, 12⟩, ⟨9, 13⟩⟩, ⟨"RIGHT-WALL", ⟨12, 12⟩, ⟨13, 13⟩⟩]
    let spans := placed.map (·.chars)
    Cuts (Text.wordSegments sentence.toList) sentence.toList
      ∧ align sentence words = .ok placed ∧ Agrees sentence words placed
      ∧ explicit sentence words spans = .ok placed ∧ ∀ w ∈ placed, OnBoundaries sentence w := by
  intro sentence words placed spans
  have hcuts := Text.cuts_wordSegments sentence.toList
  have halign : align sentence words = .ok placed := by decide +kernel
  obtain ⟨hsegments, -, hexplicit⟩ := explicit_align sentence words
  have hagrees := hsegments _ placed hcuts halign
  exact ⟨hcuts, halign, hagrees, hagrees.again, hexplicit spans placed hagrees.again⟩

end LinkageCheck.Alignment
