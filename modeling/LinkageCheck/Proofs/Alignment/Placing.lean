import LinkageCheck.Proofs.Alignment.Pieces
import LinkageCheck.Proofs.Text.Words
import LinkageCheck.Proofs.Traversal
import Mathlib.Order.CompletePartialOrder
import Mathlib.Order.Interval.Set.Disjoint

/-! Where words are placed on a sentence: walls at its two ends, and the other words on its pieces,
one after another, until there are no more of them. -/

namespace LinkageCheck.Alignment

open Text (Cuts)

/-! ### One word after another -/

def takesPiece (word : String) : Bool := word ≠ leftWall && word ≠ rightWall

def spot (w : PlacedWord) : Piece := ⟨w.chars, w.bytes⟩

def nonWalls (placed : List PlacedWord) : List PlacedWord := placed.filter (takesPiece ·.text)

theorem nonWalls_cons_of_wall {w : PlacedWord} {rest : List PlacedWord}
    (h : takesPiece w.text = false) : nonWalls (w :: rest) = nonWalls rest := by
  rw [nonWalls, List.filter_cons_of_neg (by simp [h]), nonWalls]

theorem nonWalls_cons_of_takesPiece {w : PlacedWord} {rest : List PlacedWord}
    (h : takesPiece w.text = true) : nonWalls (w :: rest) = w :: nonWalls rest := by
  rw [nonWalls, List.filter_cons_of_pos (by simp [h]), nonWalls]

def wallSpot (ending : Piece) (wall : String) : Piece :=
  if wall = leftWall then sentenceStart else ending

section PlaceWords

variable {ending piece : Piece} {pieces : List Piece} {word : String} {words : List String}
  {placed : List PlacedWord} {e : Error}

theorem placeWords_wall (h : takesPiece word = false) :
    placeWords ending pieces (word :: words) = (placeWords ending pieces words).map
      (⟨word, (wallSpot ending word).chars, (wallSpot ending word).bytes⟩ :: ·) := by
  rw [placeWords.eq_def, wallSpot]
  by_cases hleft : word = leftWall
  · simp only [if_pos hleft, sentenceStart]
  · have hright : word = rightWall := by simpa [takesPiece, hleft] using h
    simp only [if_neg hleft, if_pos hright]

theorem placeWords_nil (h : takesPiece word = true) :
    placeWords ending [] (word :: words) = .error (.noTextLeft word) := by
  obtain ⟨hleft, hright⟩ : word ≠ leftWall ∧ word ≠ rightWall := by simpa [takesPiece] using h
  rw [placeWords, if_neg hleft, if_neg hright]

theorem placeWords_cons (h : takesPiece word = true) :
    placeWords ending (piece :: pieces) (word :: words)
      = (placeWords ending pieces words).map (⟨word, piece.chars, piece.bytes⟩ :: ·) := by
  obtain ⟨hleft, hright⟩ : word ≠ leftWall ∧ word ≠ rightWall := by simpa [takesPiece] using h
  rw [placeWords, if_neg hleft, if_neg hright]

theorem placeWords_eq_error_iff :
    placeWords ending pieces words = .error e
      ↔ ∃ word, (words.filter takesPiece)[pieces.length]? = some word ∧ e = .noTextLeft word := by
  induction words generalizing pieces with
  | nil => simp [placeWords]
  | cons word words ih =>
    cases htakes : takesPiece word with
    | false =>
      rw [placeWords_wall htakes, map_eq_error_iff, ih, List.filter_cons_of_neg (by simp [htakes])]
    | true =>
      rw [List.filter_cons_of_pos htakes]
      cases pieces with
      | nil => simp [placeWords_nil htakes, eq_comm]
      | cons piece pieces =>
        rw [placeWords_cons htakes, map_eq_error_iff, ih, List.length_cons,
          List.getElem?_cons_succ]

theorem placeWords_cons_eq_ok (h : placeWords ending pieces (word :: words) = .ok placed) :
    ∃ w rest left, placed = w :: rest ∧ w.text = word ∧ placeWords ending left words = .ok rest
      ∧ (takesPiece word = false ∧ spot w = wallSpot ending word ∧ left = pieces
        ∨ takesPiece word = true ∧ pieces = spot w :: left) := by
  cases htakes : takesPiece word with
  | false =>
    rw [placeWords_wall htakes] at h
    obtain ⟨rest, hrest, rfl⟩ := ok_of_map_ok h
    exact ⟨_, rest, pieces, rfl, rfl, hrest, .inl ⟨rfl, rfl, rfl⟩⟩
  | true =>
    cases pieces with
    | nil =>
      rw [placeWords_nil htakes] at h
      cases h
    | cons piece left =>
      rw [placeWords_cons htakes] at h
      obtain ⟨rest, hrest, rfl⟩ := ok_of_map_ok h
      exact ⟨_, rest, left, rfl, rfl, hrest, .inr ⟨rfl, rfl⟩⟩

theorem map_text_placeWords (h : placeWords ending pieces words = .ok placed) :
    placed.map (·.text) = words := by
  induction words generalizing pieces placed with
  | nil =>
    rw [placeWords] at h
    cases h
    rfl
  | cons word words ih =>
    obtain ⟨w, rest, left, rfl, rfl, hrest, -⟩ := placeWords_cons_eq_ok h
    rw [List.map_cons, ih hrest]

theorem spot_of_wall (h : placeWords ending pieces words = .ok placed) :
    ∀ w ∈ placed, takesPiece w.text = false → spot w = wallSpot ending w.text := by
  induction words generalizing pieces placed with
  | nil =>
    rw [placeWords] at h
    cases h
    exact fun w hw => absurd hw List.not_mem_nil
  | cons word words ih =>
    obtain ⟨w, rest, left, rfl, rfl, hrest, hw⟩ := placeWords_cons_eq_ok h
    refine List.forall_mem_cons.mpr ⟨fun hwall => ?_, ih hrest⟩
    rcases hw with ⟨-, hspot, -⟩ | ⟨htakes, -⟩
    · exact hspot
    · rw [htakes] at hwall
      cases hwall

theorem spots_isPrefix (h : placeWords ending pieces words = .ok placed) :
    (nonWalls placed).map spot <+: pieces := by
  induction words generalizing pieces placed with
  | nil =>
    rw [placeWords] at h
    cases h
    exact List.nil_prefix
  | cons word words ih =>
    obtain ⟨w, rest, left, rfl, rfl, hrest, hw⟩ := placeWords_cons_eq_ok h
    rcases hw with ⟨hwall, -, rfl⟩ | ⟨htakes, rfl⟩
    · rw [nonWalls_cons_of_wall hwall]
      exact ih hrest
    · rw [nonWalls_cons_of_takesPiece htakes, List.map_cons, List.prefix_cons_inj]
      exact ih hrest

end PlaceWords

/-! ### A sentence and its words -/

/-- Every word has its place on the sentence: walls are empty, and the others stand for one worded
segment after another. -/
structure InOrder (sentence : String) (segments : List (List Char)) (words : List String)
    (placed : List PlacedWord) : Prop where
  texts : placed.map (·.text) = words
  leftWalls : ∀ w ∈ placed, w.text = leftWall → w.chars = ⟨0, 0⟩ ∧ w.bytes = ⟨0, 0⟩
  rightWalls : ∀ w ∈ placed, w.text = rightWall →
    w.chars = ⟨sentence.length, sentence.length⟩
      ∧ w.bytes = ⟨sentence.utf8ByteSize, sentence.utf8ByteSize⟩
  pieces : ∀ i w, (nonWalls placed)[i]? = some w →
    ∃ earlier segment later, segments = earlier ++ segment :: later ∧ worded segment = true
      ∧ earlier.countP worded = i
      ∧ w.chars = ⟨earlier.flatten.length, (earlier.flatten ++ segment).length⟩
      ∧ w.bytes = ⟨byteLength earlier.flatten, byteLength (earlier.flatten ++ segment)⟩
  nonempty : ∀ w ∈ nonWalls placed, w.chars.start < w.chars.stop ∧ w.bytes.start < w.bytes.stop
  inside : ∀ w ∈ placed, w.chars.stop ≤ sentence.length ∧ w.bytes.stop ≤ sentence.utf8ByteSize
  ordered : (nonWalls placed).Pairwise fun v w =>
    v.chars.stop ≤ w.chars.start ∧ v.bytes.stop ≤ w.bytes.start
  disjoint : (nonWalls placed).Pairwise fun v w =>
    Disjoint (Set.Ico v.chars.start v.chars.stop) (Set.Ico w.chars.start w.chars.stop)
      ∧ Disjoint (Set.Ico v.bytes.start v.bytes.stop) (Set.Ico w.bytes.start w.bytes.stop)

theorem spot_eq_iff {w : PlacedWord} {p : Piece} :
    spot w = p ↔ w.chars = p.chars ∧ w.bytes = p.bytes := by
  obtain ⟨chars, bytes⟩ := p
  rw [spot, Piece.mk.injEq]

theorem disjoint_Ico_of_le {a b c d : Nat} (h : b ≤ c) :
    Disjoint (Set.Ico a b) (Set.Ico c d) :=
  Set.Ico_disjoint_Ico.mpr ((min_le_left _ _).trans (h.trans (le_max_right _ _)))

section AlignSegments

variable {sentence : String} {segments : List (List Char)} {words : List String}
  {placed : List PlacedWord} {w : PlacedWord}

theorem alignSegments_eq (segments : List (List Char)) (words : List String) :
    alignSegments segments words
      = placeWords (sentenceEnd segments.flatten) (piecesAfter [] segments) words := rfl

theorem exists_segment (h : alignSegments segments words = .ok placed) {i : Nat}
    (hi : (nonWalls placed)[i]? = some w) :
    ∃ earlier segment later, segments = earlier ++ segment :: later ∧ worded segment = true
      ∧ earlier.countP worded = i ∧ spot w = pieceAfter earlier.flatten segment := by
  obtain ⟨untaken, hpieces⟩ := spots_isPrefix (alignSegments_eq segments words ▸ h)
  have hspot : (piecesAfter [] segments)[i]? = some (spot w) := by
    have hspots : ((nonWalls placed).map spot)[i]? = some (spot w) := by
      rw [List.getElem?_map, hi, Option.map_some]
    rw [← hpieces, List.getElem?_append_left (List.getElem?_eq_some_iff.mp hspots).1, hspots]
  exact exists_of_getElem?_piecesAfter hspot

theorem pairwise_nonWalls (h : alignSegments segments words = .ok placed) :
    (nonWalls placed).Pairwise fun v w => (spot v).Before (spot w) := by
  rw [← List.pairwise_map]
  exact pairwise_piecesAfter.sublist (spots_isPrefix (alignSegments_eq segments words ▸ h)).sublist

theorem spot_liesIn (h : alignSegments segments words = .ok placed) (hw : w ∈ placed) :
    (spot w).LiesIn segments.flatten := by
  cases htakes : takesPiece w.text with
  | false =>
    rw [spot_of_wall (alignSegments_eq segments words ▸ h) w hw htakes, wallSpot]
    split
    · exact sentenceStart_liesIn _
    · exact sentenceEnd_liesIn _
  | true =>
    have hmem : w ∈ nonWalls placed := List.mem_filter.mpr ⟨hw, htakes⟩
    obtain ⟨i, hi⟩ := List.mem_iff_getElem?.mp hmem
    obtain ⟨earlier, segment, later, rfl, -, -, hspot⟩ := exists_segment h hi
    rw [hspot, List.flatten_append, List.flatten_cons, ← List.append_assoc]
    exact pieceAfter_liesIn _ _ _

theorem inOrder_alignSegments (hcuts : Cuts segments sentence.toList)
    (h : alignSegments segments words = .ok placed) :
    InOrder sentence segments words placed where
  texts := map_text_placeWords (alignSegments_eq segments words ▸ h)
  leftWalls := by
    intro w hw htext
    have hspot := spot_of_wall (alignSegments_eq segments words ▸ h) w hw (by rw [htext]; decide)
    rw [wallSpot, if_pos htext] at hspot
    exact spot_eq_iff.mp hspot
  rightWalls := by
    intro w hw htext
    have hspot := spot_of_wall (alignSegments_eq segments words ▸ h) w hw (by rw [htext]; decide)
    rw [wallSpot, if_neg (by rw [htext]; decide), hcuts.flatten, sentenceEnd, String.length_toList,
      byteLength_toList] at hspot
    exact spot_eq_iff.mp hspot
  pieces := by
    intro i w hi
    obtain ⟨earlier, segment, later, hsplit, hworded, hcount, hspot⟩ := exists_segment h hi
    exact ⟨earlier, segment, later, hsplit, hworded, hcount, spot_eq_iff.mp hspot⟩
  nonempty := by
    intro w hw
    obtain ⟨i, hi⟩ := List.mem_iff_getElem?.mp hw
    obtain ⟨earlier, segment, later, -, hworded, -, hspot⟩ := exists_segment h hi
    have hnonempty := pieceAfter_nonempty earlier.flatten hworded
    rwa [← hspot] at hnonempty
  inside := by
    intro w hw
    have hspot := spot_liesIn h hw
    rw [hcuts.flatten] at hspot
    rw [← String.length_toList, ← byteLength_toList]
    exact ⟨hspot.inside, hspot.bytes_stop_le⟩
  ordered := pairwise_nonWalls h
  disjoint := by
    refine (pairwise_nonWalls h).imp fun {v w} hbefore => ⟨?_, ?_⟩
    · exact disjoint_Ico_of_le hbefore.1
    · exact disjoint_Ico_of_le hbefore.2

end AlignSegments

/-- What placing words on a sentence comes to. With `k` pieces, it is refused just if there are more
than `k` words that are no walls, and the error names the one behind the first `k` of them. -/
structure Aligns (sentence : String) (segments : List (List Char)) (words : List String)
    (result : Except Error (List PlacedWord)) : Prop where
  placed_iff : (∃ placed, result = .ok placed)
    ↔ (words.filter takesPiece).length ≤ segments.countP worded
  refused_iff : ∀ e, result = .error e ↔ ∃ word,
    (words.filter takesPiece)[segments.countP worded]? = some word ∧ e = .noTextLeft word
  inOrder : ∀ placed, result = .ok placed → InOrder sentence segments words placed

theorem aligns_alignSegments {sentence : String} {segments : List (List Char)}
    (hcuts : Cuts segments sentence.toList) (words : List String) :
    Aligns sentence segments words (alignSegments segments words) := by
  have hrefused (e : Error) : alignSegments segments words = .error e ↔ ∃ word,
      (words.filter takesPiece)[segments.countP worded]? = some word ∧ e = .noTextLeft word := by
    rw [alignSegments_eq, placeWords_eq_error_iff, length_piecesAfter]
  refine ⟨?_, hrefused, fun placed h => inOrder_alignSegments hcuts h⟩
  -- There are few enough words just if the one that the error would name is not there.
  rw [← List.getElem?_eq_none_iff, Option.eq_none_iff_forall_ne_some]
  rcases hresult : alignSegments segments words with e | placed
  · obtain ⟨word, hword, -⟩ := (hrefused e).mp hresult
    simp only [reduceCtorEq, exists_false, false_iff, not_forall, not_not]
    exact ⟨word, hword⟩
  · refine iff_of_true ⟨placed, rfl⟩ fun word hword => ?_
    have herror := (hrefused (.noTextLeft word)).mpr ⟨word, hword, rfl⟩
    rw [hresult] at herror
    cases herror

/-- However a sentence is cut into segments, words are placed on it in their order and without
overlap, in particular on the segments between its word boundaries. -/
theorem align_inOrder (sentence : String) (words : List String) :
    (∀ segments, Cuts segments sentence.toList →
        Aligns sentence segments words (alignSegments segments words))
      ∧ Aligns sentence (Text.wordSegments sentence.toList) words (align sentence words) :=
  ⟨fun _ hcuts => aligns_alignSegments hcuts words,
    aligns_alignSegments (Text.cuts_wordSegments _) words⟩

theorem align_inOrder_lait :
    let segments := ["café", " ", "au", " ", "lait"].map String.toList
    let words := ["RIGHT-WALL", "café", "LEFT-WALL", "au", "lait[~]", "RIGHT-WALL"]
    Cuts segments "café au lait".toList
      ∧ (∃ placed, alignSegments segments words = .ok placed
        ∧ InOrder "café au lait" segments words placed)
      ∧ alignSegments segments (words ++ ["noir"]) = .error (.noTextLeft "noir") := by
  intro segments words
  have hcuts : Cuts segments "café au lait".toList := ⟨by decide, by decide⟩
  have haligns := (align_inOrder "café au lait" words).1 segments hcuts
  have hmore := (align_inOrder "café au lait" (words ++ ["noir"])).1 segments hcuts
  obtain ⟨placed, hplaced⟩ := haligns.placed_iff.mpr (by decide)
  exact ⟨hcuts, ⟨placed, hplaced, haligns.inOrder placed hplaced⟩,
    (hmore.refused_iff _).mpr ⟨"noir", by decide, rfl⟩⟩

end LinkageCheck.Alignment
