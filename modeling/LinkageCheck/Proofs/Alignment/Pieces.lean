import LinkageCheck.Alignment
import Mathlib.Data.List.Count

/-! The pieces of a sentence: those of its segments that are not made of blanks, from left to right
and without overlap. -/

namespace LinkageCheck.Alignment

/-! ### Bytes -/

theorem byteLength_append (cs ds : List Char) :
    byteLength (cs ++ ds) = byteLength cs + byteLength ds := by
  induction cs with
  | nil => exact (Nat.zero_add _).symm
  | cons c cs ih => rw [List.cons_append, byteLength, ih, byteLength, Nat.add_assoc]

theorem length_le_byteLength (cs : List Char) : cs.length ≤ byteLength cs := by
  induction cs with
  | nil => exact Nat.le_refl 0
  | cons c cs ih =>
    have hsize := c.utf8Size_pos
    rw [byteLength, List.length_cons]
    omega

theorem utf8ByteSize_ofList (cs : List Char) : (String.ofList cs).utf8ByteSize = byteLength cs := by
  induction cs with
  | nil => rfl
  | cons c cs ih =>
    rw [← List.singleton_append, String.ofList_append, String.utf8ByteSize_append, ih,
      ← String.singleton_eq_ofList, String.utf8ByteSize_singleton, List.singleton_append,
      byteLength]

theorem byteLength_toList (s : String) : byteLength s.toList = s.utf8ByteSize := by
  rw [← utf8ByteSize_ofList, String.ofList_toList]

/-! ### Places in a text -/

/-- The piece lies inside the text, and its bytes are those of its characters. -/
structure Piece.LiesIn (cs : List Char) (p : Piece) : Prop where
  ordered : p.chars.start ≤ p.chars.stop
  inside : p.chars.stop ≤ cs.length
  bytes : p.bytes = ⟨byteLength (cs.take p.chars.start), byteLength (cs.take p.chars.stop)⟩

theorem byteLength_take_le (cs : List Char) (n : Nat) : byteLength (cs.take n) ≤ byteLength cs := by
  have hsplit := byteLength_append (cs.take n) (cs.drop n)
  rw [List.take_append_drop] at hsplit
  omega

theorem Piece.LiesIn.bytes_stop_le {cs : List Char} {p : Piece} (h : p.LiesIn cs) :
    p.bytes.stop ≤ byteLength cs := by
  rw [h.bytes]
  exact byteLength_take_le _ _

def sentenceStart : Piece := ⟨⟨0, 0⟩, ⟨0, 0⟩⟩

theorem sentenceStart_liesIn (cs : List Char) : sentenceStart.LiesIn cs :=
  ⟨Nat.le_refl 0, Nat.zero_le _, rfl⟩

theorem sentenceEnd_liesIn (cs : List Char) : (sentenceEnd cs).LiesIn cs := by
  refine ⟨Nat.le_refl _, Nat.le_refl _, ?_⟩
  simp only [sentenceEnd, List.take_length]

/-! ### The pieces of a sentence -/

def worded (segment : List Char) : Bool := !segment.all Text.isBlank

def pieceAfter (before segment : List Char) : Piece :=
  ⟨⟨before.length, (before ++ segment).length⟩,
    ⟨byteLength before, byteLength (before ++ segment)⟩⟩

theorem pieceAfter_liesIn (before segment later : List Char) :
    (pieceAfter before segment).LiesIn (before ++ segment ++ later) := by
  refine ⟨?_, ?_, ?_⟩
  · simp only [pieceAfter, List.length_append]
    omega
  · simp only [pieceAfter, List.length_append]
    omega
  · have hstart : (before ++ segment ++ later).take before.length = before := by
      rw [List.append_assoc, List.take_left]
    have hstop : (before ++ segment ++ later).take (before ++ segment).length = before ++ segment :=
      List.take_left
    simp only [pieceAfter, hstart, hstop]

def piecesAfter (before : List Char) (segments : List (List Char)) : List Piece :=
  piecesFrom before.length (byteLength before) segments

theorem piecesAfter_cons (before segment : List Char) (segments : List (List Char)) :
    piecesAfter before (segment :: segments) =
      if worded segment then pieceAfter before segment :: piecesAfter (before ++ segment) segments
      else piecesAfter (before ++ segment) segments := by
  simp only [piecesAfter, piecesFrom, worded, pieceAfter, List.length_append, byteLength_append,
    Bool.not_eq_true']
  cases segment.all Text.isBlank <;> rfl

variable {segments : List (List Char)} {before : List Char}

theorem length_piecesAfter : (piecesAfter before segments).length = segments.countP worded := by
  induction segments generalizing before with
  | nil => rfl
  | cons segment segments ih =>
    rw [piecesAfter_cons]
    split
    · next hworded => rw [List.length_cons, ih, List.countP_cons_of_pos hworded]
    · next hworded => rw [ih, List.countP_cons_of_neg hworded]

theorem exists_of_getElem?_piecesAfter {i : Nat} {p : Piece}
    (h : (piecesAfter before segments)[i]? = some p) :
    ∃ earlier segment later, segments = earlier ++ segment :: later ∧ worded segment = true
      ∧ earlier.countP worded = i ∧ p = pieceAfter (before ++ earlier.flatten) segment := by
  induction segments generalizing before i with
  | nil => cases h
  | cons first segments ih =>
    -- A piece behind the first segment is found behind the text that this segment makes longer.
    have extend {k : Nat} (h : (piecesAfter (before ++ first) segments)[k]? = some p) :
        ∃ earlier segment later, first :: segments = (first :: earlier) ++ segment :: later
          ∧ worded segment = true ∧ earlier.countP worded = k
          ∧ p = pieceAfter (before ++ (first :: earlier).flatten) segment := by
      obtain ⟨earlier, segment, later, rfl, hworded, hcount, rfl⟩ := ih h
      refine ⟨earlier, segment, later, rfl, hworded, hcount, ?_⟩
      rw [List.flatten_cons, List.append_assoc]
    rw [piecesAfter_cons] at h
    split at h
    · next hfirst =>
      cases i with
      | zero =>
        cases h
        exact ⟨[], first, segments, rfl, hfirst, rfl, by rw [List.flatten_nil, List.append_nil]⟩
      | succ i =>
        obtain ⟨earlier, segment, later, hsplit, hworded, hcount, hp⟩ := extend h
        refine ⟨first :: earlier, segment, later, hsplit, hworded, ?_, hp⟩
        rw [List.countP_cons_of_pos hfirst, hcount]
    · next hfirst =>
      obtain ⟨earlier, segment, later, hsplit, hworded, hcount, hp⟩ := extend h
      refine ⟨first :: earlier, segment, later, hsplit, hworded, ?_, hp⟩
      rw [List.countP_cons_of_neg hfirst, hcount]

def Piece.Before (a b : Piece) : Prop :=
  a.chars.stop ≤ b.chars.start ∧ a.bytes.stop ≤ b.bytes.start

theorem pieceAfter_before {segment : List Char} {p : Piece}
    (h : p ∈ piecesAfter (before ++ segment) segments) : (pieceAfter before segment).Before p := by
  obtain ⟨i, hi⟩ := List.mem_iff_getElem?.mp h
  obtain ⟨earlier, next, later, -, -, -, rfl⟩ := exists_of_getElem?_piecesAfter hi
  simp only [Piece.Before, pieceAfter, List.length_append, byteLength_append]
  omega

theorem pairwise_piecesAfter : (piecesAfter before segments).Pairwise Piece.Before := by
  induction segments generalizing before with
  | nil => exact .nil
  | cons segment segments ih =>
    rw [piecesAfter_cons]
    split
    · exact .cons (fun p hp => pieceAfter_before hp) ih
    · exact ih

theorem pieceAfter_nonempty (before : List Char) {segment : List Char} (h : worded segment = true) :
    (pieceAfter before segment).chars.start < (pieceAfter before segment).chars.stop
      ∧ (pieceAfter before segment).bytes.start < (pieceAfter before segment).bytes.stop := by
  have hsegment : segment ≠ [] := by
    rintro rfl
    cases h
  have hlength := List.length_pos_iff.mpr hsegment
  have hbytes := length_le_byteLength segment
  simp only [pieceAfter, List.length_append, byteLength_append]
  omega

end LinkageCheck.Alignment
