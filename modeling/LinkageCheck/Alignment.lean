import LinkageCheck.Linkage.Basic
import LinkageCheck.Text.Basic
import LinkageCheck.Text.Words

/-! Placing the words of a linkage on its sentence: by the word segments of the text, or by
character spans that were recorded with them. -/

namespace LinkageCheck

namespace Alignment

inductive Error where
  | noTextLeft (word : String)
  | spanCount (words spans : Nat)
  | outside (span : Span) (word : String)
  deriving DecidableEq, Repr

def Error.message : Error → String
  | noTextLeft word => s!"no sentence text left for word `{word}`"
  | spanCount words spans => s!"{words} words but {spans} spans recorded"
  | outside span word =>
    s!"span ({span.start}, {span.stop}) of word `{word}` is outside the sentence"

def byteLength : List Char → Nat
  | [] => 0
  | c :: cs => c.utf8Size + byteLength cs

structure Piece where
  chars : Span
  bytes : Span
  deriving DecidableEq, Repr

def piecesFrom (char byte : Nat) : List (List Char) → List Piece
  | [] => []
  | segment :: segments =>
    let charEnd := char + segment.length
    let byteEnd := byte + byteLength segment
    let later := piecesFrom charEnd byteEnd segments
    if segment.all Text.isBlank then later
    else ⟨⟨char, charEnd⟩, ⟨byte, byteEnd⟩⟩ :: later

def pieces (segments : List (List Char)) : List Piece := piecesFrom 0 0 segments

/-- Walls are empty and take no piece; every other word takes the next one, whatever its
spelling. -/
def placeWords (ending : Piece) : List Piece → List String → Except Error (List PlacedWord)
  | _, [] => .ok []
  | pieces, word :: words =>
    if word = leftWall then
      (placeWords ending pieces words).map (⟨word, ⟨0, 0⟩, ⟨0, 0⟩⟩ :: ·)
    else if word = rightWall then
      (placeWords ending pieces words).map (⟨word, ending.chars, ending.bytes⟩ :: ·)
    else
      match pieces with
      | [] => .error (.noTextLeft word)
      | piece :: pieces =>
        (placeWords ending pieces words).map (⟨word, piece.chars, piece.bytes⟩ :: ·)

def sentenceEnd (sentence : List Char) : Piece :=
  ⟨⟨sentence.length, sentence.length⟩, ⟨byteLength sentence, byteLength sentence⟩⟩

def alignSegments (segments : List (List Char)) (words : List String) :
    Except Error (List PlacedWord) :=
  placeWords (sentenceEnd segments.flatten) (pieces segments) words

def align (sentence : String) (words : List String) : Except Error (List PlacedWord) :=
  alignSegments (Text.wordSegments sentence.toList) words

def boundariesFrom (byte : Nat) : List Char → List Nat
  | [] => [byte]
  | c :: cs => byte :: boundariesFrom (byte + c.utf8Size) cs

def placeSpan (boundaries : List Nat) (word : String) (span : Span) : Except Error PlacedWord :=
  match boundaries[span.start]?, boundaries[span.stop]? with
  | some start, some stop =>
    if span.start ≤ span.stop then .ok ⟨word, span, ⟨start, stop⟩⟩
    else .error (.outside span word)
  | _, _ => .error (.outside span word)

def placeSpans (boundaries : List Nat) : List String → List Span → Except Error (List PlacedWord)
  | word :: words, span :: spans => do
    let placed ← placeSpan boundaries word span
    return placed :: (← placeSpans boundaries words spans)
  | _, _ => .ok []

/-- Takes the recorded character spans and derives the byte spans. -/
def explicit (sentence : String) (words : List String) (spans : List Span) :
    Except Error (List PlacedWord) :=
  if words.length ≠ spans.length then .error (.spanCount words.length spans.length)
  else placeSpans (boundariesFrom 0 sentence.toList) words spans

end Alignment

end LinkageCheck
