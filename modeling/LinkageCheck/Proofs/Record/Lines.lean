import LinkageCheck.Proofs.Text.Decoding
import LinkageCheck.Proofs.Text.Lines
import LinkageCheck.Record.Line

/-! The lines of a file as the scanner brings them, and the text that those of a section make up. -/

namespace LinkageCheck

def itemNumber : Except ScanError Line → Nat
  | .ok l => l.number
  | .error e => e.number

theorem itemNumber_ofBytes (number : Nat) (piece : List UInt8) :
    itemNumber (Line.ofBytes number piece) = number := by
  rw [Line.ofBytes]
  rcases Text.Utf8.decode piece with fault | cs
  · rfl
  · simp only [Line.ofChars]
    split
    · rfl
    · rfl

theorem getElem?_scanFrom (pieces : List (List UInt8)) (number i : Nat) :
    (scanFrom number pieces)[i]? = pieces[i]?.map (Line.ofBytes (number + i)) := by
  induction pieces generalizing number i with
  | nil => rfl
  | cons piece pieces ih =>
    rw [scanFrom]
    cases i with
    | zero => rfl
    | succ i =>
      rw [List.getElem?_cons_succ, List.getElem?_cons_succ, ih (number + 1) i, Nat.add_right_comm,
        Nat.add_assoc]

theorem itemNumber_scan {content : List UInt8} {i : Nat} {item : Except ScanError Line}
    (h : (scan content)[i]? = some item) : itemNumber item = i + 1 := by
  rw [scan, getElem?_scanFrom, Option.map_eq_some_iff] at h
  obtain ⟨piece, -, rfl⟩ := h
  rw [itemNumber_ofBytes, Nat.add_comm]

/-! ### Further down a file -/

def Line.down (l : Line) (n : Nat) : Line := { l with number := l.number + n }

def itemDown (n : Nat) : Except ScanError Line → Except ScanError Line
  | .ok l => .ok (l.down n)
  | .error e => .error { e with number := e.number + n }

theorem ofBytes_down (number n : Nat) (piece : List UInt8) :
    Line.ofBytes (number + n) piece = itemDown n (Line.ofBytes number piece) := by
  rw [Line.ofBytes, Line.ofBytes]
  rcases Text.Utf8.decode piece with fault | cs
  · rfl
  · simp only [Line.ofChars]
    split
    · rfl
    · rfl

theorem scanFrom_down (pieces : List (List UInt8)) (number n : Nat) :
    scanFrom (number + n) pieces = (scanFrom number pieces).map (itemDown n) := by
  induction pieces generalizing number with
  | nil => rfl
  | cons piece pieces ih =>
    rw [scanFrom, scanFrom, List.map_cons, ofBytes_down, Nat.add_right_comm, ih]

theorem length_scanFrom (pieces : List (List UInt8)) (number : Nat) :
    (scanFrom number pieces).length = pieces.length := by
  induction pieces generalizing number with
  | nil => rfl
  | cons piece pieces ih => rw [scanFrom, List.length_cons, List.length_cons, ih]

theorem scanFrom_append (pieces later : List (List UInt8)) (number : Nat) :
    scanFrom number (pieces ++ later) =
      scanFrom number pieces ++ scanFrom (number + pieces.length) later := by
  induction pieces generalizing number with
  | nil => rfl
  | cons piece pieces ih =>
    rw [List.cons_append, scanFrom, scanFrom, ih, List.cons_append, List.length_cons,
      Nat.add_right_comm, Nat.add_assoc]

theorem scan_append {a : List UInt8} (h : ∀ byte ∈ a.getLast?, byte = 10) (b : List UInt8) :
    scan (a ++ b) = scan a ++ (scan b).map (itemDown (scan a).length) := by
  have hlast : ∀ byte ∈ a.getLast?, (byte == 10) = true := fun byte hbyte =>
    beq_iff_eq.mpr (h byte hbyte)
  have hcut := Text.cutAfter_append hlast b
  rw [scan, hcut, scanFrom_append, scanFrom_down, scan, length_scanFrom, scan]

/-! ### The lines of a section -/

theorem ofBytes_eq_ok {number : Nat} {piece : List UInt8} {l : Line}
    (h : Line.ofBytes number piece = .ok l) :
    ∃ cs, Text.Utf8.decode piece = .ok cs ∧ Opcode.ofChar? (cs.headD '\n') = some l.opcode
      ∧ l.text = String.ofList cs.tail := by
  rw [Line.ofBytes] at h
  rcases hdecode : Text.Utf8.decode piece with fault | cs
  · rw [hdecode] at h
    cases h
  · rw [hdecode] at h
    simp only [Line.ofChars] at h
    rcases hopcode : Opcode.ofChar? (cs.headD '\n') with _ | opcode
    · rw [hopcode] at h
      cases h
    · rw [hopcode] at h
      cases h
      exact ⟨cs, rfl, hopcode, rfl⟩

theorem text_ne_empty {number : Nat} {bytes : List UInt8} {l : Line}
    (h : Line.ofBytes number (bytes ++ [10]) = .ok l) (hsection : l.opcode.section? ≠ none) :
    l.text ≠ "" := by
  obtain ⟨cs, hdecode, hopcode, htext⟩ := ofBytes_eq_ok h
  obtain ⟨init, rfl⟩ := Text.Utf8.decode_lineFeed hdecode
  rcases init with _ | ⟨c, init⟩
  · have hcomment : Opcode.comment = l.opcode := Option.some.inj hopcode
    rw [← hcomment] at hsection
    exact absurd rfl hsection
  · rw [htext]
    intro hempty
    have hnil : init ++ ['\n'] = [] := by
      have := congrArg String.toList hempty
      rwa [String.toList_ofList] at this
    exact List.append_ne_nil_of_right_ne_nil _ (List.cons_ne_nil _ _) hnil

theorem scanFrom_solid {pieces : List (List UInt8)} {number : Nat}
    {before after : List (Except ScanError Line)} {l : Line}
    (hends : ∀ first piece last, pieces = first ++ piece :: last → last ≠ [] →
      ∃ init, piece = init ++ [10])
    (h : scanFrom number pieces = before ++ .ok l :: after) (hsection : l.opcode.section? ≠ none)
    (htext : l.text = "") : after = [] := by
  induction before generalizing pieces number with
  | nil =>
    rcases pieces with _ | ⟨piece, pieces⟩
    · cases h
    · obtain ⟨hitem, hafter⟩ := List.cons.inj h
      by_cases hlast : pieces = []
      · rw [← hafter, hlast, scanFrom]
      · obtain ⟨init, rfl⟩ := hends [] piece pieces rfl hlast
        exact absurd htext (text_ne_empty hitem hsection)
  | cons b before ih =>
    rcases pieces with _ | ⟨piece, pieces⟩
    · cases h
    · refine ih (fun first second last hpieces => ?_) (List.cons.inj h).2
      exact hends (piece :: first) second last (by rw [hpieces, List.cons_append])

theorem mem_scanFrom {pieces : List (List UInt8)} {number : Nat} {item : Except ScanError Line}
    (h : item ∈ scanFrom number pieces) : ∃ n, ∃ piece ∈ pieces, Line.ofBytes n piece = item := by
  obtain ⟨i, hi⟩ := List.mem_iff_getElem?.mp h
  rw [getElem?_scanFrom, Option.map_eq_some_iff] at hi
  obtain ⟨piece, hpiece, hitem⟩ := hi
  exact ⟨number + i, piece, List.mem_of_getElem? hpiece, hitem⟩

theorem text_ne_empty_of_mem_scan {content : List UInt8} {l : Line}
    (h : ∀ byte ∈ content.getLast?, byte = 10) (hl : .ok l ∈ scan content)
    (hsection : l.opcode.section? ≠ none) : l.text ≠ "" := by
  obtain ⟨number, piece, hpiece, hline⟩ := mem_scanFrom hl
  have hlast : ∀ byte ∈ content.getLast?, (byte == 10) = true := fun byte hbyte =>
    beq_iff_eq.mpr (h byte hbyte)
  obtain ⟨init, b, rfl, hb, -⟩ := Text.terminated_of_mem_cutAfter hlast piece hpiece
  obtain rfl : b = 10 := eq_of_beq hb
  exact text_ne_empty hline hsection

theorem scan_solid {content : List UInt8} {before after : List (Except ScanError Line)} {l : Line}
    (h : scan content = before ++ .ok l :: after) (hsection : l.opcode.section? ≠ none)
    (htext : l.text = "") : after = [] := by
  refine scanFrom_solid (fun first piece last hpieces hlast => ?_) h hsection htext
  obtain ⟨init, b, rfl, hb⟩ := Text.cutAfter_terminated first hpieces hlast
  obtain rfl : b = 10 := eq_of_beq hb
  exact ⟨init, rfl⟩

theorem Opcode.isRecord_of_section {opcode : Opcode} {kind : SectionKind}
    (h : opcode.section? = some kind) : opcode.isRecord = true ∧ opcode ≠ .sentence := by
  cases opcode <;> first | exact ⟨rfl, by decide⟩ | cases h

namespace SectionKind

def lineOpcode : SectionKind → Opcode
  | diagram => .diagram
  | constituents => .constituents
  | wordPositions => .wordPositions

theorem section?_lineOpcode (kind : SectionKind) : kind.lineOpcode.section? = some kind := by
  cases kind <;> rfl

end SectionKind

/-- The lines of a section among those of an entry, joined. -/
def textOf (kind : SectionKind) (entry : List Line) : String :=
  String.join ((entry.filter (·.opcode.section? = some kind)).map (·.text))

theorem textOf_append (kind : SectionKind) (entry later : List Line) :
    textOf kind (entry ++ later) = textOf kind entry ++ textOf kind later := by
  rw [textOf, List.filter_append, List.map_append, String.join_append]
  rfl

section

variable {kind : SectionKind} {l : Line}

theorem textOf_cons (h : l.opcode.section? = some kind) (entry : List Line) :
    textOf kind (l :: entry) = l.text ++ textOf kind entry := by
  rw [textOf, List.filter_cons_of_pos (by simpa using h), List.map_cons, String.join_cons]
  rfl

theorem textOf_cons_of_ne (h : l.opcode.section? ≠ some kind) (entry : List Line) :
    textOf kind (l :: entry) = textOf kind entry := by
  rw [textOf, List.filter_cons_of_neg (by simpa using h)]
  rfl

theorem textOf_concat (h : l.opcode.section? = some kind) (entry : List Line) :
    textOf kind (entry ++ [l]) = textOf kind entry ++ l.text := by
  rw [textOf_append, textOf_cons h]
  exact congrArg (textOf kind entry ++ ·) String.append_empty

theorem textOf_concat_of_ne (h : l.opcode.section? ≠ some kind) (entry : List Line) :
    textOf kind (entry ++ [l]) = textOf kind entry := by
  rw [textOf_append, textOf_cons_of_ne h]
  exact String.append_empty

end

end LinkageCheck
