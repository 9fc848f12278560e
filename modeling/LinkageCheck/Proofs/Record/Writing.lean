import LinkageCheck.Proofs.Record.Closing
import LinkageCheck.Proofs.Record.Lines

/-! Lines written to a file and scanned again, and texts whose lines end a section where they
end. -/

namespace LinkageCheck

/-! ### Writing -/

namespace Opcode

def char : Opcode → Char
  | sentence => 'I'
  | next => 'N'
  | diagram => 'O'
  | constituents => 'C'
  | wordPositions => 'P'
  | directive => '-'
  | comment => '%'

theorem ofChar?_char (opcode : Opcode) : ofChar? opcode.char = some opcode := by
  cases opcode <;> rfl

theorem char_ne_lineFeed (opcode : Opcode) : opcode.char ≠ '\n' := by
  cases opcode <;> decide

end Opcode

abbrev WrittenLine := Opcode × String

namespace WrittenLine

def chars (l : WrittenLine) : List Char := l.1.char :: l.2.toList

def Terminated (l : WrittenLine) : Prop := Text.Terminated (· == '\n') l.2.toList

end WrittenLine

def write (ls : List WrittenLine) : List UInt8 :=
  Text.Utf8.encode (ls.map WrittenLine.chars).flatten

def numbered : Nat → List WrittenLine → List Line
  | _, [] => []
  | number, l :: ls => ⟨number, l.1, l.2⟩ :: numbered (number + 1) ls

theorem numbered_append (number : Nat) (ls later : List WrittenLine) :
    numbered number (ls ++ later) = numbered number ls ++ numbered (number + ls.length) later := by
  induction ls generalizing number with
  | nil => rfl
  | cons l ls ih =>
    rw [List.cons_append, numbered, ih, numbered, List.cons_append, List.length_cons,
      Nat.add_right_comm, Nat.add_assoc]

theorem WrittenLine.Terminated.encode {l : WrittenLine} (h : l.Terminated) :
    Text.Terminated (· == 10) (Text.Utf8.encode l.chars) := by
  obtain ⟨init, c, htext, hc, hinit⟩ := h
  obtain rfl : c = '\n' := eq_of_beq hc
  have hbefore : '\n' ∉ l.1.char :: init := by
    intro hmem
    rcases List.mem_cons.mp hmem with heq | hmem
    · exact l.1.char_ne_lineFeed heq.symm
    · exact Bool.false_ne_true ((hinit _ hmem).symm.trans BEq.rfl)
  refine ⟨Text.Utf8.encode (l.1.char :: init), 10, ?_, BEq.rfl, fun b hb => ?_⟩
  · rw [chars, htext, ← List.cons_append, Text.Utf8.encode_append]
    rfl
  · refine beq_false_of_ne fun heq => Text.Utf8.lineFeed_not_mem_encode hbefore ?_
    rw [← heq]
    exact hb

theorem ofBytes_encode (number : Nat) (l : WrittenLine) :
    Line.ofBytes number (Text.Utf8.encode l.chars) = .ok ⟨number, l.1, l.2⟩ := by
  rw [Line.ofBytes, Text.Utf8.decode_encode]
  simp only [Line.ofChars, WrittenLine.chars, List.headD_cons, Opcode.ofChar?_char, List.tail_cons,
    String.ofList_toList]

theorem scan_write {ls : List WrittenLine} (h : ∀ l ∈ ls, l.Terminated) :
    scan (write ls) = (numbered 1 ls).map .ok := by
  -- no byte of a longer encoding is a line feed, so the lines are cut apart where they were joined
  have hcut : Text.cutAfter (· == 10) (write ls) =
      ls.map fun l => Text.Utf8.encode l.chars := by
    rw [write, Text.Utf8.encode_flatten, List.map_map]
    apply Text.cutAfter_flatten
    intro piece hpiece
    obtain ⟨l, hl, rfl⟩ := List.mem_map.mp hpiece
    exact (h l hl).encode
  have hscan : ∀ number, scanFrom number (ls.map fun l => Text.Utf8.encode l.chars) =
      (numbered number ls).map .ok := by
    clear hcut h
    induction ls with
    | nil => exact fun number => rfl
    | cons l ls ih =>
      intro number
      rw [List.map_cons, scanFrom, ofBytes_encode, ih, numbered, List.map_cons]
  rw [scan, hcut, hscan]

/-! ### The lines of a text -/

def pieces (text : String) : List String :=
  (Text.cutAfter (· == '\n') text.toList).map String.ofList

def lineText (line : List Char) : String := String.ofList (line ++ ['\n'])

theorem pieces_of_lines {text : String} {lines : List (List Char)}
    (htext : text.toList = (lines.map (· ++ ['\n'])).flatten)
    (hlines : ∀ line ∈ lines, '\n' ∉ line) : pieces text = lines.map lineText := by
  rw [pieces, htext, Text.cutAfter_flatten, List.map_map]
  · rfl
  · intro piece hpiece
    obtain ⟨line, hline, rfl⟩ := List.mem_map.mp hpiece
    refine ⟨line, '\n', rfl, BEq.rfl, fun c hc => ?_⟩
    refine beq_false_of_ne fun heq => hlines line hline ?_
    rw [← heq]
    exact hc

theorem join_pieces (text : String) : String.join (pieces text) = text := by
  have hjoin : ∀ css : List (List Char),
      String.join (css.map String.ofList) = String.ofList css.flatten := by
    intro css
    induction css with
    | nil => rfl
    | cons cs css ih =>
      rw [List.map_cons, String.join_cons, ih, List.flatten_cons, String.ofList_append]
  rw [pieces, hjoin, Text.flatten_cutAfter, String.ofList_toList]

theorem terminated_concat {text : String} (h : '\n' ∉ text.toList) :
    Text.Terminated (· == '\n') (text ++ "\n").toList := by
  have hend : ("\n" : String).toList = ['\n'] := by decide
  refine ⟨text.toList, '\n', by rw [String.toList_append, hend], BEq.rfl, fun c hc => ?_⟩
  refine beq_false_of_ne ?_
  rintro rfl
  exact h hc

theorem terminated_blank : Text.Terminated (· == '\n') ("\n" : String).toList :=
  ⟨[], '\n', by decide, BEq.rfl, fun c hc => absurd hc List.not_mem_nil⟩

theorem terminated_of_mem_pieces {text piece : String} (h : ∀ c ∈ text.toList.getLast?, c = '\n')
    (hpiece : piece ∈ pieces text) : Text.Terminated (· == '\n') piece.toList := by
  obtain ⟨cs, hcs, rfl⟩ := List.mem_map.mp hpiece
  rw [String.toList_ofList]
  refine Text.terminated_of_mem_cutAfter (fun c hc => ?_) cs hcs
  rw [h c hc]
  exact BEq.rfl

theorem size_lineText_pos (line : List Char) : 0 < (lineText line).utf8ByteSize := by
  apply Nat.pos_of_ne_zero
  rw [Ne, String.utf8ByteSize_eq_zero_iff, lineText, String.ofList_eq_empty_iff]
  exact List.append_ne_nil_of_right_ne_nil _ (List.cons_ne_nil _ _)

theorem length_le_size_join (lines : List (List Char)) :
    lines.length ≤ (String.join (lines.map lineText)).utf8ByteSize := by
  induction lines with
  | nil => exact Nat.zero_le _
  | cons line lines ih =>
    rw [List.map_cons, String.join_cons, String.utf8ByteSize_append, List.length_cons,
      Nat.add_comm lines.length]
    exact Nat.add_le_add (size_lineText_pos line) ih

theorem not_isBlankLine {line : List Char} (hnil : line ≠ []) (hreturn : line ≠ ['\r']) :
    isBlankLine (lineText line) = false := by
  have hlist : ∀ text, lineText line = text → line ++ ['\n'] = text.toList := by
    rintro text rfl
    exact String.toList_ofList.symm
  rw [isBlankLine, Bool.or_eq_false_iff, Bool.or_eq_false_iff]
  refine ⟨⟨beq_false_of_ne fun h => ?_, beq_false_of_ne fun h => ?_⟩, beq_false_of_ne fun h => ?_⟩
  · exact List.append_ne_nil_of_right_ne_nil _ (List.cons_ne_nil _ _) (hlist _ h)
  · have hempty : line ++ ['\n'] = [] ++ ['\n'] := hlist _ h
    exact hnil (List.append_cancel_right hempty)
  · exact hreturn (List.append_cancel_right (hlist _ h))

/-! ### Endings -/

/-- Behind `earlier`, these lines end a section at the last of them, and not before. -/
inductive EndsIn (kind : SectionKind) (closing : Closing) : String → List String → Prop where
  | last {earlier line : String} (hrule : kind.closing? earlier line = some closing) :
    EndsIn kind closing earlier [line]
  | more {earlier line : String} {lines : List String} (hrule : kind.closing? earlier line = none)
    (hrest : EndsIn kind closing (earlier ++ line) lines) :
    EndsIn kind closing earlier (line :: lines)

theorem closing?_of_not_blank {kind : SectionKind} {earlier line : String}
    (hmark : kind = .diagram → earlier ++ line ≠ noLinkageMark) (hline : isBlankLine line = false) :
    kind.closing? earlier line = none := by
  cases kind with
  | diagram => simp [SectionKind.closing?, hmark rfl, hline]
  | constituents => simp [SectionKind.closing?, hline]
  | wordPositions => simp [SectionKind.closing?, hline]

theorem endsIn_of_not_blank {kind : SectionKind} (hkind : kind ≠ .diagram) {lines : List String}
    (hlines : ∀ line ∈ lines, isBlankLine line = false) (earlier : String)
    (hsize : 1 < (earlier ++ String.join lines).utf8ByteSize) :
    EndsIn kind (.text (earlier ++ String.join lines)) earlier (lines ++ ["\n"]) := by
  induction lines generalizing earlier with
  | nil =>
    have hblank : isBlankLine "\n" = true := by decide
    have hjoin : String.join [] = "" := rfl
    rw [hjoin, String.append_empty] at hsize ⊢
    refine .last ?_
    cases kind with
    | diagram => exact absurd rfl hkind
    | constituents => simp [SectionKind.closing?, hblank, hsize]
    | wordPositions => simp [SectionKind.closing?, hblank, hsize]
  | cons line lines ih =>
    obtain ⟨hline, hlines⟩ := List.forall_mem_cons.mp hlines
    rw [String.join_cons, ← String.append_assoc] at hsize ⊢
    refine .more ?_ (ih hlines (earlier ++ line) hsize)
    exact closing?_of_not_blank (fun h => absurd h hkind) hline

theorem append_ne_mark {earlier : String} (h : earlier.toList.head? = some '\n') (line : String) :
    earlier ++ line ≠ noLinkageMark := by
  intro heq
  have hmark : noLinkageMark.toList.head? = some 'C' := by decide
  rw [← heq, String.toList_append, List.head?_append, h] at hmark
  cases hmark

theorem endsIn_diagram {lines : List String} (hlines : ∀ line ∈ lines, isBlankLine line = false)
    {earlier : String} (hfirst : earlier.toList.head? = some '\n')
    (hsize : 1 < (earlier ++ String.join lines).utf8ByteSize) :
    EndsIn .diagram (.text (earlier ++ String.join lines ++ "\n")) earlier (lines ++ ["\n"]) := by
  induction lines generalizing earlier with
  | nil =>
    have hblank : isBlankLine "\n" = true := by decide
    have hone : "\n".utf8ByteSize = 1 := by decide
    have hjoin : String.join [] = "" := rfl
    have hmark := append_ne_mark hfirst "\n"
    rw [hjoin, String.append_empty] at hsize ⊢
    refine .last ?_
    simp [SectionKind.closing?, hmark, hblank, String.utf8ByteSize_append, hone, hsize]
  | cons line lines ih =>
    obtain ⟨hline, hlines⟩ := List.forall_mem_cons.mp hlines
    have hlonger : (earlier ++ line).toList.head? = some '\n' := by
      rw [String.toList_append, List.head?_append, hfirst]
      rfl
    rw [String.join_cons, ← String.append_assoc] at hsize ⊢
    refine .more ?_ (ih hlines hlonger hsize)
    exact closing?_of_not_blank (fun _ => append_ne_mark hfirst line) hline

end LinkageCheck
