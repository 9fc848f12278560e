import LinkageCheck.Linkage.Basic
import LinkageCheck.Proofs.Decimal.Integers
import LinkageCheck.Proofs.Diagram.Drawing
import LinkageCheck.Proofs.Record.Writing
import LinkageCheck.Proofs.Text.Separated

/-! Renderings that can be recorded: written line by line, each of them ends its section at its last
line, and the section has then collected the rendering again. -/

namespace LinkageCheck

/-! ### Diagrams -/

namespace Diagram

theorem textLines_nonempty (d : Diagram) : d.textLines ≠ [] :=
  List.append_ne_nil_of_right_ne_nil _ (List.cons_ne_nil _ _)

theorem render_eq (d : Diagram) :
    d.render.toList = (([] :: d.textLines ++ [[]]).map (· ++ ['\n'])).flatten := by
  have htext : d.text.toList ++ ['\n'] = (d.textLines.map (· ++ ['\n'])).flatten := by
    rw [text, String.toList_ofList, Text.intercalate_append d.textLines_nonempty]
  have hends : ("\n" : String).toList = ['\n'] ∧ ("\n\n" : String).toList = ['\n'] ++ ['\n'] :=
    ⟨by decide, by decide⟩
  rw [render, String.toList_append, String.toList_append, hends.1, hends.2, List.append_assoc,
    ← List.append_assoc d.text.toList, htext, List.map_append, List.map_cons, List.flatten_append,
    List.flatten_cons, List.append_assoc]
  rfl

theorem Plain.pieces_render {d : Diagram} (h : d.Plain) :
    pieces d.render = "\n" :: d.textLines.map lineText ++ ["\n"] := by
  rw [pieces_of_lines d.render_eq]
  · rw [List.map_append, List.map_cons]
    rfl
  · intro line hline
    rcases List.mem_append.mp hline with hline | hline
    · rcases List.mem_cons.mp hline with rfl | hline
      · exact List.not_mem_nil
      · exact fun hc => (h.of_mem_linesBy hline hc).1 rfl
    · rw [List.mem_singleton.mp hline]
      exact List.not_mem_nil

theorem Plain.endsIn_render {d : Diagram} (h : d.Plain) :
    EndsIn .diagram (.text d.render) "" (pieces d.render) := by
  have hjoin := join_pieces d.render
  rw [h.pieces_render] at hjoin ⊢
  have hlines : d.textLines = [[]] ∨ ∀ line ∈ d.textLines, line ≠ [] :=
    linesBy_ne_nil Text.displayWidth d
  rcases hlines with hempty | hfull
  · rw [hempty] at hjoin ⊢
    rw [← hjoin]
    exact .more (by decide) (.more (by decide) (.last (by decide)))
  · have hblank : ∀ line ∈ d.textLines.map lineText, isBlankLine line = false := by
      intro line hline
      obtain ⟨cs, hcs, rfl⟩ := List.mem_map.mp hline
      refine not_isBlankLine (hfull cs hcs) ?_
      rintro rfl
      exact (h.of_mem_linesBy hcs List.mem_cons_self).2 rfl
    rw [List.cons_append, String.join_cons, String.join_append, ← String.append_assoc] at hjoin
    rw [← hjoin]
    refine .more (by decide) (endsIn_diagram hblank rfl ?_)
    have hone : "\n".utf8ByteSize = 1 := by decide
    have hlines : 0 < d.textLines.length := List.length_pos_iff.mpr d.textLines_nonempty
    have hsize := Nat.le_trans hlines (length_le_size_join d.textLines)
    rw [String.utf8ByteSize_append, hone]
    exact Nat.add_lt_add_left hsize 1

end Diagram

/-! ### Word positions -/

namespace PlacedWord

theorem position_eq (word : String) (span : Span) : (position word span).toList =
    word.toList ++ '(' :: (Nat.toDigits 10 span.start ++ ", ".toList
      ++ Nat.toDigits 10 span.stop ++ [')']) := by
  have htoString : ∀ text : String, toString text = text := fun _ => rfl
  simp [position, htoString]

theorem lineFeed_not_mem_position {word : String} (h : '\n' ∉ word.toList) (span : Span) :
    '\n' ∉ (position word span).toList := by
  have hdigits (n : Nat) : '\n' ∉ Nat.toDigits 10 n := Decimal.not_mem_toDigits (by decide)
  rw [position_eq]
  simp [h, hdigits]

theorem paren_mem_position (word : String) (span : Span) : '(' ∈ (position word span).toList := by
  rw [position_eq]
  exact List.mem_append_right _ List.mem_cons_self

end PlacedWord

def positionLine (words : List PlacedWord) (span : PlacedWord → Span) : List Char :=
  List.intercalate [' '] (words.map fun w => (PlacedWord.position w.text (span w)).toList)

theorem positionText_eq (words : List PlacedWord) : (positionText words).toList =
    ([positionLine words (·.chars), positionLine words (·.bytes)].map (· ++ ['\n'])).flatten := by
  have hend : ("\n" : String).toList = ['\n'] := by decide
  have hblank : (" " : String).toList = [' '] := by decide
  rw [positionText, String.toList_append, String.toList_append, String.toList_append,
    String.toList_intercalate, String.toList_intercalate, List.map_map, List.map_map, hend, hblank,
    List.append_assoc, List.map_cons, List.map_singleton, List.flatten_cons, List.flatten_singleton]
  rfl

variable {words : List PlacedWord}

theorem lineFeed_not_mem_positionLine (h : ∀ w ∈ words, '\n' ∉ w.text.toList)
    (span : PlacedWord → Span) : '\n' ∉ positionLine words span := by
  intro hc
  rcases Text.mem_intercalate hc with hc | ⟨line, hline, hc⟩
  · exact absurd hc (by decide)
  · obtain ⟨w, hw, rfl⟩ := List.mem_map.mp hline
    exact PlacedWord.lineFeed_not_mem_position (h w hw) (span w) hc

theorem positionLine_not_blank (h : words ≠ []) (span : PlacedWord → Span) :
    isBlankLine (lineText (positionLine words span)) = false := by
  have hparen : '(' ∈ positionLine words span := by
    obtain ⟨w, words, rfl⟩ := List.exists_cons_of_ne_nil h
    exact Text.mem_intercalate_of_mem_head (PlacedWord.paren_mem_position w.text (span w))
  refine not_isBlankLine (List.ne_nil_of_mem hparen) fun heq => ?_
  rw [heq] at hparen
  exact absurd hparen (by decide)

theorem endsIn_positionText (h : ∀ w ∈ words, '\n' ∉ w.text.toList) :
    EndsIn .wordPositions (.text (positionText words)) ""
      (pieces (positionText words) ++ ["\n"]) := by
  have hpieces : pieces (positionText words) =
      [positionLine words (·.chars), positionLine words (·.bytes)].map lineText := by
    apply pieces_of_lines (positionText_eq words)
    intro line hline
    rcases List.mem_cons.mp hline with rfl | hline
    · exact lineFeed_not_mem_positionLine h _
    · rw [List.mem_singleton.mp hline]
      exact lineFeed_not_mem_positionLine h _
  have hjoin := join_pieces (positionText words)
  by_cases hwords : words = []
  · subst hwords
    exact .more (by decide) (.more (by decide) (.last (by decide)))
  · have hsize := length_le_size_join [positionLine words (·.chars), positionLine words (·.bytes)]
    rw [← hpieces, hjoin] at hsize
    have hlines : ∀ line ∈ pieces (positionText words), isBlankLine line = false := by
      intro line hline
      rw [hpieces] at hline
      rcases List.mem_cons.mp hline with rfl | hline
      · exact positionLine_not_blank hwords _
      · rw [List.mem_singleton.mp hline]
        exact positionLine_not_blank hwords _
    have hkind : SectionKind.wordPositions ≠ .diagram := by decide
    have hends := endsIn_of_not_blank hkind hlines ""
    rw [String.empty_append, hjoin] at hends
    exact hends hsize

/-! ### Constituents -/

theorem endsIn_constituents {text : String}
    (h : ∀ line ∈ pieces (text ++ "\n"), isBlankLine line = false) :
    EndsIn .constituents (.text (text ++ "\n")) "" (pieces (text ++ "\n") ++ ["\n"]) := by
  have htext : text ≠ "" := by
    rintro rfl
    exact absurd (h "\n" (by decide)) (by decide)
  have hsize : 1 < (text ++ "\n").utf8ByteSize := by
    have hone : "\n".utf8ByteSize = 1 := by decide
    have hpos := Nat.pos_of_ne_zero (mt String.utf8ByteSize_eq_zero_iff.mp htext)
    rw [String.utf8ByteSize_append, hone]
    exact Nat.add_lt_add_right hpos 1
  have hkind : SectionKind.constituents ≠ .diagram := by decide
  have hends := endsIn_of_not_blank hkind h ""
  rw [String.empty_append, join_pieces] at hends
  exact hends hsize

/-! ### Linkages -/

section Linkages

variable {α : Type} [Linkage α]

def Linkage.rendering (x : α) : SectionKind → String
  | .diagram => Linkage.diagram x
  | .constituents => Linkage.constituents x
  | .wordPositions => Linkage.positions x

/-- The lines of a section that records a linkage. A diagram ends with a blank line of its own; the
other sections are given one. -/
def Linkage.recorded (x : α) : SectionKind → List String
  | .diagram => pieces (Linkage.diagram x)
  | .constituents => pieces (Linkage.constituents x) ++ ["\n"]
  | .wordPositions => pieces (Linkage.positions x) ++ ["\n"]

/-- Every section collects what its lines were taken from. -/
structure Recordable (x : α) : Prop where
  endsIn : ∀ kind, EndsIn kind (.text (Linkage.rendering x kind)) "" (Linkage.recorded x kind)
  lineEnd : ∀ kind, ∃ text, Linkage.rendering x kind = text ++ "\n"

theorem Recordable.terminated {x : α} (h : Recordable x) {kind : SectionKind} {text : String}
    (htext : text ∈ Linkage.recorded x kind) : Text.Terminated (· == '\n') text.toList := by
  have hend : ("\n" : String).toList = ['\n'] := by decide
  have hpieces : ∀ kind, text ∈ pieces (Linkage.rendering x kind) →
      Text.Terminated (· == '\n') text.toList := by
    intro kind hpiece
    obtain ⟨init, hinit⟩ := h.lineEnd kind
    refine terminated_of_mem_pieces (fun c hc => ?_) hpiece
    rw [hinit, String.toList_append, hend, List.getLast?_concat] at hc
    exact (Option.some.inj hc).symm
  have hbare : text ∈ ["\n"] → Text.Terminated (· == '\n') text.toList := by
    intro hpiece
    rw [List.mem_singleton.mp hpiece]
    exact terminated_blank
  cases kind with
  | diagram => exact hpieces .diagram htext
  | constituents => exact (List.mem_append.mp htext).elim (hpieces .constituents) hbare
  | wordPositions => exact (List.mem_append.mp htext).elim (hpieces .wordPositions) hbare

end Linkages

end LinkageCheck
