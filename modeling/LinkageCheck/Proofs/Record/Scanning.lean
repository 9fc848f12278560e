import LinkageCheck.Proofs.Record.Lines
import LinkageCheck.Proofs.Traversal
import Mathlib.Order.Bounds.Basic

/-! The scanner cuts a file behind its line feeds and reads every piece on its own. No byte is lost,
and as to UTF-8 the pieces fare as the file does. -/

namespace LinkageCheck

open Text (Utf8.Valid Utf8.encode Utf8.decode)

def linePieces (content : List UInt8) : List (List UInt8) := Text.cutAfter (· == 10) content

/-- The pieces make up the content, and a line feed ends each of them but perhaps the last. -/
structure CutAtLineFeeds (content : List UInt8) (pieces : List (List UInt8)) : Prop where
  flatten : pieces.flatten = content
  unbroken : ∀ piece ∈ pieces, piece ≠ [] ∧ 10 ∉ piece.dropLast
  ended : ∀ piece ∈ pieces.dropLast, piece.getLast? = some 10

theorem ended_of_linePieces {content : List UInt8} {before after : List (List UInt8)}
    (h : linePieces content = before ++ after) (hafter : after ≠ []) :
    ∀ piece ∈ before, ∃ init, piece = init ++ [10] := by
  intro piece hpiece
  obtain ⟨first, later, rfl⟩ := List.append_of_mem hpiece
  rw [List.append_assoc, List.cons_append] at h
  have hrest : later ++ after ≠ [] := List.append_ne_nil_of_right_ne_nil _ hafter
  obtain ⟨init, b, rfl, hb⟩ := Text.cutAfter_terminated first h hrest
  exact ⟨init, by rw [eq_of_beq hb]⟩

theorem cutAtLineFeeds_linePieces (content : List UInt8) :
    CutAtLineFeeds content (linePieces content) where
  flatten := Text.flatten_cutAfter _ content
  unbroken := by
    intro piece hpiece
    obtain ⟨hne, hunbroken⟩ := Text.unbroken_of_mem_cutAfter piece hpiece
    exact ⟨hne, fun hten => absurd (hunbroken 10 hten) (by decide)⟩
  ended := by
    intro piece hpiece
    have hne : linePieces content ≠ [] := by
      intro hnil
      rw [hnil] at hpiece
      cases hpiece
    have hsplit := (List.dropLast_append_getLast hne).symm
    obtain ⟨init, rfl⟩ := ended_of_linePieces hsplit (List.cons_ne_nil _ _) piece hpiece
    rw [List.getLast?_concat]

theorem getElem?_scan (content : List UInt8) (i : Nat) :
    (scan content)[i]? = (linePieces content)[i]?.map (Line.ofBytes (i + 1)) := by
  rw [scan, getElem?_scanFrom, Nat.add_comm]
  rfl

theorem ofBytes_eq_ok_iff {number : Nat} {piece : List UInt8} {l : Line} (hne : piece ≠ []) :
    Line.ofBytes number piece = .ok l ↔ l.number = number ∧
      ∃ c, Opcode.ofChar? c = some l.opcode ∧ piece = Utf8.encode (c :: l.text.toList) := by
  constructor
  · intro h
    obtain ⟨cs, hdecode, hopcode, htext⟩ := ofBytes_eq_ok h
    have hpiece := Text.Utf8.decode_eq_ok_iff.mp hdecode
    have hnumber : itemNumber (.ok l) = number := by rw [← h, itemNumber_ofBytes]
    cases cs with
    | nil => exact absurd hpiece hne
    | cons c cs =>
      rw [htext, String.toList_ofList, List.tail_cons]
      exact ⟨hnumber, c, hopcode, hpiece⟩
  · rintro ⟨hnumber, c, hopcode, hpiece⟩
    rw [Line.ofBytes, Text.Utf8.decode_eq_ok_iff.mpr hpiece]
    simp only [Line.ofChars, List.headD_cons, hopcode, List.tail_cons, String.ofList_toList]
    rw [← hnumber]

theorem undecodable_ofBytes_iff {number : Nat} {piece : List UInt8} :
    (∃ fault, Line.ofBytes number piece = .error ⟨number, .undecodable fault⟩) ↔
      ¬ Utf8.Valid piece := by
  rw [Text.Utf8.valid_iff]
  unfold Line.ofBytes
  cases hdecode : Utf8.decode piece with
  | error fault => simp
  | ok cs =>
    have hread : ∀ fault, Line.ofChars number cs ≠ .error ⟨number, .undecodable fault⟩ := by
      intro fault
      simp only [Line.ofChars]
      split <;> simp
    simpa using hread

theorem scan_partitions (content : List UInt8) :
    CutAtLineFeeds content (linePieces content)
      ∧ (scan content).length = (linePieces content).length
      ∧ ∀ i piece item, (linePieces content)[i]? = some piece → (scan content)[i]? = some item →
        itemNumber item = i + 1
          ∧ ((∃ l, item = .ok l) ↔
            ∃ c cs, piece = Utf8.encode (c :: cs) ∧ (Opcode.ofChar? c).isSome)
          ∧ ∀ l, item = .ok l →
            ∃ c, piece = Utf8.encode (c :: l.text.toList) ∧ Opcode.ofChar? c = some l.opcode := by
  have hcut := cutAtLineFeeds_linePieces content
  refine ⟨hcut, length_scanFrom _ 1, fun i piece item hpiece hitem => ?_⟩
  have hne : piece ≠ [] := (hcut.unbroken piece (List.mem_of_getElem? hpiece)).1
  have hread : Line.ofBytes (i + 1) piece = item := by
    rw [getElem?_scan, hpiece] at hitem
    exact Option.some.inj hitem
  have hline (l : Line) : item = .ok l ↔ l.number = i + 1 ∧
      ∃ c, Opcode.ofChar? c = some l.opcode ∧ piece = Utf8.encode (c :: l.text.toList) := by
    rw [← hread, ofBytes_eq_ok_iff hne]
  refine ⟨itemNumber_scan hitem, ⟨?_, ?_⟩, fun l hl => ?_⟩
  · rintro ⟨l, hl⟩
    obtain ⟨-, c, hopcode, hbytes⟩ := (hline l).mp hl
    exact ⟨c, l.text.toList, hbytes, by rw [hopcode, Option.isSome_some]⟩
  · rintro ⟨c, cs, hbytes, hopcode⟩
    obtain ⟨opcode, hopcode⟩ := Option.isSome_iff_exists.mp hopcode
    refine ⟨⟨i + 1, opcode, String.ofList cs⟩, (hline _).mpr ⟨rfl, c, hopcode, ?_⟩⟩
    rw [hbytes, String.toList_ofList]
  · obtain ⟨-, c, hopcode, hbytes⟩ := (hline l).mp hl
    exact ⟨c, hbytes, hopcode⟩

/-! ### Decoding -/

theorem valid_linePieces_iff (content : List UInt8) :
    (∀ piece ∈ linePieces content, Utf8.Valid piece) ↔ Utf8.Valid content := by
  have hflatten := (cutAtLineFeeds_linePieces content).flatten
  rcases List.eq_nil_or_concat' (linePieces content) with hnil | ⟨before, last, hsplit⟩
  · have hcontent : content = [] := by rw [← hflatten, hnil, List.flatten_nil]
    rw [hnil, hcontent]
    exact ⟨fun _ => Text.Utf8.valid_nil, fun _ piece hpiece => absurd hpiece List.not_mem_nil⟩
  · have hended := ended_of_linePieces hsplit (List.cons_ne_nil _ _)
    have hcontent : content = before.flatten ++ last := by
      rw [← hflatten, hsplit, List.flatten_concat]
    rw [hsplit, List.forall_mem_append, List.forall_mem_singleton, hcontent,
      Text.Utf8.valid_flatten_append_iff hended]

theorem decode_of_mapM {content : List UInt8} {css : List (List Char)}
    (h : (linePieces content).mapM Utf8.decode = .ok css) :
    Utf8.decode content = .ok css.flatten := by
  have hpieces : linePieces content = css.map Utf8.encode := by
    rw [mapM_eq_ok_iff] at h
    simp only [Text.Utf8.decode_eq_ok_iff] at h
    rwa [← List.forall₂_map_right_iff, List.forall₂_eq_eq_eq] at h
  rw [Text.Utf8.decode_eq_ok_iff, Text.Utf8.encode_flatten, ← hpieces,
    (cutAtLineFeeds_linePieces content).flatten]

theorem decode_linePieces_iff {content : List UInt8} {cs : List Char} :
    Utf8.decode content = .ok cs ↔
      ∃ css, (linePieces content).mapM Utf8.decode = .ok css ∧ cs = css.flatten := by
  constructor
  · intro h
    have hvalid := (valid_linePieces_iff content).mpr (Text.Utf8.valid_iff.mpr ⟨cs, h⟩)
    simp only [Text.Utf8.valid_iff] at hvalid
    obtain ⟨css, hcss⟩ := exists_mapM_eq_ok_iff.mpr hvalid
    exact ⟨css, hcss, Except.ok.inj (h.symm.trans (decode_of_mapM hcss))⟩
  · rintro ⟨css, hcss, rfl⟩
    exact decode_of_mapM hcss

theorem undecodable_scan_iff {content : List UInt8} {n : Nat} :
    (∃ fault, .error ⟨n, .undecodable fault⟩ ∈ scan content) ↔
      ∃ i piece, n = i + 1 ∧ (linePieces content)[i]? = some piece ∧ ¬ Utf8.Valid piece := by
  constructor
  · rintro ⟨fault, hmem⟩
    obtain ⟨i, hi⟩ := List.mem_iff_getElem?.mp hmem
    obtain rfl : n = i + 1 := itemNumber_scan hi
    rw [getElem?_scan, Option.map_eq_some_iff] at hi
    obtain ⟨piece, hpiece, hread⟩ := hi
    exact ⟨i, piece, rfl, hpiece, undecodable_ofBytes_iff.mp ⟨fault, hread⟩⟩
  · rintro ⟨i, piece, rfl, hpiece, hinvalid⟩
    obtain ⟨fault, hread⟩ := undecodable_ofBytes_iff.mpr hinvalid
    have hitem : (scan content)[i]? = some (.error ⟨i + 1, .undecodable fault⟩) := by
      rw [getElem?_scan, hpiece, Option.map_some, hread]
    exact ⟨fault, List.mem_of_getElem? hitem⟩

section FirstInvalid

variable {content : List UInt8} {before after : List (List UInt8)} {piece : List UInt8}

theorem isLeast_undecodable (hsplit : linePieces content = before ++ piece :: after)
    (hbefore : ∀ b ∈ before, Utf8.Valid b) (hpiece : ¬ Utf8.Valid piece) :
    IsLeast {n | ∃ fault, .error ⟨n, .undecodable fault⟩ ∈ scan content} (before.length + 1) := by
  constructor
  · have hat : (linePieces content)[before.length]? = some piece := by
      rw [hsplit, List.getElem?_append_right le_rfl, Nat.sub_self, List.getElem?_cons_zero]
    exact undecodable_scan_iff.mpr ⟨before.length, piece, rfl, hat, hpiece⟩
  · intro n hn
    obtain ⟨i, found, rfl, hfound, hinvalid⟩ := undecodable_scan_iff.mp hn
    by_contra hlt
    have hi : i < before.length := by omega
    rw [hsplit, List.getElem?_append_left hi] at hfound
    exact hinvalid (hbefore found (List.mem_of_getElem? hfound))

theorem longest_valid_within (hsplit : linePieces content = before ++ piece :: after)
    (hbefore : ∀ b ∈ before, Utf8.Valid b) (hpiece : ¬ Utf8.Valid piece) {k : Nat}
    (hk : IsGreatest {k | k ≤ content.length ∧ Utf8.Valid (content.take k)} k) :
    before.flatten.length ≤ k ∧ k < before.flatten.length + piece.length := by
  have hcontent : content = before.flatten ++ (piece ++ after.flatten) := by
    rw [← (cutAtLineFeeds_linePieces content).flatten, hsplit, List.flatten_append,
      List.flatten_cons]
  have hended := ended_of_linePieces hsplit (List.cons_ne_nil _ _)
  constructor
  · have hvalid : Utf8.Valid (before.flatten ++ []) :=
      (Text.Utf8.valid_flatten_append_iff hended).mpr ⟨hbefore, Text.Utf8.valid_nil⟩
    rw [List.append_nil] at hvalid
    refine hk.2 ⟨?_, ?_⟩
    · rw [hcontent, List.length_append]
      exact Nat.le_add_right _ _
    · rwa [hcontent, List.take_left]
  · by_contra hlt
    have hle : before.flatten.length + piece.length ≤ k := Nat.le_of_not_lt hlt
    have hvalid := hk.1.2
    rw [hcontent, List.take_append, List.take_of_length_le (by omega), List.take_append,
      List.take_of_length_le (by omega), Text.Utf8.valid_flatten_append_iff hended] at hvalid
    -- behind the piece there is nothing, or a line feed ends it
    cases after with
    | nil =>
      rw [List.flatten_nil, List.take_nil, List.append_nil] at hvalid
      exact hpiece hvalid.2
    | cons next later =>
      have hsplit' : linePieces content = (before ++ [piece]) ++ next :: later := by
        rw [hsplit, List.append_assoc, List.singleton_append]
      have hpieceEnded := ended_of_linePieces hsplit' (List.cons_ne_nil _ _) piece
        (List.mem_append_right _ (List.mem_singleton_self _))
      exact hpiece ((Text.Utf8.valid_append_iff hpieceEnded).mp hvalid.2).1

end FirstInvalid

/-- The longest part at the front of the content that is UTF-8 ends in `piece`, and this is the
first line reported as undecodable. -/
structure StopsIn (content : List UInt8) (before : List (List UInt8)) (piece : List UInt8)
    (after : List (List UInt8)) (k : Nat) : Prop where
  longest : IsGreatest {k | k ≤ content.length ∧ Utf8.Valid (content.take k)} k
  pieces : linePieces content = before ++ piece :: after
  within : before.flatten.length ≤ k ∧ k < before.flatten.length + piece.length
  reported : IsLeast {n | ∃ fault, .error ⟨n, .undecodable fault⟩ ∈ scan content}
    (before.length + 1)

theorem scan_decodes (content : List UInt8) :
    ((∀ piece ∈ linePieces content, Utf8.Valid piece) ↔ Utf8.Valid content)
      ∧ (∀ cs, Utf8.decode content = .ok cs ↔
        ∃ css, (linePieces content).mapM Utf8.decode = .ok css ∧ cs = css.flatten)
      ∧ (¬ Utf8.Valid content → ∃ before piece after k, StopsIn content before piece after k) := by
  refine ⟨valid_linePieces_iff content, fun cs => decode_linePieces_iff, fun hinvalid => ?_⟩
  obtain ⟨k, hk⟩ := Text.Utf8.exists_longest_valid content
  rw [← valid_linePieces_iff] at hinvalid
  obtain ⟨before, piece, after, hsplit, hbefore, hpiece⟩ := exists_first_of_not_forall hinvalid
  exact ⟨before, piece, after, k, hk, hsplit, longest_valid_within hsplit hbefore hpiece hk,
    isLeast_undecodable hsplit hbefore hpiece⟩

theorem scan_decodes_cutCharacter :
    ¬ Utf8.Valid [73, 10, 73, 0xe2, 0x82, 10, 0xac]
      ∧ ∃ before piece after k,
        StopsIn [73, 10, 73, 0xe2, 0x82, 10, 0xac] before piece after k := by
  have hinvalid : ¬ Utf8.Valid [73, 10, 73, 0xe2, 0x82, 10, 0xac] := by
    rw [Text.Utf8.valid_iff]
    rintro ⟨cs, hdecode⟩
    cases hdecode
  exact ⟨hinvalid, (scan_decodes _).2.2 hinvalid⟩

end LinkageCheck
