import LinkageCheck.Proofs.Text.Utf8
import Mathlib.Data.List.Basic
import Mathlib.Order.Bounds.Basic
import Mathlib.Data.Nat.Find
import Mathlib.Tactic.SplitIfs

/-! Bytes are decoded just if they are the UTF-8 form of some text, which is then the text they are
decoded to. A line feed stands for itself there, so it never cuts another character in two. -/

namespace LinkageCheck.Text.Utf8

/-! ### Three shapes of a sequence -/

section Shapes

variable {n : Nat} {b x y z : UInt8}

theorem toNat_charOfNat (h : n < 0xd800 ∨ 0xdfff < n ∧ n < 0x110000) :
    (Char.ofNat n).toNat = n := by
  have hvalid : n.isValidChar := h
  rw [Char.ofNat, dif_pos hvalid]
  rfl

theorem ofNat_eq_of_toNat (h : n = b.toNat) : UInt8.ofNat n = b := by
  rw [h, UInt8.ofNat_toNat]

theorem encodeChar_one (h : b.toNat < 0x80) :
    String.utf8EncodeChar (Char.ofNat b.toNat) = [b] := by
  have htoNat : (Char.ofNat b.toNat).toNat = b.toNat := toNat_charOfNat (by omega)
  rw [encodeChar_eq, htoNat, if_pos (by omega), UInt8.ofNat_toNat]

theorem encodeChar_two (hb : 0xc2 ≤ b.toNat ∧ b.toNat ≤ 0xdf)
    (hx : 0x80 ≤ x.toNat ∧ x.toNat ≤ 0xbf)
    (hn : n = (b.toNat - 0xc0) * 64 + (x.toNat - 0x80)) :
    String.utf8EncodeChar (Char.ofNat n) = [b, x] := by
  have htoNat : (Char.ofNat n).toNat = n := toNat_charOfNat (by omega)
  have hfirst : UInt8.ofNat (n / 64 % 0x20 + 0xc0) = b := ofNat_eq_of_toNat (by omega)
  have hsecond : UInt8.ofNat (n % 64 + 0x80) = x := ofNat_eq_of_toNat (by omega)
  rw [encodeChar_eq, htoNat, if_neg (by omega), if_pos (by omega), hfirst, hsecond]

theorem encodeChar_three (hb : 0xe0 ≤ b.toNat ∧ b.toNat ≤ 0xef)
    (hx : 0x80 ≤ x.toNat ∧ x.toNat ≤ 0xbf) (hy : 0x80 ≤ y.toNat ∧ y.toNat ≤ 0xbf)
    (hshort : b.toNat = 0xe0 → 0xa0 ≤ x.toNat) (hsurrogate : b.toNat = 0xed → x.toNat ≤ 0x9f)
    (hn : n = ((b.toNat - 0xe0) * 64 + (x.toNat - 0x80)) * 64 + (y.toNat - 0x80)) :
    String.utf8EncodeChar (Char.ofNat n) = [b, x, y] := by
  have htoNat : (Char.ofNat n).toNat = n := toNat_charOfNat (by omega)
  have hfirst : UInt8.ofNat (n / 4096 % 0x10 + 0xe0) = b := ofNat_eq_of_toNat (by omega)
  have hsecond : UInt8.ofNat (n / 64 % 64 + 0x80) = x := ofNat_eq_of_toNat (by omega)
  have hthird : UInt8.ofNat (n % 64 + 0x80) = y := ofNat_eq_of_toNat (by omega)
  rw [encodeChar_eq, htoNat, if_neg (by omega), if_neg (by omega), if_pos (by omega), hfirst,
    hsecond, hthird]

theorem encodeChar_four (hb : 0xf0 ≤ b.toNat ∧ b.toNat ≤ 0xf4)
    (hx : 0x80 ≤ x.toNat ∧ x.toNat ≤ 0xbf) (hy : 0x80 ≤ y.toNat ∧ y.toNat ≤ 0xbf)
    (hz : 0x80 ≤ z.toNat ∧ z.toNat ≤ 0xbf)
    (hshort : b.toNat = 0xf0 → 0x90 ≤ x.toNat) (hlarge : b.toNat = 0xf4 → x.toNat ≤ 0x8f)
    (hn : n = (((b.toNat - 0xf0) * 64 + (x.toNat - 0x80)) * 64 + (y.toNat - 0x80)) * 64
      + (z.toNat - 0x80)) :
    String.utf8EncodeChar (Char.ofNat n) = [b, x, y, z] := by
  have htoNat : (Char.ofNat n).toNat = n := toNat_charOfNat (by omega)
  have hfirst : UInt8.ofNat (n / 262144 % 0x08 + 0xf0) = b := ofNat_eq_of_toNat (by omega)
  have hsecond : UInt8.ofNat (n / 4096 % 64 + 0x80) = x := ofNat_eq_of_toNat (by omega)
  have hthird : UInt8.ofNat (n / 64 % 64 + 0x80) = y := ofNat_eq_of_toNat (by omega)
  have hfourth : UInt8.ofNat (n % 64 + 0x80) = z := ofNat_eq_of_toNat (by omega)
  rw [encodeChar_eq, htoNat, if_neg (by omega), if_neg (by omega), if_neg (by omega), hfirst,
    hsecond, hthird, hfourth]

end Shapes

/-! ### Sequences under way -/

def Continuation (low high : Nat) : List UInt8 → Prop
  | [] => True
  | b :: bs => (low ≤ b.toNat ∧ b.toNat ≤ high) ∧ Continuation 0x80 0xbf bs

def gather (value : Nat) (bs : List UInt8) : Nat :=
  bs.foldl (fun value b => value * 64 + (b.toNat - 0x80)) value

theorem gather_cons {value later : Nat} {b : UInt8}
    (h : value * 64 + (b.toNat - 0x80) = later) (bs : List UInt8) :
    gather value (b :: bs) = gather later bs := by
  unfold gather
  rw [List.foldl_cons, h]

/-- The bytes `read` of a sequence have led here: with any bytes that complete it they are the form
of the character whose bits have then been read. -/
def Progress.Holds (read : List UInt8) : Progress → Prop
  | .boundary => read = []
  | .inside _ missing low high value =>
    missing ≠ 0 ∧ ∀ rest, rest.length = missing → Continuation low high rest →
      String.utf8EncodeChar (Char.ofNat (gather value rest)) = read ++ rest

theorem holds_boundary : Progress.boundary.Holds [] := rfl

theorem holds_lead {b : UInt8} {p : Progress} (h : lead b.toNat = some p) : p.Holds [b] := by
  unfold lead at h
  split_ifs at h with htwo he0 hed hthree hf0 hf4 hfour
  all_goals
    cases h
    refine ⟨by decide, fun rest hlength hrest => ?_⟩
  · obtain ⟨x, rfl⟩ := List.length_eq_one_iff.mp hlength
    exact encodeChar_two htwo hrest.1 rfl
  · obtain ⟨x, y, rfl⟩ := List.length_eq_two.mp hlength
    obtain ⟨hx, hy, -⟩ := hrest
    exact encodeChar_three (by omega) (by omega) hy (fun _ => hx.1) (by omega) (by rw [he0]; rfl)
  · obtain ⟨x, y, rfl⟩ := List.length_eq_two.mp hlength
    obtain ⟨hx, hy, -⟩ := hrest
    exact encodeChar_three (by omega) (by omega) hy (by omega) (fun _ => hx.2) (by rw [hed]; rfl)
  · obtain ⟨x, y, rfl⟩ := List.length_eq_two.mp hlength
    obtain ⟨hx, hy, -⟩ := hrest
    exact encodeChar_three (by omega) hx hy (absurd · he0) (absurd · hed) rfl
  · obtain ⟨x, y, z, rfl⟩ := List.length_eq_three.mp hlength
    obtain ⟨hx, hy, hz, -⟩ := hrest
    exact encodeChar_four (by omega) (by omega) hy hz (fun _ => hx.1) (by omega)
      (by rw [hf0]; rfl)
  · obtain ⟨x, y, z, rfl⟩ := List.length_eq_three.mp hlength
    obtain ⟨hx, hy, hz, -⟩ := hrest
    exact encodeChar_four (by omega) (by omega) hy hz (by omega) (fun _ => hx.2)
      (by rw [hf4]; rfl)
  · obtain ⟨x, y, z, rfl⟩ := List.length_eq_three.mp hlength
    obtain ⟨hx, hy, hz, -⟩ := hrest
    exact encodeChar_four (by omega) hx hy hz (absurd · hf0) (absurd · hf4) rfl

theorem holds_more {read : List UInt8} {seen missing low high value later : Nat} {b : UInt8}
    (h : (Progress.inside seen missing low high value).Holds read)
    (hb : low ≤ b.toNat ∧ b.toNat ≤ high) (hmissing : missing ≠ 1)
    (hlater : value * 64 + (b.toNat - 0x80) = later) :
    (Progress.inside (seen + 1) (missing - 1) 0x80 0xbf later).Holds (read ++ [b]) := by
  obtain ⟨hpositive, hcomplete⟩ := h
  refine ⟨by omega, fun rest hlength hrest => ?_⟩
  have hlonger : (b :: rest).length = missing := by
    rw [List.length_cons, hlength]
    omega
  have hform := hcomplete (b :: rest) hlonger ⟨hb, hrest⟩
  rw [gather_cons hlater] at hform
  rw [hform, List.append_assoc, List.singleton_append]

theorem eq_encode_of_decodeFrom {p : Progress} {read : List UInt8} (hp : p.Holds read)
    {index : Nat} {bs : List UInt8} {cs : List Char} (h : decodeFrom p index bs = .ok cs) :
    read ++ bs = encode cs := by
  -- By induction on the bytes: each one keeps what `Holds` says of those before it.
  induction bs generalizing p read index cs with
  | nil =>
    cases p with
    | boundary =>
      cases h
      rw [show read = [] from hp]
      rfl
    | inside => cases h
  | cons b bs ih =>
    -- a character that is complete leaves the rest of the bytes to be read from the boundary
    have hwhole {c : Char} {next : Nat} (hform : String.utf8EncodeChar c = read ++ [b])
        (hmap : (decodeFrom .boundary next bs).map (c :: ·) = .ok cs) :
        read ++ b :: bs = encode cs := by
      cases hrest : decodeFrom .boundary next bs with
      | error e =>
        rw [hrest] at hmap
        cases hmap
      | ok later =>
        rw [hrest] at hmap
        cases hmap
        have hlater := ih holds_boundary hrest
        rw [encode_cons, hform, ← hlater, List.nil_append, List.append_assoc,
          List.singleton_append]
    cases p with
    | boundary =>
      obtain rfl : read = [] := hp
      rw [decodeFrom] at h
      split_ifs at h with hascii
      · exact hwhole (encodeChar_one hascii) h
      · cases hlead : lead b.toNat with
        | none =>
          rw [hlead] at h
          cases h
        | some p =>
          rw [hlead] at h
          exact ih (holds_lead hlead) h
    | inside seen missing low high value =>
      rw [decodeFrom] at h
      split_ifs at h with hb hlast
      · exact hwhole (hp.2 [b] hlast.symm ⟨hb, trivial⟩) h
      · have hnext := ih (holds_more hp hb hlast rfl) h
        rwa [List.append_assoc, List.singleton_append] at hnext

theorem decode_eq_ok_iff {bytes : List UInt8} {cs : List Char} :
    decode bytes = .ok cs ↔ bytes = encode cs := by
  refine ⟨fun h => eq_encode_of_decodeFrom holds_boundary h, fun h => ?_⟩
  rw [h, decode_encode]

/-! ### Line feeds -/

/-- The bytes are the UTF-8 form of some text. -/
def Valid (bytes : List UInt8) : Prop := ∃ cs, bytes = encode cs

theorem valid_iff {bytes : List UInt8} : Valid bytes ↔ ∃ cs, decode bytes = .ok cs := by
  simp only [Valid, decode_eq_ok_iff]

theorem append_of_not_mem {α : Type} {x : α} {as bs front back : List α} (hx : x ∉ front)
    (h : front ++ back = as ++ x :: bs) : ∃ rest, as = front ++ rest ∧ back = rest ++ x :: bs := by
  rcases List.append_eq_append_iff.mp h with hlonger | ⟨rest, hfront, hback⟩
  · exact hlonger
  · cases rest with
    | nil => exact ⟨[], by rw [hfront, List.append_nil, List.append_nil], hback.symm⟩
    | cons y rest =>
      obtain ⟨rfl, -⟩ := List.cons.inj hback
      have hmem : x ∈ front := by
        rw [hfront]
        exact List.mem_append_right as List.mem_cons_self
      exact absurd hmem hx

theorem exists_of_encode_eq {cs : List Char} {a b : List UInt8} (h : encode cs = a ++ 10 :: b) :
    ∃ before after, cs = before ++ '\n' :: after ∧ a = encode before ∧ b = encode after := by
  induction cs generalizing a with
  | nil => exact absurd h.symm (List.append_ne_nil_of_right_ne_nil _ (List.cons_ne_nil _ _))
  | cons c cs ih =>
    rw [encode_cons] at h
    by_cases hc : c = '\n'
    · subst hc
      cases a with
      | nil => exact ⟨[], cs, rfl, rfl, (List.cons.inj h).2.symm⟩
      | cons first a =>
        obtain ⟨hfirst, hlater⟩ := List.cons.inj h
        obtain ⟨before, after, rfl, rfl, hb⟩ := ih hlater
        exact ⟨'\n' :: before, after, rfl, congrArg (· :: encode before) hfirst.symm, hb⟩
    · obtain ⟨a, rfl, hlater⟩ := append_of_not_mem (lineFeed_not_mem_encodeChar hc) h
      obtain ⟨before, after, rfl, rfl, hb⟩ := ih hlater
      exact ⟨c :: before, after, rfl, (encode_cons c before).symm, hb⟩

theorem valid_append_lineFeed_iff {a b : List UInt8} :
    Valid (a ++ 10 :: b) ↔ Valid a ∧ Valid b := by
  constructor
  · rintro ⟨cs, hcs⟩
    obtain ⟨before, after, -, ha, hb⟩ := exists_of_encode_eq hcs.symm
    exact ⟨⟨before, ha⟩, after, hb⟩
  · rintro ⟨⟨before, rfl⟩, after, rfl⟩
    refine ⟨before ++ '\n' :: after, ?_⟩
    rw [encode_append, encode_cons]
    rfl

theorem valid_nil : Valid [] := ⟨[], rfl⟩

theorem valid_append_iff {piece rest : List UInt8} (h : ∃ init, piece = init ++ [10]) :
    Valid (piece ++ rest) ↔ Valid piece ∧ Valid rest := by
  obtain ⟨init, rfl⟩ := h
  have hpiece : Valid (init ++ [10]) ↔ Valid init := by
    rw [valid_append_lineFeed_iff, and_iff_left valid_nil]
  rw [List.append_assoc, List.singleton_append, valid_append_lineFeed_iff, hpiece]

theorem valid_flatten_append_iff {pieces : List (List UInt8)}
    (h : ∀ piece ∈ pieces, ∃ init, piece = init ++ [10]) {rest : List UInt8} :
    Valid (pieces.flatten ++ rest) ↔ (∀ piece ∈ pieces, Valid piece) ∧ Valid rest := by
  -- By induction on the pieces: the line feed that ends one keeps what is behind it apart.
  induction pieces with
  | nil => simp
  | cons piece pieces ih =>
    obtain ⟨hpiece, hpieces⟩ := List.forall_mem_cons.mp h
    rw [List.flatten_cons, List.append_assoc, valid_append_iff hpiece, ih hpieces,
      List.forall_mem_cons, and_assoc]

theorem exists_longest_valid (bytes : List UInt8) :
    ∃ k, IsGreatest {k | k ≤ bytes.length ∧ Valid (bytes.take k)} k := by
  classical
  let P (k : Nat) : Prop := Valid (bytes.take k)
  have hzero : P 0 := valid_nil
  refine ⟨Nat.findGreatest P bytes.length, ⟨?_, ?_⟩, ?_⟩
  · exact Nat.findGreatest_le bytes.length
  · exact Nat.findGreatest_spec (P := P) (Nat.zero_le bytes.length) hzero
  · rintro k ⟨hk, hvalid⟩
    exact Nat.le_findGreatest (P := P) hk hvalid

theorem decode_lineFeed {bs : List UInt8} {cs : List Char} (h : decode (bs ++ [10]) = .ok cs) :
    ∃ init, cs = init ++ ['\n'] := by
  obtain ⟨before, after, rfl, -, hafter⟩ := exists_of_encode_eq (decode_eq_ok_iff.mp h).symm
  have hnil : decode [] = .ok after := decode_eq_ok_iff.mpr hafter
  cases hnil
  exact ⟨before, rfl⟩

end LinkageCheck.Text.Utf8
