import LinkageCheck.Proofs.Text.Utf8

/-! Texts compare by their characters as they do by the bytes of their UTF-8 form. -/

namespace LinkageCheck.Text.Utf8

theorem ofNat_cons_lt {m n : Nat} {xs ys : List UInt8} (hm : m < 256) (hn : n < 256)
    (hle : m ≤ n) (h : m = n → xs < ys) : UInt8.ofNat m :: xs < UInt8.ofNat n :: ys := by
  rw [List.cons_lt_cons_iff]
  rcases Nat.eq_or_lt_of_le hle with heq | hlt
  · exact .inr ⟨congrArg UInt8.ofNat heq, h heq⟩
  · left
    rw [UInt8.lt_iff_toNat_lt, toNat_ofNat_of_lt hm, toNat_ofNat_of_lt hn]
    exact hlt

theorem encodeChar_append_lt {c d : Char} (h : c < d) (xs ys : List UInt8) :
    String.utf8EncodeChar c ++ xs < String.utf8EncodeChar d ++ ys := by
  have hlt : c.toNat < d.toNat := h
  have hc := toNat_valid c
  have hd := toNat_valid d
  rw [encodeChar_eq, encodeChar_eq]
  generalize c.toNat = m at hlt hc
  generalize d.toNat = n at hlt hd
  -- the first byte tells the length, so only sequences of one length share it
  split_ifs
  all_goals simp only [List.cons_append, List.nil_append]
  all_goals refine ofNat_cons_lt (by omega) (by omega) (by omega) fun hfirst => ?_
  all_goals try omega
  all_goals refine ofNat_cons_lt (by omega) (by omega) (by omega) fun hsecond => ?_
  all_goals try omega
  all_goals refine ofNat_cons_lt (by omega) (by omega) (by omega) fun hthird => ?_
  all_goals try omega
  refine ofNat_cons_lt (by omega) (by omega) (by omega) fun hfourth => ?_
  omega

theorem encode_lt_encode {cs ds : List Char} (h : cs < ds) : encode cs < encode ds := by
  induction h with
  | @nil d ds =>
    have hfirst : encode (d :: ds) ≠ [] := by
      rw [encode_cons, encodeChar_eq]
      split_ifs <;> exact List.cons_ne_nil _ _
    obtain ⟨b, bs, hcons⟩ := List.exists_cons_of_ne_nil hfirst
    rw [hcons]
    exact List.nil_lt_cons b bs
  | rel hcd =>
    rw [encode_cons, encode_cons]
    exact encodeChar_append_lt hcd _ _
  | cons _ ih =>
    rw [encode_cons, encode_cons]
    exact List.append_left_lt ih

theorem encode_lt_encode_iff (cs ds : List Char) : encode cs < encode ds ↔ cs < ds := by
  refine ⟨fun h => ?_, encode_lt_encode⟩
  apply Decidable.byContradiction
  intro hnot
  rcases List.le_iff_lt_or_eq.mp (List.not_lt.mp hnot) with hlt | rfl
  · exact List.lt_asymm h (encode_lt_encode hlt)
  · exact List.lt_irrefl _ h

theorem le_iff_not_encode_lt (a b : String) :
    a ≤ b ↔ ¬ encode b.toList < encode a.toList := by
  rw [encode_lt_encode_iff]
  exact String.not_lt.symm

end LinkageCheck.Text.Utf8
