import LinkageCheck.Text.Utf8
import Mathlib.Tactic.SplitIfs

/-! Facts on decoding UTF-8 byte by byte. -/

namespace LinkageCheck.Text.Utf8

theorem decodeFrom_ascii {b : UInt8} (h : b.toNat < 0x80) (index : Nat) (bs : List UInt8) :
    decodeFrom .boundary index (b :: bs) =
      (decodeFrom .boundary (index + 1) bs).map (Char.ofNat b.toNat :: ·) := by
  rw [decodeFrom, if_pos h]

theorem decodeFrom_lead {b : UInt8} {p : Progress} (h : 0x80 ≤ b.toNat)
    (hlead : lead b.toNat = some p) (index : Nat) (bs : List UInt8) :
    decodeFrom .boundary index (b :: bs) = decodeFrom p index bs := by
  rw [decodeFrom, if_neg (Nat.not_lt.mpr h), hlead]

theorem decodeFrom_more {seen missing low high value : Nat} {b : UInt8}
    (h : low ≤ b.toNat ∧ b.toNat ≤ high) (hmissing : missing ≠ 1) (index : Nat) (bs : List UInt8) :
    decodeFrom (.inside seen missing low high value) index (b :: bs) =
      decodeFrom (.inside (seen + 1) (missing - 1) 0x80 0xbf (value * 64 + (b.toNat - 0x80)))
        index bs := by
  rw [decodeFrom, if_pos h]
  exact if_neg hmissing

theorem decodeFrom_last {seen low high value : Nat} {b : UInt8}
    (h : low ≤ b.toNat ∧ b.toNat ≤ high) (index : Nat) (bs : List UInt8) :
    decodeFrom (.inside seen 1 low high value) index (b :: bs) =
      (decodeFrom .boundary (index + seen + 1) bs).map
        (Char.ofNat (value * 64 + (b.toNat - 0x80)) :: ·) := by
  rw [decodeFrom, if_pos h]
  exact if_pos rfl

theorem lead_two {b : Nat} (h : 0xc2 ≤ b ∧ b ≤ 0xdf) :
    lead b = some (.inside 1 1 0x80 0xbf (b - 0xc0)) := by
  rw [lead, if_pos h]

/-- The second of three bytes keeps clear of shorter forms and of the surrogates. -/
theorem lead_three {b : Nat} (h : 0xe0 ≤ b ∧ b ≤ 0xef) :
    ∃ low high, lead b = some (.inside 1 2 low high (b - 0xe0))
      ∧ ∀ x, 0x80 ≤ x → x ≤ 0xbf → (b = 0xe0 → 0xa0 ≤ x) → (b = 0xed → x ≤ 0x9f) →
        low ≤ x ∧ x ≤ high := by
  by_cases he0 : b = 0xe0
  · exact ⟨0xa0, 0xbf, by rw [he0]; rfl, fun x _ hx hlow _ => ⟨hlow he0, hx⟩⟩
  · by_cases hed : b = 0xed
    · exact ⟨0x80, 0x9f, by rw [hed]; rfl, fun x hx _ _ hhigh => ⟨hx, hhigh hed⟩⟩
    · refine ⟨0x80, 0xbf, ?_, fun x hlow hhigh _ _ => ⟨hlow, hhigh⟩⟩
      rw [lead, if_neg (by omega), if_neg he0, if_neg hed, if_pos (by omega)]

theorem lead_four {b : Nat} (h : 0xf0 ≤ b ∧ b ≤ 0xf4) :
    ∃ low high, lead b = some (.inside 1 3 low high (b - 0xf0))
      ∧ ∀ x, 0x80 ≤ x → x ≤ 0xbf → (b = 0xf0 → 0x90 ≤ x) → (b = 0xf4 → x ≤ 0x8f) →
        low ≤ x ∧ x ≤ high := by
  by_cases hf0 : b = 0xf0
  · exact ⟨0x90, 0xbf, by rw [hf0]; rfl, fun x _ hx hlow _ => ⟨hlow hf0, hx⟩⟩
  · by_cases hf4 : b = 0xf4
    · exact ⟨0x80, 0x8f, by rw [hf4]; rfl, fun x hx _ _ hhigh => ⟨hx, hhigh hf4⟩⟩
    · refine ⟨0x80, 0xbf, ?_, fun x hlow hhigh _ _ => ⟨hlow, hhigh⟩⟩
      rw [lead, if_neg (by omega), if_neg (by omega), if_neg (by omega), if_neg (by omega),
        if_neg hf0, if_neg hf4, if_pos (by omega)]

theorem toNat_ofNat_of_lt {n : Nat} (h : n < 256) : (UInt8.ofNat n).toNat = n :=
  UInt8.toNat_ofNat_of_lt' h

theorem toNat_valid (c : Char) : c.toNat < 0xd800 ∨ 0xdfff < c.toNat ∧ c.toNat < 0x110000 :=
  c.valid

theorem encodeChar_eq (c : Char) : String.utf8EncodeChar c =
    if c.toNat ≤ 0x7f then [UInt8.ofNat c.toNat]
    else if c.toNat ≤ 0x7ff then
      [UInt8.ofNat (c.toNat / 64 % 0x20 + 0xc0), UInt8.ofNat (c.toNat % 64 + 0x80)]
    else if c.toNat ≤ 0xffff then
      [UInt8.ofNat (c.toNat / 4096 % 0x10 + 0xe0), UInt8.ofNat (c.toNat / 64 % 64 + 0x80),
        UInt8.ofNat (c.toNat % 64 + 0x80)]
    else
      [UInt8.ofNat (c.toNat / 262144 % 0x08 + 0xf0), UInt8.ofNat (c.toNat / 4096 % 64 + 0x80),
        UInt8.ofNat (c.toNat / 64 % 64 + 0x80), UInt8.ofNat (c.toNat % 64 + 0x80)] := rfl

theorem decodeFrom_encodeChar (c : Char) (index : Nat) (bs : List UInt8) :
    ∃ next, decodeFrom .boundary index (String.utf8EncodeChar c ++ bs) =
      (decodeFrom .boundary next bs).map (c :: ·) := by
  have hchar : ∀ n, n = c.toNat → Char.ofNat n = c := by
    rintro n rfl
    exact Char.ofNat_toNat c
  have hvalid := toNat_valid c
  have htail : ∀ n, (UInt8.ofNat (n % 64 + 0x80)).toNat = n % 64 + 0x80 := fun n =>
    toNat_ofNat_of_lt (by omega)
  have hcontinues : ∀ n, 0x80 ≤ (UInt8.ofNat (n % 64 + 0x80)).toNat
      ∧ (UInt8.ofNat (n % 64 + 0x80)).toNat ≤ 0xbf := by
    intro n
    rw [htail]
    omega
  rw [encodeChar_eq]
  split_ifs with hone htwo hthree
  · have hb : (UInt8.ofNat c.toNat).toNat = c.toNat := toNat_ofNat_of_lt (by omega)
    refine ⟨index + 1, ?_⟩
    rw [List.singleton_append, decodeFrom_ascii (by omega), hchar _ hb]
  · have hb : (UInt8.ofNat (c.toNat / 64 % 0x20 + 0xc0)).toNat = c.toNat / 64 % 0x20 + 0xc0 :=
      toNat_ofNat_of_lt (by omega)
    have hlead := lead_two (b := (UInt8.ofNat (c.toNat / 64 % 0x20 + 0xc0)).toNat) (by omega)
    refine ⟨index + 1 + 1, ?_⟩
    rw [List.cons_append, List.singleton_append, decodeFrom_lead (by omega) hlead,
      decodeFrom_last (hcontinues c.toNat), hchar]
    rw [hb, htail]
    omega
  · have hb : (UInt8.ofNat (c.toNat / 4096 % 0x10 + 0xe0)).toNat = c.toNat / 4096 % 0x10 + 0xe0 :=
      toNat_ofNat_of_lt (by omega)
    obtain ⟨low, high, hlead, hsecond⟩ :=
      lead_three (b := (UInt8.ofNat (c.toNat / 4096 % 0x10 + 0xe0)).toNat) (by omega)
    have hbetween := hsecond (UInt8.ofNat (c.toNat / 64 % 64 + 0x80)).toNat
      (hcontinues _).1 (hcontinues _).2 (by rw [hb, htail]; omega) (by rw [hb, htail]; omega)
    refine ⟨index + 2 + 1, ?_⟩
    rw [List.cons_append, List.cons_append, List.singleton_append, decodeFrom_lead (by omega) hlead,
      decodeFrom_more hbetween (by decide), decodeFrom_last (hcontinues c.toNat), hchar]
    rw [hb, htail, htail]
    omega
  · have hb : (UInt8.ofNat (c.toNat / 262144 % 0x08 + 0xf0)).toNat =
        c.toNat / 262144 % 0x08 + 0xf0 := toNat_ofNat_of_lt (by omega)
    obtain ⟨low, high, hlead, hsecond⟩ :=
      lead_four (b := (UInt8.ofNat (c.toNat / 262144 % 0x08 + 0xf0)).toNat) (by omega)
    have hbetween := hsecond (UInt8.ofNat (c.toNat / 4096 % 64 + 0x80)).toNat
      (hcontinues _).1 (hcontinues _).2 (by rw [hb, htail]; omega) (by rw [hb, htail]; omega)
    refine ⟨index + 3 + 1, ?_⟩
    rw [List.cons_append, List.cons_append, List.cons_append, List.singleton_append,
      decodeFrom_lead (by omega) hlead, decodeFrom_more hbetween (by decide),
      decodeFrom_more (hcontinues _) (by decide), decodeFrom_last (hcontinues c.toNat), hchar]
    rw [hb, htail, htail, htail]
    omega

theorem encode_cons (c : Char) (cs : List Char) :
    encode (c :: cs) = String.utf8EncodeChar c ++ encode cs := List.flatMap_cons

theorem decode_encode (cs : List Char) : decode (encode cs) = .ok cs := by
  have hfrom : ∀ index, decodeFrom .boundary index (encode cs) = .ok cs := by
    induction cs with
    | nil => exact fun index => rfl
    | cons c cs ih =>
      intro index
      obtain ⟨next, hnext⟩ := decodeFrom_encodeChar c index (encode cs)
      rw [encode_cons, hnext, ih next]
      rfl
  exact hfrom 0

theorem encode_append (cs cs' : List Char) : encode (cs ++ cs') = encode cs ++ encode cs' :=
  List.flatMap_append

theorem encode_flatten (css : List (List Char)) :
    encode css.flatten = (css.map encode).flatten := by
  induction css with
  | nil => rfl
  | cons cs css ih => rw [List.flatten_cons, encode_append, ih, List.map_cons, List.flatten_cons]

theorem lineFeed_not_mem_encodeChar {c : Char} (h : c ≠ '\n') : 10 ∉ String.utf8EncodeChar c := by
  have hten : (10 : UInt8).toNat = 10 := rfl
  have hc : c.toNat ≠ 10 := by
    intro heq
    apply h
    rw [← Char.ofNat_toNat c, heq]
  have hne : ∀ n, n < 256 → n ≠ 10 → (10 : UInt8) ≠ UInt8.ofNat n := by
    intro n hn hne heq
    have := congrArg UInt8.toNat heq
    rw [hten, toNat_ofNat_of_lt hn] at this
    exact hne this.symm
  rw [encodeChar_eq]
  have htail : ∀ n, (10 : UInt8) ≠ UInt8.ofNat (n % 64 + 0x80) := fun n =>
    hne _ (by omega) (by omega)
  split_ifs with hone htwo hthree
  all_goals simp only [List.mem_cons, List.not_mem_nil, or_false, not_or]
  · exact hne _ (by omega) hc
  · exact ⟨hne _ (by omega) (by omega), htail _⟩
  · exact ⟨hne _ (by omega) (by omega), htail _, htail _⟩
  · exact ⟨hne _ (by omega) (by omega), htail _, htail _, htail _⟩

theorem lineFeed_not_mem_encode {cs : List Char} (h : '\n' ∉ cs) : 10 ∉ encode cs := by
  rw [encode, List.mem_flatMap]
  rintro ⟨c, hc, hten⟩
  refine lineFeed_not_mem_encodeChar ?_ hten
  rintro rfl
  exact h hc

end LinkageCheck.Text.Utf8
