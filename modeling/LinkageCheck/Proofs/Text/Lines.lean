import LinkageCheck.Text.Basic

/-! Facts on cutting a list after each terminator. -/

namespace LinkageCheck.Text

variable {α : Type} {p : α → Bool}

theorem cutAfter_terminated {as : List α} (before : List (List α)) {piece : List α}
    {after : List (List α)} (h : cutAfter p as = before ++ piece :: after) (hafter : after ≠ []) :
    ∃ init a, piece = init ++ [a] ∧ p a = true := by
  induction as generalizing before piece with
  | nil => exact absurd h.symm (List.append_ne_nil_of_right_ne_nil _ (List.cons_ne_nil _ _))
  | cons a as ih =>
    rw [cutAfter] at h
    split at h
    · next ha =>
      rcases before with _ | ⟨b, before⟩
      · obtain ⟨rfl, -⟩ := List.cons.inj h
        exact ⟨[], a, rfl, ha⟩
      · exact ih before (List.cons.inj h).2
    · next ha =>
      rcases hrest : cutAfter p as with _ | ⟨first, rest⟩
      · rw [hrest] at h
        rcases before with _ | ⟨b, before⟩
        · exact absurd (List.cons.inj h).2.symm hafter
        · exact absurd (List.cons.inj h).2.symm
            (List.append_ne_nil_of_right_ne_nil _ (List.cons_ne_nil _ _))
      · rw [hrest] at h
        rcases before with _ | ⟨b, before⟩
        · obtain ⟨hpiece, hlater⟩ := List.cons.inj h
          obtain ⟨init, c, rfl, hc⟩ := ih [] (hrest.trans (by rw [hlater]; rfl))
          exact ⟨a :: init, c, hpiece.symm, hc⟩
        · have hlater := (List.cons.inj h).2
          exact ih (first :: before) (by rw [hrest, hlater]; rfl)

def Terminated (p : α → Bool) (piece : List α) : Prop :=
  ∃ init a, piece = init ++ [a] ∧ p a = true ∧ ∀ x ∈ init, p x = false

theorem cutAfter_terminated_append {piece : List α} (h : Terminated p piece) (as : List α) :
    cutAfter p (piece ++ as) = piece :: cutAfter p as := by
  obtain ⟨init, a, rfl, ha, hinit⟩ := h
  induction init with
  | nil =>
    rw [List.nil_append, List.singleton_append, cutAfter, if_pos ha]
  | cons x init ih =>
    obtain ⟨hx, hinit⟩ := List.forall_mem_cons.mp hinit
    rw [List.cons_append, List.cons_append, cutAfter, if_neg (by rw [hx]; exact Bool.false_ne_true),
      ih hinit]

theorem cutAfter_flatten_append {pieces : List (List α)}
    (h : ∀ piece ∈ pieces, Terminated p piece) (as : List α) :
    cutAfter p (pieces.flatten ++ as) = pieces ++ cutAfter p as := by
  induction pieces with
  | nil => rfl
  | cons piece pieces ih =>
    obtain ⟨hpiece, hpieces⟩ := List.forall_mem_cons.mp h
    rw [List.flatten_cons, List.append_assoc, cutAfter_terminated_append hpiece, ih hpieces,
      List.cons_append]

theorem cutAfter_flatten {pieces : List (List α)} (h : ∀ piece ∈ pieces, Terminated p piece) :
    cutAfter p pieces.flatten = pieces := by
  have hcut := cutAfter_flatten_append h []
  rwa [List.append_nil, cutAfter, List.append_nil] at hcut

theorem flatten_cutAfter (p : α → Bool) (as : List α) : (cutAfter p as).flatten = as := by
  induction as with
  | nil => rfl
  | cons a as ih =>
    rw [cutAfter]
    split
    · rw [List.flatten_cons, ih, List.singleton_append]
    · rcases hrest : cutAfter p as with _ | ⟨piece, pieces⟩
      · rw [hrest] at ih
        rw [← ih]
        rfl
      · rw [hrest, List.flatten_cons] at ih
        rw [List.flatten_cons, List.cons_append, ih]

theorem unbroken_of_mem_cutAfter {as : List α} :
    ∀ piece ∈ cutAfter p as, piece ≠ [] ∧ ∀ x ∈ piece.dropLast, p x = false := by
  induction as with
  | nil => exact fun piece hpiece => absurd hpiece List.not_mem_nil
  | cons a as ih =>
    have hsingle : [a] ≠ [] ∧ ∀ x ∈ [a].dropLast, p x = false :=
      ⟨List.cons_ne_nil _ _, fun x hx => absurd hx List.not_mem_nil⟩
    rw [cutAfter]
    by_cases ha : p a = true
    · rw [if_pos ha]
      exact List.forall_mem_cons.mpr ⟨hsingle, ih⟩
    · rw [if_neg ha]
      rcases hrest : cutAfter p as with _ | ⟨piece, pieces⟩
      · exact List.forall_mem_singleton.mpr hsingle
      · rw [hrest] at ih
        obtain ⟨⟨hpiece, hunbroken⟩, hpieces⟩ := List.forall_mem_cons.mp ih
        refine List.forall_mem_cons.mpr ⟨⟨List.cons_ne_nil _ _, ?_⟩, hpieces⟩
        rw [List.dropLast_cons_of_ne_nil hpiece]
        exact List.forall_mem_cons.mpr ⟨Bool.eq_false_iff.mpr ha, hunbroken⟩

theorem terminated_of_mem_cutAfter {as : List α} (h : ∀ a ∈ as.getLast?, p a = true) :
    ∀ piece ∈ cutAfter p as, Terminated p piece := by
  induction as with
  | nil => exact fun piece hpiece => absurd hpiece List.not_mem_nil
  | cons a as ih =>
    have htail : ∀ b ∈ as.getLast?, p b = true := by
      intro b hb
      apply h b
      rw [List.getLast?_cons, hb]
      exact rfl
    rw [cutAfter]
    by_cases ha : p a = true
    · rw [if_pos ha]
      refine List.forall_mem_cons.mpr ⟨⟨[], a, rfl, ha, ?_⟩, ih htail⟩
      exact fun x hx => absurd hx List.not_mem_nil
    · rw [if_neg ha]
      rcases hrest : cutAfter p as with _ | ⟨piece, pieces⟩
      · have has : as = [] := by
          rw [← flatten_cutAfter p as, hrest, List.flatten_nil]
        rw [has] at h
        exact absurd (h a rfl) ha
      · rw [hrest] at ih
        obtain ⟨⟨init, b, hpiece, hb, hinit⟩, hpieces⟩ := List.forall_mem_cons.mp (ih htail)
        refine List.forall_mem_cons.mpr ⟨⟨a :: init, b, ?_, hb, ?_⟩, hpieces⟩
        · rw [hpiece, List.cons_append]
        · exact List.forall_mem_cons.mpr ⟨Bool.eq_false_iff.mpr ha, hinit⟩

theorem cutAfter_append {as : List α} (h : ∀ a ∈ as.getLast?, p a = true) (bs : List α) :
    cutAfter p (as ++ bs) = cutAfter p as ++ cutAfter p bs := by
  have hcut := cutAfter_flatten_append (terminated_of_mem_cutAfter h) bs
  rwa [flatten_cutAfter] at hcut

/-! ### Line ends -/

theorem dropLineEnd_append {cs : List Char} (h : cs.getLast? ≠ some '\r') :
    dropLineEnd (cs ++ ['\n']) = cs := by
  induction cs with
  | nil => rfl
  | cons c cs ih =>
    cases cs with
    | nil =>
      have hc : c ≠ '\r' := by simpa using h
      simp [dropLineEnd, hc]
    | cons d cs =>
      rw [List.getLast?_cons_cons] at h
      have hrest := ih h
      rw [List.cons_append] at hrest ⊢
      rw [List.cons_append, dropLineEnd, hrest]
      · simp
      · simp

end LinkageCheck.Text
