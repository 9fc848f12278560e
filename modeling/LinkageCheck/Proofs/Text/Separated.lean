/-! Lists joined by a separator. A separator that is inside none of them can be found again, so that
the joined list says what was joined. -/

namespace LinkageCheck.Text

variable {α : Type} {a : α}

theorem intercalate_append {sep : List α} {parts : List (List α)} (h : parts ≠ []) :
    List.intercalate sep parts ++ sep = (parts.map (· ++ sep)).flatten := by
  induction parts with
  | nil => exact absurd rfl h
  | cons part parts ih =>
    rcases parts with _ | ⟨next, parts⟩
    · rw [List.intercalate_singleton, List.map_singleton, List.flatten_singleton]
    · rw [List.intercalate_cons_cons, List.append_assoc, ih (List.cons_ne_nil _ _)]
      rfl

theorem mem_intercalate {sep : List α} {parts : List (List α)}
    (h : a ∈ List.intercalate sep parts) : a ∈ sep ∨ ∃ part ∈ parts, a ∈ part := by
  induction parts with
  | nil => exact absurd h List.not_mem_nil
  | cons part parts ih =>
    rcases parts with _ | ⟨next, parts⟩
    · rw [List.intercalate_singleton] at h
      exact .inr ⟨part, List.mem_cons_self, h⟩
    · rw [List.intercalate_cons_cons, List.mem_append, List.mem_append] at h
      rcases h with (h | h) | h
      · exact .inr ⟨part, List.mem_cons_self, h⟩
      · exact .inl h
      · exact (ih h).imp_right fun ⟨later, hlater, ha⟩ => ⟨later, List.mem_cons_of_mem _ hlater, ha⟩

theorem mem_intercalate_of_mem_head {sep part : List α} {parts : List (List α)} (h : a ∈ part) :
    a ∈ List.intercalate sep (part :: parts) := by
  rcases parts with _ | ⟨next, parts⟩
  · rw [List.intercalate_singleton]
    exact h
  · rw [List.intercalate_cons_cons]
    exact List.mem_append_left _ (List.mem_append_left _ h)

theorem eq_of_intercalate_eq [DecidableEq α] {xs ys : List (List α)} (hx : ∀ x ∈ xs, a ∉ x)
    (hy : ∀ y ∈ ys, a ∉ y) (hxs : xs ≠ []) (hys : ys ≠ [])
    (h : [a].intercalate xs = [a].intercalate ys) : xs = ys := by
  rw [← List.splitOn_intercalate a hx hxs, h, List.splitOn_intercalate a hy hys]

theorem eq_of_append_cons_eq {before before' after after' : List α} (h : a ∉ after)
    (h' : a ∉ after') (heq : before ++ a :: after = before' ++ a :: after') :
    before = before' ∧ after = after' := by
  have hnil {mid rest rest' : List α} (hrest : a ∉ rest) (hmid : a :: rest = mid ++ a :: rest') :
      mid = [] := by
    cases mid with
    | nil => rfl
    | cons c mid =>
      rw [List.tail_eq_of_cons_eq hmid] at hrest
      exact absurd (List.mem_append_right mid List.mem_cons_self) hrest
  rcases List.append_eq_append_iff.mp heq with ⟨mid, hbefore, hmid⟩ | ⟨mid, hbefore, hmid⟩
  · obtain rfl := hnil h hmid
    exact ⟨by rw [hbefore, List.append_nil], List.tail_eq_of_cons_eq hmid⟩
  · obtain rfl := hnil h' hmid
    exact ⟨by rw [hbefore, List.append_nil], (List.tail_eq_of_cons_eq hmid).symm⟩

end LinkageCheck.Text
