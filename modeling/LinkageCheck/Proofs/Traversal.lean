import Mathlib.Data.List.Forall2

/-! Computations that may fail, and lists of them: such a list succeeds as all its members do, and
fails as the first of them that fails. What a stable sort leaves in place. -/

namespace LinkageCheck

/-! ### One computation after another -/

section Steps

variable {ε ε' α β : Type}

theorem ok_of_bind_ok {x : Except ε α} {f : α → Except ε β} {b : β} (h : x >>= f = .ok b) :
    ∃ a, x = .ok a ∧ f a = .ok b := by
  rcases x with e | a
  · cases h
  · exact ⟨a, rfl, h⟩

theorem bind_eq_error_iff {x : Except ε α} {f : α → Except ε β} {e : ε} :
    x >>= f = .error e ↔ x = .error e ∨ ∃ a, x = .ok a ∧ f a = .error e := by
  rcases x with found | a <;> simp [bind, Except.bind]

theorem ok_of_map_ok {x : Except ε α} {f : α → β} {b : β} (h : x.map f = .ok b) :
    ∃ a, x = .ok a ∧ f a = b := by
  rcases x with e | a
  · cases h
  · exact ⟨a, rfl, Except.ok.inj h⟩

theorem map_eq_error_iff {x : Except ε α} {f : α → β} {e : ε} :
    x.map f = .error e ↔ x = .error e := by
  rcases x with found | a <;> simp [Except.map]

theorem ok_of_mapError_ok {x : Except ε α} {f : ε → ε'} {a : α} (h : x.mapError f = .ok a) :
    x = .ok a := by
  rcases x with e | a'
  · cases h
  · exact congrArg _ (Except.ok.inj h)

end Steps

/-! ### The first of a list -/

section First

variable {α : Type} {Q : α → Prop} {P : List α → α → Prop} {x : α} {xs : List α}

theorem exists_first_nil :
    (∃ before y after, ([] : List α) = before ++ y :: after ∧ (∀ b ∈ before, Q b) ∧ P before y)
      ↔ False := by
  simp

theorem exists_first_cons :
    (∃ before y after, x :: xs = before ++ y :: after ∧ (∀ b ∈ before, Q b) ∧ P before y)
      ↔ P [] x ∨ Q x ∧ ∃ before y after,
          xs = before ++ y :: after ∧ (∀ b ∈ before, Q b) ∧ P (x :: before) y := by
  constructor
  · rintro ⟨before, y, after, hsplit, hbefore, hy⟩
    cases before with
    | nil =>
      cases hsplit
      exact .inl hy
    | cons b before =>
      cases hsplit
      obtain ⟨hx, hbefore⟩ := List.forall_mem_cons.mp hbefore
      exact .inr ⟨hx, before, y, after, rfl, hbefore, hy⟩
  · rintro (hx | ⟨hx, before, y, after, rfl, hbefore, hy⟩)
    · exact ⟨[], x, xs, rfl, fun b hb => absurd hb List.not_mem_nil, hx⟩
    · exact ⟨x :: before, y, after, rfl, List.forall_mem_cons.mpr ⟨hx, hbefore⟩, hy⟩

theorem exists_first_of_not_forall (h : ¬ ∀ x ∈ xs, Q x) :
    ∃ before x after, xs = before ++ x :: after ∧ (∀ b ∈ before, Q b) ∧ ¬ Q x := by
  induction xs with
  | nil => exact absurd (fun x hx => absurd hx List.not_mem_nil) h
  | cons x xs ih =>
    rw [exists_first_cons (P := fun _ y => ¬ Q y)]
    by_cases hx : Q x
    · exact .inr ⟨hx, ih fun hxs => h (List.forall_mem_cons.mpr ⟨hx, hxs⟩)⟩
    · exact .inl hx

end First

/-! ### Traversals -/

section Traversal

variable {ε α β : Type} {f : α → Except ε β} {x : α} {xs : List α}

theorem mapM_eq_ok_iff {ys : List β} :
    xs.mapM f = .ok ys ↔ List.Forall₂ (fun x y => f x = .ok y) xs ys := by
  induction xs generalizing ys with
  | nil =>
    rw [List.mapM_nil, List.forall₂_nil_left_iff]
    exact ⟨fun h => (Except.ok.inj h).symm, fun h => congrArg _ h.symm⟩
  | cons x xs ih =>
    rw [List.mapM_cons]
    constructor
    · intro h
      obtain ⟨y, hy, h⟩ := ok_of_bind_ok h
      obtain ⟨rest, hrest, h⟩ := ok_of_bind_ok h
      cases h
      exact .cons hy (ih.mp hrest)
    · intro h
      cases h with
      | cons hy hrest => rw [hy, ih.mpr hrest]; rfl

theorem exists_of_mem_forall₂ {R : α → β → Prop} {ys : List β} (h : List.Forall₂ R xs ys) {y : β}
    (hy : y ∈ ys) : ∃ x ∈ xs, R x y := by
  induction h with
  | nil => cases hy
  | @cons x first xs ys hx hrest ih =>
    rcases List.mem_cons.mp hy with rfl | hy
    · exact ⟨x, List.mem_cons_self, hx⟩
    · obtain ⟨later, hlater, hfound⟩ := ih hy
      exact ⟨later, List.mem_cons_of_mem x hlater, hfound⟩

theorem exists_of_mem_mapM {ys : List β} (h : xs.mapM f = .ok ys) {y : β} (hy : y ∈ ys) :
    ∃ x ∈ xs, f x = .ok y := exists_of_mem_forall₂ (mapM_eq_ok_iff.mp h) hy

theorem mapM_cons_eq_error_iff {e : ε} :
    (x :: xs).mapM f = .error e ↔ f x = .error e ∨ ∃ y, f x = .ok y ∧ xs.mapM f = .error e := by
  simp only [List.mapM_cons, bind_eq_error_iff, pure, Except.pure, reduceCtorEq, and_false,
    exists_false, or_false]

theorem mapM_eq_error_iff {e : ε} :
    xs.mapM f = .error e ↔ ∃ before x after, xs = before ++ x :: after
      ∧ (∀ b ∈ before, ∃ y, f b = .ok y) ∧ f x = .error e := by
  induction xs with
  | nil =>
    simp only [exists_first_nil, List.mapM_nil, pure, Except.pure, reduceCtorEq]
  | cons x xs ih => rw [mapM_cons_eq_error_iff, ih, exists_first_cons, exists_and_right]

theorem exists_forall₂_iff {R : α → β → Prop} :
    (∃ ys, List.Forall₂ R xs ys) ↔ ∀ x ∈ xs, ∃ y, R x y := by
  induction xs with
  | nil => simp
  | cons x xs ih =>
    rw [List.forall_mem_cons, ← ih]
    constructor
    · rintro ⟨ys, h⟩
      cases h with
      | cons hy hrest => exact ⟨⟨_, hy⟩, _, hrest⟩
    · rintro ⟨⟨y, hy⟩, ys, hrest⟩
      exact ⟨y :: ys, .cons hy hrest⟩

theorem exists_mapM_eq_ok_iff :
    (∃ ys, xs.mapM f = .ok ys) ↔ ∀ x ∈ xs, ∃ y, f x = .ok y := by
  simp only [mapM_eq_ok_iff, exists_forall₂_iff]

theorem forall₂_perm {R : α → β → Prop} {xs' : List α} (h : xs.Perm xs') {ys : List β}
    (hR : List.Forall₂ R xs ys) :
    ∃ ys', List.Forall₂ R xs' ys' ∧ (xs.zip ys).Perm (xs'.zip ys') := by
  induction h generalizing ys with
  | nil => exact ⟨ys, hR, .refl _⟩
  | cons x h ih =>
    cases hR with
    | cons hx hrest =>
      obtain ⟨ys', hys', hperm⟩ := ih hrest
      exact ⟨_ :: ys', .cons hx hys', hperm.cons _⟩
  | swap x x' xs =>
    cases hR with
    | cons hx hrest =>
      cases hrest with
      | cons hx' hrest => exact ⟨_, .cons hx' (.cons hx hrest), .swap _ _ _⟩
  | trans h h' ih ih' =>
    obtain ⟨ys', hys', hperm⟩ := ih hR
    obtain ⟨ys'', hys'', hperm'⟩ := ih' hys'
    exact ⟨ys'', hys'', hperm.trans hperm'⟩

theorem forall₂_filterMap (g : α → Option β) (xs : List α) :
    List.Forall₂ (fun x y => g x = some y) (xs.filter fun x => (g x).isSome) (xs.filterMap g) := by
  induction xs with
  | nil => exact .nil
  | cons x xs ih =>
    rw [List.filter_cons, List.filterMap_cons]
    cases hx : g x with
    | none => exact ih
    | some y => exact .cons hx ih

end Traversal

/-! ### Stable sorts -/

section Stable

variable {α : Type} {le : α → α → Bool}

/-- Members that count as equal to each other keep their order. -/
theorem filter_mergeSort (htrans : ∀ a b c, le a b = true → le b c = true → le a c = true)
    (htotal : ∀ a b, (le a b || le b a) = true) {p : α → Bool}
    (hp : ∀ a b, p a = true → p b = true → le a b = true) (xs : List α) :
    (xs.mergeSort le).filter p = xs.filter p := by
  have hsame : (xs.filter p).Pairwise fun a b => le a b = true := by
    apply List.pairwise_of_forall_mem_list
    intro a ha b hb
    exact hp a b (List.mem_filter.mp ha).2 (List.mem_filter.mp hb).2
  have hkept := (List.sublist_mergeSort htrans htotal hsame List.filter_sublist).filter p
  rw [List.filter_filter] at hkept
  simp only [Bool.and_self] at hkept
  have hperm := (List.mergeSort_perm xs le).filter p
  exact (hkept.eq_of_length hperm.length_eq.symm).symm

end Stable

end LinkageCheck
