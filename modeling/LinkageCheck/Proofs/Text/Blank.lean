import LinkageCheck.Text.Basic
import Mathlib.Data.List.DropRight

/-! Facts on dropping a tail of a list, and on trimming a text. -/

namespace LinkageCheck.Text

section DropTail

variable {α : Type} {p : α → Bool}

theorem dropTail_eq_rdropWhile (p : α → Bool) (as : List α) :
    dropTail p as = as.rdropWhile p := rfl

theorem exists_dropTail_append (p : α → Bool) (as : List α) :
    ∃ tail, as = dropTail p as ++ tail ∧ ∀ a ∈ tail, p a = true :=
  ⟨as.rtakeWhile p, by rw [dropTail_eq_rdropWhile, List.rdropWhile_append_rtakeWhile],
    fun _ => List.mem_rtakeWhile_imp⟩

theorem getLast?_dropTail {as : List α} : ∀ a ∈ (dropTail p as).getLast?, p a = false := by
  rw [dropTail_eq_rdropWhile]
  intro a ha
  obtain ⟨hne, rfl⟩ := List.mem_getLast?_eq_getLast ha
  exact Bool.eq_false_iff.mpr (List.rdropWhile_last_not p as hne)

theorem mem_of_mem_dropTail {a : α} {as : List α} (h : a ∈ dropTail p as) : a ∈ as := by
  rw [dropTail_eq_rdropWhile] at h
  exact (List.rdropWhile_prefix p as).subset h

theorem mem_dropTail {a : α} {as : List α} (h : a ∈ as) (ha : p a = false) :
    a ∈ dropTail p as := by
  obtain ⟨tail, hsplit, htail⟩ := exists_dropTail_append p as
  rw [hsplit] at h
  refine (List.mem_append.mp h).resolve_right fun hdropped => ?_
  exact Bool.eq_false_iff.mp ha (htail a hdropped)

theorem dropTail_append {init tail : List α} (hinit : ∀ a ∈ init.getLast?, p a = false)
    (htail : ∀ a ∈ tail, p a = true) : dropTail p (init ++ tail) = init := by
  have hkept : init.rdropWhile p = init := List.rdropWhile_eq_self_iff.mpr fun hne =>
    Bool.eq_false_iff.mp (hinit _ (List.getLast_mem_getLast? hne))
  rw [dropTail, List.reverse_append, List.dropWhile_append_of_pos (by simpa using htail)]
  exact hkept

theorem dropTail_eq_nil {as : List α} (h : ∀ a ∈ as, p a = true) : dropTail p as = [] := by
  rw [dropTail_eq_rdropWhile]
  exact List.rdropWhile_eq_nil_iff.mpr h

theorem getElem?_dropTail {as : List α} {i : Nat} {a : α} (h : as[i]? = some a)
    (ha : p a = false) : (dropTail p as)[i]? = some a := by
  obtain ⟨tail, hsplit, htail⟩ := exists_dropTail_append p as
  rw [hsplit, List.getElem?_append] at h
  split at h
  · exact h
  · have hmem := htail a (List.mem_of_getElem? h)
    rw [ha] at hmem
    cases hmem

theorem dropTail_append_cons {a : α} (h : p a = false) (init tail : List α) :
    dropTail p (init ++ a :: tail) = init ++ a :: dropTail p tail := by
  have ha : (a :: init.reverse).dropWhile p = a :: init.reverse :=
    List.dropWhile_cons_of_neg (Bool.eq_false_iff.mp h)
  rw [dropTail, dropTail, List.reverse_append, List.reverse_cons, List.append_assoc,
    List.singleton_append, List.dropWhile_append, ha]
  split
  · next hnone => simp [List.isEmpty_iff.mp hnone]
  · simp

end DropTail

/-! ### Trimming -/

/-- A text that starts and ends with no blank, between blanks. -/
structure Among (before text after : List Char) : Prop where
  before : ∀ c ∈ before, isBlank c = true
  after : ∀ c ∈ after, isBlank c = true
  first : ∀ c ∈ text.head?, isBlank c = false
  last : ∀ c ∈ text.getLast?, isBlank c = false

theorem trimStart_append {before text : List Char} (hbefore : ∀ c ∈ before, isBlank c = true)
    (hfirst : ∀ c ∈ text.head?, isBlank c = false) : trimStart (before ++ text) = text := by
  unfold trimStart
  rw [List.dropWhile_append_of_pos hbefore]
  cases text with
  | nil => rfl
  | cons c text =>
    have hc : isBlank c = false := hfirst c rfl
    rw [List.dropWhile_cons_of_neg (by simp [hc])]

theorem Among.trim_eq {before text after : List Char} (h : Among before text after) :
    trim (before ++ (text ++ after)) = text := by
  unfold trim trimEnd
  cases text with
  | nil =>
    have hblank : ∀ c ∈ before ++ after, isBlank c = true :=
      List.forall_mem_append.mpr ⟨h.before, h.after⟩
    have hnone := trimStart_append hblank h.first
    rw [List.append_nil] at hnone
    rw [List.nil_append, hnone]
    rfl
  | cons c text =>
    have hkept : trimStart (before ++ (c :: text ++ after)) = c :: text ++ after :=
      trimStart_append h.before h.first
    rw [hkept, dropTail_append h.last h.after]

theorem exists_among_trim (cs : List Char) :
    ∃ before after, cs = before ++ (trim cs ++ after) ∧ Among before (trim cs) after := by
  obtain ⟨after, hsplit, hafter⟩ := exists_dropTail_append isBlank (trimStart cs)
  have hcs : cs.takeWhile isBlank ++ trimStart cs = cs := List.takeWhile_append_dropWhile
  refine ⟨cs.takeWhile isBlank, after, ?_, fun c => List.mem_takeWhile_imp, hafter, ?_,
    getLast?_dropTail⟩
  · conv => lhs; rw [← hcs, hsplit]
    rfl
  · intro c hc
    have hfirst := List.head?_dropWhile_not isBlank cs
    have hhead : (cs.dropWhile isBlank).head? = some c := by
      change (trimStart cs).head? = some c
      rw [hsplit, List.head?_append]
      exact Option.or_eq_some_iff.mpr (.inl hc)
    rwa [hhead] at hfirst

theorem trim_eq_nil_iff {cs : List Char} : trim cs = [] ↔ ∀ c ∈ cs, isBlank c = true := by
  constructor
  · intro h
    obtain ⟨before, after, hsplit, hamong⟩ := exists_among_trim cs
    rw [h, List.nil_append] at hsplit
    rw [hsplit]
    exact List.forall_mem_append.mpr ⟨hamong.before, hamong.after⟩
  · intro h
    have hamong : Among cs [] [] := ⟨h, List.forall_mem_nil _, nofun, nofun⟩
    have htrim := hamong.trim_eq
    rwa [List.nil_append, List.append_nil] at htrim

theorem trim_trimEnd (cs : List Char) : trim (trimEnd cs) = trim cs := by
  obtain ⟨before, after, hsplit, hamong⟩ := exists_among_trim (trimEnd cs)
  obtain ⟨tail, hcs, htail⟩ := exists_dropTail_append isBlank cs
  have hlonger : Among before (trim (trimEnd cs)) (after ++ tail) :=
    ⟨hamong.before, List.forall_mem_append.mpr ⟨hamong.after, htail⟩, hamong.first, hamong.last⟩
  have hwhole : cs = before ++ (trim (trimEnd cs) ++ (after ++ tail)) := by
    conv => lhs; rw [hcs]
    change trimEnd cs ++ tail = _
    conv => lhs; rw [hsplit]
    simp only [List.append_assoc]
  rw [← hlonger.trim_eq, ← hwhole]

/-! ### Trimming at the end -/

section TrimEnd

variable {cs tail : List Char}

theorem trimEnd_of_getLast? (h : ∀ c ∈ cs.getLast?, isBlank c = false) : trimEnd cs = cs := by
  have htrim := dropTail_append h (List.forall_mem_nil fun c => isBlank c = true)
  rwa [List.append_nil] at htrim

theorem trimEnd_trimEnd (cs : List Char) : trimEnd (trimEnd cs) = trimEnd cs :=
  trimEnd_of_getLast? getLast?_dropTail

theorem trimEnd_append_of_ne_nil (h : trimEnd cs ≠ []) (before : List Char) :
    trimEnd (before ++ cs) = before ++ trimEnd cs := by
  obtain ⟨tail, hsplit, htail⟩ := exists_dropTail_append isBlank cs
  have hlast : ∀ c ∈ (before ++ trimEnd cs).getLast?, isBlank c = false := by
    rw [List.getLast?_append_of_ne_nil _ h]
    exact getLast?_dropTail
  conv => lhs; rw [hsplit, ← List.append_assoc]
  exact dropTail_append hlast htail

theorem trimEnd_append_of_blank (cs : List Char) (h : ∀ c ∈ tail, isBlank c = true) :
    trimEnd (cs ++ tail) = trimEnd cs := by
  obtain ⟨dropped, hsplit, hdropped⟩ := exists_dropTail_append isBlank cs
  conv => lhs; rw [hsplit, List.append_assoc]
  exact dropTail_append getLast?_dropTail (List.forall_mem_append.mpr ⟨hdropped, h⟩)

theorem trimEnd_append_of_eq_nil (h : trimEnd cs = []) (before : List Char) :
    trimEnd (before ++ cs) = trimEnd before := by
  obtain ⟨tail, hsplit, htail⟩ := exists_dropTail_append isBlank cs
  have hblank : cs = tail := hsplit.trans (by rw [← trimEnd, h, List.nil_append])
  exact trimEnd_append_of_blank before (hblank ▸ htail)

def blanksAtEnd (cs : List Char) : Nat := (cs.reverse.takeWhile isBlank).length

theorem length_sub_length_trimEnd (cs : List Char) :
    cs.length - (trimEnd cs).length = blanksAtEnd cs := by
  obtain ⟨tail, hsplit, htail⟩ := exists_dropTail_append isBlank cs
  change cs = trimEnd cs ++ tail at hsplit
  have hkept : (trimEnd cs).reverse.takeWhile isBlank = [] := by
    cases hlast : (trimEnd cs).reverse with
    | nil => rfl
    | cons c rest =>
      have hc : isBlank c = false := by
        have hend : c ∈ (trimEnd cs).getLast? := by
          rw [← List.head?_reverse]
          exact congrArg List.head? hlast
        exact getLast?_dropTail c hend
      exact List.takeWhile_cons_of_neg (by rw [hc]; exact Bool.false_ne_true)
  have hblanks : blanksAtEnd cs = tail.length := by
    rw [blanksAtEnd]
    conv => lhs; rw [hsplit, List.reverse_append]
    rw [List.takeWhile_append_of_pos (by simpa using htail), hkept, List.append_nil,
      List.length_reverse]
  have hlength : cs.length = (trimEnd cs).length + tail.length :=
    (congrArg List.length hsplit).trans List.length_append
  omega

end TrimEnd

end LinkageCheck.Text
