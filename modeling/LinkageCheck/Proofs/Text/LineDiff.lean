import LinkageCheck.Text.LineDiff
import Mathlib.Data.List.Basic

/-! A line difference loses nothing. An edit script has the old and the new lines as its two sides,
joining its edits changes neither side, and the changes read off line by line have them still. -/

namespace LinkageCheck.Text.LineDiff

variable {α : Type}

/-! ### Lines with their ends -/

theorem flatten_splitLines (cs : List Char) : (splitLines cs).flatten = cs := by
  fun_induction splitLines cs with
  | case1 => rfl
  | case2 cs ih => rw [List.flatten_cons, ih, List.cons_append, List.singleton_append]
  | case3 c cs _ hc ih => rw [List.flatten_cons, ih, List.singleton_append]
  | case4 c cs _ hc hnone ih =>
    rw [hnone] at ih
    rw [← ih]
    rfl
  | case5 c cs _ hc line lines hlines ih =>
    rw [hlines] at ih
    rw [← ih]
    rfl

theorem unbroken_of_mem_splitLines {cs : List Char} :
    ∀ line ∈ splitLines cs, line ≠ [] ∧ '\n' ∉ line.dropLast := by
  have hsingle (c : Char) : [c] ≠ [] ∧ '\n' ∉ [c].dropLast :=
    ⟨List.cons_ne_nil _ _, List.not_mem_nil⟩
  fun_induction splitLines cs with
  | case1 => exact List.forall_mem_nil _
  | case2 cs ih => exact List.forall_mem_cons.mpr ⟨by decide, ih⟩
  | case3 c cs _ hc ih => exact List.forall_mem_cons.mpr ⟨hsingle c, ih⟩
  | case4 c cs _ hc hnone ih => exact List.forall_mem_singleton.mpr (hsingle c)
  | case5 c cs _ hc line lines hlines ih =>
    rw [hlines] at ih
    obtain ⟨⟨hline, hunbroken⟩, hlater⟩ := List.forall_mem_cons.mp ih
    refine List.forall_mem_cons.mpr ⟨⟨List.cons_ne_nil _ _, ?_⟩, hlater⟩
    have hc' : '\n' ≠ c := fun h => hc (.inl h.symm)
    rw [List.dropLast_cons_of_ne_nil hline]
    exact List.not_mem_cons_of_ne_of_not_mem hc' hunbroken

/-! ### The two sides of an edit script -/

def sides (es : List (Edit α)) : List α × List α := (es.flatMap Edit.old, es.flatMap Edit.new)

section Sides

variable {ls : List α} {es before after : List (Edit α)} {here : Edit α}

@[simp]
theorem sides_nil : sides ([] : List (Edit α)) = ([], []) := rfl

@[simp]
theorem sides_equal_cons :
    sides (.equal ls :: es) = (ls ++ (sides es).1, ls ++ (sides es).2) := rfl

@[simp]
theorem sides_delete_cons : sides (.delete ls :: es) = (ls ++ (sides es).1, (sides es).2) := rfl

@[simp]
theorem sides_insert_cons : sides (.insert ls :: es) = ((sides es).1, ls ++ (sides es).2) := rfl

@[simp]
theorem sides_append (as bs : List (Edit α)) :
    sides (as ++ bs) = ((sides as).1 ++ (sides bs).1, (sides as).2 ++ (sides bs).2) := by
  simp [sides]

theorem sides_filter (es : List (Edit α)) :
    sides (es.filter fun e => !e.lines.isEmpty) = sides es := by
  induction es with
  | nil => rfl
  | cons e es ih =>
    by_cases he : e.lines = []
    · have hnone : sides (e :: es) = sides es := by
        cases e <;> simp_all [Edit.lines]
      rw [List.filter_cons_of_neg (by simp [he]), ih, hnone]
    · rw [List.filter_cons_of_pos (by simpa using he)]
      cases e <;> simp [ih]

@[simp]
theorem sides_consEqual : sides (consEqual ls es) = sides (.equal ls :: es) := by
  rw [consEqual]
  split
  · next hls => simp [List.isEmpty_iff.mp hls]
  · rfl

@[simp]
theorem sides_reverse_consEqual :
    sides (consEqual ls es).reverse = sides (es.reverse ++ [.equal ls]) := by
  rw [consEqual]
  split
  · next hls => simp [List.isEmpty_iff.mp hls]
  · rw [List.reverse_cons]

@[simp]
theorem sides_prependEqual : sides (prependEqual ls es) = sides (.equal ls :: es) := by
  rw [prependEqual.eq_def]
  split
  · simp
  · rfl

@[simp]
theorem sides_reverse_appendEqual :
    sides (appendEqual ls es).reverse = sides (es.reverse ++ [.equal ls]) := by
  rw [appendEqual.eq_def]
  split
  · simp
  · rw [List.reverse_cons]

theorem sides_delete_swap (hequal : ∀ xs, here ≠ .equal xs) (hdelete : ∀ xs, here ≠ .delete xs)
    (ls : List α) : sides (before ++ here :: .delete ls :: after) =
      sides (before ++ .delete ls :: here :: after) := by
  cases here with
  | equal xs => exact absurd rfl (hequal xs)
  | delete xs => exact absurd rfl (hdelete xs)
  | insert xs => simp

theorem sides_insert_swap (hequal : ∀ xs, here ≠ .equal xs) (hinsert : ∀ xs, here ≠ .insert xs)
    (ls : List α) : sides (before ++ here :: .insert ls :: after) =
      sides (before ++ .insert ls :: here :: after) := by
  cases here with
  | equal xs => exact absurd rfl (hequal xs)
  | delete xs => simp
  | insert xs => exact absurd rfl (hinsert xs)

end Sides

/-! ### Common lines -/

variable [DecidableEq α]

theorem take_commonLength (as bs : List α) :
    as.take (commonLength as bs) = bs.take (commonLength as bs) := by
  fun_induction commonLength as bs with
  | case1 as b bs ih => rw [List.take_succ_cons, List.take_succ_cons, ih]
  | case2 a as b bs hne => rw [List.take_zero, List.take_zero]
  | case3 as bs hnil => rw [List.take_zero, List.take_zero]

theorem drop_commonEnd (as bs : List α) :
    as.drop (as.length - commonEnd as bs) = bs.drop (bs.length - commonEnd as bs) := by
  have hreverse := take_commonLength as.reverse bs.reverse
  rw [List.take_reverse, List.take_reverse] at hreverse
  exact List.reverse_injective hreverse

/-! ### Edits that are joined -/

section Joining

variable {before after : List (Edit α)} {here : Edit α}

def Place.edits (p : Place α) : List (Edit α) := p.before.reverse ++ p.here :: p.after

theorem sides_shiftUp (hhere : ∀ ls, here ≠ .equal ls) :
    sides (shiftUp before here after).edits = sides (before.reverse ++ here :: after) := by
  fun_induction shiftUp before here after with
  | case1 here after => rfl
  | case2 ls before xs after s hs shared ih =>
    have hls : ls.take (ls.length - s) ++ shared = ls := List.take_append_drop _ _
    have hxs : xs.take (xs.length - s) ++ shared = xs := by
      have hshared : shared = xs.drop (xs.length - s) := drop_commonEnd ls xs
      rw [hshared, List.take_append_drop]
    rw [ih nofun]
    conv => rhs; rw [← hls, ← hxs]
    simp
  | case3 => rfl
  | case4 => rfl
  | case5 ls before xs after ih =>
    rw [ih nofun]
    simp
  | case6 ls before here after hdelete ih =>
    rw [ih hhere, sides_delete_swap hhere hdelete, List.reverse_cons, List.append_assoc,
      List.singleton_append]
  | case7 ls before xs after ih =>
    rw [ih nofun]
    simp
  | case8 ls before here after hinsert ih =>
    rw [ih hhere, sides_insert_swap hhere hinsert, List.reverse_cons, List.append_assoc,
      List.singleton_append]

theorem here_shiftUp (hhere : ∀ ls, here ≠ .equal ls) (ls : List α) :
    (shiftUp before here after).here ≠ .equal ls := by
  fun_induction shiftUp before here after with
  | case1 => exact hhere ls
  | case2 _ _ _ _ _ _ _ ih => exact ih nofun
  | case3 => exact hhere ls
  | case4 => exact hhere ls
  | case5 _ _ _ _ ih => exact ih nofun
  | case6 _ _ _ _ _ ih => exact ih hhere
  | case7 _ _ _ _ ih => exact ih nofun
  | case8 _ _ _ _ _ ih => exact ih hhere

theorem sides_shiftDown (hhere : ∀ ls, here ≠ .equal ls) :
    sides (shiftDown before here after).edits = sides (before.reverse ++ here :: after) := by
  fun_induction shiftDown before here after with
  | case1 => rfl
  | case2 before xs ls after s hs shared ih =>
    have hls : shared ++ ls.drop s = ls := List.take_append_drop _ _
    have hxs : shared ++ xs.drop s = xs := by
      have hshared : shared = xs.take s := take_commonLength ls xs
      rw [hshared, List.take_append_drop]
    rw [ih nofun]
    conv => rhs; rw [← hls, ← hxs]
    simp
  | case3 => rfl
  | case4 => rfl
  | case5 before xs ls after ih =>
    rw [ih nofun]
    simp
  | case6 before here ls after hdelete ih =>
    rw [ih hhere, List.reverse_cons, List.append_assoc, List.singleton_append,
      sides_delete_swap hhere hdelete]
  | case7 before xs ls after ih =>
    rw [ih nofun]
    simp
  | case8 before here ls after hinsert ih =>
    rw [ih hhere, List.reverse_cons, List.append_assoc, List.singleton_append,
      sides_insert_swap hhere hinsert]

theorem sides_shiftAll {kind : Edit α → Bool} (hkind : ∀ ls, kind (.equal ls) = false) (n : Nat) :
    sides (shiftAll kind n before after) = sides (before.reverse ++ after) := by
  fun_induction shiftAll kind n before after with
  | case1 => rfl
  | case2 => rw [List.append_nil]
  | case3 n before e after he up p ih =>
    have hhere : ∀ ls, e ≠ .equal ls := by
      rintro ls rfl
      rw [hkind] at he
      cases he
    have hup : sides up.edits = sides (before.reverse ++ e :: after) := sides_shiftUp hhere
    have hdown : sides p.edits = sides up.edits := sides_shiftDown (here_shiftUp hhere)
    rw [ih, ← hup, ← hdown, Place.edits, List.reverse_cons, List.append_assoc,
      List.singleton_append]
  | case4 n before e after he ih =>
    rw [ih, List.reverse_cons, List.append_assoc, List.singleton_append]

theorem sides_joined (es : List (Edit α)) : sides (joined es) = sides es := by
  rw [joined, sides_shiftAll (fun _ => rfl), List.reverse_nil, List.nil_append,
    sides_shiftAll (fun _ => rfl), List.reverse_nil, List.nil_append]

end Joining

/-! ### The whole difference -/

theorem sides_script (old new : List α) : sides (script old new) = (old, new) := by
  fun_induction script old new with
  | case1 old new head restOld restNew tail midOld midNew inside parts ihBefore ihBehind =>
    have hinside : sides inside = (midOld, midNew) := by
      simp only [inside]
      split
      · next hnew => simp [List.isEmpty_iff.mp hnew]
      · split
        · next hold => simp [List.isEmpty_iff.mp hold]
        · split
          · next x y _ =>
            split
            · next hcut => simp [ihBefore x y hcut, ihBehind x y hcut]
            · simp
          · simp
    have hhead : old.take head = new.take head := take_commonLength old new
    have htail : restOld.drop (restOld.length - tail) = restNew.drop (restNew.length - tail) :=
      drop_commonEnd restOld restNew
    have hold : old.take head ++ (midOld ++ restOld.drop (restOld.length - tail)) = old := by
      rw [List.take_append_drop, List.take_append_drop]
    have hnew : new.take head ++ (midNew ++ restNew.drop (restNew.length - tail)) = new := by
      rw [List.take_append_drop, List.take_append_drop]
    calc sides (parts.filter fun e => !e.lines.isEmpty)
        = sides parts := sides_filter parts
      _ = (old.take head ++ (midOld ++ restOld.drop (restOld.length - tail)),
          old.take head ++ (midNew ++ restOld.drop (restOld.length - tail))) := by
        simp [parts, hinside]
      _ = (old, new) := by rw [hold, hhead, htail, hnew]

def oldLines (changes : List (Change × α)) : List α :=
  (changes.filter (·.1 ≠ .added)).map (·.2)

def newLines (changes : List (Change × α)) : List α :=
  (changes.filter (·.1 ≠ .removed)).map (·.2)

section Lines

omit [DecidableEq α]

@[simp]
theorem oldLines_append (as bs : List (Change × α)) :
    oldLines (as ++ bs) = oldLines as ++ oldLines bs := by
  simp [oldLines]

@[simp]
theorem newLines_append (as bs : List (Change × α)) :
    newLines (as ++ bs) = newLines as ++ newLines bs := by
  simp [newLines]

@[simp]
theorem oldLines_map (change : Change) (ls : List α) :
    oldLines (ls.map (change, ·)) = if change = .added then [] else ls := by
  cases change <;> simp [oldLines, List.filter_map, Function.comp_def]

@[simp]
theorem newLines_map (change : Change) (ls : List α) :
    newLines (ls.map (change, ·)) = if change = .removed then [] else ls := by
  cases change <;> simp [newLines, List.filter_map, Function.comp_def]

theorem lines_changesOf (deleted inserted : List α) (es : List (Edit α)) :
    (oldLines (changesOf deleted inserted es), newLines (changesOf deleted inserted es)) =
      (deleted ++ (sides es).1, inserted ++ (sides es).2) := by
  fun_induction changesOf deleted inserted es with
  | case1 deleted inserted => simp
  | case2 deleted inserted ls es ih => simpa using ih
  | case3 deleted inserted ls es ih => simpa using ih
  | case4 deleted inserted ls es ih =>
    obtain ⟨hold, hnew⟩ := Prod.mk.inj ih
    simp [hold, hnew]

end Lines

/-- What is not added are the old lines, what is not removed the new ones. -/
theorem lines_changes (old new : List α) :
    oldLines (changes old new) = old ∧ newLines (changes old new) = new := by
  have hlines := lines_changesOf [] [] (joined (script old new))
  rw [sides_joined, sides_script] at hlines
  exact Prod.mk.inj hlines

end LinkageCheck.Text.LineDiff
