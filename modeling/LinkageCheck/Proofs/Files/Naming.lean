import LinkageCheck.Files.Discovery
import Mathlib.Data.List.Infix

/-! The names of expected-results files as an encoding of a language and a description: what a name
says is read back from it, and nothing is read from a text that is no such name. -/

namespace LinkageCheck.ResultsName

variable {n : ResultsName} {name : String} {cs inner before after : List Char}

def stem (n : ResultsName) : List Char :=
  match n.desc with
  | some desc => if desc = "" then n.lang.toList else desc.toList ++ '-' :: n.lang.toList
  | none => n.lang.toList

/-- A language and a description that a file name can say. -/
structure Sayable (n : ResultsName) : Prop where
  lang_ne : n.lang ≠ ""
  hyphen_not_mem : '-' ∉ n.lang.toList
  desc_ne : n.desc ≠ some ""

theorem toList_text (n : ResultsName) : n.text.toList = head ++ (n.stem ++ tail) := by
  have hhyphen : "-".toList = ['-'] := by decide
  have hplain (lang : String) : ("parses-" ++ lang ++ ".txt").toList
      = head ++ (lang.toList ++ tail) := by
    rw [String.toList_append, String.toList_append, List.append_assoc]
    rfl
  obtain ⟨lang, desc⟩ := n
  cases desc with
  | none => exact hplain lang
  | some desc =>
    by_cases hempty : desc = ""
    · subst hempty
      exact hplain lang
    · have hname : text ⟨lang, some desc⟩ = "parses-" ++ (desc ++ "-" ++ lang) ++ ".txt" := by
        rw [text]
        simp [hempty, String.append_assoc, toString]
      have hstem : stem ⟨lang, some desc⟩ = (desc ++ "-" ++ lang).toList := by
        simp [stem, hempty, hhyphen]
      rw [hname, hstem]
      exact hplain _

theorem stem_filter_desc (n : ResultsName) : stem ⟨n.lang, n.desc.filter (· ≠ "")⟩ = n.stem := by
  obtain ⟨lang, desc⟩ := n
  cases desc with
  | none => rfl
  | some desc => by_cases hempty : desc = "" <;> simp [stem, Option.filter_some, hempty]

/-! ### Reading a name -/

theorem isSome_splitLastHyphen_iff : (splitLastHyphen cs).isSome ↔ '-' ∈ cs := by
  induction cs with
  | nil => simp [splitLastHyphen]
  | cons c cs ih =>
    rw [splitLastHyphen]
    cases hsplit : splitLastHyphen cs with
    | some parts =>
      have hmem : '-' ∈ cs := ih.mp (by rw [hsplit, Option.isSome_some])
      simp [hmem]
    | none =>
      have hnot : '-' ∉ cs := fun hmem => by simpa [hsplit] using ih.mpr hmem
      by_cases hc : c = '-'
      · simp [hc]
      · simp [hc, hnot, Ne.symm hc]

theorem splitLastHyphen_eq_none_iff : splitLastHyphen cs = none ↔ '-' ∉ cs := by
  rw [← isSome_splitLastHyphen_iff, Option.not_isSome_iff_eq_none]

theorem splitLastHyphen_append (h : '-' ∉ after) :
    splitLastHyphen (before ++ '-' :: after) = some (before, after) := by
  induction before with
  | nil => rw [List.nil_append, splitLastHyphen, splitLastHyphen_eq_none_iff.mpr h, if_pos rfl]
  | cons c before ih => rw [List.cons_append, splitLastHyphen, ih]

theorem splitLastHyphen_eq_some_iff :
    splitLastHyphen cs = some (before, after) ↔ cs = before ++ '-' :: after ∧ '-' ∉ after := by
  constructor
  · intro hsplit
    have hmem : '-' ∈ cs := isSome_splitLastHyphen_iff.mp (by rw [hsplit, Option.isSome_some])
    -- Of the ways to cut at a hyphen the last is the one with none behind it.
    obtain ⟨tail, first, hcut, hlast⟩ := List.eq_append_cons_of_mem (List.mem_reverse.mpr hmem)
    have hcs : cs = first.reverse ++ '-' :: tail.reverse := by
      rw [← List.reverse_reverse cs, hcut]
      simp
    have hlast' : '-' ∉ tail.reverse := fun hin => hlast (List.mem_reverse.mp hin)
    rw [hcs, splitLastHyphen_append hlast'] at hsplit
    cases hsplit
    exact ⟨hcs, hlast'⟩
  · rintro ⟨rfl, hlast⟩
    exact splitLastHyphen_append hlast

theorem between?_eq_some_iff {head tail : List Char} :
    between? head tail cs = some inner ↔ cs = head ++ (inner ++ tail) := by
  have hlength (found : List Char) :
      (head ++ (found ++ tail)).length - head.length - tail.length = found.length := by
    simp only [List.length_append]
    omega
  rw [between?]
  constructor
  · intro h
    split at h
    · next hends =>
      obtain ⟨hhead, htail⟩ := Bool.and_eq_true_iff.mp hends
      obtain ⟨rest, rfl⟩ := List.isPrefixOf_iff_prefix.mp hhead
      rw [List.drop_left] at htail h
      obtain ⟨found, rfl⟩ := List.isSuffixOf_iff_suffix.mp htail
      rw [hlength, List.take_left] at h
      rw [Option.some.inj h]
    · cases h
  · rintro rfl
    have hhead : head.isPrefixOf (head ++ (inner ++ tail)) = true :=
      List.isPrefixOf_iff_prefix.mpr (List.prefix_append _ _)
    have htail : tail.isSuffixOf (inner ++ tail) = true :=
      List.isSuffixOf_iff_suffix.mpr (List.suffix_append _ _)
    rw [List.drop_left, hhead, htail, hlength, List.take_left]
    rfl

theorem ofStem?_eq_some_iff : ofStem? cs = some n ↔ cs = n.stem ∧ n.Sayable := by
  rw [ofStem?]
  constructor
  · intro h
    split at h
    · next desc lang hsplit =>
      obtain ⟨rfl, hlast⟩ := splitLastHyphen_eq_some_iff.mp hsplit
      split at h
      · cases h
      · next hfull =>
        obtain ⟨hdesc, hlang⟩ : desc ≠ [] ∧ lang ≠ [] := by simpa using hfull
        cases h
        have hstem : desc ++ '-' :: lang =
            stem ⟨String.ofList lang, some (String.ofList desc)⟩ := by
          simp [stem, hdesc]
        exact ⟨hstem, by simpa using hlang, by simpa using hlast, by simpa using hdesc⟩
    · next hsplit =>
      have hplain := splitLastHyphen_eq_none_iff.mp hsplit
      split at h
      · cases h
      · next hfull =>
        have hlang : cs ≠ [] := by simpa using hfull
        cases h
        exact ⟨by simp [stem], by simpa using hlang, by simpa using hplain, by simp⟩
  · rintro ⟨rfl, hlang, hhyphen, hdesc⟩
    obtain ⟨lang, desc⟩ := n
    cases desc with
    | none =>
      have hsplit : splitLastHyphen lang.toList = none := splitLastHyphen_eq_none_iff.mpr hhyphen
      simp [stem, hsplit, hlang]
    | some desc =>
      have hdesc' : desc ≠ "" := by simpa using hdesc
      have hstem : stem ⟨lang, some desc⟩ = desc.toList ++ '-' :: lang.toList := by
        simp [stem, hdesc']
      rw [hstem, splitLastHyphen_append hhyphen]
      simp [hlang, hdesc']

theorem parse?_eq_some_iff : parse? name = some n ↔ name = n.text ∧ n.Sayable := by
  rw [parse?, Option.bind_eq_some_iff, ← String.toList_inj, toList_text]
  constructor
  · rintro ⟨inner, hinner, hn⟩
    obtain ⟨rfl, hsayable⟩ := ofStem?_eq_some_iff.mp hn
    exact ⟨between?_eq_some_iff.mp hinner, hsayable⟩
  · rintro ⟨hname, hsayable⟩
    exact ⟨n.stem, between?_eq_some_iff.mpr hname, ofStem?_eq_some_iff.mpr ⟨rfl, hsayable⟩⟩

/-- What a name says is read back from it, with an empty description as none; and whatever can be
read is the name of what it says. -/
theorem parse?_inverse :
    (∀ n : ResultsName, n.lang ≠ "" → '-' ∉ n.lang.toList →
      parse? n.text = some ⟨n.lang, n.desc.filter (· ≠ "")⟩) ∧
    ∀ (name : String) (n : ResultsName), parse? name = some n →
      n.text = name ∧ n.lang ≠ "" ∧ '-' ∉ n.lang.toList ∧ n.desc ≠ some "" := by
  refine ⟨fun n hlang hhyphen => ?_, fun name n h => ?_⟩
  · have htext : n.text = text ⟨n.lang, n.desc.filter (· ≠ "")⟩ := by
      rw [← String.toList_inj, toList_text, toList_text, stem_filter_desc]
    exact parse?_eq_some_iff.mpr ⟨htext, hlang, hhyphen, by simp⟩
  · obtain ⟨rfl, hsayable⟩ := parse?_eq_some_iff.mp h
    exact ⟨rfl, hsayable.lang_ne, hsayable.hyphen_not_mem, hsayable.desc_ne⟩

theorem parse?_inverse_nested :
    parse? (text ⟨"en", some "parses-lt.txt"⟩) = some ⟨"en", some "parses-lt.txt"⟩ ∧
      parse? (text ⟨"en", some ""⟩) = some ⟨"en", none⟩ ∧
      text ⟨"en", some "a-"⟩ = "parses-a--en.txt" := by
  obtain ⟨hread, hwritten⟩ := parse?_inverse
  have hdash : parse? "parses-a--en.txt" = some ⟨"en", some "a-"⟩ := by decide
  exact ⟨hread ⟨"en", some "parses-lt.txt"⟩ (by decide) (by decide),
    hread ⟨"en", some ""⟩ (by decide) (by decide), (hwritten _ _ hdash).1⟩

end LinkageCheck.ResultsName
