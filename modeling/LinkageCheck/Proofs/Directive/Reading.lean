import LinkageCheck.Directive
import LinkageCheck.Proofs.Text.Blank
import LinkageCheck.Proofs.Traversal

/-! How a directive is read: the name off its front, then one value behind an equals sign or values
between parentheses, which are cut at the commas outside quotes. A value that can be read has no
such comma, so that one value says the same in both forms. -/

namespace LinkageCheck.Directive

/-! ### The name -/

def IsName (name : List Char) : Prop :=
  ∃ c cs, name = c :: cs ∧ isNameStart c = true ∧ ∀ d ∈ cs, isNamePart d = true

theorem isNamePart_of_isNameStart {c : Char} (h : isNameStart c = true) : isNamePart c = true := by
  rw [isNamePart, h, Bool.true_or]

theorem toNat_of_isNamePart {c : Char} (h : isNamePart c = true) :
    48 ≤ c.toNat ∧ c.toNat ≤ 122 := by
  have hupper : c.isUpper = true → 65 ≤ c.toNat ∧ c.toNat ≤ 90 := decide_eq_true_iff.mp
  have hlower (hc : c.isLower = true) : 97 ≤ c.toNat ∧ c.toNat ≤ 122 := by
    obtain ⟨hlow, hhigh⟩ := Bool.and_eq_true_iff.mp hc
    exact ⟨decide_eq_true_iff.mp hlow, decide_eq_true_iff.mp hhigh⟩
  have hdigit : c.isDigit = true → 48 ≤ c.toNat ∧ c.toNat ≤ 57 := Char.isDigit_iff_toNat.mp
  rw [isNamePart, isNameStart, Bool.or_eq_true, Bool.or_eq_true, beq_iff_eq] at h
  rcases h with (rfl | hletter) | hc
  · decide
  · rcases Bool.or_eq_true_iff.mp hletter with hc | hc
    · have hbounds := hupper hc
      omega
    · have hbounds := hlower hc
      omega
  · have hbounds := hdigit hc
    omega

theorem isBlank_of_isNamePart {c : Char} (h : isNamePart c = true) : Text.isBlank c = false := by
  have hbounds := toNat_of_isNamePart h
  simp only [Text.isBlank, Text.inRanges, List.any_cons, List.any_nil, Bool.or_false,
    Bool.or_eq_false_iff, Bool.and_eq_false_iff, decide_eq_false_iff_not]
  omega

section Name

variable {name before between : List Char} {mark : Char}

theorem splitName_append (h : IsName name) {rest : List Char}
    (hrest : ∀ c ∈ rest.head?, isNamePart c = false) :
    splitName (name ++ rest) = (name, rest) := by
  obtain ⟨c, cs, rfl, hc, hcs⟩ := h
  have hstop : rest.takeWhile isNamePart = [] ∧ rest.dropWhile isNamePart = rest := by
    cases rest with
    | nil => exact ⟨rfl, rfl⟩
    | cons d rest => simp [hrest d rfl]
  rw [List.cons_append, splitName, if_pos hc, List.takeWhile_append_of_pos hcs,
    List.dropWhile_append_of_pos hcs, hstop.1, hstop.2, List.append_nil]

theorem isName_of_splitName {source rest : List Char} (h : splitName source = (name, rest))
    (hname : name ≠ []) : IsName name := by
  cases source with
  | nil =>
    cases h
    exact absurd rfl hname
  | cons c cs =>
    rw [splitName] at h
    split at h
    · next hc =>
      cases h
      exact ⟨c, cs.takeWhile isNamePart, rfl, hc, fun d => List.mem_takeWhile_imp⟩
    · cases h
      exact absurd rfl hname

theorem trim_append (h : IsName name) (hbefore : ∀ c ∈ before, Text.isBlank c = true)
    (hmark : Text.isBlank mark = false) (rest : List Char) :
    Text.trim (before ++ (name ++ (between ++ mark :: rest))) =
      name ++ (between ++ mark :: Text.trimEnd rest) := by
  have hfirst : ∀ c ∈ (name ++ (between ++ mark :: rest)).head?, Text.isBlank c = false := by
    obtain ⟨c, cs, rfl, hc, -⟩ := h
    intro d hd
    cases hd
    exact isBlank_of_isNamePart (isNamePart_of_isNameStart hc)
  unfold Text.trim Text.trimEnd
  rw [Text.trimStart_append hbefore hfirst, ← List.append_assoc,
    Text.dropTail_append_cons hmark, List.append_assoc]

theorem readTrimmed_append (h : IsName name) (hbetween : ∀ c ∈ between, Text.isBlank c = true)
    (hpart : isNamePart mark = false) (hmark : Text.isBlank mark = false) (rest : List Char) :
    readTrimmed (name ++ (between ++ mark :: rest)) =
      readForm (String.ofList name) (mark :: rest) := by
  have hsplit : splitName (name ++ (between ++ mark :: rest)) =
      (name, between ++ mark :: rest) := by
    refine splitName_append h fun c hc => ?_
    cases between with
    | nil =>
      cases hc
      exact hpart
    | cons d between =>
      cases hc
      refine Bool.eq_false_iff.mpr fun hc => Bool.false_ne_true ?_
      exact (isBlank_of_isNamePart hc).symm.trans (hbetween c List.mem_cons_self)
  have hstart : Text.trimStart (between ++ mark :: rest) = mark :: rest := by
    refine Text.trimStart_append hbetween fun c hc => ?_
    cases hc
    exact hmark
  unfold readTrimmed
  rw [hsplit]
  obtain ⟨c, cs, rfl, -⟩ := h
  simp only [hstart]

end Name

theorem read_eq_ok_iff {text : String} {directive : Directive} :
    read text = .ok directive ↔ readTrimmed (Text.trim text.toList) = .ok directive := by
  rw [read]
  constructor
  · exact ok_of_mapError_ok
  · intro h
    rw [h]
    rfl

def name : Directive → String
  | assign name _ => name
  | call name _ => name

theorem name_of_readForm {text : String} {cs : List Char} {directive : Directive}
    (h : readForm text cs = .ok directive) : directive.name = text := by
  unfold readForm at h
  split at h
  · obtain ⟨v, -, rfl⟩ := ok_of_map_ok h
    rfl
  · split at h
    · obtain ⟨arguments, -, h⟩ := ok_of_bind_ok h
      obtain ⟨values, -, h⟩ := ok_of_bind_ok h
      cases h
      rfl
    · cases h
  · cases h

theorem isName_of_read {text : String} {directive : Directive} (h : read text = .ok directive) :
    IsName directive.name.toList := by
  rw [read_eq_ok_iff, readTrimmed] at h
  split at h
  · cases h
  · next hne hsplit =>
    rw [name_of_readForm h, String.toList_ofList]
    exact isName_of_splitName hsplit hne

/-! ### Cutting the arguments -/

def quoteAfter (opened : Option Char) (c : Char) : Option Char :=
  match opened with
  | some q => if c = q then none else some q
  | none => if c = '\'' ∨ c = '"' then some c else none

def isPlain (c : Char) : Bool := ¬ (c = ',' ∨ c = '\'' ∨ c = '"')

theorem isPlain_of (p : Char → Bool) (hmarks : p ',' = false ∧ p '\'' = false ∧ p '"' = false)
    {c : Char} (h : p c = true) : isPlain c = true := by
  obtain ⟨hcomma, hsingle, hdouble⟩ := hmarks
  rw [isPlain, decide_eq_true_eq]
  rintro (rfl | rfl | rfl)
  · exact Bool.false_ne_true (hcomma.symm.trans h)
  · exact Bool.false_ne_true (hsingle.symm.trans h)
  · exact Bool.false_ne_true (hdouble.symm.trans h)

def prepend (text : List Char) : List (List Char) → List (List Char)
  | [] => [text]
  | part :: parts => (text ++ part) :: parts

theorem prepend_prepend (text more : List Char) (parts : List (List Char)) :
    prepend text (prepend more parts) = prepend (text ++ more) parts := by
  cases parts with
  | nil => rfl
  | cons part parts => simp only [prepend, List.append_assoc]

section Cutting

variable {opened : Option Char} {c : Char} {cs : List Char} {parts : List (List Char)}

theorem splitCommas_comma (cs : List Char) :
    splitCommas none (',' :: cs) = (splitCommas none cs).map ([] :: ·) := by
  rw [splitCommas, if_pos ⟨rfl, rfl⟩]

theorem splitCommas_cons (h : ¬ (opened = none ∧ c = ',')) (cs : List Char) :
    splitCommas opened (c :: cs) = (splitCommas (quoteAfter opened c) cs).map (prepend [c]) := by
  have hprepend : prepend [c] = fun
      | [] => [[c]]
      | part :: parts => (c :: part) :: parts := by
    funext parts
    cases parts with
    | nil => rfl
    | cons part parts => rfl
  cases opened with
  | none =>
    rw [splitCommas, if_neg h, hprepend]
    rfl
  | some q =>
    rw [splitCommas, if_neg h, hprepend]
    rfl

theorem intercalate_splitCommas (h : splitCommas opened cs = .ok parts) :
    parts ≠ [] ∧ [','].intercalate parts = cs := by
  induction cs generalizing opened parts with
  | nil =>
    cases opened with
    | none =>
      cases h
      exact ⟨List.cons_ne_nil _ _, rfl⟩
    | some q => cases h
  | cons c cs ih =>
    by_cases hcomma : opened = none ∧ c = ','
    · obtain ⟨rfl, rfl⟩ := hcomma
      rw [splitCommas_comma] at h
      obtain ⟨after, hafter, rfl⟩ := ok_of_map_ok h
      obtain ⟨hne, hjoin⟩ := ih hafter
      refine ⟨List.cons_ne_nil _ _, ?_⟩
      obtain ⟨part, parts, rfl⟩ := List.exists_cons_of_ne_nil hne
      rw [List.intercalate_cons_cons, hjoin]
      rfl
    · rw [splitCommas_cons hcomma] at h
      obtain ⟨after, hafter, rfl⟩ := ok_of_map_ok h
      obtain ⟨hne, hjoin⟩ := ih hafter
      obtain ⟨part, parts, rfl⟩ := List.exists_cons_of_ne_nil hne
      refine ⟨List.cons_ne_nil _ _, ?_⟩
      rw [← hjoin]
      cases parts with
      | nil => simp [prepend]
      | cons next parts => simp [prepend, List.intercalate_cons_cons]

end Cutting

/-- From one open quote to another without a comma to cut at: the text goes in front of the first
part of whatever follows. -/
def Uncut (opened : Option Char) (text : List Char) (left : Option Char) : Prop :=
  ∀ rest, splitCommas opened (text ++ rest) = (splitCommas left rest).map (prepend text)

section Uncut

variable {opened left last : Option Char} {c : Char} {text more : List Char}

theorem Uncut.nil : Uncut opened [] opened := by
  intro rest
  rcases hparts : splitCommas opened rest with e | parts
  · exact hparts
  · obtain ⟨part, parts, rfl⟩ := List.exists_cons_of_ne_nil (intercalate_splitCommas hparts).1
    exact hparts

theorem Uncut.singleton (h : ¬ (opened = none ∧ c = ',')) :
    Uncut opened [c] (quoteAfter opened c) :=
  splitCommas_cons h

theorem Uncut.append (htext : Uncut opened text left) (hmore : Uncut left more last) :
    Uncut opened (text ++ more) last := by
  intro rest
  rw [List.append_assoc, htext, hmore]
  rcases splitCommas last rest with e | parts
  · rfl
  · exact congrArg Except.ok (prepend_prepend text more parts)

theorem uncut_of_forall
    (h : ∀ c ∈ text, ¬ (opened = none ∧ c = ',') ∧ quoteAfter opened c = opened) :
    Uncut opened text opened := by
  induction text with
  | nil => exact .nil
  | cons c text ih =>
    obtain ⟨⟨hcomma, hquote⟩, htext⟩ := List.forall_mem_cons.mp h
    have hc : Uncut opened [c] opened := by
      simpa only [hquote] using Uncut.singleton hcomma
    exact hc.append (ih htext)

theorem uncut_of_plain (h : ∀ c ∈ text, isPlain c = true) : Uncut none text none := by
  refine uncut_of_forall fun c hc => ?_
  have hplain := h c hc
  simp only [isPlain, decide_eq_true_eq, not_or] at hplain
  obtain ⟨hcomma, hquote⟩ := hplain
  exact ⟨fun hcut => hcomma hcut.2, if_neg (not_or.mpr hquote)⟩

theorem uncut_of_blank (h : ∀ c ∈ text, Text.isBlank c = true) : Uncut none text none :=
  uncut_of_plain fun c hc => isPlain_of Text.isBlank (by decide) (h c hc)

theorem uncut_quoted {quote : Char} (hquote : quote = '\'' ∨ quote = '"') (h : quote ∉ text) :
    Uncut none (quote :: (text ++ [quote])) none := by
  have hopen : Uncut none [quote] (some quote) := by
    have hcomma : ¬ ((none : Option Char) = none ∧ quote = ',') := by
      rintro ⟨-, rfl⟩
      revert hquote
      decide
    have hstep : quoteAfter none quote = some quote := if_pos hquote
    simpa only [hstep] using Uncut.singleton hcomma
  have hinner : Uncut (some quote) text (some quote) := by
    refine uncut_of_forall fun c hc => ⟨fun hcut => Option.some_ne_none _ hcut.1, if_neg ?_⟩
    rintro rfl
    exact h hc
  have hclose : Uncut (some quote) [quote] none := by
    have hstep : quoteAfter (some quote) quote = none := if_pos rfl
    simpa only [hstep] using
      Uncut.singleton fun hcut : some quote = none ∧ quote = ',' => Option.some_ne_none _ hcut.1
  exact hopen.append (hinner.append hclose)

theorem Uncut.splitCommas_eq (h : Uncut none text none) : splitCommas none text = .ok [text] := by
  have hend : splitCommas none (text ++ []) = .ok [text ++ []] := h []
  rwa [List.append_nil] at hend

end Uncut

/-! ### Values -/

theorem uncut_of_readString {quote : Char} {text : List Char} {value : OptionValue}
    (hquote : quote = '\'' ∨ quote = '"') (hfirst : text.head? = some quote)
    (h : readString quote text = .ok value) : Uncut none text none := by
  rw [readString] at h
  split at h
  · next hform =>
    obtain ⟨hlength, hlast, hinner⟩ := hform
    obtain ⟨rest, rfl⟩ : ∃ rest, text = quote :: rest := List.head?_eq_some_iff.mp hfirst
    rcases List.eq_nil_or_concat' rest with rfl | ⟨inner, last, rfl⟩
    · rw [List.length_singleton] at hlength
      omega
    · rw [← List.cons_append, List.getLast?_concat, Option.some.injEq] at hlast
      subst hlast
      rw [List.drop_one, List.tail_cons, List.dropLast_concat] at hinner
      exact uncut_quoted hquote hinner
  · cases h

theorem uncut_of_isNumeric {text : List Char} (h : isNumeric text = true) :
    Uncut none text none := by
  rw [isNumeric, Bool.and_eq_true, List.all_eq_true] at h
  refine uncut_of_plain fun c hc => ?_
  exact isPlain_of (fun c => c.isDigit || c ∈ ['+', '-', '.', 'e', 'E']) (by decide) (h.1 c hc)

theorem uncut_of_readValue {text : List Char} {value : OptionValue}
    (h : readValue text = .ok value) : Uncut none text none := by
  unfold readValue at h
  split at h
  · cases h
  split at h
  · next hword =>
    refine uncut_of_plain (List.all_eq_true.mp ?_)
    rcases hword with rfl | rfl <;> decide
  split at h
  · next hword =>
    refine uncut_of_plain (List.all_eq_true.mp ?_)
    rcases hword with rfl | rfl <;> decide
  split at h
  · next hfirst => exact uncut_of_readString (.inl rfl) hfirst h
  split at h
  · next hfirst => exact uncut_of_readString (.inr rfl) hfirst h
  by_cases hnumeric : isNumeric text = true
  · exact uncut_of_isNumeric hnumeric
  · rw [readNumber?, if_neg hnumeric] at h
    cases h

/-! ### The two forms -/

section Forms

variable {name text : String} {inner : List Char} {value : OptionValue}

theorem readValue_nil_ne_ok : readValue [] ≠ .ok value := by
  intro h
  cases h

theorem splitArguments_of_readValue (h : readValue (Text.trim inner) = .ok value) :
    splitArguments inner = .ok [Text.trim inner] := by
  obtain ⟨before, after, hsplit, hamong⟩ := Text.exists_among_trim inner
  have hwhole : Uncut none inner none := by
    rw [hsplit]
    exact (uncut_of_blank hamong.before).append
      ((uncut_of_readValue h).append (uncut_of_blank hamong.after))
  have hne : ¬ (Text.trim inner).isEmpty = true := by
    intro hempty
    rw [List.isEmpty_iff.mp hempty] at h
    exact readValue_nil_ne_ok h
  rw [splitArguments, if_neg hne, hwhole.splitCommas_eq]
  rfl

theorem eq_trim_of_splitArguments {argument : List Char}
    (h : splitArguments inner = .ok [argument]) : argument = Text.trim inner := by
  rw [splitArguments] at h
  split at h
  · cases h
  · obtain ⟨parts, hparts, hargument⟩ := ok_of_map_ok h
    obtain ⟨part, rfl, rfl⟩ := List.map_eq_singleton_iff.mp hargument
    have hjoin := (intercalate_splitCommas hparts).2
    rw [List.intercalate_singleton] at hjoin
    rw [hjoin]

/-- Cutting a text and reading its parts gives one value just if the text alone is that value. -/
theorem readArguments_iff :
    (∃ arguments, splitArguments inner = .ok arguments ∧
        arguments.mapM readValue = .ok [value]) ↔
      readValue (Text.trim inner) = .ok value := by
  constructor
  · rintro ⟨arguments, hsplit, hvalues⟩
    cases mapM_eq_ok_iff.mp hvalues with
    | cons hvalue hrest =>
      cases hrest
      rwa [eq_trim_of_splitArguments hsplit] at hvalue
  · intro h
    exact ⟨_, splitArguments_of_readValue h, mapM_eq_ok_iff.mpr (.cons h .nil)⟩

theorem readForm_assign_iff {cs : List Char} :
    readForm name ('=' :: cs) = .ok (.assign name value) ↔
      readValue (Text.trim cs) = .ok value := by
  rw [readForm]
  constructor
  · intro h
    obtain ⟨v, hv, hassign⟩ := ok_of_map_ok h
    cases hassign
    exact hv
  · intro h
    rw [h]
    rfl

theorem readForm_call_iff {values : List OptionValue} :
    readForm name ('(' :: (inner ++ [')'])) = .ok (.call name values) ↔
      ∃ arguments, splitArguments inner = .ok arguments ∧
        arguments.mapM readValue = .ok values := by
  rw [readForm, if_pos List.getLast?_concat, List.dropLast_concat]
  constructor
  · intro h
    obtain ⟨arguments, harguments, h⟩ := ok_of_bind_ok h
    obtain ⟨found, hfound, h⟩ := ok_of_bind_ok h
    cases h
    exact ⟨arguments, harguments, hfound⟩
  · rintro ⟨arguments, harguments, hvalues⟩
    simp only [harguments, bind, Except.bind, hvalues, pure, Except.pure]

/-- With a mark behind it that is neither blank nor part of a name, a text is read just if it is a
name and what stands from the mark on is a form. -/
theorem read_append_iff {source : String} {before between rest : List Char} {mark : Char}
    {directive : Directive}
    (hsource : source.toList = before ++ (name.toList ++ (between ++ mark :: rest)))
    (hbefore : ∀ c ∈ before, Text.isBlank c = true)
    (hbetween : ∀ c ∈ between, Text.isBlank c = true)
    (hpart : isNamePart mark = false) (hmark : Text.isBlank mark = false)
    (hname : directive.name = name) :
    read source = .ok directive ↔
      IsName name.toList ∧ readForm name (mark :: Text.trimEnd rest) = .ok directive := by
  have hread (hisName : IsName name.toList) : read source = .ok directive ↔
      readForm name (mark :: Text.trimEnd rest) = .ok directive := by
    rw [read_eq_ok_iff, hsource, trim_append hisName hbefore hmark,
      readTrimmed_append hisName hbetween hpart hmark, String.ofList_toList]
  constructor
  · intro h
    have hisName : IsName name.toList := by
      rw [← hname]
      exact isName_of_read h
    exact ⟨hisName, (hread hisName).mp h⟩
  · rintro ⟨hisName, h⟩
    exact (hread hisName).mpr h

theorem read_assign_iff : read (name ++ "=" ++ text) = .ok (.assign name value) ↔
    IsName name.toList ∧ readValue (Text.trim text.toList) = .ok value := by
  have hsource : (name ++ "=" ++ text).toList
      = [] ++ (name.toList ++ ([] ++ '=' :: text.toList)) := by simp
  rw [read_append_iff hsource (List.forall_mem_nil _) (List.forall_mem_nil _) (by decide)
    (by decide) rfl, readForm_assign_iff, Text.trim_trimEnd]

theorem read_call_iff : read (name ++ "(" ++ text ++ ")") = .ok (.call name [value]) ↔
    IsName name.toList ∧ readValue (Text.trim text.toList) = .ok value := by
  have hsource : (name ++ "(" ++ text ++ ")").toList
      = [] ++ (name.toList ++ ([] ++ '(' :: (text.toList ++ [')']))) := by simp
  have hend : Text.trimEnd (text.toList ++ [')']) = text.toList ++ [')'] :=
    Text.dropTail_append_cons (by decide) text.toList []
  rw [read_append_iff hsource (List.forall_mem_nil _) (List.forall_mem_nil _) (by decide)
    (by decide) rfl, hend, readForm_call_iff, readArguments_iff]

/-- The two ways to set an option are the same. Whatever commas, parentheses, quotes and blanks the
text has, one form is read just if the other is, and as the same value; behind a name this is the
value of the text without the blanks around it. Applied to any options the two directives give the
same options or the same error, except that `reset` takes no argument. -/
theorem setter_forms_agree (name text : String) (value : OptionValue) :
    (read (name ++ "=" ++ text) = .ok (.assign name value) ↔
      read (name ++ "(" ++ text ++ ")") = .ok (.call name [value])) ∧
    (IsName name.toList → (read (name ++ "=" ++ text) = .ok (.assign name value) ↔
      readValue (Text.trim text.toList) = .ok value)) ∧
    (name ≠ "reset" → ∀ baseline o : Options,
      apply baseline o (.assign name value) = apply baseline o (.call name [value])) := by
  refine ⟨?_, fun hname => ?_, fun hreset baseline o => ?_⟩
  · rw [read_assign_iff, read_call_iff]
  · rw [read_assign_iff, and_iff_right hname]
  · rw [apply, apply, if_neg hreset]

theorem setter_forms_agree_quotedMarks :
    read "test= \"a,(b)='\" " = .ok (.assign "test" (.text "a,(b)='")) ∧
    read "test( \"a,(b)='\" )" = .ok (.call "test" [.text "a,(b)='"]) ∧
    ∀ baseline o : Options, apply baseline o (.assign "test" (.text "a,(b)='")) =
      apply baseline o (.call "test" [.text "a,(b)='"]) := by
  have hagree := setter_forms_agree "test" " \"a,(b)='\" " (.text "a,(b)='")
  have hread : read "test= \"a,(b)='\" " = .ok (.assign "test" (.text "a,(b)='")) := by decide
  exact ⟨hread, hagree.1.mp hread, hagree.2.2 (by decide)⟩

end Forms

end LinkageCheck.Directive
