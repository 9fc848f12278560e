import LinkageCheck.Proofs.Decimal.Integers
import LinkageCheck.Proofs.Directive.Reading

/-! Directives as they are written: a name, marks and values, with blanks around each of them.
However a directive is written, reading gives it back. -/

namespace LinkageCheck.Directive

/-! ### The written form -/

/-- The texts of a value: two words for a boolean, the digits of an integer of 64 bits, and a string
between two quotes that do not occur in it. -/
inductive ValueText : OptionValue → List Char → Prop where
  | yes {word : String} (h : word = "True" ∨ word = "true") : ValueText (.boolean true) word.toList
  | no {word : String} (h : word = "False" ∨ word = "false") :
    ValueText (.boolean false) word.toList
  | integer {i : Int} (h : -2 ^ 63 ≤ i ∧ i < 2 ^ 63) : ValueText (.integer i) (toString i).toList
  | text {quote : Char} {text : String} (hquote : quote = '\'' ∨ quote = '"')
    (h : quote ∉ text.toList) : ValueText (.text text) (quote :: (text.toList ++ [quote]))

/-- Whether a value has a text; a string must leave one of the quotes free. -/
def HasText : OptionValue → Prop
  | .boolean _ => True
  | .integer i => -2 ^ 63 ≤ i ∧ i < 2 ^ 63
  | .number _ => False
  | .text text => ¬ ('\'' ∈ text.toList ∧ '"' ∈ text.toList)

/-- The tokens in their order, with blanks before, between and behind them. -/
inductive Spread : List (List Char) → List Char → Prop where
  | nil {blanks : List Char} (h : ∀ c ∈ blanks, Text.isBlank c = true) : Spread [] blanks
  | cons {blanks token rest : List Char} {tokens : List (List Char)}
    (h : ∀ c ∈ blanks, Text.isBlank c = true) (hrest : Spread tokens rest) :
    Spread (token :: tokens) (blanks ++ (token ++ rest))

def assignTokens (name : String) (text : List Char) : List (List Char) :=
  [name.toList, ['='], text]

def callTokens (name : String) (texts : List (List Char)) : List (List Char) :=
  name.toList :: ['('] :: (texts.intersperse [','] ++ [[')']])

inductive Written : Directive → String → Prop where
  | assign {name source : String} {value : OptionValue} {text : List Char}
    (hname : IsName name.toList) (h : ValueText value text)
    (hspread : Spread (assignTokens name text) source.toList) : Written (.assign name value) source
  | call {name source : String} {values : List OptionValue} {texts : List (List Char)}
    (hname : IsName name.toList) (h : List.Forall₂ ValueText values texts)
    (hspread : Spread (callTokens name texts) source.toList) : Written (.call name values) source

def Writable : Directive → Prop
  | assign name value => IsName name.toList ∧ HasText value
  | call name values => IsName name.toList ∧ ∀ value ∈ values, HasText value

theorem spread_nil_iff {cs : List Char} : Spread [] cs ↔ ∀ c ∈ cs, Text.isBlank c = true :=
  ⟨fun h => (by cases h; assumption), .nil⟩

theorem spread_cons_iff {token cs : List Char} {tokens : List (List Char)} :
    Spread (token :: tokens) cs ↔ ∃ blanks rest, cs = blanks ++ (token ++ rest) ∧
      (∀ c ∈ blanks, Text.isBlank c = true) ∧ Spread tokens rest := by
  constructor
  · rintro ⟨⟩
    exact ⟨_, _, rfl, ‹_›, ‹_›⟩
  · rintro ⟨blanks, rest, rfl, h, hrest⟩
    exact .cons h hrest

theorem spread_mark_iff {mark : Char} {cs : List Char} {tokens : List (List Char)} :
    Spread ([mark] :: tokens) cs ↔ ∃ blanks rest, cs = blanks ++ mark :: rest ∧
      (∀ c ∈ blanks, Text.isBlank c = true) ∧ Spread tokens rest := by
  simp only [spread_cons_iff, List.singleton_append]

theorem spread_flatten (tokens : List (List Char)) : Spread tokens tokens.flatten := by
  induction tokens with
  | nil => exact .nil (List.forall_mem_nil _)
  | cons token tokens ih =>
    rw [List.flatten_cons]
    exact .cons (List.forall_mem_nil _) ih

theorem exists_source (tokens : List (List Char)) :
    ∃ source : String, Spread tokens source.toList := by
  refine ⟨String.ofList tokens.flatten, ?_⟩
  rw [String.toList_ofList]
  exact spread_flatten tokens

theorem exists_valueText_iff {value : OptionValue} :
    (∃ text, ValueText value text) ↔ HasText value := by
  constructor
  · rintro ⟨text, h⟩
    cases h with
    | yes | no => trivial
    | integer h => exact h
    | text hquote h =>
      rintro ⟨hsingle, hdouble⟩
      rcases hquote with rfl | rfl
      · exact h hsingle
      · exact h hdouble
  · intro h
    cases value with
    | boolean b =>
      cases b with
      | false => exact ⟨_, .no (.inl rfl)⟩
      | true => exact ⟨_, .yes (.inl rfl)⟩
    | integer i => exact ⟨_, .integer h⟩
    | number x => exact absurd h id
    | text text =>
      by_cases hsingle : '\'' ∈ text.toList
      · exact ⟨_, .text (.inr rfl) fun hdouble => h ⟨hsingle, hdouble⟩⟩
      · exact ⟨_, .text (.inl rfl) hsingle⟩

theorem exists_written_iff {directive : Directive} :
    (∃ source, Written directive source) ↔ directive.Writable := by
  constructor
  · rintro ⟨source, h⟩
    cases h with
    | assign hname h hspread => exact ⟨hname, exists_valueText_iff.mp ⟨_, h⟩⟩
    | call hname h hspread =>
      have hvalues := exists_forall₂_iff.mp ⟨_, h⟩
      exact ⟨hname, fun value hvalue => exists_valueText_iff.mp (hvalues value hvalue)⟩
  · intro h
    cases directive with
    | assign name value =>
      obtain ⟨hname, hvalue⟩ := h
      obtain ⟨text, htext⟩ := exists_valueText_iff.mpr hvalue
      obtain ⟨source, hspread⟩ := exists_source (assignTokens name text)
      exact ⟨source, .assign hname htext hspread⟩
    | call name values =>
      obtain ⟨hname, hvalues⟩ := h
      obtain ⟨texts, htexts⟩ := exists_forall₂_iff.mpr fun value hvalue =>
        exists_valueText_iff.mpr (hvalues value hvalue)
      obtain ⟨source, hspread⟩ := exists_source (callTokens name texts)
      exact ⟨source, .call hname htexts hspread⟩

/-! ### One value -/

section Value

variable {value : OptionValue} {text before after rest : List Char} {quote : Char}

theorem isNumeric_toString (i : Int) : isNumeric (toString i).toList = true := by
  have hdigits (n : Nat) : isNumeric (Nat.toDigits 10 n) = true := by
    obtain ⟨c, cs, hcons, hc⟩ := Decimal.exists_toDigits_eq_cons n
    rw [isNumeric, Bool.and_eq_true, List.all_eq_true, List.any_eq_true]
    refine ⟨fun d hd => ?_, c, hcons ▸ List.mem_cons_self, hc⟩
    rw [Decimal.isDigit_of_mem_toDigits hd, Bool.true_or]
  have hsign (ds : List Char) (h : isNumeric ds = true) : isNumeric ('-' :: ds) = true := by
    rw [isNumeric, Bool.and_eq_true] at h ⊢
    rw [List.all_cons, List.any_cons, h.1, h.2]
    decide
  rw [Decimal.toList_toString]
  split
  · exact hdigits _
  · exact hsign _ (hdigits _)

theorem readValue_of_isNumeric (h : isNumeric text = true)
    (hvalue : readNumber? text = some value) : readValue text = .ok value := by
  have hword {word : List Char} (hword : isNumeric word = false) : text ≠ word := by
    rintro rfl
    exact Bool.false_ne_true (hword.symm.trans h)
  have hfirst {quote : Char} (hquote : ∀ rest, isNumeric (quote :: rest) = false) :
      text.head? ≠ some quote := by
    intro hhead
    obtain ⟨rest, rfl⟩ := List.head?_eq_some_iff.mp hhead
    exact Bool.false_ne_true ((hquote rest).symm.trans h)
  have hempty : ¬ text.isEmpty = true := fun hnil => hword rfl (List.isEmpty_iff.mp hnil)
  rw [readValue, if_neg hempty, if_neg (not_or.mpr ⟨hword (by decide), hword (by decide)⟩),
    if_neg (not_or.mpr ⟨hword (by decide), hword (by decide)⟩), if_neg (hfirst fun _ => rfl),
    if_neg (hfirst fun _ => rfl), hvalue]

theorem readString_quoted (h : quote ∉ text) :
    readString quote (quote :: (text ++ [quote])) = .ok (.text (String.ofList text)) := by
  have hinner : ((quote :: (text ++ [quote])).drop 1).dropLast = text := by
    rw [List.drop_one, List.tail_cons, List.dropLast_concat]
  have hlast : (quote :: (text ++ [quote])).getLast? = some quote := by
    rw [← List.cons_append, List.getLast?_concat]
  have hlength : 2 ≤ (quote :: (text ++ [quote])).length := by
    rw [List.length_cons, List.length_append, List.length_singleton]
    omega
  simp only [readString, hinner, hlast, hlength, h, not_false_eq_true, and_self, if_true]

theorem readValue_of_quote (hquote : quote = '\'' ∨ quote = '"') :
    readValue (quote :: rest) = readString quote (quote :: rest) := by
  have hword {word : List Char} (hfirst : word.head? ≠ some quote) : quote :: rest ≠ word := by
    rintro rfl
    exact hfirst rfl
  have hempty : ¬ (quote :: rest).isEmpty = true := Bool.false_ne_true
  rw [readValue, if_neg hempty]
  rcases hquote with rfl | rfl
  · rw [if_neg (not_or.mpr ⟨hword (by decide), hword (by decide)⟩),
      if_neg (not_or.mpr ⟨hword (by decide), hword (by decide)⟩), if_pos List.head?_cons]
  · have hother : ('"' :: rest).head? ≠ some '\'' := by
      rw [List.head?_cons]
      decide
    rw [if_neg (not_or.mpr ⟨hword (by decide), hword (by decide)⟩),
      if_neg (not_or.mpr ⟨hword (by decide), hword (by decide)⟩), if_neg hother,
      if_pos List.head?_cons]

theorem readValue_of_valueText (h : ValueText value text) : readValue text = .ok value := by
  cases h with
  | yes h => rcases h with rfl | rfl <;> decide
  | no h => rcases h with rfl | rfl <;> decide
  | @integer i h =>
    have hnumeric := isNumeric_toString i
    refine readValue_of_isNumeric hnumeric ?_
    rw [readNumber?, if_pos hnumeric, Decimal.readInt64?_toString h]
  | @text quote text hquote h =>
    rw [readValue_of_quote hquote, readString_quoted h, String.ofList_toList]

theorem isBlank_of_isNumeric (h : isNumeric text = true) :
    text.all (fun c => !Text.isBlank c) = true := by
  rw [isNumeric, Bool.and_eq_true, List.all_eq_true] at h
  rw [List.all_eq_true]
  intro c hc
  rw [Bool.not_eq_true']
  rcases Bool.or_eq_true_iff.mp (h.1 c hc) with hdigit | hmark
  · exact isBlank_of_isNamePart (Bool.or_eq_true_iff.mpr (.inr hdigit))
  · have hmarks : ['+', '-', '.', 'e', 'E'].all (fun d => !Text.isBlank d) = true := by decide
    simpa using List.all_eq_true.mp hmarks c (of_decide_eq_true hmark)

theorem ValueText.among (h : ValueText value text) (hbefore : ∀ c ∈ before, Text.isBlank c = true)
    (hafter : ∀ c ∈ after, Text.isBlank c = true) : Text.Among before text after := by
  have hplain (hall : text.all (fun c => !Text.isBlank c) = true) :
      Text.Among before text after := by
    have hmem {c : Char} (hc : c ∈ text) : Text.isBlank c = false := by
      simpa using List.all_eq_true.mp hall c hc
    exact ⟨hbefore, hafter, fun c hc => hmem (List.mem_of_head? hc),
      fun c hc => hmem (List.mem_of_getLast? hc)⟩
  cases h with
  | yes h => exact hplain (by rcases h with rfl | rfl <;> decide)
  | no h => exact hplain (by rcases h with rfl | rfl <;> decide)
  | integer h => exact hplain (isBlank_of_isNumeric (isNumeric_toString _))
  | @text quote text hquote h =>
    have hblank : Text.isBlank quote = false := by rcases hquote with rfl | rfl <;> decide
    refine ⟨hbefore, hafter, fun c hc => ?_, fun c hc => ?_⟩
    · rw [List.head?_cons, Option.mem_some_iff] at hc
      rwa [← hc]
    · rw [← List.cons_append, List.getLast?_concat, Option.mem_some_iff] at hc
      rwa [← hc]

theorem ValueText.piece (h : ValueText value text) (hbefore : ∀ c ∈ before, Text.isBlank c = true)
    (hafter : ∀ c ∈ after, Text.isBlank c = true) :
    Uncut none (before ++ (text ++ after)) none ∧
      Text.trim (before ++ (text ++ after)) = text := by
  refine ⟨(uncut_of_blank hbefore).append ?_, (h.among hbefore hafter).trim_eq⟩
  exact (uncut_of_readValue (readValue_of_valueText h)).append (uncut_of_blank hafter)

end Value

/-! ### Several values -/

section Values

variable {value : OptionValue} {values : List OptionValue} {texts : List (List Char)}
  {part cs : List Char}

theorem Uncut.splitCommas_comma (h : Uncut none part none) (rest : List Char) :
    splitCommas none (part ++ ',' :: rest) = (splitCommas none rest).map (part :: ·) := by
  rw [h, Directive.splitCommas_comma]
  rcases splitCommas none rest with e | parts
  · rfl
  · simp only [Except.map, prepend, List.append_nil]

theorem exists_parts (hne : texts ≠ []) (h : List.Forall₂ ValueText values texts)
    (hspread : Spread (texts.intersperse [','] ++ [[')']]) cs) :
    ∃ inner after parts, cs = inner ++ ')' :: after ∧ (∀ c ∈ after, Text.isBlank c = true) ∧
      splitCommas none inner = .ok parts ∧ parts.map Text.trim = texts := by
  induction h generalizing cs with
  | nil => exact absurd rfl hne
  | @cons value text values texts hvalue hrest ih =>
    cases texts with
    | nil =>
      rw [List.intersperse_singleton, List.singleton_append] at hspread
      obtain ⟨before, rest, rfl, hbefore, hspread⟩ := spread_cons_iff.mp hspread
      obtain ⟨between, after, rfl, hbetween, hspread⟩ := spread_mark_iff.mp hspread
      obtain ⟨huncut, htrim⟩ := hvalue.piece hbefore hbetween
      refine ⟨before ++ (text ++ between), after, _, ?_, spread_nil_iff.mp hspread,
        huncut.splitCommas_eq, ?_⟩
      · simp only [List.append_assoc]
      · rw [List.map_singleton, htrim]
    | cons next texts =>
      rw [List.intersperse_cons_cons, List.cons_append, List.cons_append] at hspread
      obtain ⟨before, rest, rfl, hbefore, hspread⟩ := spread_cons_iff.mp hspread
      obtain ⟨between, rest, rfl, hbetween, hspread⟩ := spread_mark_iff.mp hspread
      obtain ⟨inner, after, parts, rfl, hafter, hparts, htrims⟩ :=
        ih (List.cons_ne_nil _ _) hspread
      obtain ⟨huncut, htrim⟩ := hvalue.piece hbefore hbetween
      refine ⟨before ++ (text ++ between) ++ ',' :: inner, after,
        (before ++ (text ++ between)) :: parts, ?_, hafter, ?_, ?_⟩
      · simp only [List.append_assoc, List.cons_append]
      · rw [huncut.splitCommas_comma, hparts]
        rfl
      · rw [List.map_cons, htrim, htrims]

theorem not_blank_of_parts {inner : List Char} {parts : List (List Char)}
    (h : List.Forall₂ ValueText values (parts.map Text.trim))
    (hparts : splitCommas none inner = .ok parts) : ¬ (Text.trim inner).isEmpty = true := by
  intro hempty
  have hnil := List.isEmpty_iff.mp hempty
  rw [(uncut_of_blank (Text.trim_eq_nil_iff.mp hnil)).splitCommas_eq] at hparts
  cases hparts
  rw [List.map_singleton, hnil] at h
  cases h with
  | cons hvalue hrest => exact readValue_nil_ne_ok (readValue_of_valueText hvalue)

theorem splitArguments_spread (h : List.Forall₂ ValueText values texts)
    (hspread : Spread (texts.intersperse [','] ++ [[')']]) cs) :
    ∃ inner after, cs = inner ++ ')' :: after ∧ (∀ c ∈ after, Text.isBlank c = true) ∧
      splitArguments inner = .ok texts := by
  by_cases hne : texts = []
  · subst hne
    obtain ⟨inner, after, rfl, hinner, hspread⟩ := spread_mark_iff.mp hspread
    refine ⟨inner, after, rfl, spread_nil_iff.mp hspread, ?_⟩
    rw [splitArguments, Text.trim_eq_nil_iff.mpr hinner]
    rfl
  · obtain ⟨inner, after, parts, hcs, hafter, hparts, rfl⟩ := exists_parts hne h hspread
    refine ⟨inner, after, hcs, hafter, ?_⟩
    rw [splitArguments, if_neg (not_blank_of_parts h hparts), hparts]
    rfl

end Values

/-! ### Whole directives -/

section Directives

variable {name source : String} {value : OptionValue} {values : List OptionValue}
  {text : List Char} {texts : List (List Char)}

theorem read_assignTokens (hname : IsName name.toList) (h : ValueText value text)
    (hspread : Spread (assignTokens name text) source.toList) :
    read source = .ok (.assign name value) := by
  obtain ⟨before, rest, hsource, hbefore, hspread⟩ := spread_cons_iff.mp hspread
  obtain ⟨between, rest, rfl, hbetween, hspread⟩ := spread_mark_iff.mp hspread
  obtain ⟨start, stop, rfl, hstart, hspread⟩ := spread_cons_iff.mp hspread
  have htrim := (h.piece hstart (spread_nil_iff.mp hspread)).2
  rw [read_append_iff hsource hbefore hbetween (by decide) (by decide) rfl, readForm_assign_iff,
    Text.trim_trimEnd, htrim]
  exact ⟨hname, readValue_of_valueText h⟩

theorem read_callTokens (hname : IsName name.toList) (h : List.Forall₂ ValueText values texts)
    (hspread : Spread (callTokens name texts) source.toList) :
    read source = .ok (.call name values) := by
  obtain ⟨before, rest, hsource, hbefore, hspread⟩ := spread_cons_iff.mp hspread
  obtain ⟨between, rest, rfl, hbetween, hspread⟩ := spread_mark_iff.mp hspread
  obtain ⟨inner, after, rfl, hafter, harguments⟩ := splitArguments_spread h hspread
  have hend : Text.trimEnd (inner ++ ')' :: after) = inner ++ [')'] := by
    rw [Text.trimEnd, Text.dropTail_append_cons (by decide), Text.dropTail_eq_nil hafter]
  have hvalues : List.Forall₂ (fun text value => readValue text = .ok value) texts values :=
    (h.imp fun _ _ => readValue_of_valueText).flip
  rw [read_append_iff hsource hbefore hbetween (by decide) (by decide) rfl, hend,
    readForm_call_iff]
  exact ⟨hname, texts, harguments, mapM_eq_ok_iff.mpr hvalues⟩

/-- What is written is read. A directive can be written just if it has a name, and values that are
booleans, integers or strings with one kind of quote at most; and however it is written, it is read
back. Blanks around the tokens say nothing, while in a string all characters count. -/
theorem read_written (directive : Directive) :
    ((∃ source, Written directive source) ↔ directive.Writable) ∧
      ∀ source, Written directive source → read source = .ok directive := by
  refine ⟨exists_written_iff, fun source h => ?_⟩
  cases h with
  | assign hname h hspread => exact read_assignTokens hname h hspread
  | call hname h hspread => exact read_callTokens hname h hspread

theorem read_written_marks :
    Written (.call "test" [.text " a,(\"b\")=\n", .integer (-9223372036854775808)])
      " test\t( ' a,(\"b\")=\n' ,-9223372036854775808)\n" ∧
    read " test\t( ' a,(\"b\")=\n' ,-9223372036854775808)\n" =
      .ok (.call "test" [.text " a,(\"b\")=\n", .integer (-9223372036854775808)]) := by
  let least : Int := -9223372036854775808
  have hname : IsName "test".toList :=
    ⟨'t', "est".toList, by decide, by decide, List.all_eq_true.mp (by decide)⟩
  have htexts : List.Forall₂ ValueText [.text " a,(\"b\")=\n", .integer least]
      ['\'' :: (" a,(\"b\")=\n".toList ++ ['\'']), (toString least).toList] :=
    .cons (.text (.inl rfl) (by decide)) (.cons (.integer (by decide)) .nil)
  have hsource : " test\t( ' a,(\"b\")=\n' ,-9223372036854775808)\n".toList =
      [' '] ++ ("test".toList ++ (['\t'] ++ (['('] ++ ([' '] ++
        ('\'' :: (" a,(\"b\")=\n".toList ++ ['\'']) ++ ([' '] ++ ([','] ++ ([] ++
          ((toString least).toList ++ ([] ++ ([')'] ++ ['\n']))))))))))) := by decide
  have hblank {blanks : List Char} (h : blanks.all Text.isBlank = true) :
      ∀ c ∈ blanks, Text.isBlank c = true := List.all_eq_true.mp h
  have hwritten : Written (.call "test" [.text " a,(\"b\")=\n", .integer least])
      " test\t( ' a,(\"b\")=\n' ,-9223372036854775808)\n" := by
    refine .call hname htexts ?_
    rw [hsource]
    exact .cons (hblank (by decide)) (.cons (hblank (by decide)) (.cons (hblank (by decide))
      (.cons (hblank (by decide)) (.cons (hblank (by decide)) (.cons (hblank (by decide))
        (.nil (hblank (by decide))))))))
  exact ⟨hwritten, (read_written _).2 _ hwritten⟩

end Directives

end LinkageCheck.Directive
