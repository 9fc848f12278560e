import LinkageCheck.Options.Basic
import LinkageCheck.Proofs.Decimal.Integers
import LinkageCheck.Proofs.Traversal

/-! Options as typed cells: setting one succeeds just if it takes the value, gives it the value, and
leaves the other cells alone. -/

namespace LinkageCheck

inductive CellType where
  | boolean | int32 | count | number | text
  deriving DecidableEq, Repr

namespace CellType

def Takes : CellType → OptionValue → Prop
  | boolean, .boolean _ => True
  | int32, .integer i => -2 ^ 31 ≤ i ∧ i < 2 ^ 31
  | count, .integer i => 0 ≤ i
  | number, .number _ => True
  | number, .integer _ => True
  | text, .text _ => True
  | _, _ => False

/-- What a cell holds when it has taken a value: the value, or the number next to an integer. -/
def held : CellType → OptionValue → OptionValue
  | number, .integer i => .number (.ofInt i)
  | _, v => v

theorem takes_held {t : CellType} {v : OptionValue} (h : t.Takes v) : t.Takes (t.held v) := by
  cases t <;> cases v <;> exact h

def ReadBy {β : Type} (t : CellType) (shown : β → OptionValue)
    (read : OptionValue → Except OptionError β) : Prop :=
  ∀ v, match read v with
    | .ok x => t.Takes v ∧ shown x = t.held v
    | .error _ => ¬ t.Takes v

end CellType

namespace OptionName

def cell : OptionName → CellType
  | verbosity | maxParseTime => .int32
  | linkageLimit | minNullCount | maxNullCount | shortLength | spellGuess => .count
  | islandsOk | allShortConnectors | displayMorphology | repeatableRand => .boolean
  | disjunctCost => .number
  | test | debug | dialect => .text

theorem mem_all (name : OptionName) : name ∈ all := by
  cases name <;> decide

theorem ofText?_text (name : OptionName) : ofText? name.text = some name := by
  cases name <;> decide

theorem ofText?_eq_some_iff {s : String} {name : OptionName} :
    ofText? s = some name ↔ name.text = s := by
  constructor
  · intro h
    have hmatch := List.find?_some h
    exact beq_iff_eq.mp hmatch
  · rintro rfl
    exact ofText?_text name

theorem text_injective : Function.Injective text := by
  intro name other h
  exact Option.some.inj ((ofText?_text name).symm.trans (ofText?_eq_some_iff.mpr h.symm))

end OptionName

namespace Options

variable {o after : Options} {name other : OptionName} {v : OptionValue}

/-! ### One cell -/

theorem readBoolean_reads (name : OptionName) :
    CellType.boolean.ReadBy .boolean (readBoolean name) := by
  intro v
  cases v with
  | boolean b => exact ⟨trivial, rfl⟩
  | _ => exact id

theorem readInt32_reads (name : OptionName) :
    CellType.int32.ReadBy .integer (readInt32 name) := by
  intro v
  cases v with
  | integer i =>
    by_cases hi : Decimal.fitsBits 32 i = true
    · rw [readInt32, if_pos hi]
      exact ⟨(Decimal.fitsBits_iff 32 i).mp hi, rfl⟩
    · rw [readInt32, if_neg hi]
      exact fun htakes => hi ((Decimal.fitsBits_iff 32 i).mpr htakes)
  | _ => exact id

theorem readCount_reads (name : OptionName) :
    CellType.count.ReadBy (fun n : Nat => .integer n) (readCount name) := by
  intro v
  cases v with
  | integer i =>
    by_cases hi : 0 ≤ i
    · rw [readCount, if_pos hi]
      exact ⟨hi, congrArg OptionValue.integer (Int.toNat_of_nonneg hi)⟩
    · rw [readCount, if_neg hi]
      exact hi
  | _ => exact id

theorem readNumber_reads (name : OptionName) :
    CellType.number.ReadBy .number (readNumber name) := by
  intro v
  cases v with
  | integer i => exact ⟨trivial, rfl⟩
  | number x => exact ⟨trivial, rfl⟩
  | _ => exact id

theorem readText_reads (name : OptionName) : CellType.text.ReadBy .text (readText name) := by
  intro v
  cases v with
  | text s => exact ⟨trivial, rfl⟩
  | _ => exact id

theorem read_spec {β : Type} {t : CellType} {shown : β → OptionValue}
    {read : OptionValue → Except OptionError β} (h : t.ReadBy shown read) (v : OptionValue)
    {write : β → Options} (hget : ∀ x, (write x).get name = shown x) :
    match (read v).map write with
    | .ok after => t.Takes v ∧ after.get name = t.held v
    | .error _ => ¬ t.Takes v := by
  have hread := h v
  rcases hv : read v with e | x
  · rw [hv] at hread
    exact hread
  · rw [hv] at hread
    exact ⟨hread.1, (hget x).trans hread.2⟩

theorem set_spec (o : Options) (name : OptionName) (v : OptionValue) :
    match o.set name v with
    | .ok after => name.cell.Takes v ∧ after.get name = name.cell.held v
    | .error _ => ¬ name.cell.Takes v := by
  cases name
  case verbosity | maxParseTime => exact read_spec (readInt32_reads _) v fun _ => rfl
  case linkageLimit | minNullCount | maxNullCount | shortLength | spellGuess =>
    exact read_spec (readCount_reads _) v fun _ => rfl
  case islandsOk | allShortConnectors | displayMorphology | repeatableRand =>
    exact read_spec (readBoolean_reads _) v fun _ => rfl
  case disjunctCost => exact read_spec (readNumber_reads _) v fun _ => rfl
  case test | debug | dialect => exact read_spec (readText_reads _) v fun _ => rfl

theorem exists_set_iff : (∃ after, o.set name v = .ok after) ↔ name.cell.Takes v := by
  have hspec := o.set_spec name v
  rcases hset : o.set name v with e | after
  · rw [hset] at hspec
    exact ⟨fun ⟨_, h⟩ => (by cases h), fun h => absurd h hspec⟩
  · rw [hset] at hspec
    exact ⟨fun _ => hspec.1, fun _ => ⟨after, rfl⟩⟩

theorem get_set_self (h : o.set name v = .ok after) : after.get name = name.cell.held v := by
  have hspec := o.set_spec name v
  rw [h] at hspec
  exact hspec.2

theorem get_set_of_ne (h : o.set name v = .ok after) (hne : other ≠ name) :
    after.get other = o.get other := by
  cases name <;> obtain ⟨x, -, rfl⟩ := ok_of_map_ok h <;> cases other <;>
    first | rfl | exact absurd rfl hne

theorem eq_of_get_eq (h : ∀ name, o.get name = after.get name) : o = after := by
  have hcount {m n : Nat} (hvalue : OptionValue.integer m = .integer n) : m = n :=
    Int.ofNat.inj (OptionValue.integer.inj hvalue)
  cases o
  cases after
  rw [mk.injEq]
  exact ⟨OptionValue.integer.inj (h .verbosity), hcount (h .linkageLimit),
    hcount (h .minNullCount), hcount (h .maxNullCount), OptionValue.boolean.inj (h .islandsOk),
    hcount (h .shortLength), OptionValue.boolean.inj (h .allShortConnectors),
    OptionValue.boolean.inj (h .displayMorphology), hcount (h .spellGuess),
    OptionValue.number.inj (h .disjunctCost), OptionValue.integer.inj (h .maxParseTime),
    OptionValue.boolean.inj (h .repeatableRand), OptionValue.text.inj (h .test),
    OptionValue.text.inj (h .debug), OptionValue.text.inj (h .dialect)⟩

def Typed (o : Options) : Prop := ∀ name : OptionName, name.cell.Takes (o.get name)

theorem typed_of_takes (hverbosity : CellType.int32.Takes (.integer o.verbosity))
    (htime : CellType.int32.Takes (.integer o.maxParseTime)) : o.Typed := by
  intro name
  cases name
  case verbosity => exact hverbosity
  case maxParseTime => exact htime
  case linkageLimit | minNullCount | maxNullCount | shortLength | spellGuess =>
    exact Int.natCast_nonneg _
  all_goals exact trivial

theorem typed_standard : standard.Typed :=
  typed_of_takes ⟨by decide, by decide⟩ ⟨by decide, by decide⟩

theorem Typed.of_set (h : o.Typed) (hset : o.set name v = .ok after) : after.Typed := by
  intro other
  by_cases hother : other = name
  · subst hother
    rw [get_set_self hset]
    exact CellType.takes_held (exists_set_iff.mp ⟨after, hset⟩)
  · rw [get_set_of_ne hset hother]
    exact h other

theorem held_get (o : Options) (name : OptionName) :
    name.cell.held (o.get name) = o.get name := by
  cases name <;> rfl

theorem Typed.set_get (h : o.Typed) (name : OptionName) : o.set name (o.get name) = .ok o := by
  obtain ⟨after, hset⟩ := exists_set_iff.mpr (h name)
  rw [hset]
  refine congrArg Except.ok (eq_of_get_eq fun other => ?_)
  by_cases hother : other = name
  · subst hother
    rw [get_set_self hset, held_get]
  · exact get_set_of_ne hset hother

/-! ### Cells by their names -/

section Names

variable {text otherText : String}

theorem lookup_eq_ok_iff : lookup text = .ok name ↔ name.text = text := by
  rw [← OptionName.ofText?_eq_some_iff, lookup]
  rcases OptionName.ofText? text with _ | found <;> simp

theorem setByName_eq_ok_iff : o.setByName text v = .ok after ↔
    ∃ name, OptionName.text name = text ∧ o.set name v = .ok after := by
  simp only [← lookup_eq_ok_iff]
  constructor
  · exact ok_of_bind_ok
  · rintro ⟨name, hname, h⟩
    rw [setByName, hname]
    exact h

theorem exists_setByName_iff : (∃ after, o.setByName text v = .ok after) ↔
    ∃ name ∈ OptionName.all, name.text = text ∧ name.cell.Takes v := by
  simp only [setByName_eq_ok_iff, ← exists_set_iff (o := o)]
  constructor
  · rintro ⟨after, name, hname, hset⟩
    exact ⟨name, name.mem_all, hname, after, hset⟩
  · rintro ⟨name, -, hname, after, hset⟩
    exact ⟨after, name, hname, hset⟩

theorem getByName_text (o : Options) (name : OptionName) :
    o.getByName name.text = .ok (o.get name) := by
  rw [getByName, lookup_eq_ok_iff.mpr rfl]
  rfl

theorem getByName_congr (h : ∀ name, OptionName.text name = text → after.get name = o.get name) :
    after.getByName text = o.getByName text := by
  rw [getByName, getByName]
  rcases hname : lookup text with e | name
  · rfl
  · exact congrArg Except.ok (h name (lookup_eq_ok_iff.mp hname))

theorem getByName_setByName (h : o.setByName name.text v = .ok after) :
    after.getByName name.text = .ok (name.cell.held v) := by
  obtain ⟨found, hfound, hset⟩ := setByName_eq_ok_iff.mp h
  obtain rfl : found = name := OptionName.text_injective hfound
  rw [getByName_text, get_set_self hset]

theorem getByName_setByName_of_ne (h : o.setByName text v = .ok after) (hne : otherText ≠ text) :
    after.getByName otherText = o.getByName otherText := by
  obtain ⟨name, rfl, hset⟩ := setByName_eq_ok_iff.mp h
  refine getByName_congr fun other hother => get_set_of_ne hset ?_
  rintro rfl
  exact hne hother.symm

end Names

end Options

end LinkageCheck
