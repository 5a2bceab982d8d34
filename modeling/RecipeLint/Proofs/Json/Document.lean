/-
**Documents written and read.**

A value that is written with one item a line is read back from its text. What comes behind a value
does not matter if it cannot be taken for more of a number, and blanks and line ends before a value
are passed over; with this, each item of an array or object is read up to the comma or the closing
character that follows it.

* `Scan.string_quoted` — a string in quotes is read back, its escapes included.
* `Scan.number_toString` — so is an integer.
* `Scan.enclosed_between` — items between brackets are read back if each of them is.
* `Scan.value_prettyAt` — so is every value whose numbers are integers, as deep as it nests.
* `read?_pretty` — the text of such a value is the value.
-/

import RecipeLint.Json.Document
import RecipeLint.Proofs.Text.Numeral

namespace RecipeLint.Json

namespace Scan

variable {rest text : List Char}

/-! ### Gaps -/

theorem dropGap_append {gap : List Char} (all : ∀ c ∈ gap, isGap c = true) :
    dropGap (gap ++ text) = dropGap text :=
  List.dropWhile_append_of_pos all

theorem dropGap_cons {c : Char} (counts : isGap c = false) : dropGap (c :: text) = c :: text := by
  rw [dropGap, List.dropWhile_cons, counts]
  rfl

theorem isGap_of_mem_lineBreak {level : Nat} {c : Char} (member : c ∈ (lineBreak level).toList) :
    isGap c = true := by
  rw [lineBreak, String.toList_ofList] at member
  obtain rfl | blank := List.mem_cons.mp member
  · rfl
  · rw [List.eq_of_mem_replicate blank]
    rfl

/-! ### Strings -/

theorem hexValue?_hexDigit {n : Nat} (small : n < 16) :
    Toml.Scan.hexValue? (hexDigit n) = some n := by
  have all : ∀ n, n < 16 → Toml.Scan.hexValue? (hexDigit n) = some n := by decide
  exact all n small

/-- A control character is read from its number. -/
theorem codePoint_control {c : Char} (control : c.toNat < 32) :
    codePoint ('0' :: '0' :: hexDigit (c.toNat / 16) :: hexDigit (c.toNat % 16) :: rest) =
      some (c, rest) := by
  have unit : codeUnit ('0' :: '0' :: hexDigit (c.toNat / 16) :: hexDigit (c.toNat % 16) :: rest) =
      some (c.toNat, rest) := by
    have zero : Toml.Scan.hexValue? '0' = some 0 := by decide
    have number : 16 * (16 * (16 * (16 * 0 + 0) + 0) + c.toNat / 16) + c.toNat % 16 = c.toNat := by
      omega
    simp only [codeUnit, List.mapM_cons, List.mapM_nil, zero,
      hexValue?_hexDigit (by omega : c.toNat / 16 < 16),
      hexValue?_hexDigit (by omega : c.toNat % 16 < 16)]
    show some (16 * (16 * (16 * (16 * 0 + 0) + 0) + c.toNat / 16) + c.toNat % 16, rest) = _
    rw [number]
  have noLeading : isLeading c.toNat = false := by
    rw [isLeading, Bool.and_eq_false_iff, decide_eq_false_iff_not]
    omega
  have noTrailing : isTrailing c.toNat = false := by
    rw [isTrailing, Bool.and_eq_false_iff, decide_eq_false_iff_not]
    omega
  rw [codePoint, unit]
  simp only [Option.bind_eq_bind, Option.bind_some, noLeading, noTrailing, Bool.false_eq_true,
    if_false, Char.ofNat_toNat]
  rfl

section Characters

variable {c : Char} {inner : List Char} {bound : Nat}
  (read : characters bound text = some (inner, rest))

include read

theorem characters_escape {sign : List Char} (escaped : escape (sign ++ text) = some (c, text)) :
    characters (bound + 1) ('\\' :: sign ++ text) = some (c :: inner, rest) := by
  rw [List.cons_append, characters, if_neg (by decide), if_pos rfl, escaped]
  simp only [Option.bind_eq_bind, Option.bind_some, read]
  rfl

/-- A character of a string is read back from what is written for it. -/
theorem characters_escaped :
    characters (bound + 1) (escaped c ++ text) = some (c :: inner, rest) := by
  -- each case of the writer is read by the case of its mark
  unfold escaped
  split
  case isTrue quote => exact characters_escape read (by rw [quote]; rfl)
  split
  case isTrue backslash => exact characters_escape read (by rw [backslash]; rfl)
  split
  case isTrue line => exact characters_escape read (by rw [line]; rfl)
  split
  case isTrue start => exact characters_escape read (by rw [start]; rfl)
  split
  case isTrue tab => exact characters_escape read (by rw [tab]; rfl)
  split
  case isTrue code => exact characters_escape read (by rw [← Char.ofNat_toNat c, code]; rfl)
  split
  case isTrue code => exact characters_escape read (by rw [← Char.ofNat_toNat c, code]; rfl)
  split
  case isTrue control => exact characters_escape read (codePoint_control control)
  case isFalse noQuote noBackslash _ _ _ _ _ noControl =>
    rw [List.singleton_append, characters, if_neg noQuote, if_neg noBackslash, if_neg noControl]
    simp only [Option.bind_eq_bind, Option.bind_some, read]
    rfl

end Characters

theorem escaped_ne_nil (c : Char) : escaped c ≠ [] := by
  unfold escaped
  repeat' split
  all_goals exact List.cons_ne_nil _ _

theorem length_le_length_flatMap {α : Type} {write : α → List Char} (written : ∀ a, write a ≠ [])
    (list : List α) : list.length ≤ (list.flatMap write).length := by
  induction list with
  | nil => exact Nat.zero_le _
  | cons first list ih =>
    have some := List.length_pos_iff.mpr (written first)
    rw [List.flatMap_cons, List.length_append, List.length_cons]
    omega

theorem characters_flatMap_escaped {cs : List Char} {bound : Nat} (enough : cs.length < bound) :
    characters bound (cs.flatMap escaped ++ '"' :: rest) = some (cs, rest) := by
  induction cs generalizing bound with
  | nil =>
    obtain ⟨less, rfl⟩ := Nat.exists_eq_succ_of_ne_zero (Nat.ne_of_gt enough)
    rfl
  | cons c cs ih =>
    obtain ⟨less, rfl⟩ := Nat.exists_eq_succ_of_ne_zero (Nat.ne_of_gt (Nat.zero_lt_of_lt enough))
    rw [List.flatMap_cons, List.append_assoc]
    exact characters_escaped (ih (Nat.lt_of_succ_lt_succ enough))

theorem toList_quoted (name : String) :
    (quoted name).toList = '"' :: (name.toList.flatMap escaped ++ ['"']) := by
  rw [quoted, String.toList_ofList, List.cons_append]

/-- **A string in quotes is read back.** -/
theorem string_quoted (name : String) (rest : List Char) :
    string ((quoted name).toList ++ rest) = some (name, rest) := by
  have enough : name.toList.length <
      (name.toList.flatMap escaped ++ '"' :: rest).length + 1 := by
    have written := length_le_length_flatMap escaped_ne_nil name.toList
    rw [List.length_append]
    omega
  rw [toList_quoted, List.cons_append, List.append_assoc, List.singleton_append, string,
    characters_flatMap_escaped enough]
  simp only [Option.bind_eq_bind, Option.bind_some, String.ofList_toList]
  rfl

/-! ### Numbers -/

/-- A text does not start with what could be taken for more of a number. -/
def Stops (text : List Char) : Prop :=
  ∀ c ∈ text.head?, c.isDigit = false ∧ c ≠ '.' ∧ c ≠ 'e' ∧ c ≠ 'E'

theorem digits_append {run : List Char} (nonempty : run ≠ [])
    (all : ∀ c ∈ run, c.isDigit = true) (stops : Stops rest) :
    digits (run ++ rest) = some (run, rest) := by
  have none : rest.takeWhile Char.isDigit = [] := by
    cases rest with
    | nil => rfl
    | cons c rest => rw [List.takeWhile_cons, (stops c rfl).1]; rfl
  rw [digits, List.takeWhile_append_of_pos all, none, List.append_nil,
    if_neg (by rwa [List.isEmpty_iff]), List.drop_left]

theorem fraction_of_stops (stops : Stops rest) : fraction rest = some ([], rest) := by
  unfold fraction
  split
  · exact absurd rfl (stops '.' rfl).2.1
  · rfl

theorem exponent_of_stops (stops : Stops rest) : exponent rest = some (none, rest) := by
  cases rest with
  | nil => rfl
  | cons c rest =>
    have other := (stops c rfl).2.2
    rw [exponent, if_neg (by rw [not_or]; exact other)]

theorem sign_of_isDigit {plus : Bool} {c : Char} (digit : c.isDigit = true) :
    sign plus (c :: text) = (false, c :: text) := by
  unfold sign
  split
  case h_1 equal => exact absurd ((List.cons.inj equal).1 ▸ digit) (by decide)
  case h_2 equal => exact absurd ((List.cons.inj equal).1 ▸ digit) (by decide)
  case h_3 => rfl

/-- The digits of a number are read to their end, behind a minus sign or without one. -/
theorem number_of_sign (n : Nat) (negative : Bool) (stops : Stops rest)
    (signed : sign false text = (negative, (toString n).toList ++ rest))
    (integer : (negative && n == 0) = false) :
    number text = some (.integer (if negative then -n else n), rest) := by
  have run := digits_append (toString_ne_nil n) (fun c => isDigit_of_mem_toString) stops
  have noZero : ¬ ((toString n).toList.head? = some '0' ∧ (toString n).toList.length ≠ 1) := by
    rintro ⟨zero, long⟩
    obtain rfl | positive := Nat.eq_zero_or_pos n
    · exact long rfl
    · exact head?_toString_ne positive zero
  rw [number, signed]
  simp only [Option.bind_eq_bind, Option.bind_some, run, if_neg noZero, fraction_of_stops stops,
    exponent_of_stops stops, List.append_nil, decimal?_toString, integer]
  rfl

/-- The first character of an integer is a digit or a minus sign. -/
theorem toString_starts (value : Int) :
    ∃ c tail, (toString value).toList = c :: tail ∧ (c.isDigit = true ∨ c = '-') := by
  cases value with
  | ofNat n =>
    obtain ⟨c, tail, split⟩ := List.exists_cons_of_ne_nil (toString_ne_nil n)
    have member : c ∈ (toString n).toList := split ▸ List.mem_cons_self
    exact ⟨c, tail, split, .inl (isDigit_of_mem_toString member)⟩
  | negSucc n => exact ⟨'-', _, String.toList_append, .inr rfl⟩

/-- **An integer is read back.** -/
theorem number_toString (value : Int) (stops : Stops rest) :
    number ((toString value).toList ++ rest) = some (.integer value, rest) := by
  cases value with
  | ofNat n =>
    obtain ⟨c, tail, split⟩ := List.exists_cons_of_ne_nil (toString_ne_nil n)
    have member : c ∈ (toString n).toList := split ▸ List.mem_cons_self
    refine number_of_sign n false stops ?_ rfl
    show sign false ((toString n).toList ++ rest) = _
    rw [split]
    exact sign_of_isDigit (isDigit_of_mem_toString member)
  | negSucc n =>
    have written : (toString (Int.negSucc n)).toList = '-' :: (toString (n + 1)).toList :=
      String.toList_append
    rw [written]
    exact number_of_sign (n + 1) true stops rfl rfl

/-! ### Items -/

/-- Items that are written one behind the other with commas between them are read back. -/
theorem items_flatMap {α : Type} {item : Scan α} {closing : Char} {write : α → List Char}
    {ending : List Char} {list : List α} {bound : Nat} (notComma : closing ≠ ',')
    (notGap : isGap closing = false) (blank : ∀ c ∈ ending, isGap c = true)
    (stops : Stops (ending ++ closing :: rest))
    (reads : ∀ entry ∈ list, ∀ rest, Stops rest → item (write entry ++ rest) = some (entry, rest))
    (first : α) (readsFirst : ∀ rest, Stops rest → item (write first ++ rest) = some (first, rest))
    (enough : list.length < bound) :
    items item closing bound
        (write first ++
          (list.flatMap (fun entry => ',' :: write entry) ++ (ending ++ closing :: rest))) =
      some (first :: list, rest) := by
  induction list generalizing bound first with
  | nil =>
    obtain ⟨less, rfl⟩ := Nat.exists_eq_succ_of_ne_zero (Nat.ne_of_gt enough)
    rw [List.flatMap_nil, List.nil_append, items, readsFirst _ stops]
    simp only [Option.bind_eq_bind, Option.bind_some, dropGap_append blank, dropGap_cons notGap,
      if_neg notComma, if_true]
    rfl
  | cons second list ih =>
    obtain ⟨less, rfl⟩ := Nat.exists_eq_succ_of_ne_zero (Nat.ne_of_gt (Nat.zero_lt_of_lt enough))
    have comma : ∀ text, Stops (',' :: text) := by
      rintro text c ⟨⟩
      decide
    rw [List.flatMap_cons, List.cons_append, List.cons_append, List.append_assoc, items,
      readsFirst _ (comma _)]
    simp only [Option.bind_eq_bind, Option.bind_some, if_true,
      dropGap_cons (show isGap ',' = false by decide)]
    rw [ih (fun entry member => reads entry (List.mem_cons_of_mem _ member)) second
      (reads second List.mem_cons_self) (Nat.lt_of_succ_lt_succ enough)]
    rfl

end Scan

/-! ### Layout -/

/-- What stands between the brackets of an array or object at a depth. -/
def between (level : Nat) : List String → List Char
  | [] => []
  | first :: others =>
    (lineBreak (level + 1)).toList ++ first.toList ++
      (others.flatMap (fun item => ',' :: ((lineBreak (level + 1)).toList ++ item.toList)) ++
        (lineBreak level).toList)

theorem toList_intercalate_cons (separator first : String) (others : List String) :
    (separator.intercalate (first :: others)).toList =
      first.toList ++ others.flatMap fun item => separator.toList ++ item.toList := by
  induction others generalizing first with
  | nil => rw [String.intercalate_singleton, List.flatMap_nil, List.append_nil]
  | cons second others ih =>
    rw [String.intercalate_cons_cons, String.toList_append, String.toList_append, ih second,
      List.flatMap_cons, List.append_assoc, List.append_assoc]

theorem toList_bracketed (opening closing : String) (level : Nat) (items : List String) :
    (bracketed opening closing level items).toList =
      opening.toList ++ (between level items ++ closing.toList) := by
  cases items with
  | nil => exact String.toList_append
  | cons first others =>
    rw [bracketed, if_neg (by simp)]
    simp only [String.toList_append, toList_intercalate_cons, between, List.append_assoc]
    rfl

theorem prettyElements_eq_map (level : Nat) (elements : List Json) :
    prettyElements level elements = elements.map (prettyAt level) := by
  induction elements with
  | nil => rfl
  | cons element elements ih => rw [prettyElements, ih, List.map_cons]

/-- The text of a field at a depth. -/
def prettyField (level : Nat) (field : String × Json) : String :=
  quoted field.1 ++ ": " ++ prettyAt level field.2

theorem prettyFields_eq_map (level : Nat) (fields : List (String × Json)) :
    prettyFields level fields = fields.map (prettyField level) := by
  induction fields with
  | nil => rfl
  | cons field fields ih => rw [prettyFields, ih, List.map_cons, prettyField]

/-- A value of which all numbers are integers and that nests others at most up to a depth. -/
inductive Plain : Nat → Json → Prop
  | null {depth : Nat} : Plain depth .null
  | boolean {depth : Nat} (value : Bool) : Plain depth (.boolean value)
  | integer {depth : Nat} (value : Int) : Plain depth (.integer value)
  | string {depth : Nat} (text : String) : Plain depth (.string text)
  | array {depth : Nat} {elements : List Json} (each : ∀ element ∈ elements, Plain depth element) :
      Plain (depth + 1) (.array elements)
  | object {depth : Nat} {fields : List (String × Json)}
      (each : ∀ field ∈ fields, Plain depth field.2) : Plain (depth + 1) (.object fields)

namespace Scan

theorem stops_of_isGap (blank : ∀ c ∈ text, isGap c = true) : Stops text := by
  intro c first
  have gap := blank c (List.mem_of_mem_head? first)
  simp only [isGap, Bool.or_eq_true, beq_iff_eq] at gap
  obtain ((rfl | rfl) | rfl) | rfl := gap <;> decide

theorem stops_lineBreak (level : Nat) : Stops ((lineBreak level).toList ++ text) := by
  rw [lineBreak, String.toList_ofList]
  rintro c ⟨⟩
  decide

/-- **Items between brackets are read back if each of them is.** The first character of an item is
neither blank nor the closing character, so items are not taken for none. -/
theorem enclosed_between {α : Type} {item : Scan α} {closing : Char} {write : α → String}
    {level : Nat} {list : List α} (notComma : closing ≠ ',') (notGap : isGap closing = false)
    (starts : ∀ entry ∈ list,
      ∃ c tail, (write entry).toList = c :: tail ∧ isGap c = false ∧ c ≠ closing)
    (reads : ∀ entry ∈ list, ∀ rest, Stops rest →
      item ((lineBreak (level + 1)).toList ++ (write entry).toList ++ rest) = some (entry, rest)) :
    enclosed item closing (between level (list.map write) ++ closing :: rest) =
      some (list, rest) := by
  cases list with
  | nil =>
    rw [List.map_nil, between, List.nil_append, enclosed, dropGap_cons notGap]
    exact if_pos rfl
  | cons first list =>
    obtain ⟨c, tail, start, counts, notClosing⟩ := starts first List.mem_cons_self
    have layout : between level ((first :: list).map write) ++ closing :: rest =
        (lineBreak (level + 1)).toList ++ (write first).toList ++
          ((list.flatMap fun entry =>
              ',' :: ((lineBreak (level + 1)).toList ++ (write entry).toList)) ++
            ((lineBreak level).toList ++ closing :: rest)) := by
      simp only [List.map_cons, between, List.flatMap_map, List.append_assoc]
    -- the first item is not the closing character, so the items are read from the line break on
    rw [layout, enclosed, List.append_assoc, dropGap_append fun c => isGap_of_mem_lineBreak, start,
      List.cons_append, dropGap_cons counts]
    refine (if_neg notClosing).trans ?_
    rw [← List.cons_append, ← start, ← List.append_assoc]
    refine items_flatMap notComma notGap (fun c => isGap_of_mem_lineBreak) (stops_lineBreak level)
      (fun entry member => reads entry (List.mem_cons_of_mem _ member)) first
      (reads first List.mem_cons_self) ?_
    have commas := length_le_length_flatMap (fun entry : α => List.cons_ne_nil ','
      ((lineBreak (level + 1)).toList ++ (write entry).toList)) list
    simp only [List.length_append, List.length_cons] at commas ⊢
    omega

/-! ### Values -/

variable {depth : Nat} {given : Json}

theorem value_append {gap : List Char} (blank : ∀ c ∈ gap, isGap c = true) :
    value depth (gap ++ text) = value depth text := by
  cases depth <;> simp only [value, dropGap_append blank]

theorem field_append {gap : List Char} {item : Scan Json} (blank : ∀ c ∈ gap, isGap c = true) :
    field item (gap ++ text) = field item text := by
  simp only [field, dropGap_append blank]

theorem value_eq_scalar {c : Char} (counts : isGap c = false) (noArray : c ≠ '[')
    (noObject : c ≠ '\x7b') : value depth (c :: text) = scalar (c :: text) := by
  cases depth with
  | zero => rw [value, dropGap_cons counts]
  | succ depth =>
    rw [value, dropGap_cons counts]
    split
    case h_1 equal => exact absurd (List.cons.inj equal).1 noArray
    case h_2 equal => exact absurd (List.cons.inj equal).1 noObject
    case h_3 => rfl

theorem prettyAt_array (level : Nat) (elements : List Json) :
    (prettyAt level (.array elements)).toList =
      '[' :: (between level (elements.map (prettyAt (level + 1))) ++ [']']) := by
  rw [prettyAt, toList_bracketed, prettyElements_eq_map]
  rfl

theorem prettyAt_object (level : Nat) (fields : List (String × Json)) :
    (prettyAt level (.object fields)).toList =
      '\x7b' :: (between level (fields.map (prettyField (level + 1))) ++ ['\x7d']) := by
  rw [prettyAt, toList_bracketed, prettyFields_eq_map]
  rfl

theorem ne_of_number {c d : Char} (start : c.isDigit = true ∨ c = '-')
    (other : d.isDigit = false ∧ d ≠ '-') : c ≠ d := by
  rintro rfl
  obtain digit | minus := start
  · exact Bool.noConfusion (other.1.symm.trans digit)
  · exact other.2 minus

theorem isGap_of_number {c : Char} (start : c.isDigit = true ∨ c = '-') : isGap c = false := by
  simp only [isGap, Bool.or_eq_false_iff, beq_eq_false_iff_ne]
  refine ⟨⟨⟨?_, ?_⟩, ?_⟩, ?_⟩ <;> exact ne_of_number start (by decide)

theorem scalar_eq_number {c : Char} (start : c.isDigit = true ∨ c = '-') :
    scalar (c :: text) = number (c :: text) := by
  unfold scalar
  split
  case h_1 equal => exact absurd (List.cons.inj equal).1 (ne_of_number start (by decide))
  case h_2 equal => exact absurd (List.cons.inj equal).1 (ne_of_number start (by decide))
  case h_3 equal => exact absurd (List.cons.inj equal).1 (ne_of_number start (by decide))
  case h_4 equal => exact absurd (List.cons.inj equal).1 (ne_of_number start (by decide))
  case h_5 => rfl

/-- The first character of a value is not blank and closes nothing. -/
theorem prettyAt_starts (plain : Plain depth given) (level : Nat) :
    ∃ c tail, (prettyAt level given).toList = c :: tail ∧ isGap c = false ∧ c ≠ ']' := by
  cases plain with
  | null => exact ⟨'n', ['u', 'l', 'l'], by rw [prettyAt]; rfl, by decide⟩
  | boolean value =>
    cases value
    case false => exact ⟨'f', ['a', 'l', 's', 'e'], by rw [prettyAt]; rfl, by decide⟩
    case true => exact ⟨'t', ['r', 'u', 'e'], by rw [prettyAt]; rfl, by decide⟩
  | integer value =>
    obtain ⟨c, tail, written, start⟩ := toString_starts value
    exact ⟨c, tail, by rw [prettyAt, written], isGap_of_number start,
      ne_of_number start (by decide)⟩
  | string text => exact ⟨'"', _, by rw [prettyAt, toList_quoted], by decide⟩
  | array => exact ⟨'[', _, prettyAt_array _ _, by decide⟩
  | object => exact ⟨'\x7b', _, prettyAt_object _ _, by decide⟩

theorem prettyField_starts (level : Nat) (entry : String × Json) :
    ∃ tail, (prettyField level entry).toList = '"' :: tail := by
  rw [prettyField, String.toList_append, String.toList_append, toList_quoted]
  exact ⟨_, rfl⟩

theorem field_prettyField {level : Nat} {entry : String × Json}
    (read : value depth ((prettyAt level entry.2).toList ++ rest) = some (entry.2, rest)) :
    field (value depth) ((prettyField level entry).toList ++ rest) = some (entry, rest) := by
  have written : (prettyField level entry).toList ++ rest = (quoted entry.1).toList ++
      ':' :: ([' '] ++ ((prettyAt level entry.2).toList ++ rest)) := by
    rw [prettyField, String.toList_append, String.toList_append, List.append_assoc,
      List.append_assoc]
    rfl
  have counts : dropGap ((prettyField level entry).toList ++ rest) =
      (prettyField level entry).toList ++ rest := by
    obtain ⟨tail, start⟩ := prettyField_starts level entry
    rw [start, List.cons_append, dropGap_cons (by decide)]
  have blank : ∀ c ∈ [' '], isGap c = true := List.all_eq_true.mp (by decide)
  rw [field, counts, written, string_quoted]
  simp only [Option.bind_eq_bind, Option.bind_some]
  rw [dropGap_cons (by decide)]
  simp only [value_append blank, read]
  rfl

/-- **A value is read back from its text.** -/
theorem value_prettyAt (plain : Plain depth given) (level : Nat) (stops : Stops rest) :
    value depth ((prettyAt level given).toList ++ rest) = some (given, rest) := by
  -- items are followed by a comma or a line break and not by the end of the text, so the rest is
  -- any text that stops
  induction plain generalizing level rest with
  | null =>
    rw [prettyAt]
    exact (value_eq_scalar (c := 'n') (by decide) (by decide) (by decide)).trans rfl
  | boolean value =>
    rw [prettyAt]
    cases value
    case false => exact (value_eq_scalar (c := 'f') (by decide) (by decide) (by decide)).trans rfl
    case true => exact (value_eq_scalar (c := 't') (by decide) (by decide) (by decide)).trans rfl
  | integer value =>
    have read := number_toString value stops
    obtain ⟨c, tail, written, start⟩ := toString_starts value
    rw [written, List.cons_append] at read
    rw [prettyAt, written, List.cons_append, value_eq_scalar (isGap_of_number start)
      (ne_of_number start (by decide)) (ne_of_number start (by decide)),
      scalar_eq_number start, read]
  | string text =>
    have read := string_quoted text rest
    rw [toList_quoted, List.cons_append] at read
    rw [prettyAt, toList_quoted, List.cons_append,
      value_eq_scalar (by decide) (by decide) (by decide), scalar]
    simp only [read]
    rfl
  | @array depth elements each ih =>
    have starts := fun element member => prettyAt_starts (each element member) (level + 1)
    have reads : ∀ element ∈ elements, ∀ rest, Stops rest →
        value depth
            ((lineBreak (level + 1)).toList ++ (prettyAt (level + 1) element).toList ++ rest) =
          some (element, rest) := by
      intro element member rest stops
      rw [List.append_assoc, value_append fun c => isGap_of_mem_lineBreak]
      exact ih element member (level + 1) stops
    rw [prettyAt_array, List.cons_append, List.append_assoc, List.singleton_append, value,
      dropGap_cons (by decide)]
    simp only [enclosed_between (by decide) (by decide) starts reads]
    rfl
  | @object depth fields each ih =>
    have starts : ∀ entry ∈ fields, ∃ c tail, (prettyField (level + 1) entry).toList = c :: tail ∧
        isGap c = false ∧ c ≠ '\x7d' := by
      intro entry _
      obtain ⟨tail, start⟩ := prettyField_starts (level + 1) entry
      exact ⟨'"', tail, start, by decide⟩
    have reads : ∀ entry ∈ fields, ∀ rest, Stops rest →
        field (value depth)
            ((lineBreak (level + 1)).toList ++ (prettyField (level + 1) entry).toList ++ rest) =
          some (entry, rest) := by
      intro entry member rest stops
      rw [List.append_assoc, field_append fun c => isGap_of_mem_lineBreak]
      exact field_prettyField (ih entry member (level + 1) stops)
    rw [prettyAt_object, List.cons_append, List.append_assoc, List.singleton_append, value,
      dropGap_cons (by decide)]
    simp only [enclosed_between (by decide) (by decide) starts reads]
    rfl

end Scan

/-- **The text of a value is the value**, if its numbers are integers and it does not nest deeper
than values may. Blanks and line ends behind it do not matter. -/
theorem read?_pretty {given : Json} {ending : String} (plain : Plain depthLimit given)
    (blank : ∀ c ∈ ending.toList, Scan.isGap c = true) :
    read? (given.pretty ++ ending) = some given := by
  have passed : Scan.dropGap ending.toList = [] := by
    rw [← List.append_nil ending.toList, Scan.dropGap_append blank]
    rfl
  rw [read?, pretty, String.toList_append, Scan.value_prettyAt plain 0 (Scan.stops_of_isGap blank)]
  simp only [Option.bind_eq_bind, Option.bind_some, passed]
  rfl

end RecipeLint.Json
