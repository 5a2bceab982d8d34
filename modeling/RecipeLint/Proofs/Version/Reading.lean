/-
**Version texts.**

A version text holds one to three parts between dots, each one a numeral: digits, perhaps behind a
plus sign, for a number that is not too large. Blanks may stand around the text, and numbers that
are left out are zero. These texts are read, and no other ones. So a version that is written is read
back as long as its numbers are not too large.

* `Version.Denotes` — a numeral and its number.
* `Version.Written` — a text and the version that it stands for.
* `Version.number?_eq_some_iff` — the parts that are read are the numerals.
* `Version.read_eq_ok_iff` — the texts that are read are those that stand for a version.
* `Version.written_text_iff` — a written version stands for itself.
* `Version.read_iff_written` — both together.
-/

import Mathlib.Data.List.Forall2
import RecipeLint.Proofs.Text.Numeral
import RecipeLint.Proofs.Text.Parts

namespace RecipeLint.Version

variable {part digits : List Char} {parts : List (List Char)} {number : Nat} {text : String}
  {version : Version}

/-- **A numeral and its number**: decimal digits, perhaps behind a plus sign, and what they are in
base ten. -/
def Denotes (part : List Char) (number : Nat) : Prop :=
  ∃ digits, (part = digits ∨ part = '+' :: digits) ∧ digits ≠ [] ∧
    (∀ c ∈ digits, c.isDigit = true) ∧ Nat.ofDigitChars 10 digits 0 = number ∧
    number ≤ maxVersionNumber

/-- **A text and the version that it stands for**: one to three numerals between dots, and blanks
around them; numbers that are left out are zero. -/
def Written (text : String) (version : Version) : Prop :=
  ∃ before parts after numbers, text.toList = before ++ (['.'].intercalate parts ++ after) ∧
    (∀ c ∈ before, Text.isBlank c = true) ∧ (∀ c ∈ after, Text.isBlank c = true) ∧
    List.Forall₂ Denotes parts numbers ∧ 1 ≤ parts.length ∧ parts.length ≤ 3 ∧
    version = ⟨numbers.getD 0 0, numbers.getD 1 0, numbers.getD 2 0⟩

/-! ### Numerals -/

/-- What is read of the digits of a numeral. -/
theorem bounded_eq_some_iff :
    (do let value ← decimal? digits; if value ≤ maxVersionNumber then some value else none) =
        some number ↔
      digits ≠ [] ∧ (∀ c ∈ digits, c.isDigit = true) ∧ Nat.ofDigitChars 10 digits 0 = number ∧
        number ≤ maxVersionNumber := by
  constructor
  · intro read
    obtain ⟨value, found, small⟩ := Option.bind_eq_some_iff.mp read
    obtain ⟨small, same⟩ := Option.ite_none_right_eq_some.mp small
    obtain ⟨nonempty, all, denoted⟩ := decimal?_eq_some_iff.mp found
    cases same
    exact ⟨nonempty, all, denoted, small⟩
  · rintro ⟨nonempty, all, denoted, small⟩
    have found : decimal? digits = some number := decimal?_eq_some_iff.mpr ⟨nonempty, all, denoted⟩
    rw [found]
    exact if_pos small

/-- **The parts that are read are the numerals**, each one as its number. -/
theorem number?_eq_some_iff : number? part = some number ↔ Denotes part number := by
  unfold number?
  split
  next digits =>
    rw [bounded_eq_some_iff]
    constructor
    · exact fun numeral => ⟨digits, Or.inr rfl, numeral⟩
    · rintro ⟨others, rfl | same, numeral⟩
      · exact absurd (numeral.2.1 '+' List.mem_cons_self) (by decide)
      · cases same
        exact numeral
  next noSign =>
    rw [bounded_eq_some_iff]
    constructor
    · exact fun numeral => ⟨part, Or.inl rfl, numeral⟩
    · rintro ⟨digits, rfl | same, numeral⟩
      · exact numeral
      · exact absurd same (noSign digits)

/-- No character of a numeral is a dot or a blank. -/
theorem Denotes.solid (denotes : Denotes part number) :
    ∀ c ∈ part, c ≠ '.' ∧ Text.isBlank c = false := by
  have ofDigit : ∀ c : Char, c.isDigit = true → c ≠ '.' ∧ Text.isBlank c = false := by
    intro c digit
    have bounds : 48 ≤ c.toNat ∧ c.toNat ≤ 57 := by
      simpa [Char.isDigit, UInt32.le_iff_toNat_le] using digit
    refine ⟨?_, ?_⟩
    · rintro rfl
      exact absurd digit (by decide)
    · simp [Text.isBlank]
      omega
  obtain ⟨digits, rfl | rfl, -, all, -⟩ := denotes
  · exact fun c member => ofDigit c (all c member)
  · exact List.forall_mem_cons.mpr ⟨by decide, fun c member => ofDigit c (all c member)⟩

theorem solid_of_listed {numbers : List Nat} (listed : List.Forall₂ Denotes parts numbers) :
    ∀ part ∈ parts, ∀ c ∈ part, c ≠ '.' ∧ Text.isBlank c = false := by
  induction listed with
  | nil => exact fun part member => absurd member List.not_mem_nil
  | cons denotes later ih => exact List.forall_mem_cons.mpr ⟨denotes.solid, ih⟩

theorem denotes_toString (small : number ≤ maxVersionNumber) :
    Denotes (toString number).toList number :=
  ⟨_, Or.inl rfl, toString_ne_nil number, fun _ => isDigit_of_mem_toString,
    ofDigitChars_toString number, small⟩

/-! ### Parts -/

theorem mapM_eq_some_iff {α β : Type} {step : α → Option β} {items : List α} {results : List β} :
    items.mapM step = some results ↔
      List.Forall₂ (fun item result => step item = some result) items results := by
  induction items generalizing results with
  | nil =>
    rw [List.mapM_nil, List.forall₂_nil_left_iff]
    exact ⟨fun same => (Option.some.inj same).symm, fun same => congrArg some same.symm⟩
  | cons item items ih =>
    rw [List.mapM_cons, List.forall₂_cons_left_iff]
    constructor
    · intro all
      obtain ⟨result, first, all⟩ := Option.bind_eq_some_iff.mp all
      obtain ⟨others, later, all⟩ := Option.bind_eq_some_iff.mp all
      exact ⟨result, others, first, ih.mp later, (Option.some.inj all).symm⟩
    · rintro ⟨result, others, first, later, rfl⟩
      rw [first, ih.mpr later]
      rfl

theorem mapM_number?_eq_some_iff {numbers : List Nat} :
    parts.mapM number? = some numbers ↔ List.Forall₂ Denotes parts numbers := by
  rw [mapM_eq_some_iff]
  exact ⟨List.Forall₂.imp fun _ _ => number?_eq_some_iff.mp,
    List.Forall₂.imp fun _ _ => number?_eq_some_iff.mpr⟩

/-- Numerals are read as a version, with zero for what is left out, unless there are too many. -/
theorem ofParts?_of_listed {numbers : List Nat} (nonempty : parts ≠ [])
    (listed : List.Forall₂ Denotes parts numbers) :
    ofParts? parts =
      if parts.length ≤ 3 then some ⟨numbers.getD 0 0, numbers.getD 1 0, numbers.getD 2 0⟩
      else none := by
  rw [ofParts?, mapM_number?_eq_some_iff.mpr listed, listed.length_eq]
  rcases numbers with _ | ⟨major, _ | ⟨minor, _ | ⟨patch, _ | ⟨more, rest⟩⟩⟩⟩
  case nil => exact absurd (List.forall₂_nil_right_iff.mp listed) nonempty
  all_goals simp

/-- **One to three numerals are read as a version**, and nothing else is. -/
theorem ofParts?_eq_some_iff (nonempty : parts ≠ []) :
    ofParts? parts = some version ↔ ∃ numbers, List.Forall₂ Denotes parts numbers ∧
      parts.length ≤ 3 ∧ version = ⟨numbers.getD 0 0, numbers.getD 1 0, numbers.getD 2 0⟩ := by
  constructor
  · intro parsed
    obtain ⟨numbers, all, -⟩ := Option.bind_eq_some_iff.mp parsed
    have listed := mapM_number?_eq_some_iff.mp all
    rw [ofParts?_of_listed nonempty listed] at parsed
    obtain ⟨few, same⟩ := Option.ite_none_right_eq_some.mp parsed
    exact ⟨numbers, listed, few, (Option.some.inj same).symm⟩
  · rintro ⟨numbers, listed, few, rfl⟩
    rw [ofParts?_of_listed nonempty listed, if_pos few]

/-! ### Texts -/

/-- **The texts that are read are those that stand for a version.** -/
theorem read_eq_ok_iff : read text = .ok version ↔ Written text version := by
  have parsed : read text = .ok version ↔
      ofParts? (Text.splitAt '.' (Text.trim text.toList)) = some version := by
    unfold read
    cases ofParts? (Text.splitAt '.' (Text.trim text.toList)) <;> simp
  rw [parsed, ofParts?_eq_some_iff (Text.splitAt_ne_nil _ _)]
  constructor
  · rintro ⟨numbers, listed, short, same⟩
    obtain ⟨before, after, whole, blankBefore, blankAfter⟩ := Text.exists_trim text.toList
    have nonempty : 1 ≤ (Text.splitAt '.' (Text.trim text.toList)).length :=
      List.length_pos_iff.mpr (Text.splitAt_ne_nil _ _)
    refine ⟨before, _, after, numbers, ?_, blankBefore, blankAfter, listed, nonempty, short, same⟩
    rwa [Text.intercalate_splitAt]
  · rintro ⟨before, parts, after, numbers, whole, blankBefore, blankAfter, listed, nonempty, short,
      same⟩
    have solid := solid_of_listed listed
    have trimmed : Text.trim text.toList = ['.'].intercalate parts := by
      rw [whole, Text.trim_between blankBefore blankAfter]
      refine Text.trim_of_solid (Text.forall_mem_intercalate (by decide) ?_)
      exact fun part member c inside => (solid part member c inside).2
    have split : Text.splitAt '.' (Text.trim text.toList) = parts := by
      rw [trimmed]
      exact Text.splitAt_intercalate (List.length_pos_iff.mp nonempty) fun part member inside =>
        (solid part member '.' inside).1 rfl
    rw [split]
    exact ⟨numbers, listed, short, same⟩

/-! ### Versions that are written -/

/-- The numbers of a version, without a third one that is zero. -/
def shownNumbers (version : Version) : List Nat :=
  if version.patch = 0 then [version.major, version.minor]
  else [version.major, version.minor, version.patch]

/-- A version is written as its numbers with dots between them. -/
theorem toList_text (version : Version) :
    version.text.toList =
      ['.'].intercalate (version.shownNumbers.map fun number => (toString number).toList) := by
  have dot : ".".toList = ['.'] := rfl
  rw [Version.text, shownNumbers]
  split
  next =>
    rw [String.toList_append, String.toList_append, dot, List.map_cons, List.map_singleton,
      List.intercalate_cons_cons, List.intercalate_singleton]
  next =>
    simp only [String.toList_append, dot, List.map_cons, List.map_nil,
      List.intercalate_cons_cons, List.intercalate_singleton, List.append_assoc]

theorem le_maxVersionNumber_of_written (written : Written text version) :
    version.major ≤ maxVersionNumber ∧ version.minor ≤ maxVersionNumber ∧
      version.patch ≤ maxVersionNumber := by
  obtain ⟨before, parts, after, numbers, -, -, -, listed, -, -, rfl⟩ := written
  have small : ∀ index, numbers.getD index 0 ≤ maxVersionNumber := by
    intro index
    induction listed generalizing index with
    | nil => exact Nat.zero_le _
    | cons denotes later ih =>
      cases index with
      | zero =>
        obtain ⟨digits, -, -, -, -, small⟩ := denotes
        exact small
      | succ index => exact ih index
  exact ⟨small 0, small 1, small 2⟩

/-- **A written version stands for itself**, exactly if its numbers are not too large. -/
theorem written_text_iff :
    Written version.text version ↔ version.major ≤ maxVersionNumber ∧
      version.minor ≤ maxVersionNumber ∧ version.patch ≤ maxVersionNumber := by
  refine ⟨le_maxVersionNumber_of_written, fun ⟨major, minor, patch⟩ => ?_⟩
  have nothing : ∀ c ∈ ([] : List Char), Text.isBlank c = true :=
    fun c member => absurd member List.not_mem_nil
  have small : ∀ number ∈ version.shownNumbers, number ≤ maxVersionNumber := by
    unfold shownNumbers
    split <;> simp [major, minor, patch]
  have listed : List.Forall₂ Denotes
      (version.shownNumbers.map fun number => (toString number).toList) version.shownNumbers := by
    rw [List.forall₂_map_left_iff, List.forall₂_same]
    exact fun number member => denotes_toString (small number member)
  refine ⟨[], _, [], _, ?_, nothing, nothing, listed, ?_⟩
  · rw [toList_text, List.append_nil, List.nil_append]
  · obtain ⟨first, second, third⟩ := version
    rw [List.length_map, shownNumbers]
    split
    next zero => simp_all
    next => simp

/-- A version is written with two dots, and with one if its third number is zero. -/
theorem count_dot_text (version : Version) :
    version.text.toList.count '.' = if version.patch = 0 then 1 else 2 := by
  have fresh : ∀ part ∈ version.shownNumbers.map (fun number => (toString number).toList),
      '.' ∉ part := by
    rw [List.forall_mem_map]
    exact fun number _ member => absurd (isDigit_of_mem_toString member) (by decide)
  have nonempty : version.shownNumbers.map (fun number => (toString number).toList) ≠ [] := by
    unfold shownNumbers
    split <;> simp
  have parts := congrArg List.length (Text.splitAt_intercalate nonempty fresh)
  rw [← toList_text, Text.length_splitAt, List.length_map, shownNumbers] at parts
  split
  next zero =>
    rw [if_pos zero] at parts
    exact Nat.succ.inj parts
  next nonzero =>
    rw [if_neg nonzero] at parts
    exact Nat.succ.inj parts

/-- **Which texts are read, and as what.** A text is read as a version if it stands for it, and
refused if it stands for none. A version that is written is read back, exactly if its numbers are
not too large; a third number that is zero is not written. -/
theorem read_iff_written :
    (∀ text version, read text = .ok version ↔ Written text version) ∧
    (∀ text, read text = .error ⟨text⟩ ↔ ∀ version, ¬ Written text version) ∧
    ∀ version : Version,
      (read version.text = .ok version ↔ version.major ≤ maxVersionNumber ∧
        version.minor ≤ maxVersionNumber ∧ version.patch ≤ maxVersionNumber) ∧
      version.text.toList.count '.' = if version.patch = 0 then 1 else 2 := by
  refine ⟨fun text version => read_eq_ok_iff, fun text => ?_, fun version => ⟨?_, ?_⟩⟩
  · simp only [← read_eq_ok_iff]
    constructor
    · intro refused version accepted
      cases refused.symm.trans accepted
    · intro refused
      unfold read at refused ⊢
      cases parsed : ofParts? (Text.splitAt '.' (Text.trim text.toList)) with
      | none => rfl
      | some version =>
        rw [parsed] at refused
        exact absurd rfl (refused version)
  · rw [read_eq_ok_iff, written_text_iff]
  · exact count_dot_text version

example : (read " +015.2\t").toOption = some ⟨15, 2, 0⟩ := by cbv

example : (read "15.2.").toOption = none := by cbv

end RecipeLint.Version
