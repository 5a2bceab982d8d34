/-
**Directives in a header.**

A comment about the copyright can hold a directive. Its header keeps only what names the holder, so
it holds the directive of the holder and no other one. Replacing old names of the company leaves a
directive as it is unless one of them stands in its list or in its reason, or one after which the
rest of the line is replaced stands before it.

A renamed text is cut at the signs of a directive, which no old name holds; each piece is renamed on
its own.

* `rename_append_cons`, `exists_of_rename` — renaming on both sides of such a sign.
* `reasonOf?_rename` — renaming brings up no reason and keeps one without old names.
* `Spares`, `read?_rename` — the directives that renaming leaves as they are.
* `read?_header` — what a header allows.
-/

import RecipeLint.Proofs.Directive.Form
import RecipeLint.Proofs.Rules.Copyright.Header

namespace RecipeLint.Rules.Copyright

variable {part replacement front rest text old : List Char} {c first : Char}

/-- All names of the company that are replaced. -/
def formerNames : List (List Char) := "Opscode".toList :: oldNames

/-- A text with the old name of the company replaced that does not end its line. -/
def replaced (text : List Char) : List Char :=
  replaceFrom "Opscode".toList "Chef Software".toList 0 text

/-! ### Renaming on both sides of a sign -/

/-- A part is replaced on each side of a character that it does not hold. -/
theorem replaceFrom_append_cons (foreign : c ∉ first :: part) {skip : Nat}
    (inside : skip ≤ front.length) :
    replaceFrom (first :: part) replacement skip (front ++ c :: rest) =
      replaceFrom (first :: part) replacement skip front ++
        c :: replaceFrom (first :: part) replacement 0 rest := by
  induction front generalizing skip with
  | nil =>
    obtain rfl : skip = 0 := Nat.le_zero.mp inside
    have absent : ¬ first :: part <+: c :: rest := fun starts =>
      List.ne_of_not_mem_cons foreign (List.cons_prefix_cons.mp starts).1.symm
    show replaceFrom _ _ 0 (c :: rest) = c :: replaceFrom _ _ 0 rest
    rw [replaceFrom, Text.strip?_eq_none_iff.mpr absent]
  | cons d front ih =>
    cases skip with
    | succ skip => exact ih (Nat.le_of_succ_le_succ inside)
    | zero =>
      by_cases starts : first :: part <+: d :: front
      · obtain ⟨behind, whole⟩ := starts
        have long : part.length ≤ front.length := by
          have lengths := congrArg List.length whole
          simp only [List.length_append, List.length_cons] at lengths
          omega
        have short : Text.strip? (first :: part) (d :: front) = some behind := by
          rw [← whole, Text.strip?_append]
        have wide : Text.strip? (first :: part) (d :: (front ++ c :: rest)) =
            some (behind ++ c :: rest) := by
          rw [← List.cons_append, ← whole, List.append_assoc, Text.strip?_append]
        rw [List.cons_append, replaceFrom, replaceFrom, short, wide]
        show replacement ++ replaceFrom _ _ part.length _ = _
        rw [ih long, ← List.append_assoc]
        rfl
      · have wide : ¬ first :: part <+: d :: (front ++ c :: rest) := fun here =>
          starts (Text.prefix_of_prefix_append_cons foreign here)
        rw [List.cons_append, replaceFrom, replaceFrom, Text.strip?_eq_none_iff.mpr starts,
          Text.strip?_eq_none_iff.mpr wide]
        show d :: replaceFrom _ _ 0 _ = _
        rw [ih (Nat.zero_le _)]
        rfl

/-- The rest of a line is replaced behind a character that no old name holds, if none stands before
it. -/
theorem renameIncorporated_append_cons (foreign : ∀ old ∈ oldNames, c ∉ old)
    (absent : ∀ old ∈ oldNames, ¬ old <:+: front) :
    renameIncorporated (front ++ c :: rest) = front ++ c :: renameIncorporated rest := by
  induction front with
  | nil =>
    refine renameIncorporated_cons fun old member here => ?_
    have starts : old <+: [] ++ c :: rest := here
    have nothing : old <+: [] := Text.prefix_of_prefix_append_cons (foreign old member) starts
    rw [List.prefix_nil.mp nothing] at member
    exact absurd member (by decide)
  | cons d front ih =>
    have here : ∀ old ∈ oldNames, ¬ old <+: d :: (front ++ c :: rest) := fun old member starts =>
      absent old member (Text.prefix_of_prefix_append_cons (foreign old member) starts).isInfix
    rw [List.cons_append, renameIncorporated_cons here,
      ih fun old member later => absent old member (List.infix_cons later), List.cons_append]

/-- Nothing is left behind an old name. -/
theorem renameIncorporated_append_of_occurs (foreign : ∀ old ∈ oldNames, c ∉ old)
    (occurs : ∃ old ∈ oldNames, old <:+: front) :
    renameIncorporated (front ++ c :: rest) = renameIncorporated front := by
  induction front with
  | nil =>
    obtain ⟨old, member, here⟩ := occurs
    rw [List.infix_nil.mp here] at member
    exact absurd member (by decide)
  | cons d front ih =>
    by_cases starts : ∃ old ∈ oldNames, old <+: d :: front
    · have wide : ∃ old ∈ oldNames, old <+: d :: front ++ c :: rest :=
        let ⟨old, member, here⟩ := starts
        ⟨old, member, here.trans (List.prefix_append _ _)⟩
      rw [renameIncorporated_of_starts starts, renameIncorporated_of_starts wide]
    · have short : ∀ old ∈ oldNames, ¬ old <+: d :: front :=
        fun old member here => starts ⟨old, member, here⟩
      have wide : ∀ old ∈ oldNames, ¬ old <+: d :: (front ++ c :: rest) := fun old member here =>
        short old member (Text.prefix_of_prefix_append_cons (foreign old member) here)
      have later : ∃ old ∈ oldNames, old <:+: front := by
        obtain ⟨old, member, here⟩ := occurs
        rcases List.infix_cons_iff.mp here with now | later
        · exact absurd now (short old member)
        · exact ⟨old, member, later⟩
      rw [List.cons_append, renameIncorporated_cons wide, renameIncorporated_cons short, ih later]

/-- Replacing the one old name brings up none of the others: what is put in holds the first
character of such a name only at its start, where the name does not go on. -/
theorem not_infix_replaceFrom_of_oldNames (member : old ∈ oldNames) {skip : Nat}
    (absent : ¬ old <:+: text) :
    ¬ old <:+: replaceFrom "Opscode".toList "Chef Software".toList skip text := by
  obtain ⟨word, rfl, foreign, different⟩ : ∃ word, old = 'C' :: word ∧ 'C' ∉ word ∧
      ∀ tail, ¬ word <+: "hef Software".toList ++ tail := by
    have facts : ∀ old ∈ oldNames, old = 'C' :: old.tail ∧ 'C' ∉ old.tail ∧
        ¬ old.tail <+: "hef Software".toList ∧
        old.tail.length ≤ "hef Software".toList.length := by decide
    obtain ⟨shape, foreign, different, short⟩ := facts old member
    exact ⟨old.tail, shape, foreign, fun tail starts => different
      (List.prefix_of_prefix_length_le starts (List.prefix_append _ _) short)⟩
  induction text generalizing skip with
  | nil => cases skip <;> exact absent
  | cons d text ih =>
    rw [List.infix_cons_iff, not_or] at absent
    cases skip with
    | succ skip => exact ih absent.2
    | zero =>
      rw [replaceFrom]
      split
      next =>
        show ¬ 'C' :: word <:+: 'C' :: ("hef Software".toList ++ _)
        rw [List.infix_cons_iff, not_or, List.cons_prefix_cons, not_and]
        exact ⟨fun _ => different _, fun occurs =>
          ih absent.2 (Text.infix_of_infix_append (by decide) occurs)⟩
      next missing =>
        rw [List.infix_cons_iff, not_or]
        refine ⟨fun starts => ?_, ih absent.2⟩
        rw [List.cons_prefix_cons] at starts
        exact absent.1 (List.cons_prefix_cons.mpr
          ⟨starts.1, prefix_of_prefix_replaceFrom foreign starts.2⟩)

/-- The signs of a directive, which no name of the company holds. -/
def signs : List Char := ['#', ')', '"']

theorem eq_of_mem_signs (sign : c ∈ signs) : c = '#' ∨ c = ')' ∨ c = '"' := by
  simpa only [signs, List.mem_cons, List.not_mem_nil, or_false] using sign

theorem not_mem_formerNames (sign : c ∈ signs) : ∀ old ∈ formerNames, c ∉ old := by
  obtain rfl | rfl | rfl := eq_of_mem_signs sign <;> decide

theorem not_mem_oldNames (sign : c ∈ signs) : ∀ old ∈ oldNames, c ∉ old :=
  fun old member => not_mem_formerNames sign old (List.mem_cons_of_mem _ member)

theorem not_mem_presentName (sign : c ∈ signs) : c ∉ presentName ∧ 'C' ∉ [c] := by
  obtain rfl | rfl | rfl := eq_of_mem_signs sign <;> decide

theorem not_mem_replaced (sign : c ∈ signs) (fresh : c ∉ text) : c ∉ replaced text := by
  obtain ⟨absent, foreign⟩ := not_mem_presentName sign
  have missing : c ∉ 'C' :: "hef Software".toList := fun member =>
    absent ((by decide : "Chef Software".toList ⊆ presentName) member)
  intro member
  have occurs : [c] <:+: text :=
    infix_of_infix_replaceFrom foreign missing ((List.singleton_infix_iff _ _).mpr member)
  exact fresh ((List.singleton_infix_iff _ _).mp occurs)

/-- **A renamed text is cut at a sign**, unless an old name after which nothing is left stands
before the sign. -/
theorem rename_append_cons (sign : c ∈ signs) (absent : ∀ old ∈ oldNames, ¬ old <:+: front) :
    rename (front ++ c :: rest) = replaced front ++ c :: rename rest := by
  have foreign := not_mem_formerNames sign
  have cut : replaced (front ++ c :: rest) = replaced front ++ c :: replaced rest :=
    replaceFrom_append_cons (foreign _ List.mem_cons_self) (Nat.zero_le _)
  have clear : ∀ old ∈ oldNames, ¬ old <:+: replaced front :=
    fun old member => not_infix_replaceFrom_of_oldNames member (absent old member)
  show renameIncorporated (replaced (front ++ c :: rest)) = _
  rw [cut, renameIncorporated_append_cons (not_mem_oldNames sign) clear]
  rfl

/-- A piece without old names is kept. -/
theorem rename_append_cons_of_absent (sign : c ∈ signs)
    (absent : ∀ old ∈ formerNames, ¬ old <:+: front) :
    rename (front ++ c :: rest) = front ++ c :: rename rest := by
  rw [rename_append_cons sign fun old member => absent old (List.mem_cons_of_mem _ member),
    replaced, replaceFrom_eq_self (absent _ List.mem_cons_self)]

/-- The letters old names start with. -/
def capitals : List Char := ['C', 'O']

/-- Old names start with a capital letter, so none starts in a text without one. -/
theorem absent_of_append (plain : ∀ c ∈ capitals, c ∉ front)
    (absent : ∀ old ∈ formerNames, ¬ old <:+: rest) :
    ∀ old ∈ formerNames, ¬ old <:+: front ++ rest := by
  have capital : ∀ old ∈ formerNames, old.head? ∈ capitals.map some := by decide
  intro old member occurs
  obtain ⟨c, isCapital, starts⟩ := List.mem_map.mp (capital old member)
  obtain ⟨tail, rfl⟩ := List.head?_eq_some_iff.mp starts.symm
  exact absent _ member (Text.infix_of_infix_append (plain c isCapital) occurs)

/-- **A sign in a renamed text stood in the text**, and the pieces before and behind it are those of
the text, renamed. -/
theorem exists_of_rename (sign : c ∈ signs) {before after : List Char} (fresh : c ∉ before)
    (renamed : rename text = before ++ c :: after) :
    ∃ front rest, text = front ++ c :: rest ∧ c ∉ front ∧ before = replaced front ∧
      after = rename rest := by
  obtain ⟨absent, foreign⟩ := not_mem_presentName sign
  have occurs : [c] <:+: text :=
    infix_of_infix_rename foreign absent ⟨before, after, by rw [renamed]; simp⟩
  obtain ⟨front, rest, rfl, first⟩ :=
    List.eq_append_cons_of_mem ((List.singleton_infix_iff _ _).mp occurs)
  have cut : replaced (front ++ c :: rest) = replaced front ++ c :: replaced rest :=
    replaceFrom_append_cons (not_mem_formerNames sign _ List.mem_cons_self) (Nat.zero_le _)
  have clear : c ∉ replaced front := not_mem_replaced sign first
  have whole : rename (front ++ c :: rest) =
      renameIncorporated (replaced front ++ c :: replaced rest) := congrArg _ cut
  rw [whole] at renamed
  by_cases ended : ∃ old ∈ oldNames, old <:+: replaced front
  · -- the sign would be lost behind the old name
    rw [renameIncorporated_append_of_occurs (not_mem_oldNames sign) ended] at renamed
    have kept : [c] <:+: replaced front :=
      infix_of_infix_renameIncorporated foreign
        (fun within => absent (within.subset List.mem_cons_self))
        ⟨before, after, by rw [renamed]; simp⟩
    exact absurd ((List.singleton_infix_iff _ _).mp kept) clear
  · have open' : ∀ old ∈ oldNames, ¬ old <:+: replaced front :=
      fun old member here => ended ⟨old, member, here⟩
    rw [renameIncorporated_append_cons (not_mem_oldNames sign) open'] at renamed
    have here : Text.breakOn? [c] (replaced front ++ c :: renameIncorporated (replaced rest)) =
        some (replaced front, renameIncorporated (replaced rest)) :=
      Text.breakOn?_singleton_iff.mpr ⟨rfl, clear⟩
    have there : Text.breakOn? [c] (replaced front ++ c :: renameIncorporated (replaced rest)) =
        some (before, after) := Text.breakOn?_singleton_iff.mpr ⟨renamed, fresh⟩
    rw [here] at there
    cases there
    exact ⟨front, rest, rfl, first, rfl, rfl⟩

/-! ### Reasons -/

/-- Words between blanks hold the characters of the words and blanks. -/
theorem not_mem_between {gap word lead : List Char} (blankGap : ∀ c ∈ gap, Text.isBlank c = true)
    (blankLead : ∀ c ∈ lead, Text.isBlank c = true) (solid : Text.isBlank c = false)
    (absent : c ∉ word) : c ∉ gap ++ (word ++ lead) := by
  have blankless {blanks : List Char} (blank : ∀ c ∈ blanks, Text.isBlank c = true) : c ∉ blanks :=
    fun member => by simp [blank c member] at solid
  simp [blankless blankGap, blankless blankLead, absent]

/-- **Renaming keeps a reason without old names.** -/
theorem reasonOf?_rename_eq_some {reason : String}
    (found : Directive.reasonOf? rest = some reason)
    (absent : ∀ old ∈ formerNames, ¬ old <:+: reason.toList) :
    Directive.reasonOf? (rename rest) = some reason := by
  obtain ⟨gap, lead, tail, whole, blankGap, blankLead, fresh, solid⟩ :=
    Directive.reasonOf?_eq_some_iff.mp found
  have facts : ∀ c ∈ capitals, Text.isBlank c = false ∧ c ∉ Directive.reasonSign :=
    List.forall_mem_cons.mpr ⟨by decide, List.forall_mem_singleton.mpr (by decide)⟩
  have clear : ∀ old ∈ formerNames, ¬ old <:+: gap ++ (Directive.reasonSign ++ lead) ++ [] :=
    absent_of_append (fun c capital =>
      not_mem_between blankGap blankLead (facts c capital).1 (facts c capital).2) (by decide)
  rw [List.append_nil] at clear
  have regrouped : rest = (gap ++ (Directive.reasonSign ++ lead)) ++ '"' ::
      (reason.toList ++ '"' :: tail) := by simp [whole]
  refine Directive.reasonOf?_eq_some_iff.mpr
    ⟨gap, lead, rename tail, ?_, blankGap, blankLead, fresh, solid⟩
  rw [regrouped, rename_append_cons_of_absent (by decide) clear,
    rename_append_cons_of_absent (by decide) absent]
  simp

/-- What holds no capital letter after replacing has not been changed. -/
theorem replaced_eq_self (plain : 'C' ∉ replaced text) : replaced text = text := by
  induction text with
  | nil => rfl
  | cons c rest ih =>
    cases starts : Text.strip? "Opscode".toList (c :: rest) with
    | some behind =>
      rw [replaced, replaceFrom, starts] at plain
      exact absurd List.mem_cons_self plain
    | none =>
      have kept : replaced (c :: rest) = c :: replaced rest := by
        rw [replaced, replaceFrom, starts, replaced]
      rw [kept] at plain ⊢
      rw [ih (List.not_mem_of_not_mem_cons plain)]

/-- **Renaming brings up no reason.** -/
theorem reasonOf?_rename_eq_none (missing : Directive.reasonOf? rest = none) :
    Directive.reasonOf? (rename rest) = none := by
  rw [Option.eq_none_iff_forall_ne_some] at missing ⊢
  intro reason found
  obtain ⟨gap, lead, tail, whole, blankGap, blankLead, fresh, solid⟩ :=
    Directive.reasonOf?_eq_some_iff.mp found
  have plain : 'C' ∉ gap ++ (Directive.reasonSign ++ lead) :=
    not_mem_between blankGap blankLead (by decide) (by decide)
  have unquoted : '"' ∉ gap ++ (Directive.reasonSign ++ lead) :=
    not_mem_between blankGap blankLead (by decide) (by decide)
  have regrouped : rename rest = (gap ++ (Directive.reasonSign ++ lead)) ++ '"' ::
      (reason.toList ++ '"' :: tail) := by simp [whole]
  obtain ⟨front, after, rfl, -, sameFront, behind⟩ :=
    exists_of_rename (by decide) unquoted regrouped
  obtain ⟨given, last, rfl, freshGiven, sameReason, -⟩ :=
    exists_of_rename (by decide) fresh behind.symm
  have kept : replaced front = front := replaced_eq_self (sameFront ▸ plain)
  have solidGiven : Text.isBlankText given = false := by
    rw [Bool.eq_false_iff]
    intro blank
    have unnamed : ¬ "Opscode".toList <:+: given := fun occurs =>
      absurd (List.all_eq_true.mp blank 'O' (occurs.subset (by decide))) (by decide)
    rw [sameReason, replaced, replaceFrom_eq_self unnamed, blank] at solid
    cases solid
  have read : Directive.reasonOf? (front ++ '"' :: (given ++ '"' :: last)) =
      some (String.ofList given) := by
    refine Directive.reasonOf?_eq_some_iff.mpr ⟨gap, lead, last, ?_, blankGap, blankLead, ?_, ?_⟩
    · rw [← kept, ← sameFront]
      simp
    · rwa [String.toList_ofList]
    · rwa [String.toList_ofList]
  exact missing _ read

/-! ### Directives -/

/-- **What renaming leaves of a directive as it is**: its list, its reason, and its place on the
line. -/
structure Spares (form : Directive.Form) : Prop where
  /-- The rest of the line is not replaced from a place before the directive on. -/
  before : ∀ old ∈ oldNames, ¬ old <:+: form.before
  /-- No old name stands in the list. -/
  list : ∀ old ∈ formerNames, ¬ old <:+: form.list
  /-- No old name stands in the reason. -/
  reason : ∀ reason, Directive.reasonOf? form.rest = some reason →
    ∀ old ∈ formerNames, ¬ old <:+: reason.toList

/-- **Renaming leaves a directive as it is** if no old name stands where it counts. -/
theorem read?_rename {form : Directive.Form} (proper : form.IsProper) (spares : Spares form) :
    Directive.read? (rename form.text) = Directive.read? form.text := by
  let changed : Directive.Form :=
    { form with before := replaced form.before, rest := rename form.rest }
  have whole : rename form.text = changed.text := by
    let middle := form.gap ++ (Directive.marker ++ form.lead) ++ Directive.opening
    have facts : ∀ c ∈ capitals, Text.isBlank c = false ∧ c ∉ Directive.marker ∧
        c ∉ Directive.opening :=
      List.forall_mem_cons.mpr ⟨by decide, List.forall_mem_singleton.mpr (by decide)⟩
    have plain : ∀ c ∈ capitals, c ∉ middle := by
      intro c capital member
      obtain ⟨solid, noMarker, noOpening⟩ := facts c capital
      rcases List.mem_append.mp member with before | within
      · exact not_mem_between proper.gap proper.lead solid noMarker (by simpa using before)
      · exact noOpening within
    have regrouped : form.text =
        form.before ++ '#' :: ((middle ++ form.list) ++ ')' :: form.rest) := by
      simp [Directive.Form.text, middle]
    rw [regrouped, rename_append_cons (by decide) spares.before,
      rename_append_cons_of_absent (by decide) (absent_of_append plain spares.list)]
    simp [Directive.Form.text, middle, changed]
  have changedProper : changed.IsProper := by
    refine ⟨fun occurs => proper.first ?_, proper.gap, proper.lead, proper.closed⟩
    exact infix_of_infix_replaceFrom (by decide) (by decide) occurs
  have reasons : Directive.reasonOf? (rename form.rest) = Directive.reasonOf? form.rest := by
    cases found : Directive.reasonOf? form.rest with
    | none => exact reasonOf?_rename_eq_none found
    | some reason => exact reasonOf?_rename_eq_some found (spares.reason reason found)
  rw [whole, Directive.read?_text changedProper, Directive.read?_text proper, reasons]

/-! ### Headers -/

theorem not_mem_yearRange (text : List Char) (current : Int) :
    'c' ∉ (yearRange text current).toList := by
  have natural (n : Nat) : 'c' ∉ (toString n).toList := fun member =>
    absurd (isDigit_of_mem_toString member) (by decide)
  have integer : 'c' ∉ (toString current).toList := by
    cases current with
    | ofNat n => exact natural n
    | negSucc n =>
      have signed : (toString (Int.negSucc n)).toList = '-' :: (toString (n + 1)).toList := by
        show ("-" ++ toString (n + 1)).toList = _
        rw [String.toList_append]
        rfl
      rw [signed, List.mem_cons, not_or]
      exact ⟨by decide, natural (n + 1)⟩
  unfold yearRange
  split
  next oldest =>
    split
    next =>
      rw [String.toList_append, String.toList_append, List.mem_append, List.mem_append, not_or,
        not_or]
      exact ⟨⟨natural _, by decide⟩, integer⟩
    next => exact integer
  next => exact integer

/-- A header allows what its holder allows. -/
theorem read?_headerText {range : List Char} (plain : 'c' ∉ range) (name : List Char) :
    Directive.read? (headerText range name) = Directive.read? name := by
  let front := ('#' :: ' ' :: keyword ++ [':', ':', ' '] ++ range) ++ ',' :: [' ']
  have regrouped : headerText range name = front ++ name := by
    simp [headerText, front]
  have fresh : 'c' ∉ front := by
    intro member
    rcases List.mem_append.mp member with beginning | separator
    · rcases List.mem_append.mp beginning with sign | inRange
      · exact absurd sign (by decide)
      · exact plain inRange
    · exact absurd separator (by decide)
  have other : (Text.trimEnd front).getLast? ≠ some '#' := by
    have space : ∀ c ∈ [' '], Text.isBlank c = true := List.all_eq_true.mp (by decide)
    rw [Text.trimEnd_append_cons _ _ (by decide), Text.trimEnd_of_blank space,
      List.getLast?_concat]
    decide
  rw [regrouped, Directive.read?_append fresh other]

/-- The part of a text that names the holder, before old names in it are replaced. -/
def nameOf (text : List Char) : List Char :=
  lineOf (dropSeparator ((afterYears? text).getD []))

/-- **A header allows what the holder of the comment allows.** This is what the part of the comment
that names the holder allows, if renaming spares it, and nothing if no directive is marked there. -/
theorem read?_header {text header : String} {current : Int}
    (rewritten : header? text current = some header) :
    Directive.read? header.toList = Directive.read? (holder text.toList) ∧
      (∀ form : Directive.Form, form.IsProper → form.text = nameOf text.toList → Spares form →
        Directive.read? header.toList = Directive.read? (nameOf text.toList)) ∧
      (¬ Directive.marker <:+: nameOf text.toList → Directive.read? header.toList = none) := by
  have same : Directive.read? header.toList = Directive.read? (holder text.toList) := by
    rw [eq_of_header?_eq_some rewritten, String.toList_ofList,
      read?_headerText (not_mem_yearRange text.toList current)]
  refine ⟨same, fun form proper whole spares => ?_, fun unmarked => ?_⟩
  · rw [same, ← whole]
    show Directive.read? (rename (nameOf text.toList)) = _
    rw [← whole, read?_rename proper spares]
  · rw [same]
    have missing : ¬ Directive.marker <:+: holder text.toList := fun occurs =>
      unmarked (infix_of_infix_replaceFrom (by decide) (by decide)
        (infix_of_infix_renameIncorporated (by decide) (by decide) occurs))
    cases found : Text.breakOn? Directive.marker (holder text.toList) with
    | none => rw [Directive.read?, found]; rfl
    | some parts =>
      exact absurd ⟨parts.1, parts.2, (Text.breakOn?_eq_some found).symm⟩ missing

namespace Sample

/-- A directive behind the year. -/
def late : String := "# Copyright 2010 Opscode # cookbook-lint: allow(CL002) reason=\"ours\""

/-- The header for it. -/
def lateHeader : String :=
  "# Copyright:: 2010-2024, Chef Software # cookbook-lint: allow(CL002) reason=\"ours\""

/-- What names the holder there, taken apart. -/
def lateForm : Directive.Form :=
  ⟨"Opscode ".toList, " ".toList, " ".toList, "CL002".toList, " reason=\"ours\"".toList⟩

/-- A directive before the year. -/
def early : String := "# cookbook-lint: allow(CL002) # Copyright 2010 Acme"

/-- A directive behind a name after which the rest of the line is replaced. -/
def behindName : String := "# Copyright 2010 Chef Inc # cookbook-lint: allow(CL002)"

/-- A directive with an old name in its reason. -/
def reasoned : String := "# Copyright 2010 Acme # cookbook-lint: allow(CL002) reason=\"by Opscode\""

/-- The header for it. -/
def renamedReason : String :=
  "# Copyright:: 2010-2024, Acme # cookbook-lint: allow(CL002) reason=\"by Chef Software\""

theorem lateForm_isProper : lateForm.IsProper :=
  ⟨by decide, List.all_eq_true.mp (by decide), List.all_eq_true.mp (by decide), by decide⟩

theorem lateForm_spares : Spares lateForm := by
  refine ⟨by decide, by decide, fun reason found => ?_⟩
  have ours : Directive.reasonOf? lateForm.rest = some "ours" := by decide
  cases ours.symm.trans found
  decide

theorem header?_late : header? late 2024 = some lateHeader := by
  -- The characters are spelled out first: decoding a string takes long.
  have characters : late.toList = _ := String.toList_ofList
  rw [header?_eq, characters]
  decide

theorem header?_early : header? early 2024 = some "# Copyright:: 2010-2024, Acme" := by
  have characters : early.toList = _ := String.toList_ofList
  rw [header?_eq, characters]
  decide

theorem header?_behindName :
    header? behindName 2024 = some "# Copyright:: 2010-2024, Chef Software, Inc." := by
  have characters : behindName.toList = _ := String.toList_ofList
  rw [header?_eq, characters]
  decide

theorem header?_reasoned : header? reasoned 2024 = some renamedReason := by
  have characters : reasoned.toList = _ := String.toList_ofList
  rw [header?_eq, characters]
  decide

end Sample

/-- The directive behind the year is kept though the name before it changes; from the comment with
the directive before the year a header without one is made. -/
theorem read?_header_late_early :
    (header? Sample.late 2024 = some Sample.lateHeader ∧
      Sample.lateForm.IsProper ∧ Sample.lateForm.text = nameOf Sample.late.toList ∧
      Spares Sample.lateForm ∧
      Directive.read? Sample.lateHeader.toList = some ⟨["CL002"], some "ours"⟩) ∧
    (header? Sample.early 2024 = some "# Copyright:: 2010-2024, Acme" ∧
      ¬ Directive.marker <:+: nameOf Sample.early.toList ∧
      Directive.read? "# Copyright:: 2010-2024, Acme".toList = none) := by
  have late : Sample.late.toList = _ := String.toList_ofList
  have early : Sample.early.toList = _ := String.toList_ofList
  have named : Sample.lateForm.text = nameOf Sample.late.toList := by
    rw [late]
    decide
  have allows : Directive.read? (nameOf Sample.late.toList) = some ⟨["CL002"], some "ours"⟩ := by
    rw [late]
    decide
  have unmarked : ¬ Directive.marker <:+: nameOf Sample.early.toList := by
    rw [early]
    decide
  obtain ⟨-, kept, -⟩ := read?_header Sample.header?_late
  obtain ⟨-, -, lost⟩ := read?_header Sample.header?_early
  exact ⟨⟨Sample.header?_late, Sample.lateForm_isProper, named, Sample.lateForm_spares,
    (kept Sample.lateForm Sample.lateForm_isProper named Sample.lateForm_spares).trans allows⟩,
    Sample.header?_early, unmarked, lost unmarked⟩

/-- **Elsewhere a directive is lost or changed**: before the year, behind a name after which the
rest of the line is replaced, and with a reason that holds an old name. -/
theorem header_loses_directive :
    ('\n' ∉ Sample.early.toList ∧
      Directive.read? Sample.early.toList = some ⟨["CL002"], none⟩ ∧
      header? Sample.early 2024 = some "# Copyright:: 2010-2024, Acme" ∧
      Directive.read? "# Copyright:: 2010-2024, Acme".toList = none) ∧
    ('\n' ∉ Sample.behindName.toList ∧
      Directive.read? Sample.behindName.toList = some ⟨["CL002"], none⟩ ∧
      header? Sample.behindName 2024 = some "# Copyright:: 2010-2024, Chef Software, Inc." ∧
      Directive.read? "# Copyright:: 2010-2024, Chef Software, Inc.".toList = none) ∧
    ('\n' ∉ Sample.reasoned.toList ∧
      Directive.read? Sample.reasoned.toList = some ⟨["CL002"], some "by Opscode"⟩ ∧
      ∃ header, header? Sample.reasoned 2024 = some header ∧
        Directive.read? header.toList = some ⟨["CL002"], some "by Chef Software"⟩) := by
  have early : Sample.early.toList = _ := String.toList_ofList
  have behindName : Sample.behindName.toList = _ := String.toList_ofList
  have reasoned : Sample.reasoned.toList = _ := String.toList_ofList
  have renamedReason : Sample.renamedReason.toList = _ := String.toList_ofList
  refine ⟨⟨?_, ?_, Sample.header?_early, ?_⟩, ⟨?_, ?_, Sample.header?_behindName, ?_⟩, ?_, ?_, _,
    Sample.header?_reasoned, ?_⟩
  all_goals
    first | rw [early] | rw [behindName] | rw [reasoned] | rw [renamedReason] |
      rw [String.toList_ofList]
  all_goals decide

end RecipeLint.Rules.Copyright
