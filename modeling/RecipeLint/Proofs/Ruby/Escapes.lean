/-
**What a string in single quotes says.**

Between single quotes a backslash escapes a backslash and a quote, and stands for itself before all
else. A text is therefore written there with a backslash before each of its backslashes and quotes.
The decoder takes such a text two characters at a time from the left, so a run of backslashes falls
into pairs wherever it ends; a text in which no backslash escapes what is behind it is left as it
is, and no other text is. The reader of the language stops at the first quote that no backslash
takes along, so a program can pass any text to a call.

* `escapeSingle` — how a text is written between single quotes.
* `unescapeSingle_escapeSingle`, `unescapeSingle_eq_self_iff` — the two laws of the decoder.
* `Call.firstString?_of_isSeen` — the text that a call in a program is seen to be given.
* `singleQuotes_faithful` — the decoder and a whole program.
-/

import RecipeLint.Proofs.Ruby.Exchange

namespace RecipeLint.Ruby

/-! ### The decoder -/

/-- How a character is written between single quotes. -/
def escapedSingle (c : Char) : List Char :=
  if isPlainQuoted c then [c] else ['\\', c]

/-- How a text is written between single quotes: a backslash before each backslash and each
quote. -/
def escapeSingle (text : List Char) : List Char :=
  text.flatMap escapedSingle

/-- A text in which no backslash escapes what is behind it. -/
def IsUnescaped (text : List Char) : Prop :=
  ∀ c, ['\\', c] <:+: text → isPlainQuoted c = true

theorem eq_of_not_plain {c : Char} (special : isPlainQuoted c = false) : c = '\\' ∨ c = '\'' := by
  simpa [isPlainQuoted, or_comm, imp_iff_or_not] using special

theorem unescapeSingle_plain {c : Char} (plain : isPlainQuoted c = true) (rest : List Char) :
    unescapeSingle (c :: rest) = c :: unescapeSingle rest := by
  rw [unescapeSingle] <;> rintro _ rfl <;> cases plain

theorem unescapeSingle_escape {c : Char} (special : isPlainQuoted c = false) (rest : List Char) :
    unescapeSingle ('\\' :: c :: rest) = c :: unescapeSingle rest := by
  rcases eq_of_not_plain special with rfl | rfl <;> rw [unescapeSingle]

/-- A text that is written escaped is taken as it is, whatever is behind it. -/
theorem unescapeSingle_escapeSingle_append (text rest : List Char) :
    unescapeSingle (escapeSingle text ++ rest) = text ++ unescapeSingle rest := by
  induction text with
  | nil => rfl
  | cons c text ih =>
    rw [escapeSingle, List.flatMap_cons, List.append_assoc, escapedSingle]
    rw [escapeSingle] at ih
    cases plain : isPlainQuoted c with
    | true => exact (unescapeSingle_plain plain _).trans (congrArg (c :: ·) ih)
    | false => exact (unescapeSingle_escape plain _).trans (congrArg (c :: ·) ih)

example : unescapeSingle (List.replicate 5 '\\' ++ ['\'', '\\']) = ['\\', '\\', '\'', '\\'] := by
  decide

/-- **A text that is written escaped is read back.** -/
theorem unescapeSingle_escapeSingle (text : List Char) :
    unescapeSingle (escapeSingle text) = text := by
  have taken := unescapeSingle_escapeSingle_append text []
  rwa [List.append_nil, unescapeSingle, List.append_nil] at taken

/-- The decoder makes no text longer. -/
theorem length_unescapeSingle_le (text : List Char) :
    (unescapeSingle text).length ≤ text.length := by
  fun_induction unescapeSingle text with
  | case1 rest ih | case2 rest ih => exact Nat.succ_le_succ (Nat.le_succ_of_le ih)
  | case3 c rest _ _ ih => exact Nat.succ_le_succ ih
  | case4 => exact Nat.le_refl 0

theorem isUnescaped_cons {c : Char} {rest : List Char} :
    IsUnescaped (c :: rest) ↔
      (c = '\\' → ∀ next ∈ rest.head?, isPlainQuoted next = true) ∧ IsUnescaped rest := by
  constructor
  · refine fun unescaped => ⟨?_, fun next inside => unescaped next (inside.trans ?_)⟩
    · rintro rfl next first
      obtain ⟨more, rfl⟩ := List.head?_eq_some_iff.mp first
      exact unescaped next ⟨[], more, rfl⟩
    · exact (List.suffix_cons c rest).isInfix
  · rintro ⟨here, later⟩ next inside
    rcases List.infix_cons_iff.mp inside with ⟨more, same⟩ | inside
    · obtain ⟨rfl, rfl⟩ := List.cons.inj same
      exact here rfl next rfl
    · exact later next inside

/-- **The decoder leaves the texts as they are in which nothing is escaped**, and no others. -/
theorem unescapeSingle_eq_self_iff (text : List Char) :
    unescapeSingle text = text ↔ IsUnescaped text := by
  fun_induction unescapeSingle text with
  | case1 rest ih =>
    refine iff_of_false (fun same => ?_) fun unescaped => nomatch unescaped '\\' ⟨[], rest, rfl⟩
    have shorter := length_unescapeSingle_le rest
    rw [(List.cons.inj same).2, List.length_cons] at shorter
    omega
  | case2 rest ih =>
    exact iff_of_false (fun same => nomatch (List.cons.inj same).1)
      fun unescaped => nomatch unescaped '\'' ⟨[], rest, rfl⟩
  | case3 c rest noBackslash noQuote ih =>
    rw [List.cons.injEq, isUnescaped_cons, ih]
    refine and_congr_left fun _ => iff_of_true rfl ?_
    rintro rfl next first
    obtain ⟨more, rfl⟩ := List.head?_eq_some_iff.mp first
    by_contra special
    rcases eq_of_not_plain (Bool.eq_false_iff.mpr special) with rfl | rfl
    · exact noBackslash more rfl rfl
    · exact noQuote more rfl rfl
  | case4 => exact iff_of_true rfl fun c inside => nomatch List.infix_nil.mp inside

/-! ### The reader -/

/-- A text that is written escaped can stand between single quotes. -/
theorem isQuotable_escapeSingle (text : List Char) : isQuotable (escapeSingle text) = true := by
  induction text with
  | nil => rfl
  | cons c text ih =>
    rw [escapeSingle, List.flatMap_cons, escapedSingle]
    cases plain : isPlainQuoted c with
    | true => exact (isQuotable_cons plain).trans ih
    | false => exact ih

theorem betweenQuotes_quotedText (body : List Char) : betweenQuotes (quotedText body) = body := by
  rw [quotedText, betweenQuotes, List.getLast?_concat, if_pos rfl, List.dropLast_concat]

/-- **The node of a string in single quotes** has the text that the decoder makes of what is between
the quotes. -/
theorem lower_quotedTree (body : List Char) (names : List String) (parent : Kind) :
    ((quotedTree body).lower (quotedText body) names parent).node =
      .leaf (.str (String.ofList (unescapeSingle body))) ⟨0, Text.size (quotedText body)⟩ := by
  have own := textOf_self (quotedText body)
  have starts : (quotedText body).head? = some '\'' := rfl
  have value (parts : List Tree) : stringValue (quotedText body)
      ⟨0, Text.size (quotedText body)⟩ parts = unescapeSingle body := by
    rw [stringValue, own, if_pos starts, betweenQuotes_quotedText]
  unfold quotedTree
  split <;> exact congrArg (fun text => Node.leaf (.str (String.ofList text)) _) (value _)

/-- A space before an argument. -/
def argumentGap : List Filler :=
  [.blank ' ' isGap_space]

theorem argumentGap_ne_nil : argumentGap ≠ [] :=
  List.cons_ne_nil _ _

theorem argumentGap_stays : argumentGap.all Filler.staysOnLine = true := rfl

/-- **The call of a method with one string** in single quotes, without parentheses. -/
def Call.ofQuotable (name : MethodName) (body : List Char) (quotable : isQuotable body = true) :
    Call where
  receiver := .nothing
  name := name
  passed := .command argumentGap argumentGap_ne_nil argumentGap_stays
    ⟨.quotable _ .command body quotable, []⟩ nofun fun _ _ => rfl

section Calls

variable {name : MethodName} {body : List Char} {quotable : isQuotable body = true}

theorem Call.text_ofQuotable :
    (Call.ofQuotable name body quotable).text = name.text ++ ' ' :: quotedText body :=
  congrArg (name.text ++ ' ' :: ·) (List.append_nil _)

/-- **Wherever the call stands in a program**, it is seen to be given the text that the decoder
makes of what is between the quotes. -/
theorem Call.firstString?_of_isSeen {names : List String} {before after : List Char} {node : Node}
    (seen : (Call.ofQuotable name body quotable).IsSeen names before after node) :
    node.firstString? = .ok (some (String.ofList (unescapeSingle body))) := by
  obtain ⟨values, read, said, -⟩ := seen.arguments
  obtain ⟨value, rfl, same⟩ := List.map_eq_singleton_iff.mp said
  have outline : value.outline = ((quotedTree body).lower (quotedText body) names
    .argumentList).node.outline := congrArg Prod.snd same
  rw [lower_quotedTree] at outline
  have text : value.stringValue? = some (String.ofList (unescapeSingle body)) := by
    obtain ⟨kind, span, children⟩ := value
    have unplaced : kind.unplaced = .str (String.ofList (unescapeSingle body)) :=
      congrArg Node.kind outline
    cases kind <;> cases unplaced
    rfl
  rw [Node.firstString?, read]
  exact congrArg Except.ok text

/-- A program that is such a call. -/
theorem Call.exists_firstString (name : MethodName) (quotable : isQuotable body = true) :
    ∃ root node, parse (String.ofList (name.text ++ ' ' :: quotedText body)) = .ok root ∧
      node ∈ root.children ∧ node.methodName? = some (String.ofList name.text) ∧
      node.firstString? = .ok (some (String.ofList (unescapeSingle body))) := by
  obtain ⟨root, node, read, among, seen⟩ := @Call.exists_isSeen [] []
    (.ofQuotable name body quotable) _ ⟨rfl, trivial⟩ rfl (fun bare => nomatch bare.2.2)
    (show 1 < maxWord by decide)
  have text : layoutText [.statement (Call.ofQuotable name body quotable).statement] =
      name.text ++ ' ' :: quotedText body := (List.append_nil _).trans text_ofQuotable
  rw [List.nil_append, text] at read
  exact ⟨root, node, read, among, seen.methodName?_eq, Call.firstString?_of_isSeen seen⟩

end Calls

/-- **Single quotes say what is written between them.** A text is read back from its escaped form;
the texts that the decoder leaves as they are are those in which nothing is escaped; and a program
that passes an escaped text to a method is read as a call that is given the text. -/
theorem singleQuotes_faithful :
    (∀ text, unescapeSingle (escapeSingle text) = text) ∧
      (∀ text, unescapeSingle text = text ↔ IsUnescaped text) ∧
      ∀ (name : MethodName) (text : List Char), ∃ root node,
        parse (String.ofList (name.text ++ ' ' :: quotedText (escapeSingle text))) = .ok root ∧
          node ∈ root.children ∧ node.methodName? = some (String.ofList name.text) ∧
          node.firstString? = .ok (some (String.ofList text)) := by
  refine ⟨unescapeSingle_escapeSingle, unescapeSingle_eq_self_iff, fun name text => ?_⟩
  have seen := Call.exists_firstString name (isQuotable_escapeSingle text)
  rwa [unescapeSingle_escapeSingle] at seen

end RecipeLint.Ruby
