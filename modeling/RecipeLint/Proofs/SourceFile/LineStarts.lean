/-
**The search for the line of a position.**

The line of a position is found by halving the list of the positions where lines start. Every step
keeps the last start that is no later than the position among the starts that are left, so the
search ends at it, whether the position is a start itself or lies behind one. Going through the text
once from its start and counting the line feeds on the way leads to the same line.

* `SourceFile.lineStarts_ascending` — lines start one behind the other.
* `SourceFile.search_eq` — the search finds a number among ascending numbers, or where it belongs.
* `SourceFile.lineFrom` — the line of a position, counted along the text.
* `SourceFile.lineStart_eq_lineFrom` — the search and the count agree on every position, also on
  one beyond the text.
-/

import RecipeLint.SourceFile

namespace RecipeLint

namespace SourceFile

/-! ### The positions where lines start -/

theorem mem_lineStartsFrom_cons {c : Char} {rest : List Char} {position start : Nat}
    (member : start ∈ lineStartsFrom (c :: rest) position) :
    start = position + c.utf8Size ∨ start ∈ lineStartsFrom rest (position + c.utf8Size) := by
  rw [lineStartsFrom] at member
  split at member
  · exact List.mem_cons.mp member
  · exact Or.inr member

theorem lt_of_mem_lineStartsFrom {content : List Char} {position start : Nat}
    (member : start ∈ lineStartsFrom content position) : position < start := by
  induction content generalizing position with
  | nil => cases member
  | cons c rest ih =>
    have width : 0 < c.utf8Size := c.utf8Size_pos
    rcases mem_lineStartsFrom_cons member with rfl | later
    · exact Nat.lt_add_of_pos_right width
    · exact Nat.lt_trans (Nat.lt_add_of_pos_right width) (ih later)

theorem lineStartsFrom_ascending (content : List Char) (position : Nat) :
    (lineStartsFrom content position).Pairwise (· < ·) := by
  induction content generalizing position with
  | nil => exact .nil
  | cons c rest ih =>
    rw [lineStartsFrom]
    split
    · exact .cons (fun start member => lt_of_mem_lineStartsFrom member) (ih _)
    · exact ih _

/-- **Lines start one behind the other.** -/
theorem lineStarts_ascending (file : SourceFile) : file.lineStarts.Pairwise (· < ·) :=
  .cons (fun _ member => lt_of_mem_lineStartsFrom member) (lineStartsFrom_ascending _ _)

/-! ### Halving -/

/-- Of ascending numbers, those up to a bound are the first ones. -/
theorem getElem_le_iff {numbers : List Nat} (ascending : numbers.Pairwise (· < ·)) (number : Nat)
    {place : Nat} (inside : place < numbers.length) :
    numbers[place] ≤ number ↔ place < numbers.countP (· ≤ number) := by
  induction numbers generalizing place with
  | nil => cases inside
  | cons first numbers ih =>
    obtain ⟨above, rest⟩ := List.pairwise_cons.mp ascending
    by_cases low : first ≤ number
    · rw [List.countP_cons_of_pos (by simpa using low)]
      cases place with
      | zero => simpa using low
      | succ place =>
        rw [List.getElem_cons_succ, ih rest]
        exact (Nat.add_lt_add_iff_right).symm
    · have none : (first :: numbers).countP (· ≤ number) = 0 := by
        refine List.countP_eq_zero.mpr fun other member => ?_
        rcases List.mem_cons.mp member with rfl | later
        · simpa using low
        · have := above other later
          simpa using by omega
      rw [none]
      refine ⟨fun small => absurd small ?_, nofun⟩
      cases place with
      | zero => exact low
      | succ place =>
        have := above _ (List.getElem_mem (by simpa using inside))
        rw [List.getElem_cons_succ]
        omega

/-- A number among ascending numbers is the last of those up to itself. -/
theorem getElem_of_mem {numbers : List Nat} (ascending : numbers.Pairwise (· < ·)) {number : Nat}
    (member : number ∈ numbers) (inside : numbers.countP (· ≤ number) - 1 < numbers.length) :
    numbers[numbers.countP (· ≤ number) - 1] = number := by
  obtain ⟨hit, hitInside, same⟩ := List.getElem_of_mem member
  have counted := (getElem_le_iff ascending number hitInside).mp (Nat.le_of_eq same)
  have upper := (getElem_le_iff ascending number inside).mpr (by omega)
  rcases Nat.eq_or_lt_of_le (Nat.le_sub_one_of_lt counted) with last | before
  · simpa only [last] using same
  · have := List.pairwise_iff_getElem.mp ascending _ _ hitInside inside before
    omega

/-- **Halving ends at the last number up to the bound**, if it is among the numbers that are left;
where all numbers are above the bound, it ends at the first one. -/
theorem narrow_eq {numbers : List Nat} (ascending : numbers.Pairwise (· < ·)) (number : Nat)
    {steps base size : Nat} (enough : size ≤ steps + 1) (left : 0 < size)
    (inside : base + size ≤ numbers.length) (reached : base ≤ numbers.countP (· ≤ number) - 1)
    (upTo : numbers.countP (· ≤ number) ≤ base + size) :
    narrow numbers number steps base size = numbers.countP (· ≤ number) - 1 := by
  induction steps generalizing base size with
  | zero =>
    rw [narrow]
    omega
  | succ steps ih =>
    rw [narrow]
    by_cases one : size ≤ 1
    · rw [if_pos one]
      omega
    · rw [if_neg one]
      have middle : base + size / 2 < numbers.length := by omega
      have side := getElem_le_iff ascending number middle
      dsimp only
      rw [List.getD_eq_getElem?_getD, List.getElem?_eq_getElem middle, Option.getD_some]
      by_cases before : number < numbers[base + size / 2]
      · rw [if_pos before]
        have : ¬ numbers[base + size / 2] ≤ number := Nat.not_le.mpr before
        rw [side] at this
        exact ih (by omega) (by omega) (by omega) reached (by omega)
      · rw [if_neg before]
        have := side.mp (Nat.not_lt.mp before)
        exact ih (by omega) (by omega) (by omega) (by omega) (by omega)

/-- **What the search answers**: the place of the number, or the place where it belongs, with all
smaller numbers before it. -/
theorem search_eq {numbers : List Nat} (ascending : numbers.Pairwise (· < ·)) (number : Nat) :
    search numbers number =
      if number ∈ numbers then .ok (numbers.countP (· ≤ number) - 1)
      else .error (numbers.countP (· ≤ number)) := by
  rcases Nat.eq_zero_or_pos numbers.length with empty | nonempty
  · rw [List.eq_nil_of_length_eq_zero empty]
    rfl
  · have upTo : numbers.countP (· ≤ number) ≤ numbers.length := List.countP_le_length
    have inside : numbers.countP (· ≤ number) - 1 < numbers.length := by omega
    have place : narrow numbers number numbers.length 0 numbers.length =
        numbers.countP (· ≤ number) - 1 :=
      narrow_eq ascending number (Nat.le_succ _) nonempty (by omega) (Nat.zero_le _) (by omega)
    have low := getElem_le_iff ascending number inside
    unfold search
    dsimp only
    rw [place, List.getElem?_eq_getElem inside]
    dsimp only
    by_cases member : number ∈ numbers
    · rw [if_pos member, if_pos (getElem_of_mem ascending member inside)]
    · have missing : numbers[numbers.countP (· ≤ number) - 1] ≠ number :=
        fun same => member (same ▸ List.getElem_mem inside)
      rw [if_neg member, if_neg missing]
      by_cases behind : numbers[numbers.countP (· ≤ number) - 1] < number
      · have := low.mp (Nat.le_of_lt behind)
        rw [if_pos behind, Nat.sub_add_cancel (by omega)]
      · have : ¬ numbers.countP (· ≤ number) - 1 < numbers.countP (· ≤ number) :=
          fun inner => by
            have := low.mpr inner
            omega
        have zero : numbers.countP (· ≤ number) = 0 := by omega
        rw [if_neg behind, zero]

/-! ### The same line, counted along the text -/

/-- The number of lines that start after the line at `start` and no later than `offset`, and the
start of the last of them, where `position` is the position of the text. -/
def lineFrom (offset : Nat) : List Char → (position line start : Nat) → Nat × Nat
  | [], _, line, start => (line, start)
  | c :: rest, position, line, start =>
    let next := position + c.utf8Size
    if offset < next then (line, start)
    else if c = '\n' then lineFrom offset rest next (line + 1) next
    else lineFrom offset rest next line start

/-- Counting passes the starts that are no later than the position, and no others. -/
theorem lineFrom_eq (offset : Nat) (content : List Char) (position line start : Nat) :
    lineFrom offset content position line start =
      (line + (lineStartsFrom content position).countP (· ≤ offset),
        (start :: lineStartsFrom content position).getD
          ((lineStartsFrom content position).countP (· ≤ offset)) 0) := by
  induction content generalizing position line start with
  | nil => rfl
  | cons c rest ih =>
    rw [lineFrom]
    by_cases beyond : offset < position + c.utf8Size
    · -- The starts that are left lie behind this character, and so behind the position.
      have none : (lineStartsFrom (c :: rest) position).countP (· ≤ offset) = 0 := by
        refine List.countP_eq_zero.mpr fun next member => ?_
        have behind : offset < next := by
          rcases mem_lineStartsFrom_cons member with rfl | later
          · exact beyond
          · exact Nat.lt_trans beyond (lt_of_mem_lineStartsFrom later)
        simpa using behind
      rw [if_pos beyond, none]
      rfl
    · rw [if_neg beyond, lineStartsFrom]
      by_cases feed : c = '\n'
      · have low : position + c.utf8Size ≤ offset := Nat.le_of_not_lt beyond
        rw [if_pos feed, if_pos feed, ih, List.countP_cons_of_pos (by simpa using low),
          List.getD_cons_succ, Nat.add_assoc, Nat.add_comm 1]
      · rw [if_neg feed, if_neg feed, ih]

/-- **The search and the count agree**, on every position. -/
theorem lineStart_eq_lineFrom (file : SourceFile) (offset : Nat) :
    file.lineStart offset = lineFrom offset file.content 0 0 0 := by
  have first : file.lineStarts.countP (· ≤ offset) =
      (lineStartsFrom file.content 0).countP (· ≤ offset) + 1 :=
    List.countP_cons_of_pos (by simp)
  rw [lineFrom_eq, Nat.zero_add, lineStart, search_eq file.lineStarts_ascending, first]
  by_cases hit : offset ∈ file.lineStarts
  · rw [if_pos hit]
    rfl
  · rw [if_neg hit]
    rfl

end SourceFile

end RecipeLint
