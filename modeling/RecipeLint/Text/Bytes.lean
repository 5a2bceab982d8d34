/-
**Byte offsets into a text.**

A text is a list of characters, and a position in it is counted in the bytes of its UTF-8 form.
A position inside a character is no place to cut.

* `split?_eq_some` — the two parts of a cut make up the text, and the first has the wanted size.
* `slice?` — the part of a text between two positions, if both are places to cut.
* `isBoundary_iff` — the places to cut are the sizes of the initial parts.
* `exists_between` — of two cuts of a text, the earlier cuts the first part of the later.
-/

namespace RecipeLint.Text

/-- The number of bytes of a text. -/
def size : List Char → Nat
  | [] => 0
  | c :: rest => c.utf8Size + size rest

/-- Cuts a text after its first `count` bytes. -/
def split? : List Char → Nat → Option (List Char × List Char)
  | text, 0 => some ([], text)
  | [], _ + 1 => none
  | c :: rest, count + 1 =>
    if c.utf8Size ≤ count + 1 then
      (split? rest (count + 1 - c.utf8Size)).map fun (first, second) => (c :: first, second)
    else none

/-- Whether a text can be cut at a position. -/
def isBoundary (text : List Char) (position : Nat) : Bool :=
  (split? text position).isSome

/-- The first `count` bytes of a text. -/
def take? (text : List Char) (count : Nat) : Option (List Char) :=
  (split? text count).map (·.1)

/-- A text without its first `count` bytes. -/
def drop? : List Char → Nat → Option (List Char)
  | text, 0 => some text
  | [], _ + 1 => none
  | c :: rest, count + 1 =>
    if c.utf8Size ≤ count + 1 then drop? rest (count + 1 - c.utf8Size) else none

/-- The part of a text from byte `start` up to byte `stop`. -/
def slice? (text : List Char) (start stop : Nat) : Option (List Char) :=
  if start ≤ stop then do
    let rest ← drop? text start
    take? rest (stop - start)
  else none

/-! ### Lemmas -/

@[simp] theorem size_nil : size [] = 0 := rfl

@[simp] theorem size_cons (c : Char) (rest : List Char) :
    size (c :: rest) = c.utf8Size + size rest := rfl

@[simp] theorem size_append (first second : List Char) :
    size (first ++ second) = size first + size second := by
  induction first with
  | nil => simp
  | cons c rest ih => simp [ih, Nat.add_assoc]

/-- The two parts of a cut make up the text, and the first part has the wanted size. -/
theorem split?_eq_some {text first second : List Char} {count : Nat}
    (cut : split? text count = some (first, second)) :
    text = first ++ second ∧ size first = count := by
  induction text generalizing count first with
  | nil =>
    cases count with
    | zero => simp [split?] at cut; simp [cut]
    | succ count => simp [split?] at cut
  | cons c rest ih =>
    cases count with
    | zero => simp [split?] at cut; simp [cut]
    | succ count =>
      rw [split?] at cut
      split at cut
      next fits =>
        simp only [Option.map_eq_some_iff, Prod.mk.injEq, Prod.exists] at cut
        obtain ⟨inner, after, found, rfl, rfl⟩ := cut
        obtain ⟨rfl, measured⟩ := ih found
        refine ⟨rfl, ?_⟩
        simp only [size_cons, measured]
        omega
      next => simp at cut

/-- What is left of a text is the second part of the cut. -/
theorem drop?_eq (text : List Char) (count : Nat) :
    drop? text count = (split? text count).map (·.2) := by
  induction text generalizing count with
  | nil => cases count <;> rfl
  | cons c rest ih =>
    cases count with
    | zero => rfl
    | succ count =>
      rw [drop?, split?]
      split
      next => rw [ih, Option.map_map]; rfl
      next => rfl

/-- A text can be cut after any of its initial parts. -/
theorem split?_append (first second : List Char) :
    split? (first ++ second) (size first) = some (first, second) := by
  induction first with
  | nil => cases second <;> simp [split?]
  | cons c rest ih =>
    have positive : 0 < c.utf8Size := c.utf8Size_pos
    obtain ⟨count, total⟩ : ∃ count, c.utf8Size + size rest = count + 1 :=
      ⟨c.utf8Size + size rest - 1, by omega⟩
    rw [List.cons_append, size_cons, total, split?, if_pos (by omega), ← total,
      Nat.add_sub_cancel_left, ih]
    rfl

/-- The first part of a cut after an initial part. -/
theorem take?_append (first second : List Char) :
    take? (first ++ second) (size first) = some first := by
  rw [take?, split?_append]
  rfl

/-- What is left by a cut after an initial part. -/
theorem drop?_append (first second : List Char) :
    drop? (first ++ second) (size first) = some second := by
  rw [drop?_eq, split?_append]
  rfl

/-- A part of a text lies between the sizes of what ends before it and what ends with it. -/
theorem slice?_append (before inside after : List Char) :
    slice? (before ++ (inside ++ after)) (size before) (size before + size inside) =
      some inside := by
  rw [slice?, if_pos (Nat.le_add_right _ _), drop?_append, Nat.add_sub_cancel_left]
  exact take?_append inside after

/-- **A text can be cut exactly at the sizes of its initial parts.** -/
theorem isBoundary_iff (text : List Char) (position : Nat) :
    isBoundary text position = true ↔
      ∃ first second, text = first ++ second ∧ size first = position := by
  constructor
  · intro boundary
    obtain ⟨⟨first, second⟩, cut⟩ := Option.isSome_iff_exists.mp boundary
    exact ⟨first, second, split?_eq_some cut⟩
  · rintro ⟨first, second, rfl, rfl⟩
    rw [isBoundary, split?_append]
    rfl

/-- Every character has at least one byte. -/
theorem length_le_size (text : List Char) : text.length ≤ size text := by
  induction text with
  | nil => exact Nat.le_refl 0
  | cons c rest ih =>
    have positive : 0 < c.utf8Size := c.utf8Size_pos
    rw [List.length_cons, size_cons]
    omega

/-- The part of a text between two positions has as many bytes as lie between them. -/
theorem size_of_slice? {text inside : List Char} {start stop : Nat}
    (slice : slice? text start stop = some inside) : start ≤ stop ∧ size inside = stop - start := by
  rw [slice?] at slice
  split at slice
  next ordered =>
    obtain ⟨rest, -, taken⟩ := Option.bind_eq_some_iff.mp slice
    obtain ⟨⟨first, second⟩, cut, rfl⟩ := Option.map_eq_some_iff.mp taken
    exact ⟨ordered, (split?_eq_some cut).2⟩
  next => cases slice

/-- A text without bytes has no characters. -/
theorem eq_nil_of_size_eq_zero {text : List Char} (empty : size text = 0) : text = [] := by
  cases text with
  | nil => rfl
  | cons c rest =>
    have positive : 0 < c.utf8Size := c.utf8Size_pos
    rw [size_cons] at empty
    omega

/-- **Of two cuts of a text, the earlier one also cuts the first part of the later one.** -/
theorem exists_between {first second longer rest : List Char}
    (same : first ++ second = longer ++ rest) (earlier : size first ≤ size longer) :
    ∃ between, longer = first ++ between ∧ second = between ++ rest := by
  rcases List.append_eq_append_iff.mp same with ⟨between, whole, left⟩ | ⟨excess, whole, left⟩
  · exact ⟨between, whole, left⟩
  · -- the other order of the two cuts leaves no room between them
    have nothing : excess = [] := by
      rw [whole, size_append] at earlier
      exact eq_nil_of_size_eq_zero (by omega)
    rw [nothing, List.append_nil] at whole
    rw [nothing, List.nil_append] at left
    exact ⟨[], by rw [whole, List.append_nil], left.symm⟩

end RecipeLint.Text
