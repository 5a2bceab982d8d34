/-
**Places that a pattern reaches.**

A pattern is matched part by part. What matters between two parts is only which places of the text
the parts so far can reach, so a match takes no more steps than parts times places. There is a mark
for the place before each element of the text, and one for its end.

* `single` — the places after one element.
* `spread` — the places after any number of elements.
-/

namespace RecipeLint.Text.Reach

/-- The mark of the place before a text, and of no other. -/
def start {α : Type} (text : List α) : List Bool :=
  true :: text.map fun _ => false

/-- The places after one allowed element. -/
def single {α : Type} (allows : α → Bool) (text : List α) (marks : List Bool) : List Bool :=
  false :: List.zipWith (fun element mark => mark && allows element) text marks

/-- The places after any number of allowed elements, where `reached` tells whether the place before
the first element is one. -/
def spread {α : Type} (allows : α → Bool) (reached : Bool) : List α → List Bool → List Bool
  | element :: text, mark :: marks =>
    (reached || mark) :: spread allows ((reached || mark) && allows element) text marks
  | [], mark :: _ => [reached || mark]
  | _, [] => []

/-- The places that are marked in one list or in another. -/
def either (first second : List Bool) : List Bool :=
  List.zipWith (fun first second => first || second) first second

/-- The end of the text, if it is marked. -/
def final (marks : List Bool) : List Bool :=
  marks.dropLast.map (fun _ => false) ++ marks.getLast?.toList

/-- Whether the end of the text is marked. -/
def isComplete (marks : List Bool) : Bool :=
  marks.getLastD false

end RecipeLint.Text.Reach
