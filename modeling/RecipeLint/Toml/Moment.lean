/-
**Dates and times.**

A moment is a day, a time of day, or both, with or without a distance from universal time. It is
read in two ways that differ in what they allow, and written in one.

* `Moment.scan?` — the moment at the start of a text, by the rules of documents.
* `Moment.ofText?` — the moment that a whole text gives; an hour 24 and a distance after a day
  alone are allowed.
* `Moment.text` — the one way to write a moment.
-/

namespace RecipeLint.Toml

/-- A day of the calendar. -/
structure Day where
  /-- The year, below 10000. -/
  year : Nat
  /-- The month, from one. -/
  month : Nat
  /-- The day of the month, from one. -/
  day : Nat
  deriving DecidableEq, Repr, Inhabited

/-- A time of day. -/
structure Clock where
  /-- The hour. -/
  hour : Nat
  /-- The minute. -/
  minute : Nat
  /-- The second, which is 60 where one is put in. -/
  second : Nat
  /-- The part of a second in billionths. -/
  nanosecond : Nat
  deriving DecidableEq, Repr, Inhabited

/-- A distance from universal time. -/
inductive Offset where
  /-- Universal time itself. -/
  | universal
  /-- A number of minutes. -/
  | minutes (count : Int)
  deriving DecidableEq, Repr, Inhabited

/-- A day, a time of day, or both. -/
structure Moment where
  /-- The day. -/
  day : Option Day := none
  /-- The time of day. -/
  clock : Option Clock := none
  /-- The distance from universal time. -/
  offset : Option Offset := none
  deriving DecidableEq, Repr, Inhabited

/-! ### The calendar -/

/-- Whether a year has 366 days. -/
def Day.isLeap (year : Nat) : Bool :=
  year % 4 = 0 && (year % 100 ≠ 0 || year % 400 = 0)

/-- The number of days of a month. -/
def Day.inMonth (year month : Nat) : Nat :=
  if month = 2 then (if isLeap year then 29 else 28)
  else if month = 4 ∨ month = 6 ∨ month = 9 ∨ month = 11 then 30
  else 31

/-- Whether the calendar has a day. -/
def Day.exists (date : Day) : Bool :=
  1 ≤ date.month && date.month ≤ 12 && 1 ≤ date.day &&
    date.day ≤ inMonth date.year date.month

namespace Moment

/-! ### Reading -/

/-- A number of so many digits at the start of a text, and the rest. -/
def number? : Nat → List Char → Option (Nat × List Char)
  | 0, text => some (0, text)
  | count + 1, c :: text => do
    if c.isDigit then
      let (value, rest) ← number? count text
      some ((c.toNat - '0'.toNat) * Nat.pow 10 count + value, rest)
    else none
  | _ + 1, [] => none

/-- The rest of a text after a character. -/
def after? (expected : Char) : List Char → Option (List Char)
  | c :: rest => if c == expected then some rest else none
  | [] => none

/-- The day at the start of a text. -/
def day? (text : List Char) : Option (Day × List Char) := do
  let (year, text) ← number? 4 text
  let (month, text) ← number? 2 (← after? '-' text)
  let (day, text) ← number? 2 (← after? '-' text)
  let date : Day := ⟨year, month, day⟩
  if date.exists then some (date, text) else none

/-- The part of a second after its point: nine digits count. -/
def fraction? (text : List Char) : Option (Nat × List Char) :=
  let digits := text.takeWhile Char.isDigit
  if digits.isEmpty then none
  else
    let kept := digits.take 9
    let value := kept.foldl (fun value c => 10 * value + (c.toNat - '0'.toNat)) 0
    some (value * Nat.pow 10 (9 - kept.length), text.drop digits.length)

/-- The time of day at the start of a text, with an hour up to a last one. -/
def clock? (lastHour : Nat) (text : List Char) : Option (Clock × List Char) := do
  let (hour, text) ← number? 2 text
  let (minute, text) ← number? 2 (← after? ':' text)
  let (second, text) ← number? 2 (← after? ':' text)
  if lastHour < hour ∨ 59 < minute ∨ 60 < second then none
  else
    match text with
    | '.' :: rest =>
      let (nanosecond, rest) ← fraction? rest
      some (⟨hour, minute, second, nanosecond⟩, rest)
    | _ => some (⟨hour, minute, second, 0⟩, text)

/-- The hours and minutes of a distance from universal time, after its sign. -/
def hours? (text : List Char) : Option (Nat × Nat × List Char) := do
  let (hour, text) ← number? 2 text
  let (minute, text) ← number? 2 (← after? ':' text)
  some (hour, minute, text)

/-- The distance from universal time at the start of a text, if `allowed` admits its hours and
minutes; a text that starts otherwise has none. -/
def offset? (allowed : Nat → Nat → Bool) (text : List Char) :
    Option (Option Offset × List Char) :=
  match text with
  | c :: rest =>
    if c == 'Z' || c == 'z' then some (some .universal, rest)
    else if c == '+' || c == '-' then do
      let (hour, minute, rest) ← hours? rest
      let count : Int := hour * 60 + minute
      if allowed hour minute then
        some (some (.minutes (if c == '-' then -count else count)), rest)
      else none
    else some (none, text)
  | [] => some (none, text)

/-- Whether a character stands between a day and a time of day. -/
def isDelimiter (c : Char) : Bool := c == 'T' || c == 't' || c == ' '

/-- The time of day and the distance after a day and a delimiter, by the rules of documents. -/
def scanClock? (text : List Char) : Option (Clock × Option Offset × List Char) := do
  let (clock, text) ← clock? 23 text
  let (offset, text) ← offset? (fun hour minute => hour ≤ 23 && minute ≤ 59) text
  some (clock, offset, text)

/-- The moment at the start of a text, and the rest. -/
def scan? (text : List Char) : Option (Moment × List Char) :=
  match day? text with
  | some (day, rest) =>
    let timed := match rest with
      | c :: following => if isDelimiter c then scanClock? following else none
      | [] => none
    match timed with
    | some (clock, offset, rest) => some ({ day := some day, clock := some clock, offset }, rest)
    | none => some ({ day := some day }, rest)
  | none => (clock? 23 text).map fun (clock, rest) => ({ clock := some clock }, rest)

/-- Whether a distance of hours and minutes is at most a day. -/
def isWithinDay (hour minute : Nat) : Bool := hour * 60 + minute ≤ 24 * 60

/-- The moment that a whole text gives. -/
def ofText? (text : String) : Option Moment := do
  let chars := text.toList
  let (moment, rest) ←
    if chars[2]? = some ':' then
      let (clock, rest) ← clock? 24 chars
      some (({ clock := some clock } : Moment), rest)
    else do
      let (day, rest) ← day? chars
      let (clock, rest) ← match rest with
        | c :: following =>
          if isDelimiter c then (clock? 24 following).map fun (clock, rest) => (some clock, rest)
          else some (none, rest)
        | [] => some (none, rest)
      let (offset, rest) ← offset? isWithinDay rest
      some (({ day := some day, clock, offset } : Moment), rest)
  if rest.isEmpty then some moment else none

/-! ### Writing -/

/-- A number with zeros before it up to a width. -/
def padded (width value : Nat) : String :=
  let digits := Nat.toDigits 10 value
  String.ofList (List.replicate (width - digits.length) '0' ++ digits)

/-- A day with its parts between dashes. -/
def dayText (date : Day) : String :=
  padded 4 date.year ++ "-" ++ padded 2 date.month ++ "-" ++ padded 2 date.day

/-- A time of day; the part of a second has no zeros at its end and is left out if it is zero. -/
def clockText (clock : Clock) : String :=
  let fraction := ((padded 9 clock.nanosecond).toList.reverse.dropWhile (· == '0')).reverse
  padded 2 clock.hour ++ ":" ++ padded 2 clock.minute ++ ":" ++ padded 2 clock.second ++
    (if fraction.isEmpty then "" else "." ++ String.ofList fraction)

/-- A distance from universal time; no distance in minutes has a plus sign. -/
def offsetText : Offset → String
  | .universal => "Z"
  | .minutes count =>
    let size := count.natAbs
    (if count < 0 then "-" else "+") ++ padded 2 (size / 60) ++ ":" ++ padded 2 (size % 60)

/-- A moment as it is written. -/
def text (moment : Moment) : String :=
  let between := if moment.day.isSome && moment.clock.isSome then "T" else ""
  (moment.day.map dayText).getD "" ++ between ++ (moment.clock.map clockText).getD "" ++
    (moment.offset.map offsetText).getD ""

end Moment

end RecipeLint.Toml
