/-
Date patterns: literal text with conversion specifications that begin
with a percent sign. `Pattern.parse?` reads one and refuses it as a whole
if any specification is unknown; `Pattern.render` writes a moment by it.

A specification of a number may carry a padding mark (`-` for none, `_`
for blanks, `0` for zeros); nothing else may.
-/
import LogPipeline.Calendar
import LogPipeline.Text.Column

namespace LogPipeline.Pattern

-- ============================================================== items

/-- How a number is filled to its width. -/
inductive Pad where
  | none
  | zero
  | space
  deriving DecidableEq

/-- The numbers that a pattern can show. -/
inductive Field where
  | year
  | century
  | yearOfCentury
  | isoYear
  | isoYearOfCentury
  | quarter
  | month
  | day
  | weekFromSunday
  | weekFromMonday
  | isoWeek
  | daysFromSunday
  | weekday
  | dayOfYear
  | hour
  | hour12
  | minute
  | second
  | nanosecond
  | epochSecond
  deriving DecidableEq

/-- The texts that a pattern can show. -/
inductive Word where
  | shortMonth
  | longMonth
  | shortWeekday
  | longWeekday
  | lowerHalf
  | upperHalf
  | zoneName
  /-- The offset from UTC, with this many parts after the hours and this mark between. -/
  | offset (parts : Nat) (mark : String)
  /-- A point and as many digits as the fraction of a second needs. -/
  | fraction
  /-- A mark and this many digits of the fraction. -/
  | fixedFraction (mark : String) (digits : Nat)
  /-- The moment in the form of RFC 3339, with the shortest fraction. -/
  | internet
  deriving DecidableEq

inductive Item where
  | literal (cs : List Char)
  | field (f : Field) (pad : Pad)
  | word (w : Word)
  deriving DecidableEq

-- ============================================================ reading

private def zeroed (f : Field) : Item := .field f .zero
private def spaced (f : Field) : Item := .field f .space
private def bare (f : Field) : Item := .field f .none
private def lit (c : Char) : Item := .literal [c]

private def clock : List Item :=
  [zeroed .hour, lit ':', zeroed .minute, lit ':', zeroed .second]

private def slashDate : List Item :=
  [zeroed .month, lit '/', zeroed .day, lit '/', zeroed .yearOfCentury]

/-- The items that a one-letter specification stands for. -/
def specification? : Char → Option (List Item)
  | 'A' => some [.word .longWeekday]
  | 'B' => some [.word .longMonth]
  | 'C' => some [zeroed .century]
  | 'D' | 'x' => some slashDate
  | 'F' => some [zeroed .year, lit '-', zeroed .month, lit '-', zeroed .day]
  | 'G' => some [zeroed .isoYear]
  | 'H' => some [zeroed .hour]
  | 'I' => some [zeroed .hour12]
  | 'M' => some [zeroed .minute]
  | 'P' => some [.word .lowerHalf]
  | 'R' => some [zeroed .hour, lit ':', zeroed .minute]
  | 'S' => some [zeroed .second]
  | 'T' | 'X' => some clock
  | 'U' => some [zeroed .weekFromSunday]
  | 'V' => some [zeroed .isoWeek]
  | 'W' => some [zeroed .weekFromMonday]
  | 'Y' => some [zeroed .year]
  | 'Z' => some [.word .zoneName]
  | 'a' => some [.word .shortWeekday]
  | 'b' | 'h' => some [.word .shortMonth]
  | 'c' => some ([.word .shortWeekday, lit ' ', .word .shortMonth, lit ' ', spaced .day, lit ' ']
      ++ clock ++ [lit ' ', zeroed .year])
  | 'd' => some [zeroed .day]
  | 'e' => some [spaced .day]
  | 'f' => some [zeroed .nanosecond]
  | 'g' => some [zeroed .isoYearOfCentury]
  | 'j' => some [zeroed .dayOfYear]
  | 'k' => some [spaced .hour]
  | 'l' => some [spaced .hour12]
  | 'm' => some [zeroed .month]
  | 'n' => some [lit '\n']
  | 'p' => some [.word .upperHalf]
  | 'q' => some [bare .quarter]
  | 'r' => some ([zeroed .hour12, lit ':', zeroed .minute, lit ':', zeroed .second, lit ' ',
      .word .upperHalf])
  | 's' => some [bare .epochSecond]
  | 't' => some [lit '\t']
  | 'u' => some [bare .weekday]
  | 'v' => some [spaced .day, lit '-', .word .shortMonth, lit '-', zeroed .year]
  | 'w' => some [bare .daysFromSunday]
  | 'y' => some [zeroed .yearOfCentury]
  | 'z' => some [.word (.offset 1 "")]
  | '+' => some [.word .internet]
  | '%' => some [lit '%']
  | _ => none

/-- The padding that a mark after the percent sign asks for. -/
def padMark? : Char → Option Pad
  | '-' => some .none
  | '_' => some .space
  | '0' => some .zero
  | _ => none

/-- One specification without its percent sign: its items and the rest. -/
def specificationAt? : List Char → Option (List Item × List Char)
  | ':' :: ':' :: ':' :: 'z' :: rest => some ([.word (.offset 0 "")], rest)
  | ':' :: ':' :: 'z' :: rest => some ([.word (.offset 2 ":")], rest)
  | ':' :: 'z' :: rest => some ([.word (.offset 1 ":")], rest)
  | '.' :: 'f' :: rest => some ([.word .fraction], rest)
  | '.' :: '3' :: 'f' :: rest => some ([.word (.fixedFraction "." 3)], rest)
  | '.' :: '6' :: 'f' :: rest => some ([.word (.fixedFraction "." 6)], rest)
  | '.' :: '9' :: 'f' :: rest => some ([.word (.fixedFraction "." 9)], rest)
  | '3' :: 'f' :: rest => some ([.word (.fixedFraction "" 3)], rest)
  | '6' :: 'f' :: rest => some ([.word (.fixedFraction "" 6)], rest)
  | '9' :: 'f' :: rest => some ([.word (.fixedFraction "" 9)], rest)
  | c :: rest => (specification? c).map (·, rest)
  | [] => none

/-- One specification, with a padding mark or without. -/
def marked? (cs : List Char) : Option (List Item × List Char) :=
  match cs with
  | c :: rest =>
    match padMark? c with
    | some pad =>
      match specificationAt? rest with
      | some ([.field f _], rest) => some ([.field f pad], rest)
      | _ => none
    | none => specificationAt? (c :: rest)
  | [] => none

/-- What follows a specification is shorter, so reading a pattern comes to an
end. -/
theorem length_specificationAt? {cs rest : List Char} {items : List Item}
    (h : specificationAt? cs = some (items, rest)) : rest.length < cs.length := by
  unfold specificationAt? at h
  split at h <;> simp at h <;> grind

/-- What follows a mark is shorter as well. -/
theorem length_marked? {cs rest : List Char} {items : List Item}
    (h : marked? cs = some (items, rest)) : rest.length < cs.length := by
  unfold marked? at h
  split at h
  · split at h
    · split at h
      · rename_i hs
        have := length_specificationAt? hs
        simp only [Option.some.injEq, Prod.mk.injEq] at h
        simp only [List.length_cons, ← h.2]
        omega
      · simp at h
    · exact length_specificationAt? h
  · simp at h

/-- The items of a pattern, if all its specifications are known. -/
def parse? (cs : List Char) : Option (List Item) :=
  match cs with
  | [] => some []
  | '%' :: rest =>
    match h : marked? rest with
    | some (items, rest') =>
      have : rest'.length < rest.length + 1 := by have := length_marked? h; omega
      (parse? rest').map (items ++ ·)
    | none => none
  | c :: rest => (parse? rest).map (.literal [c] :: ·)
termination_by cs.length

-- ============================================================ writing

def monthNames : List String :=
  ["January", "February", "March", "April", "May", "June", "July", "August", "September",
    "October", "November", "December"]

def weekdayNames : List String :=
  ["Sunday", "Monday", "Tuesday", "Wednesday", "Thursday", "Friday", "Saturday"]

/-- The digit with this value; values above nine go on through the characters after `9`. -/
def digitOf (n : Nat) : Char := Char.ofNat ('0'.toNat + n)

/-- A number of one byte in two places. -/
def twoPlaces (pad : Pad) (n : Nat) : List Char :=
  match n / 10, pad with
  | 0, .none => [digitOf (n % 10)]
  | 0, .space => [' ', digitOf (n % 10)]
  | tens, _ => [digitOf tens, digitOf (n % 10)]

/-- A number in at least `width` places; the sign comes before padding zeros. -/
def places (pad : Pad) (width : Nat) (signed : Bool) (n : Int) : List Char :=
  let sign := if n < 0 then ['-'] else if signed then ['+'] else []
  let ds := Nat.toDigits 10 n.natAbs
  let room := (if signed then width + 1 else width) - (sign.length + ds.length)
  match pad with
  | .none => sign ++ ds
  | .zero => sign ++ List.replicate room '0' ++ ds
  | .space => List.replicate room ' ' ++ sign ++ ds

/-- A year in four places; one outside 0 to 9999 shows its sign. -/
def yearPlaces (pad : Pad) (y : Int) : List Char :=
  places pad 4 (¬ (0 ≤ y ∧ y < 10000)) y

/-- The low byte of a number. -/
def lowByte (n : Int) : Nat := (n % 256).toNat

/-- The hour on a dial of twelve. -/
def dialHour (h : Nat) : Nat := if h % 12 = 0 then 12 else h % 12

def Field.render (m : Moment) (pad : Pad) : Field → List Char
  | .year => yearPlaces pad m.date.year
  | .century => twoPlaces pad (lowByte (m.date.year / 100))
  | .yearOfCentury => twoPlaces pad (m.date.year % 100).toNat
  | .isoYear => yearPlaces pad m.date.isoWeek.1
  | .isoYearOfCentury => twoPlaces pad (m.date.isoWeek.1 % 100).toNat
  | .quarter => [digitOf ((m.date.month - 1) / 3 + 1)]
  | .month => twoPlaces pad m.date.month
  | .day => twoPlaces pad m.date.day
  | .weekFromSunday => twoPlaces pad (m.date.weekFrom m.date.daysFromSunday)
  | .weekFromMonday => twoPlaces pad (m.date.weekFrom m.date.daysFromMonday)
  | .isoWeek => twoPlaces pad m.date.isoWeek.2
  | .daysFromSunday => [digitOf m.date.daysFromSunday]
  | .weekday => [digitOf (m.date.daysFromMonday + 1)]
  | .dayOfYear => places pad 3 false m.date.ordinal
  | .hour => twoPlaces pad m.hour
  | .hour12 => twoPlaces pad (dialHour m.hour)
  | .minute => twoPlaces pad m.minute
  | .second => twoPlaces pad m.second
  | .nanosecond => places pad 9 false (m.milli * 1000000 : Nat)
  | .epochSecond => places pad 9 false (m.toMillis / 1000)

/-- The fraction of a second in as few digits as it needs, three or none. -/
def shortFraction (m : Moment) : List Char :=
  if m.milli = 0 then [] else '.' :: Text.padNat '0' 3 m.milli

def Word.render (m : Moment) : Word → List Char
  | .shortMonth => (monthNames.getD (m.date.month - 1) "").toList.take 3
  | .longMonth => (monthNames.getD (m.date.month - 1) "").toList
  | .shortWeekday => (weekdayNames.getD m.date.daysFromSunday "").toList.take 3
  | .longWeekday => (weekdayNames.getD m.date.daysFromSunday "").toList
  | .lowerHalf => if m.hour < 12 then ['a', 'm'] else ['p', 'm']
  | .upperHalf => if m.hour < 12 then ['A', 'M'] else ['P', 'M']
  | .zoneName => ['U', 'T', 'C']
  | .offset parts mark =>
    '+' :: '0' :: '0' :: (List.replicate parts (mark.toList ++ ['0', '0'])).flatten
  | .fraction => shortFraction m
  | .fixedFraction mark digits =>
    mark.toList ++ Text.padNat '0' 3 m.milli ++ List.replicate (digits - 3) '0'
  | .internet =>
    yearPlaces .zero m.date.year ++ '-' :: twoPlaces .zero m.date.month
      ++ '-' :: twoPlaces .zero m.date.day ++ 'T' :: twoPlaces .zero m.hour
      ++ ':' :: twoPlaces .zero m.minute ++ ':' :: twoPlaces .zero m.second
      ++ shortFraction m ++ ['+', '0', '0', ':', '0', '0']

def Item.render (m : Moment) : Item → List Char
  | .literal cs => cs
  | .field f pad => f.render m pad
  | .word w => w.render m

/-- The moment written by the items. -/
def renderItems (items : List Item) (m : Moment) : List Char :=
  items.flatMap (Item.render m)

/-- The moment written by a pattern; a pattern with an unknown
specification writes nothing. -/
def render (pattern : String) (m : Moment) : List Char :=
  match parse? pattern.toList with
  | some items => renderItems items m
  | none => []

end LogPipeline.Pattern
