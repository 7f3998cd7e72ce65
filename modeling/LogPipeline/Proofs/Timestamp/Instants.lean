/-
A timestamp tells its instant. `instant?` reads a date and time the way
its grammar says: a year, with a sign if it needs one, then month, day,
hour, minute, second and milliseconds behind their marks, and an offset.
It counts the days by the rules of the calendar (`Date.dayNumber`) and
knows nothing of how a timestamp is written.

Every date text in range is read as the count it was written for
(`instant?_dateTime`), which is why two counts are never written alike.
Texts with four digits for the year sort as the instants do: years are
numerals of one width, and behind the year stands a record of numerals
whose order is that of the moments (`parts_lt`, `Text.written_lt`).
-/
import LogPipeline.Proofs.Formatter.Records
import LogPipeline.Proofs.Timestamp.Gregorian
import LogPipeline.Proofs.Text.Numerals

namespace LogPipeline

-- ============================================================ moments

namespace Moment

/-- What a moment says after its year, the largest part first. -/
def parts (m : Moment) : List Nat :=
  [m.date.month, m.date.day, m.hour, m.minute, m.second, m.milli]

/-- The time of day is one, and it is what is left of the count. -/
theorem timeOfDay (ms : Int) :
    (ofMillis ms).hour < 24 ∧ (ofMillis ms).minute < 60 ∧ (ofMillis ms).second < 60
      ∧ (ofMillis ms).milli < 1000
      ∧ (((ofMillis ms).hour * 60 + (ofMillis ms).minute) * 60 + (ofMillis ms).second) * 1000
          + (ofMillis ms).milli = (ms % dayMillis).toNat := by
  unfold ofMillis dayMillis
  dsimp only
  omega

theorem exists_date (ms : Int) : (ofMillis ms).date.Exists := Date.exists_ofDays _

theorem dayNumber_date (ms : Int) : (ofMillis ms).date.dayNumber = ms / dayMillis :=
  Date.dayNumber_ofDays _

/-- A moment is split into its date and its time without loss. -/
theorem toMillis_ofMillis (ms : Int) : (ofMillis ms).toMillis = ms := by
  obtain ⟨-, -, -, -, htime⟩ := timeOfDay ms
  have hdays : (ofMillis ms).date.toDays = ms / dayMillis := Date.toDays_ofDays _
  unfold toMillis
  rw [htime, hdays]
  unfold dayMillis
  omega

/-- Dates are told for the years from -262143 to 262142. -/
theorem isInRange_iff (ms : Int) : isInRange ms = true
    ↔ -262143 ≤ (ofMillis ms).date.year ∧ (ofMillis ms).date.year ≤ 262142 := by
  have hfirst : Date.yearStart (-262143) * dayMillis = first := by
    rw [Date.yearStart_eq]
    rfl
  have hlast : Date.yearStart (262142 + 1) * dayMillis = last + 1 := by
    rw [Date.yearStart_eq]
    rfl
  have hyear := Date.dayNumber_in_year (exists_date ms)
  rw [dayNumber_date] at hyear
  generalize (ofMillis ms).date.year = year at hyear
  unfold isInRange
  rw [Bool.and_eq_true, decide_eq_true_iff, decide_eq_true_iff]
  unfold dayMillis at *
  constructor
  · intro hrange
    constructor
    · by_cases hearly : year < -262143
      · have hmono := Date.yearStart_mono (show year + 1 ≤ -262143 by omega)
        omega
      · omega
    · by_cases hlate : 262142 < year
      · have hmono := Date.yearStart_mono (show 262142 + 1 ≤ year by omega)
        omega
      · omega
  · intro hrange
    have hmono := Date.yearStart_mono hrange.1
    have hmono' := Date.yearStart_mono (show year + 1 ≤ 262142 + 1 by omega)
    omega

/-- A later moment has a later year, or in the same year later parts. -/
theorem parts_lt {ms ms' : Int} (h : ms < ms') :
    (ofMillis ms).date.year < (ofMillis ms').date.year
      ∨ (ofMillis ms).date.year = (ofMillis ms').date.year
        ∧ (ofMillis ms).parts < (ofMillis ms').parts := by
  unfold parts
  simp only [List.cons_lt_cons_iff, List.not_lt_nil, and_false, or_false]
  by_cases hday : ms / dayMillis < ms' / dayMillis
  · rw [← dayNumber_date, ← dayNumber_date] at hday
    rcases Date.lex_of_dayNumber_lt (exists_date ms) (exists_date ms') hday with
      hyear | ⟨hyear, hmonth | ⟨hmonth, hday⟩⟩
    · exact .inl hyear
    · exact .inr ⟨hyear, .inl hmonth⟩
    · exact .inr ⟨hyear, .inr ⟨hmonth, .inl hday⟩⟩
  · -- on one day the time is later
    have hsame : ms / dayMillis = ms' / dayMillis := by
      unfold dayMillis at *
      omega
    have hdate : (ofMillis ms).date = (ofMillis ms').date := congrArg Date.ofDays hsame
    obtain ⟨-, hminute, hsecond, hmilli, htime⟩ := timeOfDay ms
    obtain ⟨-, hminute', hsecond', hmilli', htime'⟩ := timeOfDay ms'
    unfold dayMillis at hsame htime htime'
    rw [hdate]
    refine .inr ⟨rfl, .inr ⟨rfl, .inr ⟨rfl, ?_⟩⟩⟩
    omega

end Moment

-- ============================================================== texts

namespace Json

/-- The characters of a number are the text of the number. -/
theorem ofList_intChars (n : Int) : String.ofList (intChars n) = toString n := by
  cases n with
  | ofNat n => rfl
  | negSucc n =>
    show String.ofList (['-'] ++ Nat.toDigits 10 (n + 1)) = "-" ++ String.ofList _
    rw [String.ofList_append]

theorem toString_int_inj {n m : Int} (h : toString n = toString m) : n = m := by
  have hends : Ends [] := fun _ hc => nomatch hc
  have hchars : intChars n = intChars m := by
    rw [← ofList_intChars, ← ofList_intChars] at h
    exact String.ofList_inj.1 h
  have hread := value?_intChars n 0 hends
  rw [hchars, value?_intChars m 0 hends] at hread
  exact (Json.int.inj (Prod.mk.inj (Option.some.inj hread)).1).symm

/-- A number has digits and a sign, and nothing else. -/
theorem not_mem_intChars {c : Char} (hdigit : c.isDigit = false) (hsign : c ≠ '-') (n : Int) :
    c ∉ intChars n := by
  have hdigits (k : Nat) : c ∉ Nat.toDigits 10 k := by
    intro hmem
    rw [Nat.isDigit_of_mem_toDigits (by decide) (by decide) hmem] at hdigit
    cases hdigit
  cases n with
  | ofNat n => exact hdigits n
  | negSucc n =>
    intro hmem
    rcases List.mem_cons.1 hmem with heq | hmem
    · exact hsign heq
    · exact hdigits (n + 1) hmem

end Json

namespace Pattern

/-- A two-place field is the numeral of two digits. -/
theorem twoPlaces_zero : ∀ n < 100, twoPlaces .zero n = Text.numeral 2 n := by
  decide

/-- A year of four digits is written without a sign. -/
theorem yearPlaces_plain {year : Int} (h : 0 ≤ year) (h' : year < 10000) :
    yearPlaces .zero year = Text.numeral 4 year.toNat := by
  obtain ⟨n, rfl⟩ := Int.eq_ofNat_of_zero_le h
  unfold yearPlaces places
  rw [if_neg (by omega)]
  simp only [h, h', and_self, not_true_eq_false, decide_false, Bool.false_eq_true, if_false,
    List.length_nil, Nat.zero_add, List.nil_append, Int.natAbs_natCast, Int.toNat_natCast]
  exact Text.padded_toDigits (by omega)

/-- The digits of a year that has a sign: at least four. -/
def yearDigits (n : Nat) : List Char :=
  Text.numeral (4 - (Nat.toDigits 10 n).length) 0 ++ Nat.toDigits 10 n

/-- A year outside 0 to 9999 is written with its sign. -/
theorem yearPlaces_signed {year : Int} (h : ¬ (0 ≤ year ∧ year < 10000)) :
    yearPlaces .zero year = (if year < 0 then '-' else '+') :: yearDigits year.natAbs := by
  have hroom (k : Nat) : 4 + 1 - (0 + 1 + k) = 4 - k := by omega
  unfold yearPlaces places yearDigits
  rw [Text.numeral_zero]
  by_cases hneg : year < 0
  · simp only [h, hneg, not_false_eq_true, decide_true, if_true, List.length_cons, List.length_nil,
      hroom]
    rfl
  · simp only [h, hneg, not_false_eq_true, decide_true, if_true, if_false, List.length_cons,
      List.length_nil, hroom]
    rfl

theorem four_le_length_yearDigits (n : Nat) : 4 ≤ (yearDigits n).length := by
  unfold yearDigits
  rw [List.length_append, Text.length_numeral]
  omega

theorem isDigit_of_mem_yearDigits {n : Nat} {c : Char} (hc : c ∈ yearDigits n) :
    c.isDigit = true := by
  rcases List.mem_append.1 hc with hc | hc
  · exact Text.isDigit_of_mem_numeral hc
  · exact Nat.isDigit_of_mem_toDigits (by decide) (by decide) hc

theorem ofDigitChars_yearDigits (n : Nat) : Nat.ofDigitChars 10 (yearDigits n) 0 = n := by
  unfold yearDigits
  rw [Nat.ofDigitChars_append, Text.ofDigitChars_numeral (Nat.pow_pos (by decide)),
    Nat.ofDigitChars_ten_toDigits]

end Pattern

namespace TimestampFormat

/-- What stands behind the year: month, day, hour, minute, second and
milliseconds, each with the mark before it and its places. -/
def marks : List (Char × Nat) := [('-', 2), ('-', 2), ('T', 2), (':', 2), (':', 2), ('.', 3)]

/-- The fields of a moment have the width that they are written in. -/
theorem fits_parts (ms : Int) : Text.Fits marks (Moment.ofMillis ms).parts := by
  have hmonth := (Moment.exists_date ms).month_le
  have hday := (Moment.exists_date ms).day_le_longest
  obtain ⟨hhour, hminute, hsecond, hmilli, -⟩ := Moment.timeOfDay ms
  refine .cons ?_ (.cons ?_ (.cons ?_ (.cons ?_ (.cons ?_ (.cons ?_ .nil)))))
  all_goals
    dsimp only
    omega

/-- A date and time is its year, and the fields behind their marks. -/
theorem dateTime_eq {m : Moment} (h : Text.Fits marks m.parts) :
    dateTime m = Pattern.yearPlaces .zero m.date.year ++ Text.written marks m.parts := by
  unfold Moment.parts marks at *
  simp only [Text.Fits, List.forall₂_cons] at h
  obtain ⟨hmonth, hday, hhour, hminute, hsecond, hmilli, -⟩ := h
  unfold dateTime
  rw [Pattern.twoPlaces_zero _ hmonth, Pattern.twoPlaces_zero _ hday,
    Pattern.twoPlaces_zero _ hhour, Pattern.twoPlaces_zero _ hminute,
    Pattern.twoPlaces_zero _ hsecond, Text.padNat_eq_numeral hmilli]
  simp only [Text.written, List.append_assoc, List.cons_append, List.append_nil]

-- ============================================================= reading

/-- The year behind a sign: four digits or more. -/
def signedYear? (cs : List Char) : Option (Nat × List Char) :=
  let (ds, rest) := Json.digits cs
  if 4 ≤ ds.length then some (Nat.ofDigitChars 10 ds 0, rest) else none

/-- A year and what follows it. It has four digits; any other year has a
sign, and no year has one that can do without. -/
def year? : List Char → Option (Int × List Char)
  | '+' :: cs => do
    let (n, rest) ← signedYear? cs
    if 9999 < n then return (n, rest) else none
  | '-' :: cs => do
    let (n, rest) ← signedYear? cs
    if 0 < n then return (-n, rest) else none
  | cs => do
    let (n, rest) ← Text.number? 4 cs
    return (n, rest)

/-- How many minutes the clock is ahead: none, or a sign, hours and minutes. -/
def offset? : List Char → Option Int
  | ['Z'] => some 0
  | sign :: cs =>
    match Text.fields? [(sign, 2), (':', 2)] (sign :: cs) with
    | some ([hours, minutes], []) =>
      if minutes < 60 then
        match sign with
        | '+' => some (hours * 60 + minutes)
        | '-' => some (-(hours * 60 + minutes))
        | _ => none
      else none
    | _ => none
  | [] => none

/-- The count of a date and a time of day, if there are such. -/
def count? (year : Int) (parts : List Nat) (offset : Int) : Option Int :=
  match parts with
  | [month, day, hour, minute, second, milli] =>
    let date : Date := ⟨year, month, day⟩
    if date.Exists ∧ hour < 24 ∧ minute < 60 ∧ second < 60 then
      some ((((date.dayNumber * 24 + hour) * 60 + minute - offset) * 60 + second) * 1000 + milli)
    else none
  | _ => none

/-- The milliseconds from the epoch to a date and time. -/
def instant? (s : String) : Option Int := do
  let (year, cs) ← year? s.toList
  let (parts, cs) ← Text.fields? marks cs
  let offset ← offset? cs
  count? year parts offset

/-- A year behind a sign is read as far as its digits go. -/
theorem signedYear?_yearDigits (n : Nat) {rest : List Char} (hr : Json.Ends rest) :
    signedYear? (Pattern.yearDigits n ++ rest) = some (n, rest) := by
  unfold signedYear?
  rw [Json.digits_append (fun c hc => Pattern.isDigit_of_mem_yearDigits hc) hr]
  dsimp only
  rw [if_pos (Pattern.four_le_length_yearDigits n), Pattern.ofDigitChars_yearDigits]

/-- A digit begins a year without a sign. -/
theorem year?_digit {c : Char} (hc : c.isDigit = true) {cs rest : List Char} {n : Nat}
    (h : Text.number? 4 (c :: cs) = some (n, rest)) : year? (c :: cs) = some ((n : Int), rest) := by
  unfold year?
  split
  · next heq =>
    rw [(List.cons.inj heq).1] at hc
    exact absurd hc (by decide)
  · next heq =>
    rw [(List.cons.inj heq).1] at hc
    exact absurd hc (by decide)
  · rw [h]
    rfl

/-- A year is read back, in whichever form it was written. -/
theorem year?_yearPlaces (year : Int) {rest : List Char} (hr : Json.Ends rest) :
    year? (Pattern.yearPlaces .zero year ++ rest) = some (year, rest) := by
  by_cases hplain : 0 ≤ year ∧ year < 10000
  · obtain ⟨n, rfl⟩ := Int.eq_ofNat_of_zero_le hplain.1
    have hread := Text.number?_numeral (show n < 10 ^ 4 by omega) rest
    rw [Pattern.yearPlaces_plain hplain.1 hplain.2, Int.toNat_natCast]
    cases hds : Text.numeral 4 n with
    | nil => exact absurd (Text.length_numeral 4 n) (by rw [hds]; decide)
    | cons c cs =>
      have hc : c.isDigit = true := Text.isDigit_of_mem_numeral (hds ▸ List.mem_cons_self)
      rw [hds] at hread
      exact year?_digit hc hread
  · rw [Pattern.yearPlaces_signed hplain, List.cons_append]
    have hread := signedYear?_yearDigits year.natAbs hr
    by_cases hneg : year < 0
    · rw [if_pos hneg]
      show (signedYear? (Pattern.yearDigits year.natAbs ++ rest) >>= _) = _
      rw [hread]
      show (if 0 < year.natAbs then some (-(year.natAbs : Int), rest) else none) = _
      rw [if_pos (by omega), Int.ofNat_natAbs_of_nonpos (by omega), Int.neg_neg]
    · rw [if_neg hneg]
      show (signedYear? (Pattern.yearDigits year.natAbs ++ rest) >>= _) = _
      rw [hread]
      show (if 9999 < year.natAbs then some ((year.natAbs : Int), rest) else none) = _
      rw [if_pos (by omega), Int.natAbs_of_nonneg (by omega)]

/-- The fields of a moment are counted to the moment they came from. -/
theorem count?_parts (ms : Int) :
    count? (Moment.ofMillis ms).date.year (Moment.ofMillis ms).parts 0 = some ms := by
  obtain ⟨hhour, hminute, hsecond, -, htime⟩ := Moment.timeOfDay ms
  have hnumber := Moment.dayNumber_date ms
  unfold count? Moment.parts
  dsimp only
  rw [if_pos ⟨Moment.exists_date ms, hhour, hminute, hsecond⟩, hnumber]
  congr 1
  unfold Moment.dayMillis at *
  omega

/-- A date and time in UTC is read as the count it was written for. -/
theorem instant?_dateTime (ms : Int) {zone : List Char} (hzone : offset? zone = some 0) :
    instant? (String.ofList (dateTime (Moment.ofMillis ms) ++ zone)) = some ms := by
  have hends : Json.Ends (Text.written marks (Moment.ofMillis ms).parts ++ zone) := by
    intro c hc
    rw [← Option.some.inj hc]
    decide
  unfold instant?
  rw [dateTime_eq (fits_parts ms), String.toList_ofList, List.append_assoc,
    year?_yearPlaces _ hends]
  simp only [Option.bind_eq_bind, Option.bind_some, Text.fields?_written (fits_parts ms), hzone]
  exact count?_parts ms

/-- An offset is taken off: the leap day begins an hour earlier in the east. -/
example : instant? "2000-02-29T00:30:00.000+01:00" = some 951780600000 := by
  decide +kernel

-- ============================================================= writing

/-- In range a date format writes the moment. -/
theorem chars_inRange {ms : Int} (h : Moment.isInRange ms = true) (f : TimestampFormat) :
    f.chars ms = momentChars (Moment.ofMillis ms) f := by
  cases f with
  | iso8601 => exact if_pos h
  | rfc3339 => exact if_pos h
  | unix => rw [chars, momentChars, Moment.toMillis_ofMillis]
  | unixMillis => rw [chars, momentChars, Moment.toMillis_ofMillis]
  | custom pattern => exact if_pos h

/-- Out of range no date is written. -/
theorem format_outOfRange {ms : Int} (h : ¬ Moment.isInRange ms = true) {f : TimestampFormat}
    (hf : f ≠ unix) : f.format ms = toString ms := by
  rw [← Json.ofList_intChars]
  unfold format
  congr 1
  cases f with
  | iso8601 => exact if_neg h
  | rfc3339 => exact if_neg h
  | unix => exact absurd rfl hf
  | unixMillis => rfl
  | custom pattern => exact if_neg h

/-- What the first format writes of a date that there is, is read back. -/
theorem instant?_iso8601 {ms : Int} (h : Moment.isInRange ms = true) :
    instant? (iso8601.format ms) = some ms := by
  unfold format
  rw [chars_inRange h]
  exact instant?_dateTime ms rfl

theorem instant?_rfc3339 {ms : Int} (h : Moment.isInRange ms = true) :
    instant? (rfc3339.format ms) = some ms := by
  unfold format
  rw [chars_inRange h]
  exact instant?_dateTime ms (by decide)

/-- The text of a date ends in a letter, and that of a count has none. -/
theorem iso8601_ne_toString {ms : Int} (h : Moment.isInRange ms = true) (n : Int) :
    iso8601.format ms ≠ toString n := by
  unfold format
  rw [← Json.ofList_intChars, chars_inRange h]
  intro heq
  apply Json.not_mem_intChars (show 'Z'.isDigit = false by decide) (by decide) n
  rw [← String.ofList_inj.1 heq]
  exact List.mem_append_right _ (List.mem_singleton_self _)

/-- Two counts are never written alike. -/
theorem iso8601_inj {ms ms' : Int} (h : iso8601.format ms = iso8601.format ms') : ms = ms' := by
  have hdate : iso8601 ≠ unix := by decide
  by_cases hin : Moment.isInRange ms = true
  · by_cases hin' : Moment.isInRange ms' = true
    · have hread := instant?_iso8601 hin
      rw [h, instant?_iso8601 hin'] at hread
      exact (Option.some.inj hread).symm
    · rw [format_outOfRange hin' hdate] at h
      exact absurd h (iso8601_ne_toString hin ms')
  · by_cases hin' : Moment.isInRange ms' = true
    · rw [format_outOfRange hin hdate] at h
      exact absurd h.symm (iso8601_ne_toString hin' ms)
    · rw [format_outOfRange hin hdate, format_outOfRange hin' hdate] at h
      exact Json.toString_int_inj h

-- ============================================================= sorting

/-- The year has four digits. -/
def HasPlainYear (ms : Int) : Prop :=
  0 ≤ (Moment.ofMillis ms).date.year ∧ (Moment.ofMillis ms).date.year ≤ 9999

instance (ms : Int) : Decidable (HasPlainYear ms) :=
  inferInstanceAs (Decidable (_ ∧ _))

theorem HasPlainYear.inRange {ms : Int} (h : HasPlainYear ms) : Moment.isInRange ms = true := by
  obtain ⟨hpos, hle⟩ := h
  apply (Moment.isInRange_iff ms).2
  omega

/-- With four digits for the year the texts are ordered as the moments are. -/
theorem dateTime_lt {ms ms' : Int} (hyear : HasPlainYear ms) (hyear' : HasPlainYear ms')
    (h : ms < ms') (zone : List Char) :
    dateTime (Moment.ofMillis ms) ++ zone < dateTime (Moment.ofMillis ms') ++ zone := by
  obtain ⟨hpos, hle⟩ := hyear
  obtain ⟨hpos', hle'⟩ := hyear'
  rw [dateTime_eq (fits_parts ms), dateTime_eq (fits_parts ms'), List.append_assoc,
    List.append_assoc, Pattern.yearPlaces_plain hpos (by omega),
    Pattern.yearPlaces_plain hpos' (by omega)]
  rcases Moment.parts_lt h with hlt | ⟨hsame, hlt⟩
  · exact Text.numeral_lt (by omega) (by omega) _ _
  · rw [hsame]
    apply List.append_left_lt
    exact Text.written_lt (fits_parts ms) (fits_parts ms') hlt zone

/-- A date and time with an offset. -/
def isDateTime : TimestampFormat → Bool
  | iso8601 | rfc3339 => true
  | _ => false

theorem format_lt {f : TimestampFormat} (hf : f.isDateTime = true) {ms ms' : Int}
    (hyear : HasPlainYear ms) (hyear' : HasPlainYear ms') (h : ms < ms') :
    f.format ms < f.format ms' := by
  unfold format
  rw [String.lt_iff, String.toList_ofList, String.toList_ofList, chars_inRange hyear.inRange,
    chars_inRange hyear'.inRange]
  cases f with
  | iso8601 => exact dateTime_lt hyear hyear' h _
  | rfc3339 => exact dateTime_lt hyear hyear' h _
  | unix => cases hf
  | unixMillis => cases hf
  | custom pattern => cases hf

/-- In either format the text that comes first is that of the earlier
moment. -/
theorem format_lt_iff {f : TimestampFormat} (hf : f.isDateTime = true) {ms ms' : Int}
    (hyear : HasPlainYear ms) (hyear' : HasPlainYear ms') :
    f.format ms < f.format ms' ↔ ms < ms' := by
  constructor
  · intro h
    rcases Int.lt_trichotomy ms ms' with hlt | rfl | hlt
    · exact hlt
    · exact absurd h (String.lt_irrefl _)
    · exact absurd h (String.lt_asymm (format_lt hf hyear' hyear hlt))
  · exact format_lt hf hyear hyear'

end TimestampFormat

-- ============================================================= records

namespace RecordFormat

/-- In a record the time is the text of the format, as the number it is for
a count and in quotes for a date. -/
theorem timestampValue_eq (f : TimestampFormat) (ms : Int) :
    if f.isNumeric then ∃ n : Int, timestampValue f ms = .int n ∧ toString n = f.format ms
    else timestampValue f ms = .str (f.format ms) := by
  cases f with
  | iso8601 => rfl
  | rfc3339 => rfl
  | unix => exact ⟨ms / 1000, rfl, (Json.ofList_intChars _).symm⟩
  | unixMillis => exact ⟨ms, rfl, (Json.ofList_intChars _).symm⟩
  | custom pattern => rfl

end RecordFormat

-- ========================================================== instants

namespace TimestampFormat

/-- All formats tell one instant. In range both texts of a date are read as
the count they were written for, and the counts that a moment has are those
that stand in the event; a count of seconds is that of the second the
instant is in. Two instants are never written alike, and in the years from
0 to 9999 they are sorted as their texts. Out of range every format but the
seconds writes the count itself. A record has the same text for its time:
as a number if the format is one, and as a string if not. -/
theorem same_instant :
    (∀ ms : Int, Moment.isInRange ms = true →
      instant? (iso8601.format ms) = some ms ∧ instant? (rfc3339.format ms) = some ms
        ∧ ∀ f : TimestampFormat, f.chars ms = momentChars (Moment.ofMillis ms) f)
    ∧ (∀ ms : Int, ∃ s : Int, unix.format ms = toString s ∧ s * 1000 ≤ ms ∧ ms < (s + 1) * 1000)
    ∧ (∀ ms ms' : Int, ms ≠ ms' → iso8601.format ms ≠ iso8601.format ms')
    ∧ (∀ f : TimestampFormat, f.isDateTime = true → ∀ ms ms' : Int,
      HasPlainYear ms → HasPlainYear ms' → (f.format ms < f.format ms' ↔ ms < ms'))
    ∧ (∀ ms : Int, ¬ Moment.isInRange ms = true →
      ∀ f : TimestampFormat, f ≠ unix → f.format ms = toString ms)
    ∧ (∀ (f : TimestampFormat) (e : EventSlot), ∃ members v,
      Json.parse? (RecordFormat.line f e) = some (.obj members)
        ∧ Dict.lookup "timestamp" members = some v
        ∧ if f.isNumeric then ∃ n : Int, v = .int n ∧ toString n = f.format e.millis
          else v = .str (f.format e.millis)) := by
  refine ⟨fun ms h => ?_, fun ms => ?_, fun ms ms' hne heq => hne (iso8601_inj heq),
    fun f hf ms ms' hyear hyear' => format_lt_iff hf hyear hyear',
    fun ms h f hf => format_outOfRange h hf, fun f e => ?_⟩
  · exact ⟨instant?_iso8601 h, instant?_rfc3339 h, chars_inRange h⟩
  · refine ⟨ms / 1000, Json.ofList_intChars _, ?_, ?_⟩ <;> omega
  · obtain ⟨members, hvalue, -, htime⟩ := RecordFormat.says_value f e
    refine ⟨members, _, ?_, htime, RecordFormat.timestampValue_eq f e.millis⟩
    rw [RecordFormat.parse?_line, hvalue]

/-- The last millisecond of 1969, one of 2025, and the last count there is. -/
theorem same_instant_sample :
    instant? (iso8601.format (-1)) = some (-1)
      ∧ instant? (rfc3339.format 1736332245123) = some 1736332245123
      ∧ iso8601.format (-1) < iso8601.format 1736332245123
      ∧ iso8601.format (-1) ≠ iso8601.format 1736332245123
      ∧ iso8601.format 9223372036854775807 = "9223372036854775807" := by
  obtain ⟨hread, -, hinj, hsorts, hfallback, -⟩ := same_instant
  refine ⟨(hread _ (by decide)).1, (hread _ (by decide)).2.1, ?_, hinj _ _ (by decide), ?_⟩
  · exact (hsorts _ rfl _ _ (by decide) (by decide)).2 (by decide)
  · exact hfallback _ (by decide) _ (by decide)

end TimestampFormat

end LogPipeline
