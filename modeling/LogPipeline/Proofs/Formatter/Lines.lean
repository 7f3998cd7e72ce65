/-
One event, one line. `OneLine` says what a reader of a line-oriented
file relies on: a text ends with its only line break. The pieces of a
line are taken in turn. The payload (message, context, stack, error and
causes) is escaped, and what `escapeBreaks` writes never breaks a line;
the level, the numbers and the dates of the named timestamp formats
cannot. What is left are the texts that `LineFormat.line` copies as they
are: the name of the thread, of the marker and of the logger, the file
of the location and what a date pattern of the application writes. So
`oneLine_line_iff` says exactly when the line of an event is one line,
and `forged_line` shows an event whose line is two.
-/
import LogPipeline.Formatter

namespace LogPipeline

-- ===================================================== unbroken texts

/-- No character of the text ends a line. -/
def Unbroken (cs : List Char) : Prop := '\n' ∉ cs ∧ '\r' ∉ cs

/-- The text ends with a line break and has no other. -/
def OneLine (s : String) : Prop := ∃ body, s.toList = body ++ ['\n'] ∧ Unbroken body

instance (cs : List Char) : Decidable (Unbroken cs) := inferInstanceAs (Decidable (_ ∧ _))

/-- Characters none of which is a line feed or a carriage return are
unbroken. -/
theorem unbroken_of_forall {cs : List Char} (h : ∀ c ∈ cs, c ≠ '\n' ∧ c ≠ '\r') :
    Unbroken cs :=
  ⟨fun hn => (h _ hn).1 rfl, fun hr => (h _ hr).2 rfl⟩

@[simp] theorem unbroken_nil : Unbroken [] := by decide

/-- A text is unbroken exactly when its first character and the rest are. -/
@[simp] theorem unbroken_cons_iff {c : Char} {cs : List Char} :
    Unbroken (c :: cs) ↔ Unbroken [c] ∧ Unbroken cs := by
  simp only [Unbroken, List.mem_cons, List.not_mem_nil, or_false, not_or]
  exact and_and_and_comm

/-- Two texts put together are unbroken exactly when each of them is. -/
@[simp] theorem unbroken_append_iff {cs ds : List Char} :
    Unbroken (cs ++ ds) ↔ Unbroken cs ∧ Unbroken ds := by
  simp only [Unbroken, List.mem_append, not_or]
  exact and_and_and_comm

/-- What is written piece by piece is unbroken as soon as every piece is. -/
theorem unbroken_flatMap {α : Type} {f : α → List Char} {xs : List α}
    (h : ∀ x ∈ xs, Unbroken (f x)) : Unbroken (xs.flatMap f) := by
  refine unbroken_of_forall fun c hc => ?_
  obtain ⟨x, hx, hcx⟩ := List.mem_flatMap.1 hc
  exact ⟨fun hn => (h x hx).1 (hn ▸ hcx), fun hr => (h x hx).2 (hr ▸ hcx)⟩

theorem unbroken_replicate {c : Char} (hc : Unbroken [c]) (n : Nat) :
    Unbroken (List.replicate n c) := by
  refine unbroken_of_forall fun d hd => ?_
  obtain rfl := List.eq_of_mem_replicate hd
  simpa [Unbroken, eq_comm] using hc

/-- Unbroken parts joined by an unbroken separator stay unbroken. -/
theorem unbroken_intercalate {sep : List Char} (hsep : Unbroken sep) :
    ∀ {parts : List (List Char)}, (∀ p ∈ parts, Unbroken p) →
      Unbroken (sep.intercalate parts)
  | [], _ => by simp [List.intercalate]
  | [p], h => by simpa [List.intercalate] using h p List.mem_cons_self
  | p :: q :: parts, h => by
    rw [List.intercalate_cons_cons, unbroken_append_iff, unbroken_append_iff]
    exact ⟨⟨h p List.mem_cons_self, hsep⟩,
      unbroken_intercalate hsep fun r hr => h r (List.mem_cons_of_mem _ hr)⟩

/-- A text and a line break make one line just if the text has no break. -/
theorem oneLine_append_iff {s : String} : OneLine (s ++ "\n") ↔ Unbroken s.toList := by
  have hlist : (s ++ "\n").toList = s.toList ++ ['\n'] := String.toList_append
  constructor
  · rintro ⟨body, heq, hb⟩
    rwa [List.append_cancel_right (hlist.symm.trans heq)]
  · exact fun hb => ⟨s.toList, hlist, hb⟩

-- ============================================================ numbers

/-- Decimal digits break no line. -/
theorem unbroken_toDigits (n : Nat) : Unbroken (Nat.toDigits 10 n) := by
  refine unbroken_of_forall fun c hc => ?_
  have hdigit : c.isDigit = true := Nat.isDigit_of_mem_toDigits (by omega) (by omega) hc
  constructor
  · rintro rfl
    exact absurd hdigit (by decide)
  · rintro rfl
    exact absurd hdigit (by decide)

theorem unbroken_intChars (n : Int) : Unbroken (Json.intChars n) := by
  cases n with
  | ofNat n => exact unbroken_toDigits n
  | negSucc n => exact unbroken_cons_iff.2 ⟨by decide, unbroken_toDigits _⟩

/-- A column filled with an unbroken character and cut nowhere keeps an
unbroken text unbroken. -/
theorem unbroken_set {col : Text.Column} (hfill : Unbroken [col.fill]) (hcut : col.precision = none)
    {cs : List Char} (hcs : Unbroken cs) : Unbroken (col.set cs) := by
  unfold Text.Column.set
  rw [hcut]
  simp only [unbroken_append_iff]
  exact ⟨⟨unbroken_replicate hfill _, hcs⟩, unbroken_replicate hfill _⟩

theorem unbroken_padNat (width n : Nat) : Unbroken (Text.padNat '0' width n) :=
  unbroken_set (show Unbroken ['0'] by decide) rfl (unbroken_toDigits n)

theorem toNat_ofNat_eq (n : Nat) : (Char.ofNat n).toNat = n ∨ (Char.ofNat n).toNat = 0 := by
  unfold Char.ofNat
  by_cases hvalid : n.isValidChar
  · rw [dif_pos hvalid]
    exact .inl rfl
  · rw [dif_neg hvalid]
    exact .inr rfl

namespace Pattern

/-- Digits go on above nine through the characters after `9`, and where
those end with the character of number zero. -/
theorem unbroken_digitOf (n : Nat) : Unbroken [digitOf n] := by
  have hnat : (digitOf n).toNat = 48 + n ∨ (digitOf n).toNat = 0 := toNat_ofNat_eq (48 + n)
  have hcode : (digitOf n).toNat ≠ 10 ∧ (digitOf n).toNat ≠ 13 := by omega
  refine unbroken_of_forall fun c hc => ?_
  obtain rfl := List.mem_singleton.1 hc
  exact ⟨fun h => hcode.1 (by rw [h]; rfl), fun h => hcode.2 (by rw [h]; rfl)⟩

/-- A two-place field of the date is unbroken, whatever it is padded with. -/
theorem unbroken_twoPlaces (pad : Pad) (n : Nat) : Unbroken (twoPlaces pad n) := by
  unfold twoPlaces
  split
  · exact unbroken_digitOf _
  · exact unbroken_cons_iff.2 ⟨by decide, unbroken_digitOf _⟩
  · exact unbroken_cons_iff.2 ⟨unbroken_digitOf _, unbroken_digitOf _⟩

/-- So is a wider one, signed or not. -/
theorem unbroken_places (pad : Pad) (width : Nat) (signed : Bool) (n : Int) :
    Unbroken (places pad width signed n) := by
  have hsign : Unbroken (if n < 0 then ['-'] else if signed then ['+'] else []) := by
    split
    · decide
    · split <;> decide
  unfold places
  cases pad with
  | none => exact unbroken_append_iff.2 ⟨hsign, unbroken_toDigits _⟩
  | zero =>
    simp only [unbroken_append_iff]
    exact ⟨⟨hsign, unbroken_replicate (by decide) _⟩, unbroken_toDigits _⟩
  | space =>
    simp only [unbroken_append_iff]
    exact ⟨⟨unbroken_replicate (by decide) _, hsign⟩, unbroken_toDigits _⟩

end Pattern

-- ========================================================= timestamps

namespace TimestampFormat

theorem unbroken_dateTime (m : Moment) : Unbroken (dateTime m) := by
  have hmarked : ∀ {c : Char} {cs : List Char}, Unbroken [c] → Unbroken cs →
      Unbroken (c :: cs) := fun hc hcs => unbroken_cons_iff.2 ⟨hc, hcs⟩
  have htwo := Pattern.unbroken_twoPlaces .zero
  unfold dateTime Pattern.yearPlaces
  simp only [unbroken_append_iff]
  refine ⟨⟨⟨⟨⟨⟨Pattern.unbroken_places .zero 4 _ _, ?_⟩, ?_⟩, ?_⟩, ?_⟩, ?_⟩, ?_⟩
  · exact hmarked (by decide) (htwo _)
  · exact hmarked (by decide) (htwo _)
  · exact hmarked (by decide) (htwo _)
  · exact hmarked (by decide) (htwo _)
  · exact hmarked (by decide) (htwo _)
  · exact hmarked (by decide) (unbroken_padNat 3 _)

/-- What a format writes is unbroken, unless it follows a pattern of the
application's own. -/
theorem unbroken_format {f : TimestampFormat} (hnamed : ∀ p, f ≠ custom p) (ms : Int) :
    Unbroken (f.format ms).toList := by
  unfold format
  rw [String.toList_ofList]
  have hdate : ∀ zone, Unbroken zone → Unbroken (if Moment.isInRange ms
      then dateTime (Moment.ofMillis ms) ++ zone else Json.intChars ms) := by
    intro zone hzone
    split
    · exact unbroken_append_iff.2 ⟨unbroken_dateTime _, hzone⟩
    · exact unbroken_intChars ms
  cases f with
  | iso8601 => exact hdate _ (by decide)
  | rfc3339 => exact hdate _ (by decide)
  | unix => exact unbroken_intChars _
  | unixMillis => exact unbroken_intChars _
  | custom p => exact absurd rfl (hnamed p)

end TimestampFormat

-- ============================================================= payload

/-- What the formatter writes for one character of the message never breaks
the line. -/
theorem unbroken_escapeBreak (c : Char) : Unbroken (escapeBreak c) := by
  unfold escapeBreak
  split
  · decide
  · decide
  · decide
  · next hn hr ht => exact unbroken_of_forall (by simpa using ⟨hn, hr⟩)

/-- Whatever the payload is, it is written without a line break. -/
theorem unbroken_escapeBreaks (s : String) : Unbroken (escapeBreaks s).toList := by
  unfold escapeBreaks
  rw [String.toList_ofList]
  exact unbroken_flatMap fun c _ => unbroken_escapeBreak c

namespace LineFormat

theorem unbroken_levelText (f : LineFormat) (level : Level) :
    Unbroken (f.levelText level).toList := by
  unfold levelText
  cases f.colors <;> cases level <;> decide

/-- The context's part of the line is unbroken: its names and values are
quoted. -/
theorem unbroken_contextText (context : Dict String) :
    Unbroken (contextText context).toList := by
  unfold contextText
  split
  · decide
  · unfold Dict.braced
    simp only [String.toList_append, String.toList_intercalate, unbroken_append_iff]
    refine ⟨by decide, ⟨by decide, unbroken_intercalate (by decide) fun p hp => ?_⟩, by decide⟩
    obtain ⟨_, hs, rfl⟩ := List.mem_map.1 hp
    obtain ⟨e, -, rfl⟩ := List.mem_map.1 hs
    simp only [String.toList_append, unbroken_append_iff]
    exact ⟨⟨unbroken_escapeBreaks _, by decide⟩, unbroken_escapeBreaks _⟩

/-- So is the part of the nested labels. -/
theorem unbroken_stackText (stack : List String) : Unbroken (stackText stack).toList := by
  unfold stackText
  split
  · decide
  · simp only [String.toList_append, String.toList_intercalate, unbroken_append_iff]
    refine ⟨⟨by decide, unbroken_intercalate (by decide) fun p hp => ?_⟩, by decide⟩
    obtain ⟨_, hs, rfl⟩ := List.mem_map.1 hp
    obtain ⟨label, -, rfl⟩ := List.mem_map.1 hs
    exact unbroken_escapeBreaks label

/-- And the part of the thrown error, whatever its causes say. -/
theorem unbroken_thrownText (thrown : Option Thrown) :
    Unbroken (thrownText thrown).toList := by
  cases thrown with
  | none => decide
  | some t =>
    unfold thrownText
    simp only [String.toList_append, String.toList_join, unbroken_append_iff]
    refine ⟨⟨by decide, unbroken_escapeBreaks _⟩, unbroken_flatMap fun s hs => ?_⟩
    obtain ⟨cause, -, rfl⟩ := List.mem_map.1 hs
    simp only [String.toList_append, unbroken_append_iff]
    exact ⟨by decide, unbroken_escapeBreaks cause⟩

-- ======================================================= the raw texts

/-- An unbroken frame around a text leaves it as unbroken as the text is. -/
theorem unbroken_framed_iff {before after s : String} (hb : Unbroken before.toList)
    (ha : Unbroken after.toList) :
    Unbroken (before ++ s ++ after).toList ↔ Unbroken s.toList := by
  simp only [String.toList_append, unbroken_append_iff]
  exact ⟨fun h => h.1.2, fun h => ⟨⟨hb, h⟩, ha⟩⟩

theorem unbroken_bracketed_iff {s : String} :
    Unbroken ("[" ++ s ++ "] ").toList ↔ Unbroken s.toList :=
  unbroken_framed_iff (by decide) (by decide)

/-- Of a location only the file can break the line. -/
theorem unbroken_display_iff {l : Location} :
    Unbroken l.display.toList ↔ Unbroken l.file.toList := by
  unfold Location.display
  simp only [String.toList_append, Nat.repr_eq_ofList_toDigits, String.toList_ofList,
    unbroken_append_iff, unbroken_toDigits, and_true]
  exact ⟨fun h => h.1.1, fun h => ⟨⟨h, by decide⟩, by decide⟩⟩

/-- The line of an event is one line just if the texts that are copied
into it as they are break no line: the time where a pattern of the
application's own writes it, the thread where it is shown, the marker,
the logger and the file of the location. Message, context, stack and
errors may hold anything. -/
theorem oneLine_line_iff (f : LineFormat) (e : EventSlot) :
    OneLine (f.line e) ↔
      (∀ p, f.timestamp = .custom p → Unbroken (f.timestamp.format e.millis).toList)
      ∧ (f.thread = true → Unbroken e.thread.toList)
      ∧ (∀ m, e.marker = some m → Unbroken m.name.toList)
      ∧ Unbroken e.logger.toList
      ∧ (∀ l, e.location = some l → Unbroken l.file.toList) := by
  have htime : Unbroken (f.timestamp.format e.millis).toList ↔
      ∀ p, f.timestamp = .custom p → Unbroken (f.timestamp.format e.millis).toList := by
    refine ⟨fun h _ _ => h, fun h => ?_⟩
    by_cases hcustom : ∃ p, f.timestamp = .custom p
    · obtain ⟨p, hp⟩ := hcustom
      exact h p hp
    · exact TimestampFormat.unbroken_format (fun p hp => hcustom ⟨p, hp⟩) _
  have hthread : Unbroken (if f.thread then "[" ++ e.thread ++ "] " else "").toList ↔
      (f.thread = true → Unbroken e.thread.toList) := by
    split
    · next ht => simp only [unbroken_bracketed_iff, ht, forall_const]
    · next ht => simp [ht]
  have hlogger : Unbroken (if e.logger.isEmpty then "" else e.logger ++ " - ").toList ↔
      Unbroken e.logger.toList := by
    split
    · next he => rw [String.isEmpty_iff.1 he]
    · rw [String.toList_append, unbroken_append_iff]
      exact and_iff_left (by decide)
  have hmdc : Unbroken (if f.context then contextText e.context ++ stackText e.stack
      else "").toList := by
    split
    · rw [String.toList_append, unbroken_append_iff]
      exact ⟨unbroken_contextText _, unbroken_stackText _⟩
    · decide
  obtain ⟨h₁, h₂, h₃⟩ : Unbroken "[".toList ∧ Unbroken "] [".toList ∧ Unbroken "] ".toList := by
    decide
  unfold line
  rw [oneLine_append_iff]
  simp only [String.toList_append, unbroken_append_iff, h₁, h₂, h₃, ← htime, hthread, hlogger,
    hmdc, unbroken_levelText, unbroken_escapeBreaks, unbroken_thrownText, true_and, and_true,
    and_assoc]
  -- what is left are the two fields that may be missing
  refine and_congr_right' (and_congr_right' (and_congr ?_ (and_congr_right' ?_)))
  · cases e.marker with
    | none => simp
    | some m => simp only [unbroken_bracketed_iff, Option.some.injEq, forall_eq']
  · cases e.location with
    | none => simp
    | some l =>
      rw [unbroken_framed_iff (by decide) (by decide), unbroken_display_iff]
      simp only [Option.some.injEq, forall_eq']

/-- A thread whose name breaks the line makes two lines of one event,
and the second may look like any other. -/
theorem forged_line : ¬ OneLine (standard.line
    { EventSlot.fresh with
      message := .simple "done", logger := "app", thread := "worker\n[ERROR] forged" }) := by
  intro h
  exact absurd (oneLine_append_iff.1 h) (by decide)

end LineFormat

end LogPipeline
