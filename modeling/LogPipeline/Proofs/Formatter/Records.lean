/-
A record is its event. The record format writes one JSON object on a
line; here the bytes are taken back. They are one line, since neither
`Json.compact` nor the encoding of any other character brings a line
break in (`unbroken_compact`, `mem_utf8EncodeChar`). They are the text
that was encoded, the text is read as the object it was rendered from
(`Json.parse?_render`), and the members of that object are the
`Contents` of the event (`says_value`): each where the event has it,
none where it has not, and nothing else but the time.

An object says at most one thing (`Says.unique`), so events with other
contents have other bytes. Both are put together in `record_decodes`.
-/
import LogPipeline.Proofs.Formatter.Lines
import LogPipeline.Proofs.Json.Reading

namespace LogPipeline

-- ============================================================ on a line

namespace Json

/-- What a string's character is written as never breaks the line. -/
theorem unbroken_escapeChar (c : Char) : Unbroken (escapeChar c) := by
  have hdigit : ∀ n < 16, Unbroken [hexDigit n] := by decide
  unfold escapeChar
  iterate 7
    split
    · decide
  split
  · next hc =>
    show Unbroken
      (['\\', 'u', '0', '0'] ++ ([hexDigit (c.toNat / 16)] ++ [hexDigit (c.toNat % 16)]))
    rw [unbroken_append_iff, unbroken_append_iff]
    exact ⟨by decide, hdigit _ (by omega), hdigit _ (by omega)⟩
  · next hn _ hr _ => exact unbroken_of_forall (by simpa using ⟨hn, hr⟩)

theorem unbroken_quote (s : String) : Unbroken (quote s) := by
  have hbody : Unbroken (escape s.toList) := unbroken_flatMap fun c _ => unbroken_escapeChar c
  unfold quote
  rw [unbroken_cons_iff, unbroken_append_iff]
  exact ⟨by decide, hbody, by decide⟩

theorem unbroken_mark {c : Char} (hc : Unbroken [c]) {cs : List Char} (hcs : Unbroken cs) :
    Unbroken (c :: cs) :=
  unbroken_cons_iff.2 ⟨hc, hcs⟩

mutual

/-- The one-line form is on one line. -/
theorem unbroken_compact : ∀ v : Json, Unbroken v.compact
  | .null => by decide
  | .bool true => by decide
  | .bool false => by decide
  | .int n => unbroken_intChars n
  | .float m e => by
    rw [compact, unbroken_append_iff]
    exact ⟨unbroken_intChars m, unbroken_mark (by decide) (unbroken_intChars e)⟩
  | .str s => unbroken_quote s
  | .arr [] => by decide
  | .arr (v :: vs) => by
    rw [compact]
    exact unbroken_mark (by decide)
      (unbroken_append_iff.2 ⟨unbroken_compact v, unbroken_compactItems vs⟩)
  | .obj [] => by decide
  | .obj ((k, v) :: ms) => by
    rw [compact]
    refine unbroken_mark (by decide) (unbroken_append_iff.2 ⟨unbroken_quote k, ?_⟩)
    exact unbroken_mark (by decide)
      (unbroken_append_iff.2 ⟨unbroken_compact v, unbroken_compactMembers ms⟩)
  | .unreadable => by decide

/-- The items of an array are unbroken, whatever stands in them. -/
theorem unbroken_compactItems : ∀ vs : List Json, Unbroken (compactItems vs)
  | [] => by decide
  | v :: vs => by
    rw [compactItems]
    exact unbroken_mark (by decide)
      (unbroken_append_iff.2 ⟨unbroken_compact v, unbroken_compactItems vs⟩)

theorem unbroken_compactMembers : ∀ ms : List (String × Json), Unbroken (compactMembers ms)
  | [] => by decide
  | (k, v) :: ms => by
    rw [compactMembers]
    refine unbroken_mark (by decide) (unbroken_append_iff.2 ⟨unbroken_quote k, ?_⟩)
    exact unbroken_mark (by decide)
      (unbroken_append_iff.2 ⟨unbroken_compact v, unbroken_compactMembers ms⟩)

end

end Json

-- ============================================================ encoding

/-- Only a line break has the byte of a line break in its encoding: all
bytes of longer encodings are above 127. -/
theorem mem_utf8EncodeChar {c : Char} (h : 10 ∈ String.utf8EncodeChar c) : c = '\n' := by
  have hcode : ∀ {n : Nat}, (10 : UInt8) = UInt8.ofNat n → 10 = n % 256 := by
    intro n hn
    have := congrArg UInt8.toNat hn
    rwa [UInt8.toNat_ofNat'] at this
  have hlong : ∀ {n : Nat}, 128 ≤ n % 256 → (10 : UInt8) ≠ UInt8.ofNat n := by
    intro n hn heq
    have := hcode heq
    omega
  have hmem : 10 = c.val.toNat % 256 ∧ c.val.toNat ≤ 127 := by
    unfold String.utf8EncodeChar at h
    dsimp only at h
    split at h
    · next hv => exact ⟨hcode (List.mem_singleton.1 h), hv⟩
    split at h
    · simp only [List.mem_cons, List.not_mem_nil, or_false] at h
      rcases h with h | h
      · exact absurd h (hlong (by omega))
      · exact absurd h (hlong (by omega))
    split at h
    · simp only [List.mem_cons, List.not_mem_nil, or_false] at h
      rcases h with h | h | h
      · exact absurd h (hlong (by omega))
      · exact absurd h (hlong (by omega))
      · exact absurd h (hlong (by omega))
    · simp only [List.mem_cons, List.not_mem_nil, or_false] at h
      rcases h with h | h | h | h
      · exact absurd h (hlong (by omega))
      · exact absurd h (hlong (by omega))
      · exact absurd h (hlong (by omega))
      · exact absurd h (hlong (by omega))
  have hval : c.val.toNat = 10 := by omega
  exact Char.ext (UInt32.toNat_inj.1 hval)

theorem data_toUTF8 (s : String) :
    s.toUTF8.data.toList = s.toList.flatMap String.utf8EncodeChar := by
  rw [String.toUTF8_eq_toByteArray, ← String.utf8Encode_toList, List.utf8Encode,
    List.toList_data_toByteArray]

/-- A string is read back from its bytes. -/
theorem fromUTF8?_toUTF8 (s : String) : String.fromUTF8? s.toUTF8 = some s := by
  unfold String.fromUTF8?
  rw [String.toUTF8_eq_toByteArray, dif_pos s.isValidUTF8]
  rfl

/-- One line of text is one line of bytes. -/
theorem oneLine_bytes {s : String} (h : OneLine s) :
    ∃ body : List UInt8, s.toUTF8.data.toList = body ++ [10] ∧ 10 ∉ body := by
  obtain ⟨body, hs, hbody⟩ := h
  refine ⟨body.flatMap String.utf8EncodeChar, ?_, fun hmem => ?_⟩
  · rw [data_toUTF8, hs, List.flatMap_append]
    rfl
  · obtain ⟨c, hc, hbyte⟩ := List.mem_flatMap.1 hmem
    exact hbody.1 (mem_utf8EncodeChar hbyte ▸ hc)

-- ============================================================ members

namespace Json

/-- An array of texts says all that it is. -/
theorem plain_texts (texts : List String) : Plain (.arr (texts.map .str)) := by
  refine plainItems_iff.2 fun v hv => ?_
  obtain ⟨s, -, rfl⟩ := List.mem_map.1 hv
  trivial

end Json

namespace Dict

/-- A name is looked up in the first part, and if it is not there in the
second. -/
theorem lookup_append {α : Type} (key : String) (l l' : List (String × α)) :
    lookup key (l ++ l') = (lookup key l).or (lookup key l') := by
  induction l with
  | nil => rfl
  | cons e l ih =>
    obtain ⟨k, v⟩ := e
    by_cases hk : k = key
    · simp [lookup, hk]
    · simp [lookup, hk, ih]

end Dict

namespace RecordFormat

/-- What a record says of an event, besides its time. -/
structure Contents where
  level : String
  logger : String
  thread : String
  message : String
  marker : Option String
  context : Dict String
  stack : List String
  location : Option Location
  error : Option Thrown
  deriving DecidableEq

def contents (e : EventSlot) : Contents where
  level := e.level.name
  logger := e.logger
  thread := e.thread
  message := e.message.formatted
  marker := e.marker.map Marker.name
  context := e.context
  stack := e.stack
  location := e.location
  error := e.thrown

/-- Every name a record may have, in the order they are written. -/
def names : List String :=
  ["context", "error", "level", "location", "logger", "marker", "message", "stack", "thread",
    "timestamp"]

/-- An object with these members says `c`, each part under its own name and
once, the optional ones only if there is something to say. -/
structure Says (ms : List (String × Json)) (c : Contents) : Prop where
  named : (ms.map (·.1)).Sublist names
  level : Dict.lookup "level" ms = some (.str c.level)
  logger : Dict.lookup "logger" ms = some (.str c.logger)
  thread : Dict.lookup "thread" ms = some (.str c.thread)
  message : Dict.lookup "message" ms = some (.str c.message)
  marker : Dict.lookup "marker" ms = c.marker.map .str
  context : Dict.lookup "context" ms = if c.context.isEmpty then none
    else some (.obj (c.context.entries.map fun e => (e.1, .str e.2)))
  stack : Dict.lookup "stack" ms = if c.stack.isEmpty then none
    else some (.arr (c.stack.map .str))
  location : Dict.lookup "location" ms = c.location.map fun l =>
    .obj [("column", .int l.column), ("file", .str l.file), ("line", .int l.line)]
  error : Dict.lookup "error" ms = c.error.map fun t =>
    .obj (if t.causes.isEmpty then [("message", .str t.message)]
      else [("causes", .arr (t.causes.map .str)), ("message", .str t.message)])

theorem str_map_inj {a b : List String} (h : a.map Json.str = b.map Json.str) : a = b :=
  (List.map_inj_right fun _ _ heq => Json.str.inj heq).1 h

/-- The context's member tells the contexts apart; an empty one has none. -/
theorem context_inj {a b : Dict String}
    (h : (if a.isEmpty then none else some (Json.obj (a.entries.map fun e => (e.1, .str e.2))))
      = if b.isEmpty then none else some (.obj (b.entries.map fun e => (e.1, .str e.2)))) :
    a = b := by
  obtain ⟨as, ha⟩ := a
  obtain ⟨bs, hb⟩ := b
  have hentries : as = bs := by
    cases as with
    | nil => cases bs with
      | nil => rfl
      | cons e bs => exact nomatch h
    | cons e as => cases bs with
      | nil => exact nomatch h
      | cons e' bs =>
        refine (List.map_inj_right fun x y heq => ?_).1 (Json.obj.inj (Option.some.inj h))
        exact Prod.ext (Prod.mk.inj heq).1 (Json.str.inj (Prod.mk.inj heq).2)
  subst hentries
  rfl

/-- The member of the nested labels tells these apart. -/
theorem stack_inj {a b : List String}
    (h : (if a.isEmpty then none else some (Json.arr (a.map .str)))
      = if b.isEmpty then none else some (.arr (b.map .str))) : a = b := by
  cases a with
  | nil => cases b with
    | nil => rfl
    | cons s b => exact nomatch h
  | cons s a => cases b with
    | nil => exact nomatch h
    | cons s' b => exact str_map_inj (Json.arr.inj (Option.some.inj h))

/-- The member of the location tells the locations apart. -/
theorem location_inj {a b : Location}
    (h : Json.obj [("column", .int a.column), ("file", .str a.file), ("line", .int a.line)]
      = .obj [("column", .int b.column), ("file", .str b.file), ("line", .int b.line)]) :
    a = b := by
  obtain ⟨file, line, column⟩ := a
  obtain ⟨file', line', column'⟩ := b
  simp only [Json.obj.injEq, List.cons.injEq, Prod.mk.injEq, Json.int.injEq, Json.str.injEq,
    Int.ofNat_inj, true_and, and_true] at h
  obtain ⟨rfl, rfl, rfl⟩ := h
  rfl

/-- The member of the error tells the errors apart, with and without
causes. -/
theorem error_inj {a b : Thrown}
    (h : Json.obj (if a.causes.isEmpty then [("message", .str a.message)]
        else [("causes", .arr (a.causes.map .str)), ("message", .str a.message)])
      = .obj (if b.causes.isEmpty then [("message", .str b.message)]
        else [("causes", .arr (b.causes.map .str)), ("message", .str b.message)])) :
    a = b := by
  obtain ⟨message, causes⟩ := a
  obtain ⟨message', causes'⟩ := b
  cases causes with
  | nil => cases causes' with
    | nil => simpa using h
    | cons s ss => simp at h
  | cons s ss => cases causes' with
    | nil => simp at h
    | cons s' ss' =>
      have hboth := Json.obj.inj h
      simp only [List.isEmpty_cons, Bool.false_eq_true, if_false, List.cons.injEq, Prod.mk.injEq,
        Json.arr.injEq, Json.str.injEq, true_and, and_true] at hboth
      rw [str_map_inj hboth.1, hboth.2]

/-- Members say at most one thing. -/
theorem Says.unique {ms : List (String × Json)} {c d : Contents} (hc : Says ms c)
    (hd : Says ms d) : c = d := by
  have htext : ∀ {s t : String}, some (Json.str s) = some (.str t) → s = t := fun h =>
    Json.str.inj (Option.some.inj h)
  have hlevel := htext (hc.level.symm.trans hd.level)
  have hlogger := htext (hc.logger.symm.trans hd.logger)
  have hthread := htext (hc.thread.symm.trans hd.thread)
  have hmessage := htext (hc.message.symm.trans hd.message)
  have hmarker := (Option.map_inj_right fun _ _ => Json.str.inj).1 (hc.marker.symm.trans hd.marker)
  have hcontext := context_inj (hc.context.symm.trans hd.context)
  have hstack := stack_inj (hc.stack.symm.trans hd.stack)
  have hlocation := (Option.map_inj_right fun _ _ => location_inj).1
    (hc.location.symm.trans hd.location)
  have herror := (Option.map_inj_right fun _ _ => error_inj).1 (hc.error.symm.trans hd.error)
  obtain ⟨level, logger, thread, message, marker, context, stack, location, error⟩ := c
  obtain ⟨level', logger', thread', message', marker', context', stack', location', error'⟩ := d
  subst hlevel hlogger hthread hmessage hmarker hcontext hstack hlocation herror
  rfl

/-- What an optional member answers to a name: its value, if the name is its
own. -/
theorem lookup_member (key name : String) (o : Option Json) :
    Dict.lookup key (member name o) = if name = key then o else none := by
  cases o with
  | none => simp [member, Dict.lookup]
  | some v => simp [member, Dict.lookup]

theorem sublist_member (name : String) (o : Option Json) :
    ((member name o).map (·.1)).Sublist [name] := by
  cases o with
  | none => exact List.nil_sublist _
  | some v => exact List.Sublist.refl _

theorem locationValue_eq (l : Location) :
    locationValue l
      = .obj [("column", .int l.column), ("file", .str l.file), ("line", .int l.line)] :=
  rfl

theorem thrownValue_eq (t : Thrown) :
    thrownValue t = .obj (if t.causes.isEmpty then [("message", .str t.message)]
      else [("causes", .arr (t.causes.map .str)), ("message", .str t.message)]) := by
  unfold thrownValue
  by_cases h : t.causes.isEmpty
  · rw [if_pos h, if_pos h, List.nil_append]
  · rw [if_neg h, if_neg h, List.singleton_append]

/-- The object that stands for an event says its contents and its time. -/
theorem says_value (f : TimestampFormat) (e : EventSlot) :
    ∃ ms, value f e = .obj ms ∧ Says ms (contents e)
      ∧ Dict.lookup "timestamp" ms = some (timestampValue f e.millis) := by
  refine ⟨_, rfl, ⟨?named, ?level, ?logger, ?thread, ?message, ?marker, ?context, ?stack,
    ?location, ?error⟩, ?time⟩
  case named =>
    have hnames : names = ["context"] ++ ["error"] ++ ["level"] ++ ["location"] ++ ["logger"]
      ++ ["marker"] ++ ["message"] ++ ["stack"] ++ ["thread", "timestamp"] := rfl
    rw [hnames]
    simp only [List.map_append]
    refine .append (.append (.append (.append (.append (.append (.append (.append ?_ ?_) ?_) ?_)
      ?_) ?_) ?_) ?_) (.refl _)
    all_goals first | exact sublist_member _ _ | exact .refl _
  case time => simp [Dict.lookup_append, lookup_member, Dict.lookup]
  all_goals
    dsimp only [contents]
    simp only [Dict.lookup_append, lookup_member, Dict.lookup]
  case context =>
    by_cases he : e.context.isEmpty = true
    · simp [unlessAbsent, he]
    · simp [unlessAbsent, contextValue, he]
  case error => simp [funext thrownValue_eq]
  case level => simp
  case location => simp [funext locationValue_eq]
  case logger => simp
  case marker => simp [Function.comp_def]
  case message => simp
  case stack => simp [unlessAbsent]
  case thread => simp

/-- The object of an event has no fraction in it, and nothing unreadable. -/
theorem plain_value (f : TimestampFormat) (e : EventSlot) : (value f e).Plain := by
  have hmember : ∀ {name : String} {o : Option Json}, (∀ v ∈ o, v.Plain) →
      ∀ m ∈ member name o, m.2.Plain := by
    intro name o ho m hm
    cases o with
    | none => exact nomatch hm
    | some v =>
      obtain rfl := List.mem_singleton.1 hm
      exact ho v rfl
  have habsent : ∀ {b : Bool} {v : Json}, v.Plain → ∀ w ∈ unlessAbsent b v, w.Plain := by
    intro b v hv w hw
    cases b with
    | true => exact nomatch hw
    | false => exact Option.some.inj hw ▸ hv
  have hmap : ∀ {α : Type} {o : Option α} {g : α → Json}, (∀ a, (g a).Plain) →
      ∀ v ∈ o.map g, v.Plain := by
    intro α o g hg v hv
    cases o with
    | none => exact nomatch hv
    | some a => exact Option.some.inj hv ▸ hg a
  have htime : (timestampValue f e.millis).Plain := by
    cases f <;> trivial
  have hcontext : (contextValue e.context).Plain := by
    refine Json.plainMembers_iff.2 fun m hm => ?_
    obtain ⟨entry, -, rfl⟩ := List.mem_map.1 hm
    trivial
  have hthrown : ∀ t : Thrown, (thrownValue t).Plain := by
    intro t
    rw [thrownValue_eq]
    split
    · exact ⟨trivial, trivial⟩
    · exact ⟨Json.plain_texts t.causes, trivial, trivial⟩
  -- member by member, in the order that they are written
  refine Json.plainMembers_iff.2 fun m hm => ?_
  simp only [List.mem_append, List.mem_cons, List.not_mem_nil, or_false] at hm
  rcases hm with (((((((h | h) | h) | h) | h) | h) | h) | h) | h | h
  · exact hmember (habsent hcontext) m h
  · exact hmember (hmap hthrown) m h
  · exact h ▸ trivial
  · exact hmember (hmap fun l => show (locationValue l).Plain from ⟨trivial, trivial, trivial,
      trivial⟩) m h
  · exact h ▸ trivial
  · exact hmember (hmap fun tag => show (Json.str (Marker.name tag)).Plain from trivial) m h
  · exact h ▸ trivial
  · exact hmember (habsent (Json.plain_texts e.stack)) m h
  · exact h ▸ trivial
  · exact h ▸ htime

-- ============================================================= records

/-- The line of an event is read as the object that stands for it. -/
theorem parse?_line (f : TimestampFormat) (e : EventSlot) :
    Json.parse? (line f e) = some (value f e) := by
  have hlist : (line f e).toList = [] ++ ((value f e).compact ++ ['\n']) := by
    unfold line Json.render
    rw [String.toList_append, String.toList_ofList, List.nil_append]
    rfl
  have hblank : Json.Blank ['\n'] := fun c hc => List.mem_singleton.1 hc ▸ rfl
  unfold Json.parse?
  rw [hlist]
  exact Json.parseChars?_of_spells (Json.spells_compact (plain_value f e)) Json.blank_nil hblank

/-- A record is one line: its only newline is the one at its end. -/
theorem oneLine_line (f : TimestampFormat) (e : EventSlot) : OneLine (line f e) := by
  unfold line Json.render
  rw [oneLine_append_iff, String.toList_ofList]
  exact Json.unbroken_compact _

/-- The record format appends one line of bytes to what a buffer holds and
never fails. The bytes are read as an object that says the contents of
the event and its time and nothing else. Events whose records are the same
have the same contents. -/
theorem record_decodes (f : TimestampFormat) :
    (∀ (e : EventSlot) (endOfBatch : Bool) (out : ByteArray), ∃ (bytes : ByteArray) (text : String)
      (ms : List (String × Json)),
      (Formatter.record f).format e endOfBatch out = (.ok (), out ++ bytes)
      ∧ (∃ body : List UInt8, bytes.data.toList = body ++ [10] ∧ 10 ∉ body)
      ∧ String.fromUTF8? bytes = some text
      ∧ Json.parse? text = some (.obj ms)
      ∧ Says ms (contents e)
      ∧ Dict.lookup "timestamp" ms = some (timestampValue f e.millis))
    ∧ ∀ (e e' : EventSlot) (endOfBatch endOfBatch' : Bool) (out : ByteArray),
      contents e ≠ contents e' →
      (Formatter.record f).format e endOfBatch out
        ≠ (Formatter.record f).format e' endOfBatch' out := by
  constructor
  · intro e endOfBatch out
    obtain ⟨ms, hvalue, hsays, htime⟩ := says_value f e
    refine ⟨(line f e).toUTF8, line f e, ms, rfl, oneLine_bytes (oneLine_line f e),
      fromUTF8?_toUTF8 _, ?_, hsays, htime⟩
    rw [parse?_line, hvalue]
  · intro e e' endOfBatch endOfBatch' out hne heq
    apply hne
    have hbytes : out ++ (line f e).toUTF8 = out ++ (line f e').toUTF8 := congrArg Prod.snd heq
    have hline : line f e = line f e' :=
      String.toByteArray_inj.1 ((ByteArray.append_right_inj out).1 hbytes)
    obtain ⟨ms, hvalue, hsays, -⟩ := says_value f e
    obtain ⟨ms', hvalue', hsays', -⟩ := says_value f e'
    have hsame : some (Json.obj ms) = some (.obj ms') := by
      rw [← hvalue, ← hvalue', ← parse?_line, ← parse?_line, hline]
    obtain rfl : ms = ms' := Json.obj.inj (Option.some.inj hsame)
    exact hsays.unique hsays'

end RecordFormat

end LogPipeline
