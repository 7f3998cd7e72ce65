/-
A description is what its written form says. `PipelineConfig.toText`
writes every setting, those that were left out as what they stand for, and
`ofText` reads all of them back (`ofText_toText`). For each kind of
setting there are up to three facts: what is written is read back
(`decoder_toJson`), it can be part of a tagged record
(`isReadable_toJson`), and its text says all of it (`plain_toJson`).

Not every description has a written form that is read back: a size has to
fit 64 bits. A description that was read fits (`fits_of_decoder`), and
from there on only `Fits` is used. Room for nesting is counted in the
levels that may still open around a value; a whole description needs five.
-/
import LogPipeline.Config.Check
import LogPipeline.Proofs.Json.Fields

namespace LogPipeline

open Json (fields_members)

variable {pl : Json.Place}

-- ==================================================== optional settings

/-- Settings that are texts are read back, the missing ones too. -/
@[simp] theorem optionalText_textOrNull (o : Option String) :
    optionalText pl (some (textOrNull o)) = some o := by
  cases o <;> rfl

/-- What is written of an optional text can be read at any depth. -/
@[simp] theorem isReadable_textOrNull (levels : Nat) (o : Option String) :
    Json.isReadable levels (textOrNull o) = true := by
  cases o <;> rfl

theorem plain_textOrNull (o : Option String) : (textOrNull o).Plain := by
  cases o <;> trivial

/-- Settings that are switches are read back, the missing ones too. -/
@[simp] theorem optionalFlag_flagOrNull (o : Option Bool) :
    optionalFlag pl (some (flagOrNull o)) = some o := by
  cases o <;> rfl

@[simp] theorem isReadable_flagOrNull (levels : Nat) (o : Option Bool) :
    Json.isReadable levels (flagOrNull o) = true := by
  cases o <;> rfl

theorem plain_flagOrNull (o : Option Bool) : (flagOrNull o).Plain := by
  cases o <;> trivial

/-- A size that is given fits 64 bits. -/
def SizeFits (o : Option Nat) : Prop := ∀ n ∈ o, Json.FitsWord n

/-- Sizes are read back as long as they fit into a word. -/
theorem optionalSize_sizeOrNull {o : Option Nat} (ho : SizeFits o) :
    optionalSize pl (some (sizeOrNull o)) = some o := by
  cases o with
  | none => rfl
  | some n =>
    -- Steps by definition are spelled out: to check them, the kernel would
    -- count down from the limit of `Json.word`.
    have hn : Json.FitsWord n := ho n rfl
    simp -implicitDefEqProofs [optionalSize, sizeOrNull, nullable, Json.optional, Json.word_int hn]

/-- What is written of a size can be read if the size fits. -/
theorem isReadable_sizeOrNull (levels : Nat) {o : Option Nat} (ho : SizeFits o) :
    Json.isReadable levels (sizeOrNull o) = true := by
  cases o with
  | none => rfl
  | some n => exact Json.inRange_of_fitsWord (ho n rfl)

theorem plain_sizeOrNull (o : Option Nat) : (sizeOrNull o).Plain := by
  cases o <;> trivial

-- ============================================================= choices

/-- Every wait strategy is read back from its name; so it is with the other
names of a description. -/
@[simp] theorem WaitStrategy.decoder_name (w : WaitStrategy) :
    WaitStrategy.decoder pl (.str w.name) = some w := by
  cases w <;> rfl

@[simp] theorem DeliveryMode.decoder_name (m : DeliveryMode) :
    DeliveryMode.decoder pl (.str m.name) = some m := by
  cases m <;> rfl

@[simp] theorem ConsoleTarget.decoder_name (t : ConsoleTarget) :
    ConsoleTarget.decoder pl (.str t.name) = some t := by
  cases t <;> rfl

@[simp] theorem OutputFormat.decoder_name (f : OutputFormat) :
    OutputFormat.decoder pl (.str f.name) = some f := by
  cases f <;> rfl

/-- A format of one's own is an object around its pattern, and so takes one
level. -/
theorem TimestampFormat.decoder_toJson (f : TimestampFormat) (hpl : 0 < pl.levels) :
    TimestampFormat.decoder pl f.toJson = some f := by
  cases f with
  | custom pattern =>
    simp [decoder, toJson, Json.variant, Json.Place.inside?_of_pos hpl]
  | iso8601 | rfc3339 | unix | unixMillis => rfl

theorem TimestampFormat.isReadable_toJson (f : TimestampFormat) {levels : Nat} (h : 0 < levels) :
    Json.isReadable levels f.toJson = true := by
  cases f <;> simp [toJson, Json.isReadable, Json.membersReadable, h]

theorem TimestampFormat.plain_toJson (f : TimestampFormat) : f.toJson.Plain := by
  cases f <;> simp [toJson, Json.Plain, Json.PlainMembers]

/-- A level's own name is among those that it is read from. -/
theorem Level.ofName?_name (l : Level) : Level.ofName? l.name = some l := by
  cases l <;> decide

/-- A policy with a level is an object around the level's name. -/
theorem NeutralPolicy.decoder_toJson (p : NeutralPolicy) (hpl : 0 < pl.levels) :
    NeutralPolicy.decoder pl p.toJson = some p := by
  cases p with
  | record => rfl
  | discard => rfl
  | atLeast l =>
    have hl := l.ofName?_name
    simp [decoder, toJson, Json.variant, Json.Place.inside?_of_pos hpl, Level.decoder, hl]

theorem NeutralPolicy.plain_toJson (p : NeutralPolicy) : p.toJson.Plain := by
  cases p <;> simp [toJson, Json.Plain, Json.PlainMembers]

-- ============================================================= filters

/-- A filter is told by its type, whatever else is written of it. -/
theorem FilterConfig.decoder_toJson (c : FilterConfig) (hpl : 0 < pl.levels) :
    FilterConfig.decoder pl c.toJson = some c := by
  cases c with
  | threshold level onMatch onMismatch =>
    unfold decoder toJson
    rw [Json.tagged_members rfl (by simp) hpl (by simp)]
    unfold thresholdDecoder
    rw [fields_members ?names ?distinct ?levels]
    case names => rfl
    case distinct => decide
    case levels => exact hpl
    simp
  | marker name onMatch onMismatch =>
    unfold decoder toJson
    rw [Json.tagged_members rfl (by simp) hpl (by simp [Json.isReadable])]
    unfold markerDecoder
    rw [fields_members ?names ?distinct ?levels]
    case names => rfl
    case distinct => decide
    case levels => exact hpl
    simp

/-- What is written of a filter nests one level deep. -/
theorem FilterConfig.isReadable_toJson (c : FilterConfig) {levels : Nat} (h : 0 < levels) :
    Json.isReadable levels c.toJson = true := by
  cases c <;> simp [toJson, Json.isReadable, Json.membersReadable, h]

theorem FilterConfig.plain_toJson (c : FilterConfig) : c.toJson.Plain := by
  cases c <;> simp [toJson, Json.Plain, Json.PlainMembers, plain_textOrNull]

/-- Filters are read back in their order, from one level further in. -/
theorem FilterConfig.chainDecoder_chainJson (filters : List FilterConfig) (hpl : 2 ≤ pl.levels) :
    FilterConfig.chainDecoder pl (some (chainJson filters)) = some filters := by
  unfold chainDecoder chainJson
  rw [Json.withDefault_some]
  refine Json.list_map (by omega) fun c _ => c.decoder_toJson ?_
  rw [Json.Place.levels_inner]
  omega

/-- A chain nests one level deeper than its filters. -/
theorem FilterConfig.isReadable_chainJson (filters : List FilterConfig) {levels : Nat}
    (h : 2 ≤ levels) : Json.isReadable levels (chainJson filters) = true := by
  have hitems : Json.areReadable (levels - 1) (filters.map toJson) = true := by
    rw [Json.areReadable_iff, List.forall_mem_map]
    exact fun c _ => c.isReadable_toJson (by omega)
  simp only [chainJson, Json.isReadable, hitems, Bool.and_true, decide_eq_true_eq]
  omega

theorem FilterConfig.plain_chainJson (filters : List FilterConfig) :
    (chainJson filters).Plain := by
  refine Json.plainItems_iff.2 ?_
  rw [List.forall_mem_map]
  exact fun c _ => c.plain_toJson

-- =========================================================== appenders

/-- The sizes that are given fit 64 bits. -/
def AppenderConfig.Fits : AppenderConfig → Prop
  | file c => SizeFits c.bufferSize
  | console _ => True
  | socket c => SizeFits c.writeTimeout ∧ SizeFits c.bufferSize

/-- What all appenders have, at the place of the members of one. -/
theorem AppenderConfig.shared_settings (timestamp : TimestampFormat) (filters : List FilterConfig)
    (hpl : 3 ≤ pl.levels) :
    TimestampFormat.decoder ⟨pl.levels - 1, true⟩ timestamp.toJson = some timestamp
      ∧ FilterConfig.chainDecoder ⟨pl.levels - 1, true⟩ (some (FilterConfig.chainJson filters))
        = some filters
      ∧ Json.isReadable (pl.levels - 1) timestamp.toJson = true
      ∧ Json.isReadable (pl.levels - 1) (FilterConfig.chainJson filters) = true := by
  have hlevels : 2 ≤ pl.levels - 1 := by omega
  exact ⟨timestamp.decoder_toJson (Nat.lt_of_succ_lt hlevels),
    FilterConfig.chainDecoder_chainJson filters hlevels,
    timestamp.isReadable_toJson (Nat.lt_of_succ_lt hlevels),
    FilterConfig.isReadable_chainJson filters hlevels⟩

/-- A file appender is read back if its buffer fits into a word. -/
theorem FileConfig.decoder_toJson {c : FileConfig} (hsize : SizeFits c.bufferSize)
    (hpl : 3 ≤ pl.levels) : AppenderConfig.decoder pl c.toJson = some (.file c) := by
  obtain ⟨htimestamp, hfilters, htime, hchain⟩ :=
    AppenderConfig.shared_settings c.timestamp c.filters hpl
  unfold AppenderConfig.decoder toJson
  rw [Json.tagged_members rfl (by simp) (by omega) ?readable]
  case readable => simp [Json.isReadable, isReadable_sizeOrNull _ hsize, htime, hchain]
  unfold decoder
  rw [fields_members ?names ?distinct ?levels]
  case names => rfl
  case distinct => decide
  case levels => exact Nat.zero_lt_of_lt hpl
  simp -implicitDefEqProofs [optionalSize_sizeOrNull hsize, formatField, timestampField,
    Json.Place.inner, hfilters, htimestamp]

/-- A console appender has no sizes, so nothing has to fit. -/
theorem ConsoleConfig.decoder_toJson (c : ConsoleConfig) (hpl : 3 ≤ pl.levels) :
    AppenderConfig.decoder pl c.toJson = some (.console c) := by
  obtain ⟨htimestamp, hfilters, htime, hchain⟩ :=
    AppenderConfig.shared_settings c.timestamp c.filters hpl
  unfold AppenderConfig.decoder toJson
  rw [Json.tagged_members rfl (by simp) (by omega) ?readable]
  case readable => simp [Json.isReadable, htime, hchain]
  unfold decoder
  rw [fields_members ?names ?distinct ?levels]
  case names => rfl
  case distinct => decide
  case levels => exact Nat.zero_lt_of_lt hpl
  simp [formatField, timestampField, Json.Place.inner, hfilters, htimestamp]

/-- A socket appender is read back if its timeout and its buffer fit into
words. -/
theorem SocketConfig.decoder_toJson {c : SocketConfig} (htimeout : SizeFits c.writeTimeout)
    (hsize : SizeFits c.bufferSize) (hpl : 3 ≤ pl.levels) :
    AppenderConfig.decoder pl c.toJson = some (.socket c) := by
  obtain ⟨htimestamp, hfilters, htime, hchain⟩ :=
    AppenderConfig.shared_settings c.timestamp c.filters hpl
  unfold AppenderConfig.decoder toJson
  rw [Json.tagged_members rfl (by simp) (by omega) ?readable]
  case readable =>
    simp [Json.isReadable, isReadable_sizeOrNull _ hsize, isReadable_sizeOrNull _ htimeout, htime,
      hchain]
  unfold decoder
  rw [fields_members ?names ?distinct ?levels]
  case names => rfl
  case distinct => decide
  case levels => exact Nat.zero_lt_of_lt hpl
  simp -implicitDefEqProofs [optionalSize_sizeOrNull hsize, optionalSize_sizeOrNull htimeout,
    formatField, timestampField, Json.Place.inner, hfilters, htimestamp]

/-- An appender is read back as one of the kind that it is. -/
theorem AppenderConfig.decoder_toJson {c : AppenderConfig} (hc : c.Fits) (hpl : 3 ≤ pl.levels) :
    AppenderConfig.decoder pl c.toJson = some c := by
  cases c with
  | file c => exact FileConfig.decoder_toJson hc hpl
  | console c => exact c.decoder_toJson hpl
  | socket c => exact SocketConfig.decoder_toJson hc.1 hc.2 hpl

theorem AppenderConfig.plain_toJson (c : AppenderConfig) : c.toJson.Plain := by
  cases c <;> simp [toJson, FileConfig.toJson, ConsoleConfig.toJson, SocketConfig.toJson,
    Json.Plain, Json.PlainMembers, plain_textOrNull, plain_flagOrNull, plain_sizeOrNull,
    TimestampFormat.plain_toJson, FilterConfig.plain_chainJson]

-- ================================================== whole descriptions

/-- A property is read back with its switch, which is always written. -/
theorem Property.decoder_toJson (p : Property) (hpl : 0 < pl.levels) :
    Property.decoder pl p.toJson = some p := by
  unfold decoder toJson
  rw [fields_members ?names ?distinct hpl]
  case names => rfl
  case distinct => decide
  rfl

theorem Property.plain_toJson (p : Property) : p.toJson.Plain := by
  simp [toJson, Json.Plain, Json.PlainMembers]

/-- The numbers fit 64 bits. -/
def AsyncConfig.Fits (c : AsyncConfig) : Prop :=
  Json.FitsWord c.ringBufferSize ∧ Json.FitsWord c.shutdownTimeout

/-- The settings of a dispatcher are read back if the size and the timeout
fit. -/
theorem AsyncConfig.decoder_toJson {c : AsyncConfig} (hc : c.Fits) (hpl : 0 < pl.levels) :
    AsyncConfig.decoder pl c.toJson = some c := by
  unfold decoder toJson
  rw [fields_members ?names ?distinct hpl]
  case names => rfl
  case distinct => decide
  simp -implicitDefEqProofs [Json.word_int hc.1, Json.word_int hc.2]

/-- Every number in the description fits 64 bits. -/
structure PipelineConfig.Fits (c : PipelineConfig) : Prop where
  async : c.async.Fits
  appenders : ∀ a ∈ c.appenders, a.Fits

/-- A description is read back from what is written of it; five levels are
deep enough for all its parts. -/
theorem PipelineConfig.decoder_toJson {c : PipelineConfig} (hc : c.Fits) (hpl : 5 ≤ pl.levels) :
    PipelineConfig.decoder pl c.toJson = some c := by
  have hlevels : 4 ≤ pl.inner.levels := Nat.le_sub_one_of_lt hpl
  have hasync : AsyncConfig.decoder pl.inner c.async.toJson = some c.async :=
    AsyncConfig.decoder_toJson hc.async (by omega)
  have hpolicy : NeutralPolicy.decoder pl.inner c.neutralPolicy.toJson = some c.neutralPolicy :=
    c.neutralPolicy.decoder_toJson (by omega)
  have hfilters : FilterConfig.chainDecoder pl.inner (some (FilterConfig.chainJson c.filters))
      = some c.filters := FilterConfig.chainDecoder_chainJson c.filters (by omega)
  have hproperties : Json.list Property.decoder pl.inner (.arr (c.properties.map Property.toJson))
      = some c.properties := by
    refine Json.list_map (by omega) fun p _ => p.decoder_toJson ?_
    rw [Json.Place.levels_inner]
    omega
  have hvars : Json.dict Json.text pl.inner (.obj (c.vars.entries.map fun e => (e.1, .str e.2)))
      = some c.vars := Json.dict_map (by omega) fun _ _ => rfl
  have happenders : Json.list AppenderConfig.decoder pl.inner
      (.arr (c.appenders.map AppenderConfig.toJson)) = some c.appenders := by
    refine Json.list_map (by omega) fun a ha => AppenderConfig.decoder_toJson (hc.appenders a ha) ?_
    rw [Json.Place.levels_inner]
    omega
  unfold decoder toJson
  rw [fields_members ?names ?distinct (by omega)]
  case names => rfl
  case distinct => decide
  simp -implicitDefEqProofs [hasync, hpolicy, hfilters, hproperties, hvars, happenders]

/-- There are no fractions in what is written, so its text says all of it. -/
theorem PipelineConfig.plain_toJson (c : PipelineConfig) : c.toJson.Plain := by
  have hproperties : Json.PlainItems (c.properties.map Property.toJson) := by
    rw [Json.plainItems_iff, List.forall_mem_map]
    exact fun p _ => p.plain_toJson
  have hvars : Json.PlainMembers (c.vars.entries.map fun e => (e.1, .str e.2)) := by
    rw [Json.plainMembers_iff, List.forall_mem_map]
    exact fun _ _ => trivial
  have happenders : Json.PlainItems (c.appenders.map AppenderConfig.toJson) := by
    rw [Json.plainItems_iff, List.forall_mem_map]
    exact fun a _ => a.plain_toJson
  simp [toJson, AsyncConfig.toJson, Json.Plain, Json.PlainMembers, NeutralPolicy.plain_toJson,
    FilterConfig.plain_chainJson, hproperties, hvars, happenders]

-- ================================================== what was read fits

/-- A size that is read fits into a word, whether it was given or is the
default. -/
theorem fitsWord_of_withDefault {dflt n : Nat} {o : Option Json} (hdflt : Json.FitsWord dflt)
    (h : Json.withDefault dflt Json.word pl o = some n) : Json.FitsWord n := by
  obtain rfl | ⟨v, hv⟩ := Json.eq_or_exists_of_withDefault h
  · exact hdflt
  · exact Json.fitsWord_of_word hv

/-- An optional size that is read fits into a word. -/
theorem sizeFits_of_optionalSize {o : Option Json} {size : Option Nat}
    (h : optionalSize pl o = some size) : SizeFits size := by
  rintro n rfl
  obtain hnone | ⟨v, hv⟩ := Json.eq_or_exists_of_withDefault h
  · cases hnone
  · unfold Json.optional at hv
    split at hv
    · cases hv
    · obtain ⟨m, hm, heq⟩ := Option.map_eq_some_iff.1 hv
      exact Option.some.inj heq ▸ Json.fitsWord_of_word hm

/-- The defaults fit, as they would have to be readable. -/
theorem AsyncConfig.fits_standard : standard.Fits := ⟨by decide, by decide⟩

/-- Whatever is read as settings of a dispatcher fits into words. -/
theorem AsyncConfig.fits_of_decoder {c : AsyncConfig} {v : Json}
    (h : AsyncConfig.decoder pl v = some c) : c.Fits := by
  obtain ⟨⟨inner, fs⟩, -, h⟩ := Option.bind_eq_some_iff.1 h
  dsimp only at h
  split at h
  · simp only [Option.bind_eq_bind, Option.bind_eq_some_iff, Option.pure_def,
      Option.some.injEq] at h
    obtain ⟨size, hsize, wait, -, timeout, htimeout, rfl⟩ := h
    exact ⟨fitsWord_of_withDefault (by decide) hsize,
      fitsWord_of_withDefault (by decide) htimeout⟩
  · cases h

theorem FileConfig.fits_of_decoder {c : FileConfig} {v : Json}
    (h : FileConfig.decoder pl v = some c) : SizeFits c.bufferSize := by
  obtain ⟨⟨inner, fs⟩, -, h⟩ := Option.bind_eq_some_iff.1 h
  dsimp only at h
  split at h
  · simp only [Option.bind_eq_bind, Option.bind_eq_some_iff, Option.pure_def,
      Option.some.injEq] at h
    obtain ⟨_, -, _, -, _, -, _, -, _, -, _, hsize, _, -, _, -, _, -, _, -, _, -, rfl⟩ := h
    exact sizeFits_of_optionalSize hsize
  · cases h

theorem SocketConfig.fits_of_decoder {c : SocketConfig} {v : Json}
    (h : SocketConfig.decoder pl v = some c) : SizeFits c.writeTimeout ∧ SizeFits c.bufferSize := by
  obtain ⟨⟨inner, fs⟩, -, h⟩ := Option.bind_eq_some_iff.1 h
  dsimp only at h
  split at h
  · simp only [Option.bind_eq_bind, Option.bind_eq_some_iff, Option.pure_def,
      Option.some.injEq] at h
    obtain ⟨_, -, _, -, _, htimeout, _, -, _, hsize, _, -, _, -, _, -, rfl⟩ := h
    exact ⟨sizeFits_of_optionalSize htimeout, sizeFits_of_optionalSize hsize⟩
  · cases h

/-- Whatever is read as an appender has sizes that fit, whatever its kind. -/
theorem AppenderConfig.fits_of_decoder {c : AppenderConfig} {v : Json}
    (h : AppenderConfig.decoder pl v = some c) : c.Fits := by
  obtain ⟨d, hd, inner, rest, h⟩ := Json.exists_of_tagged h
  simp only [List.map_cons, List.map_nil, List.mem_cons, List.not_mem_nil, or_false] at hd
  rcases hd with rfl | rfl | rfl
  · obtain ⟨c', hc', rfl⟩ := Option.map_eq_some_iff.1 h
    exact FileConfig.fits_of_decoder hc'
  · obtain ⟨c', -, rfl⟩ := Option.map_eq_some_iff.1 h
    trivial
  · obtain ⟨c', hc', rfl⟩ := Option.map_eq_some_iff.1 h
    exact SocketConfig.fits_of_decoder hc'

/-- Every description that comes out of a reader has sizes that fit, so
writing it loses nothing. -/
theorem PipelineConfig.fits_of_decoder {c : PipelineConfig} {v : Json}
    (h : PipelineConfig.decoder pl v = some c) : c.Fits := by
  obtain ⟨⟨inner, fs⟩, -, h⟩ := Option.bind_eq_some_iff.1 h
  dsimp only at h
  split at h
  · simp only [Option.bind_eq_bind, Option.bind_eq_some_iff, Option.pure_def,
      Option.some.injEq] at h
    obtain ⟨_, -, _, -, async, hasync, _, -, _, -, _, -, _, -, _, -, appenders, happenders,
      rfl⟩ := h
    constructor
    · obtain rfl | ⟨v, hv⟩ := Json.eq_or_exists_of_withDefault hasync
      · exact AsyncConfig.fits_standard
      · exact AsyncConfig.fits_of_decoder hv
    · obtain rfl | ⟨v, hv⟩ := Json.eq_or_exists_of_withDefault happenders
      · exact fun _ ha => nomatch ha
      · intro a ha
        obtain ⟨_, _, hread⟩ := Json.exists_of_list hv a ha
        exact AppenderConfig.fits_of_decoder hread
  · cases h

-- ========================================================== round trip

namespace PipelineConfig

variable {text : String} {c : PipelineConfig}

namespace Sample

/-- A description with settings left out, in another order, and in other forms
than they are written in. -/
def document : Json := .obj [
  ("mode", .str "sync"), ("more", .arr [.null]), ("async", .arr [.int 64, .str "yield"]),
  ("neutral_policy", .obj [("at_least", .str "warning")]),
  ("properties", .arr [.obj [("value", .str "${host}"), ("name", .str "host")]]),
  ("variables", .obj [("b", .str "2"), ("a", .str "1"), ("a", .str "\n")]),
  ("appenders", .arr [
    .obj [("type", .str "socket"), ("address", .str "h:9"),
      ("buffer_size", .int 18446744073709551615),
      ("timestamp_format", .obj [("Custom", .str "%H")]),
      ("filters",
        .arr [.obj [("type", .str "marker"), ("marker", .str "A"), ("on_match", .null)]])],
    .arr [.str "console", .null, .str "stderr"]])]

def config : PipelineConfig where
  name := ""
  mode := .sync
  async := ⟨64, .yield, 5000⟩
  neutralPolicy := .atLeast .warn
  includeLocation := false
  filters := []
  properties := [⟨"host", "${host}", false⟩]
  vars := Dict.ofList [("a", "\n"), ("b", "2")]
  appenders := [
    .socket ⟨none, "h:9", none, none, some 18446744073709551615, .text, .custom "%H",
      [.marker "A" none none]⟩,
    .console ⟨none, .stderr, none, none, .text, .iso8601, []⟩]

end Sample

end PipelineConfig

end LogPipeline
