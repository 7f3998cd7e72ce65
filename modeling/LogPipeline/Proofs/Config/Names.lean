/-
What names are understood, and that a description with any other is
refused. A level and an answer are read from the words for their names
(`Text.words`). For answers these are the names alone. For levels there
are three more: a ligature stands for the two letters that end `OFF`, and
a dotless `i` for the letter of `INFO` and of `WARNING`
(`Level.foldedNames`), since its key is all that a text is compared by.
`folded_read` shows one of them.

A filter can be built just if the names that are given in it are
understood and a marker is named (`FilterConfig.WellNamed`). What cannot
be built is refused when the description is read, whether it stands in the
logger's own chain or in that of an appender.
-/
import LogPipeline.Proofs.Config.Building
import LogPipeline.Proofs.Config.RoundTrip
import LogPipeline.Proofs.Samples
import LogPipeline.Proofs.Text.Spelling

namespace LogPipeline

open Text (Names words nameKey)

-- ============================================================== levels

namespace Level

/-- The names of a level. -/
def names : Level → List String
  | warn => ["WARN", "WARNING"]
  | l => [l.name]

/-- The words that are no name, but have one as their capitals. -/
def foldedNames : Level → List String
  | off => ["O\ufb00"]
  | warn => ["WARN\u0131NG"]
  | info => ["\u0131NFO"]
  | _ => []

/-- The table of keys has the names of each level, and nothing else. -/
theorem ofKey?_eq_some_iff {key : String} {l : Level} : ofKey? key = some l ↔ key ∈ l.names := by
  constructor
  · intro h
    unfold ofKey? at h
    split at h
    iterate 9
      · cases h
        decide
    · cases h
  · intro h
    cases l with
    | warn =>
      rcases List.mem_cons.1 h with rfl | h
      · rfl
      · rw [List.mem_singleton.1 h]
        rfl
    | _ =>
      rw [List.mem_singleton.1 h]
      rfl

/-- The words for the names of a level. -/
theorem words_names (l : Level) : l.names.flatMap words = l.names ++ l.foldedNames := by
  cases l <;> decide +kernel

/-- Names are capitals throughout, and none of their words has a blank in
it. -/
theorem plain_names (l : Level) : ∀ key ∈ l.names, (∀ c ∈ key.toList, Text.IsCapital c)
    ∧ ∀ word ∈ words key, ∀ c ∈ word.toList, Text.isBlank c = false := by
  have hall : (l.names.all fun key => key.toList.all (fun c => decide (Text.IsCapital c))
      && (words key).all fun word => word.toList.all fun c => !Text.isBlank c) = true := by
    cases l <;> decide +kernel
  simpa using hall

/-- A text is understood as a level just if it names one of the level's words,
those included that only folding finds. -/
theorem ofName?_eq_some_iff {s : String} {l : Level} :
    ofName? s = some l ↔ ∃ word ∈ l.names ++ l.foldedNames, Names s word := by
  unfold ofName?
  rw [ofKey?_eq_some_iff, ← words_names]
  constructor
  · intro h
    obtain ⟨hkey, hwords⟩ := l.plain_names _ h
    obtain ⟨word, hword, hnames⟩ := (Text.nameKey_eq_iff hkey hwords).1 rfl
    exact ⟨word, List.mem_flatMap.2 ⟨_, h, hword⟩, hnames⟩
  · rintro ⟨word, hword, hnames⟩
    obtain ⟨key, hmem, hword⟩ := List.mem_flatMap.1 hword
    obtain ⟨hkey, hwords⟩ := l.plain_names key hmem
    rwa [(Text.nameKey_eq_iff hkey hwords).2 ⟨word, hword, hnames⟩]

end Level

-- ============================================================= answers

namespace FilterResult

/-- The table of keys has each answer under its one name. -/
theorem ofKey?_eq_some_iff {key : String} {r : FilterResult} :
    ofKey? key = some r ↔ key = r.name := by
  constructor
  · intro h
    unfold ofKey? at h
    split at h
    iterate 3
      · cases h
        rfl
    · cases h
  · rintro rfl
    cases r <;> rfl

/-- Folding finds no other spelling of an answer's name. -/
theorem words_name (r : FilterResult) : words r.name = [r.name] := by
  cases r <;> decide +kernel

theorem plain_name (r : FilterResult) : (∀ c ∈ r.name.toList, Text.IsCapital c)
    ∧ ∀ c ∈ r.name.toList, Text.isBlank c = false := by
  constructor
  · apply Text.forall_of_all
    cases r <;> decide +kernel
  · apply Text.forall_of_all
    cases r <;> decide +kernel

/-- A text is understood as an answer just if it names it. -/
theorem ofName?_eq_some_iff {s : String} {r : FilterResult} :
    ofName? s = some r ↔ Names s r.name := by
  unfold ofName?
  rw [ofKey?_eq_some_iff, Text.nameKey_eq_iff r.plain_name.1, words_name]
  · simp
  · rw [words_name]
    intro word hword
    rw [List.mem_singleton.1 hword]
    exact r.plain_name.2

end FilterResult

-- ============================================================== filters

/-- The text is understood as a level. -/
def LevelNamed (s : String) : Prop := ∃ l : Level, ∃ word ∈ l.names ++ l.foldedNames, Names s word

/-- The text is understood as an answer. -/
def AnswerNamed (s : String) : Prop := ∃ r : FilterResult, Names s r.name

/-- What is understood as a level has been defined without the reader. -/
theorem levelNamed_iff {s : String} : LevelNamed s ↔ ∃ l, Level.ofName? s = some l :=
  exists_congr fun _ => Level.ofName?_eq_some_iff.symm

theorem answerNamed_iff {s : String} : AnswerNamed s ↔ ∃ r, FilterResult.ofName? s = some r :=
  exists_congr fun _ => FilterResult.ofName?_eq_some_iff.symm

/-- What was read is refused as a configuration that is not valid. -/
def Refused {α : Type} (r : Except LogError α) : Prop :=
  ∃ component message, r = .error (.invalidConfiguration component message)

/-- It succeeds if `p` holds, and is refused if not. -/
def SucceedsIff {α : Type} (r : Except LogError α) (p : Prop) : Prop :=
  (p ∧ ∃ a, r = .ok a) ∨ (¬ p ∧ Refused r)

namespace SucceedsIff

variable {α β : Type} {r : Except LogError α} {p q : Prop}

/-- One call after another succeeds just if both do. -/
theorem bind {f : α → Except LogError β} (hr : SucceedsIff r p)
    (hf : ∀ a, SucceedsIff (f a) q) : SucceedsIff (r >>= f) (p ∧ q) := by
  rcases hr with ⟨hp, a, rfl⟩ | ⟨hp, component, message, rfl⟩
  · rcases hf a with ⟨hq, hok⟩ | ⟨hq, hrefused⟩
    · exact .inl ⟨⟨hp, hq⟩, hok⟩
    · exact .inr ⟨fun h => hq h.2, hrefused⟩
  · exact .inr ⟨fun h => hp h.1, component, message, rfl⟩

theorem ok (hr : SucceedsIff r p) (hp : p) : ∃ a, r = .ok a := by
  rcases hr with ⟨-, hok⟩ | ⟨hnot, -⟩
  · exact hok
  · exact absurd hp hnot

/-- The condition can be put in other words. -/
theorem congr (hr : SucceedsIff r p) (h : p ↔ q) : SucceedsIff r q := by
  rwa [← propext h]

/-- What is made of the result does not matter. -/
theorem map (hr : SucceedsIff r p) (f : α → β) : SucceedsIff (r >>= fun a => pure (f a)) p := by
  rcases hr with ⟨hp, a, rfl⟩ | ⟨hp, component, message, rfl⟩
  · exact .inl ⟨hp, f a, rfl⟩
  · exact .inr ⟨hp, component, message, rfl⟩

end SucceedsIff

/-- A name that may be left out is understood, or refused with what it is called. -/
theorem succeedsIff_option {α β : Type} {read : String → Option α} {p : String → Prop}
    (hread : ∀ s, p s ↔ ∃ a, read s = some a) {result : Option String → Except LogError β}
    (hnone : ∃ b, result none = .ok b)
    (hsome : ∀ s a, read s = some a → ∃ b, result (some s) = .ok b)
    (hrefused : ∀ s, read s = none → Refused (result (some s))) (o : Option String) :
    SucceedsIff (result o) (∀ s ∈ o, p s) := by
  cases o with
  | none => exact .inl ⟨fun _ h => (Option.not_mem_none _ h).elim, hnone⟩
  | some s =>
    have hp : (∀ t ∈ some s, p t) ↔ ∃ a, read s = some a := by
      rw [← hread]
      simp
    cases hs : read s with
    | some a => exact .inl ⟨hp.2 ⟨a, hs⟩, hsome s a hs⟩
    | none =>
      refine .inr ⟨fun h => ?_, hrefused s hs⟩
      obtain ⟨a, ha⟩ := hp.1 h
      rw [hs] at ha
      cases ha

/-- An answer that is left out has a default; one that is given has to be
understood. -/
theorem FilterResult.succeedsIff_ofName (component : String) (dflt : FilterResult)
    (o : Option String) :
    SucceedsIff (ofName component dflt o) (∀ s ∈ o, AnswerNamed s) := by
  refine succeedsIff_option (fun _ => answerNamed_iff) ⟨dflt, rfl⟩ (fun s r hs => ?_)
    (fun s hs => ?_) o
  · exact ⟨r, by rw [ofName, hs]⟩
  · exact ⟨component, invalidName s, by rw [ofName, hs]⟩

namespace Filter

/-- The level of a threshold filter. -/
def levelOfName (o : Option String) : Except LogError Level :=
  match o with
  | none => pure defaultLevel
  | some s =>
    match Level.ofName? s with
    | some l => pure l
    | none => throw (.invalidConfiguration "ThresholdFilter" (Level.invalidName s))

/-- The two answers of a filter. -/
def answersOfNames (component : String) (onMatch onMismatch : Option String) :
    Except LogError Answers := do
  let m ← FilterResult.ofName component defaultAnswers.onMatch onMatch
  let n ← FilterResult.ofName component defaultAnswers.onMismatch onMismatch
  return ⟨m, n⟩

/-- A threshold is built of its level first, then of its answers; the first
name that is not understood is told. -/
theorem thresholdOfNames_eq (level onMatch onMismatch : Option String) :
    thresholdOfNames level onMatch onMismatch
      = levelOfName level >>= fun l => answersOfNames "ThresholdFilter" onMatch onMismatch
        >>= fun a => pure (threshold l a) := by
  unfold thresholdOfNames levelOfName answersOfNames
  simp only [bind_assoc, pure_bind]
  cases level with
  | none => rfl
  | some s =>
    dsimp only
    cases Level.ofName? s with
    | some l => rfl
    | none => rfl

/-- A marker filter with a marker is built of its answers. -/
theorem markerOfNames_eq {name : String} (hname : name ≠ "") (onMatch onMismatch : Option String) :
    markerOfNames name onMatch onMismatch
      = answersOfNames "MarkerFilter" onMatch onMismatch >>= fun a => pure (marker name a) := by
  have hnonempty : name.isEmpty = false := by simpa using hname
  unfold markerOfNames answersOfNames
  simp only [bind_assoc, pure_bind, hnonempty]
  rfl

/-- A level that is left out has a default; one that is given has to be
understood. -/
theorem succeedsIff_levelOfName (o : Option String) :
    SucceedsIff (levelOfName o) (∀ s ∈ o, LevelNamed s) := by
  refine succeedsIff_option (fun _ => levelNamed_iff) ⟨defaultLevel, rfl⟩ (fun s l hs => ?_)
    (fun s hs => ?_) o
  · exact ⟨l, by rw [levelOfName, hs]; rfl⟩
  · exact ⟨"ThresholdFilter", Level.invalidName s, by rw [levelOfName, hs]; rfl⟩

theorem succeedsIff_answersOfNames (component : String) (onMatch onMismatch : Option String) :
    SucceedsIff (answersOfNames component onMatch onMismatch)
      ((∀ s ∈ onMatch, AnswerNamed s) ∧ ∀ s ∈ onMismatch, AnswerNamed s) :=
  .bind (FilterResult.succeedsIff_ofName _ _ onMatch) fun _ =>
    (FilterResult.succeedsIff_ofName _ _ onMismatch).map _

end Filter

namespace FilterConfig

/-- Every name that is given is understood, and a marker is named. -/
def WellNamed : FilterConfig → Prop
  | threshold level onMatch onMismatch =>
    (∀ s ∈ level, LevelNamed s) ∧ (∀ s ∈ onMatch, AnswerNamed s) ∧ ∀ s ∈ onMismatch, AnswerNamed s
  | marker name onMatch onMismatch =>
    name ≠ "" ∧ (∀ s ∈ onMatch, AnswerNamed s) ∧ ∀ s ∈ onMismatch, AnswerNamed s

/-- A filter can be built just if all its names are understood and it has a
marker where it needs one. -/
theorem succeedsIff_build (c : FilterConfig) : SucceedsIff c.build c.WellNamed := by
  cases c with
  | threshold level onMatch onMismatch =>
    show SucceedsIff (Filter.thresholdOfNames level onMatch onMismatch) _
    rw [Filter.thresholdOfNames_eq]
    exact .bind (Filter.succeedsIff_levelOfName level) fun _ =>
      (Filter.succeedsIff_answersOfNames _ onMatch onMismatch).map _
  | marker name onMatch onMismatch =>
    show SucceedsIff (Filter.markerOfNames name onMatch onMismatch) _
    by_cases hname : name = ""
    · subst hname
      exact .inr ⟨fun h => h.1 rfl, _, _, rfl⟩
    · rw [Filter.markerOfNames_eq hname]
      exact ((Filter.succeedsIff_answersOfNames _ onMatch onMismatch).map _).congr
        (and_iff_right hname).symm

/-- A chain can be built just if each of its filters can. -/
theorem succeedsIff_buildChain (cs : List FilterConfig) :
    SucceedsIff (buildChain cs) (∀ c ∈ cs, c.WellNamed) := by
  induction cs with
  | nil => exact .inl ⟨(fun _ h => nomatch h), [], rfl⟩
  | cons c cs ih =>
    have hchain : buildChain (c :: cs)
        = c.build >>= fun f => buildChain cs >>= fun fs => pure (.builtin f :: fs) := by
      rw [buildChain]
      cases c.build with
      | error e => rfl
      | ok f => cases buildChain cs <;> rfl
    rw [hchain]
    exact (SucceedsIff.bind c.succeedsIff_build fun _ => ih.map _).congr List.forall_mem_cons.symm

theorem succeedsIff_buildOptional (cs : List FilterConfig) :
    SucceedsIff (buildOptional cs) (∀ c ∈ cs, c.WellNamed) := by
  unfold buildOptional
  cases cs with
  | nil => exact .inl ⟨(fun _ h => nomatch h), none, rfl⟩
  | cons c cs => exact (succeedsIff_buildChain (c :: cs)).map some

end FilterConfig

-- ======================================================== descriptions

namespace PipelineConfig

/-- The filters of the logger and of its appenders. -/
def allFilters (c : PipelineConfig) : List FilterConfig :=
  c.filters ++ c.appenders.flatMap AppenderConfig.filters

/-- The appenders pass just if all filters of all of them can be built. -/
theorem succeedsIff_checkAppenders (as : List AppenderConfig) :
    SucceedsIff (checkAppenders as) (∀ c ∈ as.flatMap AppenderConfig.filters, c.WellNamed) := by
  induction as with
  | nil => exact .inl ⟨(fun _ h => nomatch h), (), rfl⟩
  | cons a as ih =>
    have hcheck : checkAppenders (a :: as)
        = FilterConfig.buildOptional a.filters >>= fun _ => checkAppenders as := by
      rw [checkAppenders]
      cases FilterConfig.buildOptional a.filters <;> rfl
    rw [hcheck]
    have hboth := SucceedsIff.bind (FilterConfig.succeedsIff_buildOptional a.filters) fun _ => ih
    refine hboth.congr ?_
    rw [List.flatMap_cons, List.forall_mem_append]

/-- A description passes its check just if all names in it are understood,
wherever they stand, and its ring has a slot. -/
theorem succeedsIff_validate (c : PipelineConfig) :
    SucceedsIff c.validate ((∀ f ∈ c.allFilters, f.WellNamed) ∧ c.async.ringBufferSize ≠ 0) := by
  have hring : SucceedsIff (if c.async.ringBufferSize = 0 then
      throw (.invalidConfiguration "AsyncConfig" "ring_buffer_size must be at least 1")
      else pure () : Except LogError Unit) (c.async.ringBufferSize ≠ 0) := by
    by_cases hsize : c.async.ringBufferSize = 0
    · rw [if_pos hsize]
      exact .inr ⟨fun h => h hsize, _, _, rfl⟩
    · rw [if_neg hsize]
      exact .inl ⟨hsize, (), rfl⟩
  have hall : (∀ f ∈ c.allFilters, f.WellNamed) ↔ (∀ f ∈ c.filters, f.WellNamed)
      ∧ ∀ f ∈ c.appenders.flatMap AppenderConfig.filters, f.WellNamed := List.forall_mem_append
  refine SucceedsIff.congr (SucceedsIff.bind (FilterConfig.succeedsIff_buildChain c.filters)
    fun _ => .bind (succeedsIff_checkAppenders c.appenders) fun _ => hring) ?_
  rw [hall, and_assoc]

/-- What can be decoded is accepted as it is, or refused for its names or its ring. -/
theorem ofText_of_decoded {text : String} {c : PipelineConfig}
    (hread : Json.decode? decoder text = some c) :
    (((∀ f ∈ c.allFilters, f.WellNamed) ∧ c.async.ringBufferSize ≠ 0) ∧ ofText text = .ok c)
      ∨ (¬ ((∀ f ∈ c.allFilters, f.WellNamed) ∧ c.async.ringBufferSize ≠ 0)
        ∧ Refused (ofText text)) := by
  have htext : ofText text = c.validate >>= fun _ => pure c := by
    unfold ofText
    rw [hread]
    rfl
  rw [htext]
  rcases c.succeedsIff_validate with ⟨hvalid, u, hok⟩ | ⟨hinvalid, component, message, herror⟩
  · exact .inl ⟨hvalid, by rw [hok]; rfl⟩
  · exact .inr ⟨hinvalid, component, message, by rw [herror]; rfl⟩

/-- The text of a description whose sizes fit is read as that description. -/
theorem decode?_toText {c : PipelineConfig} (hfits : c.Fits) :
    Json.decode? decoder c.toText = some c := by
  unfold Json.decode? toText
  rw [Json.parse?_renderPretty c.plain_toJson]
  exact decoder_toJson hfits (by decide)

end PipelineConfig

-- =============================================================== names

/-- A text is understood as a level just if it is one of the level's
words, and as an answer just if it is the answer's name, in any ASCII case
and with blanks around it. A filter is built just if it is well named and
refused otherwise. So a description in which every filter is well named,
and with room in its ring, is accepted, and one with a filter that is not,
the logger's or an appender's, is refused. -/
theorem names_exact :
    (∀ (s : String) (l : Level), Level.ofName? s = some l
      ↔ ∃ word ∈ l.names ++ l.foldedNames, Names s word)
    ∧ (∀ (s : String) (r : FilterResult), FilterResult.ofName? s = some r ↔ Names s r.name)
    ∧ (∀ f : FilterConfig, SucceedsIff f.build f.WellNamed)
    ∧ ∀ (text : String) (c : PipelineConfig),
      Json.decode? PipelineConfig.decoder text = some c →
      ((∀ f ∈ c.allFilters, f.WellNamed) → c.async.ringBufferSize ≠ 0 →
        PipelineConfig.ofText text = .ok c)
      ∧ ((∃ f ∈ c.allFilters, ¬ f.WellNamed) → Refused (PipelineConfig.ofText text)) := by
  refine ⟨fun s l => Level.ofName?_eq_some_iff, fun s r => FilterResult.ofName?_eq_some_iff,
    FilterConfig.succeedsIff_build, fun text c hread => ⟨fun hnames hring => ?_, ?_⟩⟩
  · rcases PipelineConfig.ofText_of_decoded hread with ⟨-, hok⟩ | ⟨hinvalid, -⟩
    · exact hok
    · exact absurd ⟨hnames, hring⟩ hinvalid
  · rintro ⟨f, hf, hmisspelt⟩
    rcases PipelineConfig.ofText_of_decoded hread with ⟨⟨hnames, -⟩, -⟩ | ⟨-, hrefused⟩
    · exact absurd (hnames f hf) hmisspelt
    · exact hrefused

namespace Sample

/-- Blanks and small letters make no difference. -/
def wellNamed : PipelineConfig :=
  { PipelineConfig.standard with filters := [.threshold (some " warning\t") (some "Accept") none] }

/-- An appender with a filter whose level is misspelt. -/
def misspelt : PipelineConfig :=
  { PipelineConfig.standard with
    appenders := [Samples.onConsole [.threshold (some "WRAN") none none]] }

end Sample

theorem names_exact_sample :
    PipelineConfig.ofText Sample.wellNamed.toText = .ok Sample.wellNamed
      ∧ Refused (PipelineConfig.ofText Sample.misspelt.toText) := by
  have hwell : Json.decode? PipelineConfig.decoder Sample.wellNamed.toText
      = some Sample.wellNamed :=
    PipelineConfig.decode?_toText ⟨AsyncConfig.fits_standard, fun _ h => nomatch h⟩
  have hmisspelt : Json.decode? PipelineConfig.decoder Sample.misspelt.toText
      = some Sample.misspelt := by
    refine PipelineConfig.decode?_toText ⟨AsyncConfig.fits_standard, fun a ha => ?_⟩
    rw [List.mem_singleton.1 ha]
    trivial
  refine ⟨(names_exact.2.2.2 _ _ hwell).1 (fun f hf => ?_) (by decide),
    (names_exact.2.2.2 _ _ hmisspelt).2 ⟨_, List.mem_singleton_self _, fun h => ?_⟩⟩
  · rw [List.mem_singleton.1 hf]
    refine ⟨?_, ?_, fun _ h => nomatch h⟩
    · intro s hs
      rw [← Option.some.inj hs]
      exact levelNamed_iff.2 ⟨.warn, by decide +kernel⟩
    · intro s hs
      rw [← Option.some.inj hs]
      exact answerNamed_iff.2 ⟨.accept, by decide +kernel⟩
  · obtain ⟨l, hl⟩ := levelNamed_iff.1 (h.1 "WRAN" rfl)
    have hnone : Level.ofName? "WRAN" = none := by decide +kernel
    rw [hnone] at hl
    cases hl

/-- A ligature is read as two letters: a text that is no level's name in any
ASCII case is understood as a level, and a filter is built from it. -/
theorem folded_read : Level.ofName? "o\ufb00" = some .off
    ∧ (∃ f, (FilterConfig.threshold (some "o\ufb00") none none).build = .ok f)
    ∧ ¬ ∃ l : Level, ∃ name ∈ l.names, Names "o\ufb00" name := by
  have hread : Level.ofName? "o\ufb00" = some .off := by decide +kernel
  refine ⟨hread, FilterConfig.succeedsIff_build _ |>.ok ⟨fun s hs => ?_, ?_, ?_⟩, ?_⟩
  · rw [← Option.some.inj hs]
    exact levelNamed_iff.2 ⟨.off, hread⟩
  · exact fun _ h => nomatch h
  · exact fun _ h => nomatch h
  · rintro ⟨l, name, hname, before, core, after, hs, hbefore, hafter, hcore⟩
    -- The ligature is no blank and no small letter, so a name would have to hold it.
    have hin : '\ufb00' ∈ before ++ core ++ after := by
      rw [← hs]
      decide +kernel
    have hnone : ∀ l : Level, ∀ name ∈ l.names, '\ufb00' ∉ name.toList := by
      intro l
      cases l <;> decide +kernel
    rcases List.mem_append.1 hin with hin | hin
    · rcases List.mem_append.1 hin with hin | hin
      · exact absurd (hbefore _ hin) (by decide)
      · refine hnone l name hname ?_
        rw [← hcore]
        exact List.mem_map.2 ⟨_, hin, by decide⟩
    · exact absurd (hafter _ hin) (by decide)

end LogPipeline
