/-
What `${name}` in a value comes to. The rules are given here as a
relation that follows references as deep as they go (`Expands`), with a
text cut at its first reference (`Cuts`) and a reference split at its first
`:-` (`Splits`); the expansion that runs stops at a depth instead.

The two agree wherever following references never nests deeper than the
depth (`NestsWithin`). Under the same rules, with a limit to how deep they
are followed, the expansion is what they come to for every text, whatever
the variables refer to (`eq_expand_of_expands`, `expands_expand`).
-/
import LogPipeline.Property

namespace LogPipeline

-- ============================================================ the rules

/-- The first reference of a text, cut out: what stands before it, what
stands between its braces, and what follows. No reference begins before
it, and it ends at the next closing brace. -/
structure Cuts (cs before inner after : List Char) : Prop where
  spelt : cs = before ++ '$' :: '{' :: (inner ++ '}' :: after)
  first : ¬ ['$', '{'] <:+: before
  next : '}' ∉ inner

/-- A reference, split at its first `:-` into key and fallback. -/
inductive Splits (inner : List Char) : List Char → Option (List Char) → Prop
  | bare : ¬ [':', '-'] <:+: inner → Splits inner inner none
  | backed {key fallback : List Char} : inner = key ++ ':' :: '-' :: fallback →
      ¬ [':', '-'] <:+: key → Splits inner key (some fallback)

/-- A reference of a text, found by cutting from left to right. -/
inductive Refers : List Char → List Char → Prop
  | first {cs before inner after : List Char} : Cuts cs before inner after → Refers cs inner
  | later {cs before inner inner' after : List Char} : Cuts cs before inner after →
      Refers after inner' → Refers cs inner'

namespace Variables

/-- What a text comes to when its references are followed, and those of
the texts found, to a depth of `limit` lookups, or as deep as they go if
there is no limit. What is found is expanded by itself and never looked at
again; so is what follows a reference. -/
inductive Expands (v : Variables) : Option Nat → List Char → List Char → Prop
  /-- At the limit a text stays as it is. -/
  | deep {cs : List Char} : Expands v (some 0) cs cs
  /-- A text without references, or with one that is never closed. -/
  | plain {limit : Option Nat} {cs : List Char} :
      (∀ before inner after, ¬ Cuts cs before inner after) → Expands v limit cs cs
  | found {limit : Option Nat} {cs before inner after key text out rest : List Char}
      {fallback : Option (List Char)} : limit ≠ some 0 → Cuts cs before inner after →
      Splits inner key fallback → v.lookup key = some text →
      Expands v (limit.map (· - 1)) text out → Expands v limit after rest →
      Expands v limit cs (before ++ out ++ rest)
  | fallback {limit : Option Nat} {cs before inner after key text rest : List Char} :
      limit ≠ some 0 → Cuts cs before inner after → Splits inner key (some text) →
      v.lookup key = none → Expands v limit after rest →
      Expands v limit cs (before ++ text ++ rest)
  | unknown {limit : Option Nat} {cs before inner after key rest : List Char} :
      limit ≠ some 0 → Cuts cs before inner after → Splits inner key none →
      v.lookup key = none → Expands v limit after rest →
      Expands v limit cs (before ++ '$' :: '{' :: (inner ++ ['}']) ++ rest)

/-- Nothing is found for the reference, and it has no fallback. -/
def Stays (v : Variables) (inner : List Char) : Prop :=
  Splits inner inner none ∧ v.lookup inner = none

/-- Following the references of a text never nests deeper than so many
lookups: what the last of them finds has nothing more to be followed. -/
def NestsWithin (v : Variables) : Nat → List Char → Prop
  | 0, cs => ∀ inner, Refers cs inner → v.Stays inner
  | n + 1, cs => ∀ inner, Refers cs inner → ∀ key fallback text, Splits inner key fallback →
      v.lookup key = some text → v.NestsWithin n text

end Variables

-- ============================================================ splitting

/-- A text is split at the first of a character, and only if it has one. -/
theorem splitAt?_eq_some_iff {c : Char} {cs a b : List Char} :
    splitAt? (· == c) cs = some (a, b) ↔ cs = a ++ c :: b ∧ c ∉ a := by
  induction cs generalizing a with
  | nil => simp [splitAt?]
  | cons d rest ih =>
      unfold splitAt?
      by_cases hd : d = c
      · subst hd
        cases a with
        | nil => simp [eq_comm]
        | cons e a => simp +contextual
      · cases a with
        | nil => simp [hd]
        | cons e a => simp [hd, ih]; grind

-- ========================================================== cutting

/-- Cut out the first reference of a text. -/
def cut? : List Char → Option (List Char × List Char × List Char)
  | '$' :: '{' :: rest =>
    (splitAt? (· == '}') rest).map fun (inner, after) => ([], inner, after)
  | c :: rest => (cut? rest).map fun (before, inner, after) => (c :: before, inner, after)
  | [] => none

section

variable {cs rest before inner after : List Char} {c d : Char}

/-- Two characters stand next to each other at the front, or later. -/
theorem not_infix_cons_iff {a b : Char} {l : List Char} :
    ¬ [a, b] <:+: c :: l ↔ ¬ (c = a ∧ ∃ l', l = b :: l') ∧ ¬ [a, b] <:+: l := by
  rw [List.infix_cons_iff, not_or]
  cases l with
  | nil => simp
  | cons e l => grind

/-- There is nothing before a reference that opens the text. -/
theorem cuts_nil_iff :
    Cuts cs [] inner after ↔ cs = '$' :: '{' :: (inner ++ '}' :: after) ∧ '}' ∉ inner :=
  ⟨fun h => ⟨h.spelt, h.next⟩, fun h => ⟨h.1, by simp, h.2⟩⟩

/-- A character that opens no reference stays in front of the first one. -/
theorem cuts_cons_iff :
    Cuts (c :: rest) (d :: before) inner after
      ↔ d = c ∧ ¬ (c = '$' ∧ ∃ l, rest = '{' :: l) ∧ Cuts rest before inner after := by
  constructor
  · rintro ⟨hspelt, hfirst, hnext⟩
    obtain ⟨rfl, hrest⟩ := List.cons.inj hspelt
    obtain ⟨hfront, hlater⟩ := not_infix_cons_iff.1 hfirst
    refine ⟨rfl, fun ⟨hc, l, hl⟩ => ?_, hrest, hlater, hnext⟩
    cases before with
    | nil => simp [hl] at hrest
    | cons e before => exact hfront ⟨hc, before, by simp_all⟩
  · rintro ⟨rfl, hfront, hspelt, hfirst, hnext⟩
    refine ⟨congrArg _ hspelt, not_infix_cons_iff.2 ⟨fun ⟨hc, l, hl⟩ => ?_, hfirst⟩, hnext⟩
    exact hfront ⟨hc, _, by rw [hspelt, hl]; rfl⟩

/-- The scan finds the first reference: it cuts exactly as `Cuts` says. -/
theorem cut?_eq_some_iff : cut? cs = some (before, inner, after) ↔ Cuts cs before inner after := by
  fun_induction cut? cs generalizing before with
  | case1 rest =>
      cases before with
      | nil => simp [cuts_nil_iff, splitAt?_eq_some_iff]
      | cons d before => simp [cuts_cons_iff]
  | case2 c rest hplain ih =>
      have hfront : ¬ (c = '$' ∧ ∃ l, rest = '{' :: l) := fun ⟨hc, l, hl⟩ => hplain l hc hl
      cases before with
      | nil =>
          simp only [Option.map_eq_some_iff, Prod.mk.injEq, reduceCtorEq, false_and,
            and_false, exists_false, cuts_nil_iff, List.cons.injEq, false_iff]
          exact fun h => hfront ⟨h.1.1, _, h.1.2⟩
      | cons d before =>
          rw [cuts_cons_iff, ← ih]
          grind [Option.map_eq_some_iff]
  | case3 => simpa using fun h : Cuts [] before inner after => by simpa using h.spelt

/-- It finds none in a text that has none. -/
theorem cut?_eq_none_iff :
    cut? cs = none ↔ ∀ before inner after, ¬ Cuts cs before inner after := by
  simp [Option.eq_none_iff_forall_ne_some, cut?_eq_some_iff]

/-- Copying with the references replaced goes from one cut to the next. -/
theorem replaceRefs_eq (expand : List Char → List Char) (cs : List Char) :
    replaceRefs expand cs
      = match cut? cs with
        | some (before, inner, after) => before ++ expand inner ++ replaceRefs expand after
        | none => cs := by
  fun_induction cut? cs with
  | case1 rest =>
      rw [replaceRefs]
      split
      · next h => simp [h]
      · next h => simp [h]
  | case2 c rest hplain ih =>
      rw [replaceRefs.eq_2 _ _ _ hplain, ih]
      cases cut? rest <;> simp
  | case3 => rw [replaceRefs]

/-- The first reference is replaced, and the rest of the text is gone through
in the same way. -/
theorem Cuts.replaceRefs_eq (h : Cuts cs before inner after) (expand : List Char → List Char) :
    replaceRefs expand cs = before ++ expand inner ++ replaceRefs expand after := by
  rw [LogPipeline.replaceRefs_eq, cut?_eq_some_iff.2 h]

theorem replaceRefs_of_plain (h : ∀ before inner after, ¬ Cuts cs before inner after)
    (expand : List Char → List Char) : replaceRefs expand cs = cs := by
  rw [replaceRefs_eq, cut?_eq_none_iff.2 h]

/-- The parts of a cut, with the reference between them. -/
theorem Cuts.append_eq (h : Cuts cs before inner after) :
    before ++ '$' :: '{' :: (inner ++ ['}']) ++ after = cs := by
  rw [h.spelt]
  simp

theorem Cuts.length_lt (h : Cuts cs before inner after) : after.length < cs.length := by
  rw [h.spelt]
  simp only [List.length_append, List.length_cons]
  omega

/-- Induction from cut to cut: what holds of a text without references,
and of one whose rest it holds of, holds of every text. -/
@[elab_as_elim]
theorem cutInduction {motive : List Char → Prop}
    (plain : ∀ cs, (∀ before inner after, ¬ Cuts cs before inner after) → motive cs)
    (cut : ∀ cs before inner after, Cuts cs before inner after → motive after → motive cs)
    (cs : List Char) : motive cs := by
  induction hlen : cs.length using Nat.strongRecOn generalizing cs with
  | ind length ih =>
      cases hcut : cut? cs with
      | none => exact plain cs (cut?_eq_none_iff.1 hcut)
      | some parts =>
          obtain ⟨before, inner, after⟩ := parts
          have hcut := cut?_eq_some_iff.1 hcut
          exact cut cs before inner after hcut (ih _ (hlen ▸ hcut.length_lt) after rfl)

/-- The references of a text, from left to right. -/
def references (cs : List Char) : List (List Char) :=
  match h : cut? cs with
  | some (_, inner, after) =>
    have : after.length < cs.length := (cut?_eq_some_iff.1 h).length_lt
    inner :: references after
  | none => []
termination_by cs.length

theorem references_of_plain (h : ∀ before inner after, ¬ Cuts cs before inner after) :
    references cs = [] := by
  rw [references]
  split
  · next h' => exact absurd (cut?_eq_some_iff.1 h') (h _ _ _)
  · rfl

theorem Cuts.references_eq (h : Cuts cs before inner after) :
    references cs = inner :: references after := by
  have hcut := cut?_eq_some_iff.2 h
  rw [references]
  split
  · next h' =>
    obtain ⟨-, rfl, rfl⟩ : _ ∧ _ ∧ _ := by simpa using hcut.symm.trans h'
    rfl
  · next h' => simp [h'] at hcut

/-- The references that the scan collects are those that the text makes. -/
theorem mem_references : inner ∈ references cs ↔ Refers cs inner := by
  constructor
  · intro h
    induction cs using cutInduction with
    | plain cs hcut => simp [references_of_plain hcut] at h
    | cut cs before inner' after hcut ih =>
        rw [hcut.references_eq] at h
        rcases List.mem_cons.1 h with rfl | h
        · exact .first hcut
        · exact .later hcut (ih h)
  · intro h
    induction h with
    | first hcut => exact hcut.references_eq ▸ List.mem_cons_self
    | later hcut _ ih => exact hcut.references_eq ▸ List.mem_cons_of_mem _ ih

end

-- ========================================================= key, fallback

section

variable {inner key text : List Char} {fallback : Option (List Char)}

/-- A reference without `:-` has no fallback. -/
theorem splitFallback_bare (h : ¬ [':', '-'] <:+: inner) :
    splitFallback inner = (inner, none) := by
  induction inner with
  | nil => rfl
  | cons c rest ih =>
      obtain ⟨hfront, hlater⟩ := not_infix_cons_iff.1 h
      rw [splitFallback.eq_2 c rest fun l hc hl => hfront ⟨hc, l, hl⟩, ih hlater]

/-- The first `:-` ends the key; what follows is the fallback, further signs
included. -/
theorem splitFallback_backed (h : ¬ [':', '-'] <:+: key) :
    splitFallback (key ++ ':' :: '-' :: text) = (key, some text) := by
  induction key with
  | nil => rfl
  | cons c key ih =>
      obtain ⟨hfront, hlater⟩ := not_infix_cons_iff.1 h
      rw [List.cons_append, splitFallback.eq_2, ih hlater]
      intro l hc hl
      cases key with
      | nil => simp at hl
      | cons d key => exact hfront ⟨hc, key, by simp_all⟩

/-- A reference is split into its key and its fallback as `Splits` says. -/
theorem Splits.splitFallback_eq (h : Splits inner key fallback) :
    splitFallback inner = (key, fallback) := by
  cases h with
  | bare h => exact splitFallback_bare h
  | backed hspelt h => rw [hspelt, splitFallback_backed h]

theorem exists_splits (inner : List Char) : ∃ key fallback, Splits inner key fallback := by
  induction inner with
  | nil => exact ⟨[], none, .bare (by simp)⟩
  | cons c rest ih =>
      by_cases hfront : c = ':' ∧ ∃ l, rest = '-' :: l
      · obtain ⟨rfl, l, rfl⟩ := hfront
        exact ⟨[], some l, .backed rfl (by simp)⟩
      · obtain ⟨key, fallback, h⟩ := ih
        cases h with
        | bare h => exact ⟨c :: rest, none, .bare (not_infix_cons_iff.2 ⟨hfront, h⟩)⟩
        | @backed key text hspelt h =>
            refine ⟨c :: key, some text, .backed (by rw [hspelt]; rfl) ?_⟩
            refine not_infix_cons_iff.2 ⟨fun ⟨hc, l, hl⟩ => ?_, h⟩
            exact hfront ⟨hc, _, by rw [hspelt, hl]; rfl⟩

/-- Every reference is split in one way, and in one only. -/
theorem splits_iff : Splits inner key fallback ↔ splitFallback inner = (key, fallback) := by
  refine ⟨Splits.splitFallback_eq, fun h => ?_⟩
  obtain ⟨key', fallback', hs⟩ := exists_splits inner
  obtain ⟨rfl, rfl⟩ := Prod.mk.inj (hs.splitFallback_eq.symm.trans h)
  exact hs

instance : Decidable (Splits inner key fallback) :=
  decidable_of_iff _ splits_iff.symm

/-- A reference that stays brings no fallback and leads nowhere. -/
theorem Variables.Stays.of_splits {v : Variables} (h : v.Stays inner)
    (hs : Splits inner key fallback) : key = inner ∧ fallback = none ∧ v.lookup key = none := by
  have heq := hs.splitFallback_eq.symm.trans h.1.splitFallback_eq
  obtain ⟨rfl, rfl⟩ := Prod.mk.inj heq
  exact ⟨rfl, rfl, h.2⟩

end

-- ======================================================== the expansion

namespace Variables

variable {v : Variables} {cs before inner after key text out : List Char}
  {fallback : Option (List Char)} {n : Nat}

/-- A key that is known is replaced by its value, expanded in its turn. -/
theorem expandRef_found (hs : Splits inner key fallback) (hfound : v.lookup key = some text)
    (f : List Char → List Char) : v.expandRef f inner = f text := by
  simp [expandRef, hs.splitFallback_eq, hfound]

/-- An unknown key with a fallback is replaced by that, which is not
expanded. -/
theorem expandRef_fallback (hs : Splits inner key (some text)) (hnone : v.lookup key = none)
    (f : List Char → List Char) : v.expandRef f inner = text := by
  simp [expandRef, hs.splitFallback_eq, hnone]

/-- An unknown key without one stays as it was written. -/
theorem expandRef_unknown (hs : Splits inner key none) (hnone : v.lookup key = none)
    (f : List Char → List Char) :
    v.expandRef f inner = '$' :: '{' :: (inner ++ ['}']) := by
  simp [expandRef, hs.splitFallback_eq, hnone]

theorem expand_plain (h : ∀ before inner after, ¬ Cuts cs before inner after) (n : Nat) :
    v.expand n cs = cs := by
  cases n with
  | zero => rfl
  | succ n => exact replaceRefs_of_plain h _

/-- One step of the expansion, at the first reference of the text. -/
theorem expand_cuts (h : Cuts cs before inner after) (n : Nat) :
    v.expand (n + 1) cs = before ++ v.expandRef (v.expand n) inner ++ v.expand (n + 1) after :=
  h.replaceRefs_eq _

/-- By the rules a text comes to what the expansion makes of it, to whatever depth. -/
theorem expands_expand (v : Variables) (n : Nat) (cs : List Char) :
    v.Expands (some n) cs (v.expand n cs) := by
  induction n generalizing cs with
  | zero => exact .deep
  | succ n ihDeep =>
      induction cs using cutInduction with
      | plain cs hcut =>
          rw [expand_plain hcut]
          exact .plain hcut
      | cut cs before inner after hcut ihAfter =>
          obtain ⟨key, fallback, hs⟩ := exists_splits inner
          rw [expand_cuts hcut]
          cases hlookup : v.lookup key with
          | some text =>
              rw [expandRef_found hs hlookup]
              exact .found (by simp) hcut hs hlookup (ihDeep text) ihAfter
          | none =>
              cases fallback with
              | some text =>
                  rw [expandRef_fallback hs hlookup]
                  exact .fallback (by simp) hcut hs hlookup ihAfter
              | none =>
                  rw [expandRef_unknown hs hlookup]
                  exact .unknown (by simp) hcut hs hlookup ihAfter

/-- By the rules a text comes to nothing else. -/
theorem eq_expand_of_expands {limit : Option Nat} (h : v.Expands limit cs out) :
    limit = some n → out = v.expand n cs := by
  induction h generalizing n with
  | deep =>
      rintro ⟨⟩
      rfl
  | plain hcut => exact fun _ => (expand_plain hcut n).symm
  | found hlimit hcut hs hlookup _ _ ihText ihAfter =>
      rintro rfl
      cases n with
      | zero => exact absurd rfl hlimit
      | succ n =>
          rw [expand_cuts hcut, expandRef_found hs hlookup, ihText (n := n) rfl,
            ihAfter (n := n + 1) rfl]
  | fallback hlimit hcut hs hlookup _ ihAfter =>
      rintro rfl
      cases n with
      | zero => exact absurd rfl hlimit
      | succ n => rw [expand_cuts hcut, expandRef_fallback hs hlookup, ihAfter rfl]
  | unknown hlimit hcut hs hlookup _ ihAfter =>
      rintro rfl
      cases n with
      | zero => exact absurd rfl hlimit
      | succ n => rw [expand_cuts hcut, expandRef_unknown hs hlookup, ihAfter rfl]

/-- The relation with a limit is the function with that much fuel. -/
theorem expands_some_iff : v.Expands (some n) cs out ↔ out = v.expand n cs :=
  ⟨fun h => eq_expand_of_expands h rfl, fun h => h ▸ expands_expand v n cs⟩

-- =========================================================== nesting

theorem NestsWithin.rest (h : v.NestsWithin n cs) (hcut : Cuts cs before inner after) :
    v.NestsWithin n after := by
  cases n with
  | zero => exact fun inner' hrefers => h inner' (.later hcut hrefers)
  | succ n => exact fun inner' hrefers => h inner' (.later hcut hrefers)

/-- The value of a reference nests less deep than the text that makes it. -/
theorem NestsWithin.found (h : v.NestsWithin n cs) (hcut : Cuts cs before inner after)
    (hs : Splits inner key fallback) (hlookup : v.lookup key = some text) :
    ∃ m, n = m + 1 ∧ v.NestsWithin m text := by
  cases n with
  | zero =>
      obtain ⟨-, -, hnone⟩ := (h inner (.first hcut)).of_splits hs
      simp [hlookup] at hnone
  | succ n => exact ⟨n, rfl, h inner (.first hcut) _ _ _ hs hlookup⟩

/-- A text whose first reference has a fallback is not of depth 0. -/
theorem NestsWithin.ne_zero (h : v.NestsWithin n cs) (hcut : Cuts cs before inner after)
    (hs : Splits inner key (some text)) : n ≠ 0 := by
  rintro rfl
  obtain ⟨-, hbare, -⟩ := (h inner (.first hcut)).of_splits hs
  cases hbare

instance decidableStays (v : Variables) (inner : List Char) : Decidable (v.Stays inner) :=
  inferInstanceAs (Decidable (_ ∧ _))

/-- Nothing nests in a text all of whose references stay. -/
theorem nestsWithin_zero_iff : v.NestsWithin 0 cs ↔ ∀ inner ∈ references cs, v.Stays inner :=
  ⟨fun h inner hmem => h inner (mem_references.1 hmem),
    fun h inner hrefers => h inner (mem_references.2 hrefers)⟩

/-- A text nests one deeper than the values it refers to. -/
theorem nestsWithin_succ_iff : v.NestsWithin (n + 1) cs
    ↔ ∀ inner ∈ references cs, ∀ text ∈ v.lookup (splitFallback inner).1,
        v.NestsWithin n text := by
  constructor
  · intro h inner hmem text htext
    exact h inner (mem_references.1 hmem) _ _ text (splits_iff.2 rfl) htext
  · intro h inner hrefers key fallback text hs hlookup
    refine h inner (mem_references.2 hrefers) text ?_
    rw [hs.splitFallback_eq]
    exact hlookup

instance decidableNestsWithin (v : Variables) :
    (n : Nat) → (cs : List Char) → Decidable (v.NestsWithin n cs)
  | 0, _ => decidable_of_iff _ nestsWithin_zero_iff.symm
  | n + 1, _ =>
    have := decidableNestsWithin v n
    decidable_of_iff _ nestsWithin_succ_iff.symm

/-- A text whose references lead nowhere comes to itself. -/
theorem expands_self {limit : Option Nat} (h : ∀ inner, Refers cs inner → v.Stays inner) :
    v.Expands limit cs cs := by
  by_cases hlimit : limit = some 0
  · exact hlimit ▸ .deep
  · induction cs using cutInduction with
    | plain cs hcut => exact .plain hcut
    | cut cs before inner after hcut ih =>
        have hstays : v.Stays inner := h inner (.first hcut)
        have hafter : v.Expands limit after after := ih fun i hi => h i (.later hcut hi)
        have hself := Expands.unknown hlimit hcut hstays.1 hstays.2 hafter
        rwa [hcut.append_eq] at hself

/-- Where the limit is not reached the expansion goes as deep as references do. -/
theorem NestsWithin.expands_none {limit : Option Nat} (h : v.Expands limit cs out) :
    limit = some n → v.NestsWithin n cs → v.Expands none cs out := by
  induction h generalizing n with
  | deep =>
      rintro ⟨⟩ hnests
      exact expands_self hnests
  | plain hcut => exact fun _ _ => .plain hcut
  | found _ hcut hs hlookup _ _ ihText ihAfter =>
      rintro rfl hnests
      have hafter := ihAfter rfl (hnests.rest hcut)
      obtain ⟨m, rfl, htext⟩ := hnests.found hcut hs hlookup
      exact .found (by simp) hcut hs hlookup (ihText rfl htext) hafter
  | fallback _ hcut hs hlookup _ ihAfter =>
      intro heq hnests
      exact .fallback (by simp) hcut hs hlookup (ihAfter heq (hnests.rest hcut))
  | unknown _ hcut hs hlookup _ ihAfter =>
      intro heq hnests
      exact .unknown (by simp) hcut hs hlookup (ihAfter heq (hnests.rest hcut))

/-- Within its depth the unlimited expansion is the limited one. -/
theorem NestsWithin.expands_some {limit : Option Nat} (h : v.Expands limit cs out) :
    limit = none → v.NestsWithin n cs → v.Expands (some n) cs out := by
  induction h generalizing n with
  | deep => exact fun heq => by cases heq
  | plain hcut => exact fun _ _ => .plain hcut
  | found _ hcut hs hlookup _ _ ihText ihAfter =>
      rintro rfl hnests
      have hafter := ihAfter rfl (hnests.rest hcut)
      obtain ⟨m, rfl, htext⟩ := hnests.found hcut hs hlookup
      exact .found (by simp) hcut hs hlookup (ihText rfl htext) hafter
  | fallback _ hcut hs hlookup _ ihAfter =>
      intro heq hnests
      have hn : some n ≠ some 0 := by simpa using hnests.ne_zero hcut hs
      exact .fallback hn hcut hs hlookup (ihAfter heq (hnests.rest hcut))
  | @unknown _ _ _ _ after _ rest _ hcut hs hlookup _ ihAfter =>
      intro heq hnests
      have hafter := ihAfter heq (hnests.rest hcut)
      cases n with
      | succ n => exact .unknown (by simp) hcut hs hlookup hafter
      | zero =>
          -- nothing was followed any more, so the rest has come to itself
          obtain rfl : rest = after := expands_some_iff.1 hafter
          rw [hcut.append_eq]
          exact .deep

/-- So the unlimited expansion is a function there too. -/
theorem NestsWithin.expands_iff (h : v.NestsWithin n cs) :
    v.Expands none cs out ↔ out = v.expand n cs :=
  ⟨fun hout => expands_some_iff.1 (expands_some hout rfl h),
    fun hout => hout ▸ expands_none (expands_expand v n cs) rfl h⟩

/-- A value is resolved to what its references come to, as deep as they
go, if following them never nests deeper than eight lookups; and to what
they come to when they are followed to a depth of eight lookups, and no
deeper, whatever the variables and the environment refer to. A value whose
references have neither a text nor a fallback stays as it is. -/
theorem resolve_expanding (v : Variables) (value : String) :
    (v.NestsWithin 8 value.toList → ∀ out : String,
      v.Expands none value.toList out.toList ↔ (Substitutor.expanding v).resolve value = out)
      ∧ (∀ out : String, v.Expands (some 8) value.toList out.toList
          ↔ (Substitutor.expanding v).resolve value = out)
      ∧ ((∀ inner, Refers value.toList inner → v.Stays inner) →
          (Substitutor.expanding v).resolve value = value) := by
  have hresolve : ∀ out : String, out.toList = v.expand 8 value.toList
      ↔ (Substitutor.expanding v).resolve value = out := fun out => by
    show _ ↔ String.ofList (v.expand 8 value.toList) = out
    rw [← String.toList_inj, String.toList_ofList, eq_comm]
  refine ⟨fun h out => h.expands_iff.trans (hresolve out),
    fun out => expands_some_iff.trans (hresolve out), fun h => ?_⟩
  exact (hresolve value).1 (expands_some_iff.1 (expands_self h))

namespace Sample

/-- A reference as it is written. -/
def reference (inner : String) : String := String.ofList ('$' :: '{' :: (inner.toList ++ ['}']))

/-- What begins a reference, and what closes it. -/
def opening : String := String.ofList ['$', '{']

def closing : String := String.ofList ['}']

/-- Names that lead to each other, down to a name of the environment. -/
def chained : Variables where
  vars := .ofList [("a", "<" ++ reference "b" ++ ">"), ("b", reference "c"), ("c", reference "d"),
    ("d", reference "e"), ("e", reference "f"), ("f", reference "g"), ("g", reference "env:HOST")]
  env := .ofList [("HOST", "web-1 " ++ opening)]

end Sample

open LogPipeline.Variables.Sample in
theorem resolve_expanding_sample :
    let value := reference "a:-none" ++ reference "b:c" ++ reference ("gone:-" ++ reference "a")
      ++ reference "gone" ++ closing ++ " " ++ opening ++ "open"
    let lost := "$" ++ reference "gone" ++ " " ++ closing ++ " " ++ reference "a b" ++ opening
    chained.NestsWithin 8 value.toList
      ∧ chained.Expands none value.toList
          ("<web-1 " ++ opening ++ ">" ++ reference "b:c" ++ reference "a" ++ reference "gone"
            ++ closing ++ " " ++ opening ++ "open").toList
      ∧ (∀ inner, Refers lost.toList inner → chained.Stays inner)
      ∧ (Substitutor.expanding chained).resolve lost = lost := by
  intro value lost
  have hnests : chained.NestsWithin 8 value.toList := by decide +kernel
  have hlost : chained.NestsWithin 0 lost.toList := by decide +kernel
  obtain ⟨hdeep, -, -⟩ := resolve_expanding chained value
  obtain ⟨-, -, hstays⟩ := resolve_expanding chained lost
  exact ⟨hnests, (hdeep hnests _).2 (by decide +kernel), hlost, hstays hlost⟩

end Variables

end LogPipeline
