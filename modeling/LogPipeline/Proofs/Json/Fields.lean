/-
What is written field by field is read field by field. A record is written
as an object with one member for each field, and reading its fields gives
these values back, in order (`fields_members`): the names are distinct, so
no member is found twice and none is missed. A tagged record has its tag in
front, which chooses the reader of the rest (`tagged_members`); all of the
rest has to be readable (`isReadable`), and a number of 64 bits is, for
rounding it to a double keeps it below the largest one
(`roundToDouble_le`).

Readers of one value have an equation for what was written here, tagged
for `simp`; lists and dictionaries are read item by item
(`mapM_eq_some_iff`).
-/
import LogPipeline.Json.Decode
import LogPipeline.Proofs.Json.Reading
import Mathlib.Data.List.Forall2
import Mathlib.Data.List.Nodup

namespace LogPipeline.Json

/-- Every item is read, and these are the values. -/
theorem mapM_eq_some_iff {α β : Type} {f : α → Option β} {as : List α} {bs : List β} :
    as.mapM f = some bs ↔ List.Forall₂ (fun a b => f a = some b) as bs := by
  induction as generalizing bs with
  | nil => cases bs <;> simp
  | cons a as ih =>
    rw [List.mapM_cons]
    simp only [Option.bind_eq_bind, Option.bind_eq_some_iff, Option.pure_def, Option.some.injEq,
      ih]
    constructor
    · rintro ⟨b, hb, bs, hbs, rfl⟩
      exact .cons hb hbs
    · intro h
      cases h with
      | cons hb hbs => exact ⟨_, hb, _, hbs, rfl⟩

-- ============================================================= members

/-- Under distinct keys a member is found that is there. -/
theorem member?_of_mem {ms : List (String × Json)} (hkeys : (ms.map Prod.fst).Nodup)
    {name : String} {v : Json} (h : (name, v) ∈ ms) : member? ms name = some (some v) := by
  have hfilter : ms.filter (·.1 == name) = [(name, v)] := by
    induction ms with
    | nil => cases h
    | cons m ms ih =>
      rw [List.map_cons, List.nodup_cons] at hkeys
      rcases List.mem_cons.1 h with rfl | hmem
      · have hrest : ms.filter (·.1 == name) = [] := List.filter_eq_nil_iff.2 fun m hm heq =>
          hkeys.1 (List.mem_map.2 ⟨m, hm, beq_iff_eq.1 heq⟩)
        simp [hrest]
      · have hm : m.1 ≠ name := fun heq => hkeys.1 (List.mem_map.2 ⟨_, hmem, heq.symm⟩)
        simp [hm, ih hkeys.2 hmem]
  unfold member?
  rw [hfilter]

/-- The place of the parts of a value at a place where more levels may open. -/
def Place.inner (pl : Place) : Place := { pl with levels := pl.levels - 1 }

@[simp] theorem Place.levels_inner (pl : Place) : pl.inner.levels = pl.levels - 1 := rfl

/-- As long as levels are left one can go further in. -/
theorem Place.inside?_of_pos {pl : Place} (h : 0 < pl.levels) : pl.inside? = some pl.inner := by
  obtain ⟨levels, tagged⟩ := pl
  cases levels with
  | zero => exact absurd h (Nat.lt_irrefl 0)
  | succ n => rfl

/-- The members under distinct names are the fields of these names. -/
theorem fields_members {names : List String} {ms : List (String × Json)} {pl : Place}
    (hnames : ms.map Prod.fst = names) (hnodup : names.Nodup) (hpl : 0 < pl.levels) :
    fields names pl (.obj ms) = some (pl.inner, ms.map fun m => some m.2) := by
  have hmembers : names.mapM (member? ms) = some (ms.map fun m => some m.2) := by
    rw [← hnames, mapM_eq_some_iff, List.forall₂_map_left_iff, List.forall₂_map_right_iff,
      List.forall₂_same]
    exact fun m hm => member?_of_mem (hnames ▸ hnodup) hm
  simp only [fields, Place.inside?_of_pos hpl, hmembers]
  rfl

-- ============================================================ readable

/-- Rounding to 53 bits adds less than the number has. -/
theorem roundToDouble_le (n : Nat) : roundToDouble n ≤ 2 * n := by
  obtain rfl | hn := Nat.eq_zero_or_pos n
  · exact Nat.le_trans (Nat.le_of_eq (roundToDouble_of_lt (by decide))) (Nat.zero_le _)
  have hunit : Nat.pow 2 (n.log2 + 1 - 53) ≤ n :=
    calc Nat.pow 2 (n.log2 + 1 - 53) ≤ 2 ^ n.log2 := Nat.pow_le_pow_right (by omega) (by omega)
      _ ≤ n := Nat.log2_self_le (by omega)
  have hbelow := Nat.div_mul_le_self n (Nat.pow 2 (n.log2 + 1 - 53))
  unfold roundToDouble
  dsimp only
  split
  · rw [Nat.succ_mul]
    omega
  · omega

/-- A number of 64 bits. -/
abbrev FitsWord (n : Nat) : Prop := n < 18446744073709551616

/-- Such a number is in range. -/
theorem inRange_of_fitsWord {n : Nat} (hn : FitsWord n) : inRange n 0 = true := by
  have hone : roundToDouble (Nat.pow 10 (0 : Int).toNat) = 1 := roundToDouble_of_lt (by decide)
  have hround := roundToDouble_le n
  have hlimit : 2 * 18446744073709551616 < Nat.pow 2 1024 - Nat.pow 2 970 := by
    decide +kernel
  unfold inRange leadingDigits
  rw [if_pos hn]
  dsimp only
  split
  · rfl
  · rw [if_neg (by decide), hone, Nat.mul_one]
    exact decide_eq_true (by omega)

/-- Items are readable if each of them is. -/
theorem areReadable_iff {levels : Nat} {vs : List Json} :
    areReadable levels vs = true ↔ ∀ v ∈ vs, isReadable levels v = true := by
  induction vs with
  | nil => simp [areReadable]
  | cons v vs ih => simp [areReadable, ih]

theorem membersReadable_iff {levels : Nat} {ms : List (String × Json)} :
    membersReadable levels ms = true ↔ ∀ m ∈ ms, isReadable levels m.2 = true := by
  induction ms with
  | nil => simp [membersReadable]
  | cons m ms ih => simp [membersReadable, ih]


-- ====================================================== tagged records

/-- The tag chooses how the rest is read, which has to be readable. -/
theorem tagged_members {α : Type} {variants : List (String × Decoder α)} {tag : String}
    {d : Decoder α} {ms : List (String × Json)} {pl : Place}
    (hd : variants.lookup tag = some d) (hne : ∀ m ∈ ms, m.1 ≠ "type") (hpl : 0 < pl.levels)
    (hreadable : ∀ m ∈ ms, isReadable (pl.levels - 1) m.2 = true) :
    tagged variants pl (.obj (("type", .str tag) :: ms))
      = d { pl with tagged := true } (.obj ms) := by
  have hnone : ms.filter (·.1 == "type") = [] :=
    List.filter_eq_nil_iff.2 fun m hm heq => hne m hm (beq_iff_eq.1 heq)
  have hall : ms.filter (·.1 != "type") = ms :=
    List.filter_eq_self.2 fun m hm => bne_iff_ne.2 (hne m hm)
  have huntag : untag? (.obj (("type", .str tag) :: ms)) = some (.str tag, .obj ms) := by
    simp [untag?, member?, hnone, hall]
  have hrest : isReadable pl.levels (.obj ms) = true := by
    simp [isReadable, hpl, membersReadable_iff.2 hreadable]
  simp [tagged, huntag, chosen?, hd, hrest]

/-- What is read as a tagged record is read by the reader of a variant. -/
theorem exists_of_tagged {α : Type} {variants : List (String × Decoder α)} {pl : Place} {v : Json}
    {a : α} (h : tagged variants pl v = some a) :
    ∃ d ∈ variants.map Prod.snd, ∃ inner rest, d inner rest = some a := by
  obtain ⟨⟨tag, rest⟩, -, h⟩ := Option.bind_eq_some_iff.1 h
  obtain ⟨d, hd, h⟩ := Option.bind_eq_some_iff.1 h
  refine ⟨d, ?_, { pl with tagged := true }, rest, (Option.ite_none_right_eq_some.1 h).2⟩
  unfold chosen? at hd
  split at hd
  · obtain ⟨before, after, rfl, -⟩ := List.lookup_eq_some_iff.1 hd
    simp
  · obtain ⟨-, hd⟩ := Option.ite_none_right_eq_some.1 hd
    obtain ⟨variant, hvariant, rfl⟩ := Option.map_eq_some_iff.1 hd
    exact List.mem_map.2 ⟨variant, List.mem_of_getElem? hvariant, rfl⟩
  · cases hd

-- ============================================================== values

section

variable {α : Type} {d : Decoder α} {pl : Place}

@[simp] theorem text_str (s : String) : text pl (.str s) = some s := rfl

@[simp] theorem boolean_bool (b : Bool) : boolean pl (.bool b) = some b := rfl

/-- A number that fits a word is read as that. -/
theorem word_int {n : Nat} (hn : FitsWord n) : word pl (.int n) = some n := by
  have hword : 0 ≤ (n : Int) ∧ (n : Int) < 18446744073709551616 := by omega
  simp [word, hword]

/-- A string is one of the names that are given, or nothing. -/
@[simp] theorem oneOf_str (names : List (String × α)) (s : String) :
    oneOf names pl (.str s) = (names.find? (·.1 == s)).map (·.2) := rfl

@[simp] theorem required_some (v : Json) : required d pl (some v) = d pl v := rfl

@[simp] theorem withDefault_some (dflt : α) (v : Json) :
    withDefault dflt d pl (some v) = d pl v := rfl

/-- A field is what is left out stands for, or was read. -/
theorem eq_or_exists_of_withDefault {dflt a : α} {o : Option Json}
    (h : withDefault dflt d pl o = some a) : a = dflt ∨ ∃ v, d pl v = some a := by
  cases o with
  | none => exact .inl (Option.some.inj h).symm
  | some v => exact .inr ⟨v, h⟩

/-- A list is read if its items are. -/
theorem list_map (hpl : 0 < pl.levels) {write : α → Json} {as : List α}
    (h : ∀ a ∈ as, d pl.inner (write a) = some a) :
    list d pl (.arr (as.map write)) = some as := by
  have hitems : (as.map write).mapM (d pl.inner) = some as := by
    rw [mapM_eq_some_iff, List.forall₂_map_left_iff, List.forall₂_same]
    exact h
  show (pl.inside?.bind fun inner => (as.map write).mapM (d inner)) = _
  rw [Place.inside?_of_pos hpl]
  exact hitems

/-- A dictionary is read if its values are. -/
theorem dict_map (hpl : 0 < pl.levels) {write : α → Json}
    {entries : Dict α} (h : ∀ e ∈ entries.entries, d pl.inner (write e.2) = some e.2) :
    dict d pl (.obj (entries.entries.map fun e => (e.1, write e.2))) = some entries := by
  have hitems : (entries.entries.map fun e => (e.1, write e.2)).mapM
      (fun m => (d pl.inner m.2).map (m.1, ·)) = some entries.entries := by
    rw [mapM_eq_some_iff, List.forall₂_map_left_iff, List.forall₂_same]
    intro e he
    rw [h e he]
    rfl
  simp only [dict, Place.inside?_of_pos hpl, hitems, Option.bind_eq_bind, Option.bind_some]
  exact congrArg some entries.insertAll_entries

/-- What is read as a list is read item by item. -/
theorem exists_of_list {v : Json} {as : List α} (h : list d pl v = some as) :
    ∀ a ∈ as, ∃ inner w, d inner w = some a := by
  cases v with
  | arr vs =>
    obtain ⟨inner, -, hitems⟩ := Option.bind_eq_some_iff.1 h
    intro a ha
    obtain ⟨i, hi, rfl⟩ := List.getElem_of_mem ha
    have hget := List.forall₂_iff_get.1 (mapM_eq_some_iff.1 hitems)
    exact ⟨inner, _, hget.2 i (hget.1 ▸ hi) hi⟩
  | _ => cases h

theorem fitsWord_of_word {v : Json} {n : Nat} (h : word pl v = some n) : FitsWord n := by
  cases v with
  | int m =>
    simp only [word, Option.ite_none_right_eq_some, Option.some.injEq] at h
    show n < 18446744073709551616
    omega
  | _ => cases h

end

end LogPipeline.Json
