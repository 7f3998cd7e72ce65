/-
Which texts read as a name. A name is compared by its key, the text
without its blanks and in capitals, and the capitals of a text need not be
as many as its characters: ten characters outside ASCII have capitals
inside it (`folding`), one, two or three of them. So the texts with a given
key are found from the key's end of things: at each place either a letter
of the key is written as such, in either case, or one of the ten stands
for the letters that follow (`spellings`). `flatMap_capital_eq_iff` says
that these are all.

Blanks are taken away at the ends only, and no letter is one. So a text
reads as a name just if it is one of the spellings of the name, in any
ASCII case, with blanks around it (`Names`, `nameKey_eq_iff`).
-/
import LogPipeline.Text.Name

namespace LogPipeline.Text

-- ============================================================ capitals

/-- The characters outside ASCII that have capitals inside it. -/
def folding : List Char :=
  ['\u00df', '\u0131', '\u017f', '\ufb00', '\ufb01', '\ufb02', '\ufb03', '\ufb04', '\ufb05',
    '\ufb06']

/-- What is checked of each character of a list, one by one. -/
theorem forall_of_all {P : Char → Prop} [DecidablePred P] {cs : List Char}
    (h : (cs.all fun c => decide (P c)) = true) : ∀ c ∈ cs, P c := fun c hc =>
  of_decide_eq_true (List.all_eq_true.1 h c hc)

/-- What holds of the 26 small letters. -/
theorem forall_lower {P : Char → Prop} (h : ∀ n < 26, P (Char.ofNat (97 + n))) {c : Char}
    (hc : 'a' ≤ c ∧ c ≤ 'z') : P c := by
  have hlow : 97 ≤ c.toNat := hc.1
  have hhigh : c.toNat ≤ 122 := hc.2
  have hn := h (c.toNat - 97) (by omega)
  rwa [Nat.add_sub_cancel' hlow, Char.ofNat_toNat] at hn

/-- Only small letters of ASCII have another capital there. -/
theorem toUpper_of_not_lower {c : Char} (hc : ¬ ('a' ≤ c ∧ c ≤ 'z')) : c.toUpper = c := by
  unfold Char.toUpper
  rw [dif_neg fun h => hc ⟨h.1, h.2⟩]

/-- All other characters are compared by their ASCII capital alone. -/
theorem capital_of_not_folding {c : Char} (hc : c ∉ folding) : capital c = [c.toUpper] := by
  by_cases hlower : 'a' ≤ c ∧ c ≤ 'z'
  · exact forall_lower (P := fun c => capital c = [c.toUpper]) (by decide) hlower
  · rw [toUpper_of_not_lower hlower]
    have hcode : ∀ n, Char.ofNat n ∈ folding → c.toNat ≠ n := by
      rintro n hn rfl
      exact hc (Char.ofNat_toNat c ▸ hn)
    unfold capital
    rw [if_neg hlower]
    split
    iterate 10
      · next h => exact absurd h (hcode _ (by decide))
    · rfl

/-- Every character has capitals to be written in. -/
theorem capital_ne_nil (c : Char) : capital c ≠ [] := by
  by_cases hc : c ∈ folding
  · exact forall_of_all (P := fun c => capital c ≠ []) (by decide) c hc
  · rw [capital_of_not_folding hc]
    exact List.cons_ne_nil _ _

/-- Characters that fold into ASCII are left alone by its capitals. -/
theorem toUpper_of_mem_folding : ∀ c ∈ folding, c.toUpper = c :=
  forall_of_all (by decide)

/-- And no other character becomes one of them. -/
theorem toUpper_mem_folding_iff {c : Char} : c.toUpper ∈ folding ↔ c ∈ folding := by
  by_cases hlower : 'a' ≤ c ∧ c ≤ 'z'
  · exact forall_lower (P := fun c => c.toUpper ∈ folding ↔ c ∈ folding) (by decide) hlower
  · rw [toUpper_of_not_lower hlower]

-- =========================================================== spellings

/-- The ways to write a text of at most `n` capitals: letter by letter, or
with a folding character in place of the letters that are its capitals. -/
def spellings : Nat → List Char → List (List Char)
  | _, [] => [[]]
  | 0, _ :: _ => []
  | n + 1, x :: xs => (spellings n xs).map (x :: ·)
      ++ folding.flatMap fun c => if capital c <+: x :: xs
        then (spellings n ((x :: xs).drop (capital c).length)).map (c :: ·) else []

/-- A text that is not empty is not spelt by nothing. -/
theorem nil_not_mem_spellings (n : Nat) (x : Char) (xs : List Char) :
    [] ∉ spellings n (x :: xs) := by
  cases n with
  | zero => exact List.not_mem_nil
  | succ n =>
    intro h
    rcases List.mem_append.1 h with h | h
    · obtain ⟨_, -, h⟩ := List.mem_map.1 h
      cases h
    · obtain ⟨c, -, h⟩ := List.mem_flatMap.1 h
      split at h
      · obtain ⟨_, -, h⟩ := List.mem_map.1 h
        cases h
      · cases h

/-- A spelling begins with the first letter, or with a folding character for it. -/
theorem cons_mem_spellings_iff {n : Nat} {x c : Char} {xs cs : List Char} :
    c :: cs ∈ spellings (n + 1) (x :: xs)
      ↔ (c = x ∧ cs ∈ spellings n xs)
        ∨ c ∈ folding ∧ capital c <+: x :: xs
          ∧ cs ∈ spellings n ((x :: xs).drop (capital c).length) := by
  rw [spellings, List.mem_append, List.mem_map, List.mem_flatMap]
  refine or_congr ?_ ?_
  · constructor
    · rintro ⟨_, hcs, h⟩
      obtain ⟨rfl, rfl⟩ := List.cons.inj h
      exact ⟨rfl, hcs⟩
    · rintro ⟨rfl, hcs⟩
      exact ⟨cs, hcs, rfl⟩
  · constructor
    · rintro ⟨d, hd, h⟩
      split at h
      · next hbegins =>
        obtain ⟨_, hcs, h⟩ := List.mem_map.1 h
        obtain ⟨rfl, rfl⟩ := List.cons.inj h
        exact ⟨hd, hbegins, hcs⟩
      · cases h
    · rintro ⟨hc, hbegins, hcs⟩
      refine ⟨c, hc, ?_⟩
      rw [if_pos hbegins]
      exact List.mem_map_of_mem hcs

/-- No folding character, and no small letter. -/
def IsCapital (c : Char) : Prop := c.toUpper = c ∧ c ∉ folding

instance : DecidablePred IsCapital := fun _ => inferInstanceAs (Decidable (_ ∧ _))

/-- The texts with given capitals are their spellings, in either case. -/
theorem flatMap_capital_eq_iff {n : Nat} {xs : List Char} (hn : xs.length ≤ n)
    (hxs : ∀ x ∈ xs, IsCapital x) {cs : List Char} :
    cs.flatMap capital = xs ↔ cs.map Char.toUpper ∈ spellings n xs := by
  induction n generalizing xs cs with
  | zero =>
    obtain rfl := List.eq_nil_of_length_eq_zero (Nat.le_zero.1 hn)
    cases cs with
    | nil => simp [spellings]
    | cons c cs => simp [spellings, capital_ne_nil]
  | succ n ih =>
    cases xs with
    | nil =>
      cases cs with
      | nil => simp [spellings]
      | cons c cs => simp [spellings, capital_ne_nil]
    | cons x xs =>
      cases cs with
      | nil => exact iff_of_false (fun h => nomatch h) (nil_not_mem_spellings _ x xs)
      | cons c cs =>
        rw [List.flatMap_cons, List.map_cons, cons_mem_spellings_iff, toUpper_mem_folding_iff]
        by_cases hc : c ∈ folding
        -- it folds, and stands for as many letters as it has capitals
        · have hx : c ≠ x := fun h => (hxs x List.mem_cons_self).2 (h ▸ hc)
          have hshort : ((x :: xs).drop (capital c).length).length ≤ n := by
            have := List.length_pos_iff.2 (capital_ne_nil c)
            rw [List.length_drop]
            omega
          rw [toUpper_of_mem_folding c hc,
            ← ih hshort fun y hy => hxs y (List.mem_of_mem_drop hy)]
          constructor
          · intro h
            rw [← h, List.drop_left]
            exact .inr ⟨hc, List.prefix_append _ _, rfl⟩
          · rintro (⟨rfl, -⟩ | ⟨-, ⟨rest, hrest⟩, hcs⟩)
            · exact absurd rfl hx
            · rw [hcs, ← hrest, List.drop_left]
        -- it does not, and stands for its own capital
        · rw [capital_of_not_folding hc, List.singleton_append, List.cons.injEq,
            ih (Nat.le_of_succ_le_succ hn) fun y hy => hxs y (List.mem_cons_of_mem x hy)]
          simp [hc]

-- ============================================================== blanks

theorem isBlank_toUpper {c : Char} (hc : isBlank c = true) : c.toUpper = c := by
  by_cases hlower : 'a' ≤ c ∧ c ≤ 'z'
  · have hnone := forall_lower (P := fun c => isBlank c = false) (by decide) hlower
    exact absurd hc (ne_true_of_eq_false hnone)
  · exact toUpper_of_not_lower hlower

/-- What is left of a text lies in it between blanks. -/
theorem exists_trim (cs : List Char) : ∃ before after, cs = before ++ trim cs ++ after
    ∧ (∀ c ∈ before, isBlank c = true) ∧ ∀ c ∈ after, isBlank c = true := by
  refine ⟨cs.takeWhile isBlank, ((cs.dropWhile isBlank).reverse.takeWhile isBlank).reverse, ?_,
    fun c hc => List.all_eq_true.1 List.all_takeWhile c hc,
    fun c hc => List.all_eq_true.1 List.all_takeWhile c (List.mem_reverse.1 hc)⟩
  unfold trim
  rw [List.append_assoc, ← List.reverse_append, List.takeWhile_append_dropWhile,
    List.reverse_reverse, List.takeWhile_append_dropWhile]

theorem dropWhile_isBlank_of_none {cs : List Char} (h : ∀ c ∈ cs, isBlank c = false) :
    cs.dropWhile isBlank = cs := by
  cases cs with
  | nil => rfl
  | cons c cs => exact List.dropWhile_cons_of_neg (ne_true_of_eq_false (h c List.mem_cons_self))

/-- A text without blanks is what is left of it between blanks. -/
theorem trim_between {before core after : List Char} (hbefore : ∀ c ∈ before, isBlank c = true)
    (hcore : ∀ c ∈ core, isBlank c = false) (hafter : ∀ c ∈ after, isBlank c = true) :
    trim (before ++ core ++ after) = core := by
  have hafter' : ∀ c ∈ after.reverse, isBlank c = true := fun c hc =>
    hafter c (List.mem_reverse.1 hc)
  have hcore' : ∀ c ∈ core.reverse, isBlank c = false := fun c hc =>
    hcore c (List.mem_reverse.1 hc)
  unfold trim
  rw [List.append_assoc, List.dropWhile_append_of_pos hbefore]
  cases core with
  | nil =>
    have hnone := @List.dropWhile_append_of_pos _ isBlank after [] hafter
    rw [List.append_nil] at hnone
    rw [List.nil_append, hnone]
    rfl
  | cons c core =>
    rw [List.cons_append, List.dropWhile_cons_of_neg
      (ne_true_of_eq_false (hcore c List.mem_cons_self)), ← List.cons_append, List.reverse_append,
      List.dropWhile_append_of_pos hafter', dropWhile_isBlank_of_none hcore', List.reverse_reverse]

-- =============================================================== names

/-- The text is the word in any ASCII case, with blanks around it. -/
def Names (s word : String) : Prop :=
  ∃ before core after, s.toList = before ++ core ++ after
    ∧ (∀ c ∈ before, isBlank c = true) ∧ (∀ c ∈ after, isBlank c = true)
    ∧ core.map Char.toUpper = word.toList

/-- A word is named by its letters, small or capital, between blanks. -/
theorem names_iff {s word : String} (hword : ∀ c ∈ word.toList, isBlank c = false) :
    Names s word ↔ (trim s.toList).map Char.toUpper = word.toList := by
  constructor
  · rintro ⟨before, core, after, hs, hbefore, hafter, hcore⟩
    have hnone : ∀ c ∈ core, isBlank c = false := by
      intro c hc
      cases hblank : isBlank c with
      | false => rfl
      | true =>
        have hmem : c ∈ word.toList := by
          rw [← hcore, ← isBlank_toUpper hblank]
          exact List.mem_map_of_mem hc
        exact absurd hblank (ne_true_of_eq_false (hword c hmem))
    rw [hs, trim_between hbefore hnone hafter, hcore]
  · intro h
    obtain ⟨before, after, hs, hbefore, hafter⟩ := exists_trim s.toList
    exact ⟨before, trim s.toList, after, hs, hbefore, hafter, h⟩

/-- The words that are compared as `key`. -/
def words (key : String) : List String :=
  (spellings key.toList.length key.toList).map String.ofList

/-- A text is compared as a key of capitals just if it is one of the words for it. -/
theorem nameKey_eq_iff {s key : String} (hkey : ∀ c ∈ key.toList, IsCapital c)
    (hwords : ∀ word ∈ words key, ∀ c ∈ word.toList, isBlank c = false) :
    nameKey s = key ↔ ∃ word ∈ words key, Names s word := by
  unfold nameKey
  rw [← String.toList_inj, String.toList_ofList, flatMap_capital_eq_iff (Nat.le_refl _) hkey]
  constructor
  · intro h
    have hword : String.ofList ((trim s.toList).map Char.toUpper) ∈ words key :=
      List.mem_map_of_mem h
    refine ⟨_, hword, (names_iff (hwords _ hword)).2 ?_⟩
    rw [String.toList_ofList]
  · rintro ⟨word, hword, hnames⟩
    rw [(names_iff (hwords word hword)).1 hnames]
    obtain ⟨cs, hcs, rfl⟩ := List.mem_map.1 hword
    rwa [String.toList_ofList]

example : words "OFF" = ["OFF", "O\ufb00"] := by decide +kernel
example : words "WARNING" = ["WARNING", "WARN\u0131NG"] := by decide +kernel

end LogPipeline.Text
