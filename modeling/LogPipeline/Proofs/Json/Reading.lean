/-
What is written as JSON is read back. `Spells v cs` is the grammar of
texts that stand for the value `v`, with any blanks between their parts,
so the one-line form and the indented form are two of the spellings of a
value. `value?_of_spells` says that the reader takes exactly a spelling
off the front of a text. Its induction is on the spelling; the fuel only
has to last as long as the text, which every part of a spelling is
shorter than.

A number has no end of its own: what follows it must not go on with it
(`Ends`). Strings are spelled as `quote` writes them, which reads back
character for character (`string?_escape`).
-/
import LogPipeline.Json.Parser

namespace LogPipeline.Json

-- ============================================================= blanks

/-- Nothing but blanks. -/
def Blank (ws : List Char) : Prop := ∀ c ∈ ws, isSpace c = true

theorem blank_nil : Blank [] := fun _ h => nomatch h

/-- Blanks in front are skipped, and the skipping goes on behind them. -/
theorem skipSpace_append {ws : List Char} (hw : Blank ws) (cs : List Char) :
    skipSpace (ws ++ cs) = skipSpace cs :=
  List.dropWhile_append_of_pos hw

/-- Skipping ends at the first character that is no blank. -/
theorem skipSpace_cons {c : Char} (hc : isSpace c = false) (cs : List Char) :
    skipSpace (c :: cs) = c :: cs := by
  unfold skipSpace
  rw [List.dropWhile_cons_of_neg (by rw [hc]; exact Bool.false_ne_true)]

/-- What a text without leading blanks begins with is found behind blanks. -/
theorem skipSpace_blank_cons {ws : List Char} (hw : Blank ws) {c : Char} (hc : isSpace c = false)
    (cs : List Char) : skipSpace (ws ++ c :: cs) = c :: cs := by
  rw [skipSpace_append hw, skipSpace_cons hc]

-- ============================================================ strings

/-- Digits are read as what they were written for. -/
theorem hexValue?_hexDigit : ∀ n < 16, hexValue? (hexDigit n) = some n := by decide

/-- The number of a control character stands for that character. -/
theorem piece_toNat {c : Char} (hc : c.toNat < 0x20) : piece c.toNat = .char c := by
  unfold piece
  rw [if_neg (by omega), Char.ofNat_toNat]

/-- One more piece in front of what was read. -/
def withChar (c : Char) (r : List Piece × List Char) : List Piece × List Char :=
  (.char c :: r.1, r.2)

/-- One character more in front, in the two ways that it is written. -/
theorem bind_withChar (c : Char) (o : Option (List Piece × List Char)) :
    (o.bind fun r => some (Piece.char c :: r.1, r.2)) = o.map (withChar c) := by
  cases o <;> rfl

/-- A short escape is read as the one character that it stands for. -/
theorem pieces_short {e d : Char} (hu : e ≠ 'u') (he : shortEscape? e = some d)
    (cs : List Char) : pieces ('\\' :: e :: cs) = (pieces cs).map (withChar d) := by
  rw [pieces.eq_4 e cs fun _ _ _ _ _ h _ => hu h, he]
  exact bind_withChar d (pieces cs)

/-- A control character is read back from its two digits. -/
theorem pieces_numbered {c : Char} (hc : c.toNat < 0x20) (cs : List Char) :
    pieces ('\\' :: 'u' :: '0' :: '0' :: hexDigit (c.toNat / 16) :: hexDigit (c.toNat % 16) :: cs)
      = (pieces cs).map (withChar c) := by
  have hzero : hexValue? '0' = some 0 := by decide
  have hunit : ((0 * 16 + 0) * 16 + c.toNat / 16) * 16 + c.toNat % 16 = c.toNat := by omega
  rw [pieces, hzero, hexValue?_hexDigit _ (by omega), hexValue?_hexDigit _ (by omega)]
  simp only [Option.bind_eq_bind, Option.bind_some, hunit, piece_toNat hc]
  exact bind_withChar c (pieces cs)

/-- Characters that need no escape are read as they are. -/
theorem pieces_plain {c : Char} (hquote : c ≠ '"') (hback : c ≠ '\\') (hc : ¬ c.toNat < 0x20)
    (cs : List Char) : pieces (c :: cs) = (pieces cs).map (withChar c) := by
  rw [pieces.eq_5 c cs hquote (fun _ _ _ _ _ h _ => hback h) (fun _ _ h _ => hback h),
    if_neg (not_or.2 ⟨hc, hback⟩)]
  exact bind_withChar c (pieces cs)

/-- A character of a string is read as it was written. -/
theorem pieces_escapeChar (c : Char) (cs : List Char) :
    pieces (escapeChar c ++ cs) = (pieces cs).map (withChar c) := by
  unfold escapeChar
  -- the seven characters with an escape of their own
  iterate 7
    split
    · next h =>
      subst h
      exact pieces_short (by decide) rfl cs
  split
  · next hc => exact pieces_numbered hc cs
  · next hquote hback _ _ _ _ _ hc => exact pieces_plain hquote hback hc cs

/-- An escaped text is read back character by character, up to the closing
quote. -/
theorem pieces_escape (cs rest : List Char) :
    pieces (escape cs ++ '"' :: rest) = some (cs.map .char, rest) := by
  induction cs with
  | nil => rfl
  | cons c cs ih =>
    have hsplit : escape (c :: cs) ++ '"' :: rest = escapeChar c ++ (escape cs ++ '"' :: rest) := by
      simp only [escape, List.flatMap_cons, List.append_assoc]
    rw [hsplit, pieces_escapeChar, ih]
    rfl

/-- Pieces that are characters make up their text. -/
theorem join_map_char (cs : List Char) : join (cs.map .char) = some cs := by
  induction cs with
  | nil => rfl
  | cons c cs ih =>
    rw [List.map_cons, join, ih]
    rfl

/-- A text is read back from between its quotes. -/
theorem string?_escape (s : String) (rest : List Char) :
    string? (escape s.toList ++ '"' :: rest) = some (some s, rest) := by
  unfold string?
  rw [pieces_escape]
  show some ((join (s.toList.map .char)).map String.ofList, rest) = _
  rw [join_map_char, Option.map_some, String.ofList_toList]

-- ============================================================ numbers

/-- What follows does not go on with a number. -/
def Ends (rest : List Char) : Prop :=
  ∀ c ∈ rest.head?, c.isDigit = false ∧ c ≠ '.' ∧ c ≠ 'e' ∧ c ≠ 'E'

/-- A number above zero does not begin with a zero. -/
theorem head?_toDigits_ne {n : Nat} (hn : 0 < n) : (Nat.toDigits 10 n).head? ≠ some '0' := by
  induction n using Nat.strongRecOn with
  | ind n ih =>
    rw [Nat.toDigits_eq_if (by omega)]
    split
    · next hlt =>
      have hdigit : ∀ k < 10, 0 < k → [Nat.digitChar k].head? ≠ some '0' := by decide
      exact hdigit n hlt hn
    · next hge =>
      rw [List.head?_append, Option.or_of_isSome (by simp [Nat.toDigits_ne_nil])]
      exact ih (n / 10) (by omega) (by omega)

/-- All the digits are taken, if something else follows. -/
theorem digits_append {ds rest : List Char} (hd : ∀ c ∈ ds, c.isDigit = true) (hr : Ends rest) :
    digits (ds ++ rest) = (ds, rest) := by
  have hhead : rest.takeWhile Char.isDigit = [] ∧ rest.dropWhile Char.isDigit = rest := by
    cases rest with
    | nil => exact ⟨rfl, rfl⟩
    | cons c rest =>
      have hc : ¬ c.isDigit = true := by
        rw [(hr c rfl).1]
        exact Bool.false_ne_true
      exact ⟨List.takeWhile_cons_of_neg hc, List.dropWhile_cons_of_neg hc⟩
  unfold digits
  rw [List.takeWhile_append_of_pos hd, List.dropWhile_append_of_pos hd, hhead.1, hhead.2,
    List.append_nil]

/-- The digits of a number have no zero in front, so they are read as a whole
part. -/
theorem whole?_toDigits (n : Nat) {rest : List Char} (hr : Ends rest) :
    whole? (Nat.toDigits 10 n ++ rest) = some (Nat.toDigits 10 n, rest) := by
  have hd : ∀ c ∈ Nat.toDigits 10 n, c.isDigit = true := fun c hc =>
    Nat.isDigit_of_mem_toDigits (by omega) (by omega) hc
  have hsome : someDigits? (Nat.toDigits 10 n ++ rest) = some (Nat.toDigits 10 n, rest) := by
    unfold someDigits?
    rw [digits_append hd hr]
    cases hds : Nat.toDigits 10 n with
    | nil => exact absurd hds Nat.toDigits_ne_nil
    | cons c cs => rfl
  unfold whole?
  rw [hsome]
  by_cases hn : 0 < n
  · have hhead := head?_toDigits_ne hn
    cases hds : Nat.toDigits 10 n with
    | nil => rfl
    | cons c cs =>
      rw [hds] at hhead
      have hc : c ≠ '0' := fun h => hhead (h ▸ rfl)
      simp only [Option.bind_eq_bind, Option.bind_some]
      split
      · next heq => exact absurd (List.cons.inj heq).1 hc
      · rfl
  · obtain rfl : n = 0 := by omega
    rfl

/-- A number without a point or an exponent is read as an integer. -/
theorem number?_toDigits (negative : Bool) (n : Nat) {rest : List Char} (hr : Ends rest)
    (hsign : negative = true → n ≠ 0) :
    number? negative (Nat.toDigits 10 n ++ rest)
      = some (.int (if negative then -(n : Int) else n), rest) := by
  have hfraction : fraction? rest = some (none, rest) := by
    unfold fraction?
    split
    · exact absurd rfl (hr _ rfl).2.1
    · rfl
  have hexponent : exponent? rest = some (none, rest) := by
    unfold exponent?
    split
    · next c cs =>
      rw [if_neg]
      rintro (he | he)
      · exact (hr c rfl).2.2.1 he
      · exact (hr c rfl).2.2.2 he
    · rfl
  unfold number?
  rw [whole?_toDigits n hr]
  simp only [Option.bind_eq_bind, Option.bind_some, hfraction, hexponent, Option.getD_none,
    List.append_nil, Nat.ofDigitChars_ten_toDigits]
  rw [if_pos ⟨rfl, rfl, fun h => hsign h.1 (Int.ofNat_eq_zero.1 h.2)⟩]
  rfl

/-- A digit begins nothing but a number. -/
theorem value?_digit {c : Char} (hc : c.isDigit = true) (fuel : Nat) (cs : List Char) :
    value? (fuel + 1) (c :: cs) = number? false (c :: cs) := by
  have hne : ∀ {d : Char} {ds : List Char}, c :: cs = d :: ds → d.isDigit = false → False := by
    intro d ds heq hd
    rw [(List.cons.inj heq).1, hd] at hc
    exact Bool.false_ne_true hc
  unfold value?
  split
  · next heq => exact (hne heq (by decide)).elim
  · next heq => exact (hne heq (by decide)).elim
  · next heq => exact (hne heq (by decide)).elim
  · next heq => exact (hne heq (by decide)).elim
  · next heq => exact (hne heq (by decide)).elim
  · next heq => exact (hne heq (by decide)).elim
  · next heq => exact (hne heq (by decide)).elim
  · rfl

/-- Integers are read back with their signs. -/
theorem value?_intChars (n : Int) (fuel : Nat) {rest : List Char} (hr : Ends rest) :
    value? (fuel + 1) (intChars n ++ rest) = some (.int n, rest) := by
  cases n with
  | negSucc n =>
    have hsign : (if true then -((n + 1 : Nat) : Int) else (n + 1 : Nat)) = Int.negSucc n := rfl
    show number? true (Nat.toDigits 10 (n + 1) ++ rest) = _
    rw [number?_toDigits true (n + 1) hr fun _ => Nat.succ_ne_zero n, hsign]
  | ofNat n =>
    have hnumber := number?_toDigits false n hr (fun h => nomatch h)
    show value? (fuel + 1) (Nat.toDigits 10 n ++ rest) = _
    cases hds : Nat.toDigits 10 n with
    | nil => exact absurd hds Nat.toDigits_ne_nil
    | cons c cs =>
      have hc : c.isDigit = true :=
        Nat.isDigit_of_mem_toDigits (by omega) (by omega) (hds ▸ List.mem_cons_self)
      rw [hds] at hnumber
      exact (value?_digit hc fuel (cs ++ rest)).trans hnumber

-- ========================================================== spellings

mutual

/-- `cs` is a text of the value, without blanks around it. -/
inductive Spells : Json → List Char → Prop
  | null : Spells .null ['n', 'u', 'l', 'l']
  | true : Spells (.bool true) ['t', 'r', 'u', 'e']
  | false : Spells (.bool false) ['f', 'a', 'l', 's', 'e']
  | int (n : Int) : Spells (.int n) (intChars n)
  | str (s : String) : Spells (.str s) (quote s)
  | emptyArr {ws : List Char} : Blank ws → Spells (.arr []) ('[' :: (ws ++ [']']))
  | arr {vs : List Json} {ws cs : List Char} : Blank ws → SpellsItems vs cs →
      Spells (.arr vs) ('[' :: (ws ++ cs))
  | emptyObj {ws : List Char} : Blank ws → Spells (.obj []) ('{' :: (ws ++ ['}']))
  | obj {ms : List (String × Json)} {ws cs : List Char} : Blank ws → SpellsMembers ms cs →
      Spells (.obj ms) ('{' :: (ws ++ cs))

/-- One or more items and the closing bracket. -/
inductive SpellsItems : List Json → List Char → Prop
  | last {v : Json} {cs ws : List Char} : Spells v cs → Blank ws →
      SpellsItems [v] (cs ++ (ws ++ [']']))
  | more {v : Json} {vs : List Json} {cs ws ws' ds : List Char} : Spells v cs → Blank ws →
      Blank ws' → SpellsItems vs ds → SpellsItems (v :: vs) (cs ++ (ws ++ ',' :: (ws' ++ ds)))

/-- One or more members and the closing brace. -/
inductive SpellsMembers : List (String × Json) → List Char → Prop
  | last {k : String} {v : Json} {ws ws' cs ws'' : List Char} : Blank ws → Blank ws' →
      Spells v cs → Blank ws'' →
      SpellsMembers [(k, v)] (quote k ++ (ws ++ ':' :: (ws' ++ (cs ++ (ws'' ++ ['}'])))))
  | more {k : String} {v : Json} {ms : List (String × Json)} {ws ws' cs ws'' ws₃ ds : List Char} :
      Blank ws → Blank ws' → Spells v cs → Blank ws'' → Blank ws₃ → SpellsMembers ms ds →
      SpellsMembers ((k, v) :: ms)
        (quote k ++ (ws ++ ':' :: (ws' ++ (cs ++ (ws'' ++ ',' :: (ws₃ ++ ds))))))

end

/-- A text that begins with a part of a value, and not with what closes one. -/
def Opens (cs : List Char) : Prop :=
  ∃ c rest, cs = c :: rest ∧ isSpace c = false ∧ c ≠ ']' ∧ c ≠ '}'

/-- What follows a value does not change how it begins. -/
theorem Opens.append {cs : List Char} (h : Opens cs) (rest : List Char) : Opens (cs ++ rest) := by
  obtain ⟨c, cs, rfl, hc⟩ := h
  exact ⟨c, cs ++ rest, rfl, hc⟩

/-- A value begins with no blank, so there is nothing to skip. -/
theorem Opens.skipSpace {cs : List Char} (h : Opens cs) : Json.skipSpace cs = cs := by
  obtain ⟨c, cs, rfl, hc, -⟩ := h
  exact skipSpace_cons hc cs

theorem opens_intChars (n : Int) : Opens (intChars n) := by
  cases n with
  | negSucc n => exact ⟨'-', _, rfl, by decide⟩
  | ofNat n =>
    cases hds : Nat.toDigits 10 n with
    | nil => exact absurd hds Nat.toDigits_ne_nil
    | cons c cs =>
      have hc : c.isDigit = true :=
        Nat.isDigit_of_mem_toDigits (by omega) (by omega) (hds ▸ List.mem_cons_self)
      have hne : ∀ d : Char, d.isDigit = false → c ≠ d := by
        rintro d hd rfl
        exact Bool.false_ne_true (hd.symm.trans hc)
      refine ⟨c, cs, hds, ?_, hne _ (by decide), hne _ (by decide)⟩
      simp only [isSpace, Bool.or_eq_false_iff, beq_eq_false_iff_ne]
      exact ⟨⟨⟨hne _ (by decide), hne _ (by decide)⟩, hne _ (by decide)⟩, hne _ (by decide)⟩

/-- Each spelling begins as one of its kind does, with neither a blank nor a
closing bracket. -/
theorem Spells.opens {v : Json} {cs : List Char} (h : Spells v cs) : Opens cs := by
  cases h with
  | int n => exact opens_intChars n
  | null | true | false | str | emptyArr | arr | emptyObj | obj =>
    exact ⟨_, _, rfl, by decide⟩

theorem SpellsItems.opens {vs : List Json} {cs : List Char} (h : SpellsItems vs cs) :
    Opens cs := by
  cases h with
  | last hv => exact hv.opens.append _
  | more hv => exact hv.opens.append _

theorem SpellsMembers.opens {ms : List (String × Json)} {cs : List Char}
    (h : SpellsMembers ms cs) : Opens cs := by
  cases h with
  | last | more => exact ⟨'"', _, rfl, by decide⟩

/-- A number may be followed by blanks, a comma or a closing bracket. -/
theorem ends_of_skipped {ws rest : List Char} {c : Char} (hw : Blank ws)
    (hc : c = ',' ∨ c = ']' ∨ c = '}') : Ends (ws ++ c :: rest) := by
  intro d hd
  cases ws with
  | nil =>
    obtain rfl : c = d := Option.some.inj hd
    rcases hc with rfl | rfl | rfl
    · decide
    · decide
    · decide
  | cons b ws =>
    obtain rfl : b = d := Option.some.inj hd
    have hb : isSpace b = true := hw b List.mem_cons_self
    simp only [isSpace, Bool.or_eq_true, beq_iff_eq] at hb
    rcases hb with ((rfl | rfl) | rfl) | rfl
    · decide
    · decide
    · decide
    · decide

-- ============================================================ reading

/-- Keys that can all be read make an object. -/
theorem ofMembers_some (ms : List (String × Json)) :
    ofMembers (ms.map fun m => (some m.1, m.2)) = .obj ms := by
  have hkeys : (ms.map fun m => (some m.1, m.2)).mapM
      (fun m : Option String × Json => m.1.map (·, m.2)) = some ms := by
    induction ms with
    | nil => rfl
    | cons m ms ih =>
      rw [List.map_cons, List.mapM_cons, ih]
      rfl
  unfold ofMembers
  rw [hkeys]

/-- A bracket is followed by its items unless it closes at once. -/
theorem value?_bracket {fuel : Nat} {cs rest : List Char} {vs : List Json} (ho : Opens cs)
    (hs : items? fuel cs = some (vs, rest)) {ws : List Char} (hw : Blank ws) :
    value? (fuel + 1) ('[' :: (ws ++ cs)) = some (.arr vs, rest) := by
  obtain ⟨c, cs, rfl, hspace, hclose, -⟩ := ho
  rw [value?, skipSpace_blank_cons hw hspace]
  split
  · next heq => exact absurd (List.cons.inj heq).1 hclose
  · rw [hs]
    rfl

/-- An object is read if its members are. -/
theorem value?_brace {fuel : Nat} {cs rest : List Char} {ms : List (String × Json)} (ho : Opens cs)
    (hs : members? fuel cs = some (ms.map fun m => (some m.1, m.2), rest)) {ws : List Char}
    (hw : Blank ws) :
    value? (fuel + 1) ('{' :: (ws ++ cs)) = some (.obj ms, rest) := by
  obtain ⟨c, cs, rfl, hspace, -, hclose⟩ := ho
  rw [value?, skipSpace_blank_cons hw hspace]
  split
  · next heq => exact absurd (List.cons.inj heq).1 hclose
  · rw [hs]
    show some (ofMembers _, rest) = _
    rw [ofMembers_some]

/-- Blanks in front of an item do not matter. -/
theorem items?_blank {ws : List Char} (hw : Blank ws) (fuel : Nat) (cs : List Char) :
    items? fuel (ws ++ cs) = items? fuel cs := by
  cases fuel with
  | zero => rfl
  | succ fuel => rw [items?, items?, skipSpace_append hw]

/-- Blanks in front of a member do not matter. -/
theorem members?_blank {ws : List Char} (hw : Blank ws) (fuel : Nat) (cs : List Char) :
    members? fuel (ws ++ cs) = members? fuel cs := by
  cases fuel with
  | zero => rfl
  | succ fuel => rw [members?, members?, skipSpace_append hw]

/-- The key of a member, the colon and the value, and then the rest of the members. -/
theorem members?_member {k : String} {ws ws' : List Char} (hw : Blank ws) (hw' : Blank ws')
    {cs : List Char} (ho : Opens cs) (fuel : Nat) :
    members? (fuel + 1) (quote k ++ (ws ++ ':' :: (ws' ++ cs)))
      = (value? fuel cs).bind fun (v, rest) =>
        match skipSpace rest with
        | ',' :: rest => (members? fuel rest).bind fun (ms, rest) => some ((some k, v) :: ms, rest)
        | '}' :: rest => some ([(some k, v)], rest)
        | _ => none := by
  have hquote : quote k ++ (ws ++ ':' :: (ws' ++ cs))
      = '"' :: (escape k.toList ++ '"' :: (ws ++ ':' :: (ws' ++ cs))) := by
    simp only [quote, List.cons_append, List.append_assoc, List.nil_append]
  have hcolon := skipSpace_blank_cons hw (show isSpace ':' = false by decide) (ws' ++ cs)
  rw [hquote, members?, skipSpace_cons (by decide)]
  simp only [string?_escape, Option.bind_eq_bind, Option.bind_some, hcolon,
    skipSpace_append hw', ho.skipSpace]
  rfl

/-- Texts are read back from their quotes. -/
theorem value?_quote (s : String) (fuel : Nat) (rest : List Char) :
    value? (fuel + 1) (quote s ++ rest) = some (.str s, rest) := by
  have hcons : quote s ++ rest = '"' :: (escape s.toList ++ '"' :: rest) := by
    simp only [quote, List.cons_append, List.append_assoc, List.nil_append]
  rw [hcons, value?, string?_escape]
  rfl

mutual

/-- Every spelling of a value is read as that value, given as much fuel as it
has characters. The induction goes through items and members beside the
values. -/
theorem value?_of_spells {v : Json} {cs : List Char} (h : Spells v cs) {rest : List Char}
    (hr : Ends rest) {fuel : Nat} (hf : cs.length ≤ fuel) :
    value? fuel (cs ++ rest) = some (v, rest) := by
  cases fuel with
  | zero =>
    obtain ⟨c, cs, rfl, -⟩ := h.opens
    exact absurd hf (Nat.not_succ_le_zero _)
  | succ fuel =>
    match h with
    | .null => rfl
    | .true => rfl
    | .false => rfl
    | .int n => exact value?_intChars n fuel hr
    | .str s => exact value?_quote s fuel rest
    | .emptyArr hw =>
      rw [List.cons_append, List.append_assoc, value?, List.singleton_append,
        skipSpace_blank_cons hw (by decide)]
      rfl
    | .arr hw hs =>
      simp only [List.length_cons, List.length_append] at hf
      rw [List.cons_append, List.append_assoc]
      exact value?_bracket (hs.opens.append rest)
        (items?_of_spells hs rest (by omega)) hw
    | .emptyObj hw =>
      rw [List.cons_append, List.append_assoc, value?, List.singleton_append,
        skipSpace_blank_cons hw (by decide)]
      rfl
    | .obj hw hs =>
      simp only [List.length_cons, List.length_append] at hf
      rw [List.cons_append, List.append_assoc]
      exact value?_brace (hs.opens.append rest)
        (members?_of_spells hs rest (by omega)) hw

/-- Items are read up to the closing bracket. -/
theorem items?_of_spells {vs : List Json} {cs : List Char} (h : SpellsItems vs cs)
    (rest : List Char) {fuel : Nat} (hf : cs.length ≤ fuel) :
    items? fuel (cs ++ rest) = some (vs, rest) := by
  cases fuel with
  | zero =>
    obtain ⟨c, cs, rfl, -⟩ := h.opens
    exact absurd hf (Nat.not_succ_le_zero _)
  | succ fuel =>
    match h with
    | .last hv hw =>
      simp only [List.length_append, List.length_cons] at hf
      simp only [List.append_assoc, List.singleton_append]
      have hclose := skipSpace_blank_cons hw (show isSpace ']' = false by decide) rest
      rw [items?, (hv.opens.append _).skipSpace,
        value?_of_spells hv (ends_of_skipped hw (by decide)) (by omega)]
      simp only [Option.bind_eq_bind, Option.bind_some, hclose]
      rfl
    | @SpellsItems.more v vs _ ws ws' ds hv hw hw' hs =>
      simp only [List.length_append, List.length_cons] at hf
      simp only [List.append_assoc, List.cons_append]
      have hcomma := skipSpace_blank_cons hw (show isSpace ',' = false by decide)
        (ws' ++ (ds ++ rest))
      rw [items?, (hv.opens.append _).skipSpace,
        value?_of_spells hv (ends_of_skipped hw (by decide)) (by omega)]
      simp only [Option.bind_eq_bind, Option.bind_some, hcomma]
      rw [items?_blank hw', items?_of_spells hs rest (by omega)]
      rfl

/-- Members are read up to the closing brace, in their order. -/
theorem members?_of_spells {ms : List (String × Json)} {cs : List Char} (h : SpellsMembers ms cs)
    (rest : List Char) {fuel : Nat} (hf : cs.length ≤ fuel) :
    members? fuel (cs ++ rest) = some (ms.map fun m => (some m.1, m.2), rest) := by
  cases fuel with
  | zero =>
    obtain ⟨c, cs, rfl, -⟩ := h.opens
    exact absurd hf (Nat.not_succ_le_zero _)
  | succ fuel =>
    match h with
    | .last hw hw' hv hw'' =>
      simp only [List.length_append, List.length_cons] at hf
      simp only [List.append_assoc, List.cons_append, List.nil_append]
      have hclose := skipSpace_blank_cons hw'' (show isSpace '}' = false by decide) rest
      rw [members?_member hw hw' (hv.opens.append _),
        value?_of_spells hv (ends_of_skipped hw'' (by decide)) (by omega)]
      simp only [Option.bind_some, hclose]
      rfl
    | @SpellsMembers.more k v ms ws ws' _ ws'' ws₃ ds hw hw' hv hw'' hw₃ hs =>
      simp only [List.length_append, List.length_cons] at hf
      simp only [List.append_assoc, List.cons_append]
      have hcomma := skipSpace_blank_cons hw'' (show isSpace ',' = false by decide)
        (ws₃ ++ (ds ++ rest))
      rw [members?_member hw hw' (hv.opens.append _),
        value?_of_spells hv (ends_of_skipped hw'' (by decide)) (by omega)]
      simp only [Option.bind_some, hcomma]
      rw [members?_blank hw₃, members?_of_spells hs rest (by omega)]
      rfl

end

/-- A spelling between blanks is read as the value it spells. -/
theorem parseChars?_of_spells {v : Json} {cs : List Char} (h : Spells v cs) {ws ws' : List Char}
    (hw : Blank ws) (hw' : Blank ws') : parseChars? (ws ++ (cs ++ ws')) = some v := by
  have hends : Ends ws' := by
    intro c hc
    cases ws' with
    | nil => exact nomatch hc
    | cons b ws' =>
      have hmore : Ends (b :: ws' ++ ',' :: []) := ends_of_skipped hw' (by decide)
      exact hmore c hc
  unfold parseChars?
  rw [skipSpace_append hw, (h.opens.append ws').skipSpace,
    value?_of_spells h hends (by simp only [List.length_append]; omega)]
  have hnone : skipSpace ws' = [] := by
    have := skipSpace_append hw' []
    rwa [List.append_nil] at this
  simp only [Option.bind_eq_bind, Option.bind_some, hnone]
  rfl

-- ======================================================= one-line form

mutual

/-- A value whose text says all of it: nothing in it is a fraction, and
nothing was unreadable. -/
def Plain : Json → Prop
  | .float .. | .unreadable => False
  | .null | .bool _ | .int _ | .str _ => True
  | .arr vs => PlainItems vs
  | .obj ms => PlainMembers ms

def PlainItems : List Json → Prop
  | [] => True
  | v :: vs => Plain v ∧ PlainItems vs

def PlainMembers : List (String × Json) → Prop
  | [] => True
  | (_, v) :: ms => Plain v ∧ PlainMembers ms

end

theorem plainItems_iff {vs : List Json} : PlainItems vs ↔ ∀ v ∈ vs, v.Plain := by
  induction vs with
  | nil => simp [PlainItems]
  | cons v vs ih => simp [PlainItems, ih]

theorem plainMembers_iff {ms : List (String × Json)} :
    PlainMembers ms ↔ ∀ m ∈ ms, m.2.Plain := by
  induction ms with
  | nil => simp [PlainMembers]
  | cons m ms ih => simp [PlainMembers, ih]

mutual

/-- The compact text of a plain value spells it. -/
theorem spells_compact : ∀ {v : Json}, v.Plain → Spells v v.compact
  | .null, _ => .null
  | .bool true, _ => .true
  | .bool false, _ => .false
  | .int n, _ => .int n
  | .str s, _ => .str s
  | .arr [], _ => .emptyArr blank_nil
  | .arr (v :: vs), h =>
    @Spells.arr (v :: vs) [] _ blank_nil (spellsItems_compact (spells_compact h.1) h.2)
  | .obj [], _ => .emptyObj blank_nil
  | .obj ((k, v) :: ms), h =>
    @Spells.obj ((k, v) :: ms) [] _ blank_nil (spellsMembers_compact k (spells_compact h.1) h.2)

theorem spellsItems_compact {v : Json} {cs : List Char} (hv : Spells v cs) :
    ∀ {vs : List Json}, PlainItems vs → SpellsItems (v :: vs) (cs ++ compactItems vs)
  | [], _ => .last hv blank_nil
  | _ :: _, h => @SpellsItems.more v _ cs [] [] _ hv blank_nil blank_nil
      (spellsItems_compact (spells_compact h.1) h.2)

theorem spellsMembers_compact (k : String) {v : Json} {cs : List Char} (hv : Spells v cs) :
    ∀ {ms : List (String × Json)}, PlainMembers ms →
      SpellsMembers ((k, v) :: ms) (quote k ++ ':' :: (cs ++ compactMembers ms))
  | [], _ => .last blank_nil blank_nil hv blank_nil
  | (k', _) :: _, h => @SpellsMembers.more k v _ [] [] cs [] [] _ blank_nil blank_nil hv blank_nil
      blank_nil (spellsMembers_compact k' (spells_compact h.1) h.2)

end

/-- A new line and its indentation are blanks. -/
theorem blank_newline (level : Nat) : Blank (newline level) := by
  intro c hc
  rcases List.mem_cons.1 hc with rfl | hc
  · decide
  · rw [List.eq_of_mem_replicate hc]
    decide

theorem blank_space : Blank [' '] := by
  intro c hc
  rw [List.mem_singleton.1 hc]
  decide

mutual

/-- The indented text of a plain value spells it too, with blanks at its
breaks. -/
theorem spells_pretty (level : Nat) : ∀ {v : Json}, v.Plain → Spells v (v.pretty level)
  | .null, _ => .null
  | .bool true, _ => .true
  | .bool false, _ => .false
  | .int n, _ => .int n
  | .str s, _ => .str s
  | .arr [], _ => .emptyArr blank_nil
  | .arr (v :: vs), h =>
    @Spells.arr (v :: vs) (newline (level + 1)) _ (blank_newline (level + 1))
      (spellsItems_pretty level (spells_pretty (level + 1) h.1) h.2)
  | .obj [], _ => .emptyObj blank_nil
  | .obj ((k, v) :: ms), h =>
    @Spells.obj ((k, v) :: ms) (newline (level + 1)) _ (blank_newline (level + 1))
      (spellsMembers_pretty level k (spells_pretty (level + 1) h.1) h.2)

theorem spellsItems_pretty (level : Nat) {v : Json} {cs : List Char} (hv : Spells v cs) :
    ∀ {vs : List Json}, PlainItems vs → SpellsItems (v :: vs) (cs ++ prettyItems level vs)
  | [], _ => .last hv (blank_newline level)
  | _ :: _, h => @SpellsItems.more v _ cs [] (newline (level + 1)) _ hv blank_nil
      (blank_newline (level + 1)) (spellsItems_pretty level (spells_pretty (level + 1) h.1) h.2)

theorem spellsMembers_pretty (level : Nat) (k : String) {v : Json} {cs : List Char}
    (hv : Spells v cs) : ∀ {ms : List (String × Json)}, PlainMembers ms →
      SpellsMembers ((k, v) :: ms) (quote k ++ ':' :: ' ' :: (cs ++ prettyMembers level ms))
  | [], _ => @SpellsMembers.last k v [] [' '] cs (newline level) blank_nil blank_space hv
      (blank_newline level)
  | (k', _) :: _, h => @SpellsMembers.more k v _ [] [' '] cs [] (newline (level + 1)) _ blank_nil
      blank_space hv blank_nil (blank_newline (level + 1))
      (spellsMembers_pretty level k' (spells_pretty (level + 1) h.1) h.2)

end

/-- The indented text of a value is read as that value. -/
theorem parse?_renderPretty {v : Json} (h : v.Plain) : parse? v.renderPretty = some v := by
  unfold parse? renderPretty
  rw [String.toList_ofList]
  have := parseChars?_of_spells (spells_pretty 0 h) blank_nil blank_nil
  rwa [List.nil_append, List.append_nil] at this

end LogPipeline.Json
