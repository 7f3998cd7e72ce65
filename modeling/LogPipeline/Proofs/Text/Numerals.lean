/-
Numerals of a fixed width. A number that fits into its places is read back
from them (`number?_numeral`), and numerals of one width sort as their
numbers (`numeral_lt`): where two of them differ first, the rest of the
number above that digit is the same.

A record of numerals, each with a mark before it, has a fixed layout. What
is written in it is read back field by field (`fields?_written`), and two
records sort as their fields from left to right (`written_lt`).
-/
import LogPipeline.Text.Column
import Mathlib.Algebra.Group.Nat.Defs
import Mathlib.Data.List.Forall2

namespace LogPipeline.Text

-- ============================================================ numerals

/-- The last `k` digits of a number. -/
def numeral : Nat → Nat → List Char
  | 0, _ => []
  | k + 1, n => numeral k (n / 10) ++ [(n % 10).digitChar]

theorem length_numeral (k n : Nat) : (numeral k n).length = k := by
  induction k generalizing n with
  | zero => rfl
  | succ k ih => rw [numeral, List.length_append, ih, List.length_singleton]

theorem isDigit_of_mem_numeral {k n : Nat} {c : Char} (hc : c ∈ numeral k n) :
    c.isDigit = true := by
  induction k generalizing n with
  | zero => cases hc
  | succ k ih =>
    rcases List.mem_append.1 hc with hc | hc
    · exact ih hc
    · rw [List.mem_singleton.1 hc, Nat.isDigit_digitChar]
      exact decide_eq_true (Nat.mod_lt n (by decide))

/-- A number that fits is what its digits say. -/
theorem ofDigitChars_numeral {k n : Nat} (h : n < 10 ^ k) :
    Nat.ofDigitChars 10 (numeral k n) 0 = n := by
  induction k generalizing n with
  | zero =>
    rw [Nat.pow_zero] at h
    obtain rfl : n = 0 := by omega
    rfl
  | succ k ih =>
    rw [Nat.pow_succ] at h
    rw [numeral, Nat.ofDigitChars_append, ih (by omega),
      Nat.ofDigitChars_cons_digitChar_of_lt_ten (Nat.mod_lt n (by decide)), Nat.ofDigitChars_nil]
    omega

/-- Nothing but zeros says 0. -/
theorem numeral_zero (k : Nat) : numeral k 0 = List.replicate k '0' := by
  induction k with
  | zero => rfl
  | succ k ih =>
    rw [numeral, Nat.zero_div, ih, List.replicate_succ']
    rfl

/-- Digits with zeros before them, up to the width. -/
theorem padded_toDigits {k n : Nat} (h : n < 10 ^ (k + 1)) :
    List.replicate (k + 1 - (Nat.toDigits 10 n).length) '0' ++ Nat.toDigits 10 n
      = numeral (k + 1) n := by
  induction k generalizing n with
  | zero =>
    rw [Nat.zero_add, Nat.pow_one] at h
    rw [Nat.toDigits_of_lt_base h, numeral, Nat.mod_eq_of_lt h]
    rfl
  | succ k ih =>
    rw [Nat.toDigits_eq_if (by decide)]
    by_cases hn : n < 10
    · rw [if_pos hn, numeral, Nat.div_eq_of_lt hn, Nat.mod_eq_of_lt hn, numeral_zero]
      rfl
    · rw [Nat.pow_succ] at h
      rw [if_neg hn, numeral, ← ih (by omega), List.length_append, List.length_singleton,
        Nat.add_sub_add_right, List.append_assoc]

/-- A number that fits is padded to its numeral of that width. -/
theorem padNat_eq_numeral {k n : Nat} (h : n < 10 ^ (k + 1)) :
    padNat '0' (k + 1) n = numeral (k + 1) n := by
  rw [← padded_toDigits h]
  unfold padNat Column.set
  dsimp only
  rw [Nat.sub_self, List.replicate_zero, List.append_nil]

-- ============================================================= reading

/-- A number of `k` digits, and what follows it. -/
def number? (k : Nat) (cs : List Char) : Option (Nat × List Char) :=
  if (cs.take k).length = k ∧ (cs.take k).all Char.isDigit then
    some (Nat.ofDigitChars 10 (cs.take k) 0, cs.drop k)
  else none

/-- A numeral is read as its number, and no further than it reaches. -/
theorem number?_numeral {k n : Nat} (h : n < 10 ^ k) (rest : List Char) :
    number? k (numeral k n ++ rest) = some (n, rest) := by
  have hlength := length_numeral k n
  unfold number?
  rw [List.take_left' hlength, List.drop_left' hlength, ofDigitChars_numeral h, if_pos]
  exact ⟨hlength, List.all_eq_true.2 fun c hc => isDigit_of_mem_numeral hc⟩

/-- Numerals, each in its number of places with its mark before it. -/
def written : List (Char × Nat) → List Nat → List Char
  | (mark, k) :: fs, n :: ns => mark :: (numeral k n ++ written fs ns)
  | _, _ => []

/-- The numbers that stand behind the marks, and what follows them. -/
def fields? : List (Char × Nat) → List Char → Option (List Nat × List Char)
  | [], cs => some ([], cs)
  | (mark, k) :: fs, c :: cs =>
    if c = mark then do
      let (n, cs) ← number? k cs
      let (ns, cs) ← fields? fs cs
      return (n :: ns, cs)
    else none
  | _ :: _, [] => none

/-- Every number fits into its places. -/
abbrev Fits (fs : List (Char × Nat)) (ns : List Nat) : Prop :=
  List.Forall₂ (fun f n => n < 10 ^ f.2) fs ns

/-- Fields that fit are read as the numbers they were written from. -/
theorem fields?_written {fs : List (Char × Nat)} {ns : List Nat} (h : Fits fs ns)
    (rest : List Char) : fields? fs (written fs ns ++ rest) = some (ns, rest) := by
  induction h with
  | nil => rfl
  | @cons f n fs ns hn _ ih =>
    obtain ⟨mark, k⟩ := f
    rw [written, List.cons_append, List.append_assoc, fields?, if_pos rfl, number?_numeral hn]
    simp only [Option.bind_eq_bind, Option.bind_some, ih]
    rfl

-- ============================================================= sorting

theorem digitChar_lt : ∀ m < 10, ∀ n < m, n.digitChar < m.digitChar := by
  decide

/-- The smaller number comes first, whatever follows. -/
theorem numeral_lt {k n m : Nat} (hnm : n < m) (hm : m < 10 ^ k) (cs ds : List Char) :
    numeral k n ++ cs < numeral k m ++ ds := by
  induction k generalizing n m cs ds with
  | zero =>
    rw [Nat.pow_zero] at hm
    omega
  | succ k ih =>
    rw [Nat.pow_succ] at hm
    rw [numeral, numeral, List.append_assoc, List.append_assoc]
    by_cases htens : n / 10 = m / 10
    · rw [htens]
      apply List.append_left_lt
      apply List.cons_lt_cons_iff.2
      exact .inl (digitChar_lt _ (Nat.mod_lt m (by decide)) _ (by omega))
    · exact ih (by omega) (by omega) _ _

/-- Records of one layout sort as the numbers in them. -/
theorem written_lt {fs : List (Char × Nat)} {ns ms : List Nat} (hn : Fits fs ns) (hm : Fits fs ms)
    (h : ns < ms) (rest : List Char) : written fs ns ++ rest < written fs ms ++ rest := by
  induction hn generalizing ms with
  | nil =>
    cases hm
    exact absurd h (List.lt_irrefl _)
  | @cons f n fs ns hn hns ih =>
    cases hm with
    | @cons _ m _ ms hm hms =>
      obtain ⟨mark, k⟩ := f
      rw [written, written, List.cons_append, List.cons_append, List.append_assoc,
        List.append_assoc]
      apply List.cons_lt_cons_iff.2
      refine .inr ⟨rfl, ?_⟩
      rcases List.cons_lt_cons_iff.1 h with hlt | ⟨rfl, hlt⟩
      · exact numeral_lt hlt hm _ _
      · exact List.append_left_lt (ih hms hlt)

end LogPipeline.Text
