/-
A row of cells numbered from zero. Cells that were never written hold the
default, so a row costs nothing until it is used, however long it is
meant to be. `get_set` is all that the ring needs to know of it.
-/

namespace LogPipeline

/-- Numbered cells, of which the first few have been written. -/
structure Cells (α : Type) where
  written : Array α

namespace Cells

variable {α : Type} [Inhabited α]

/-- A row in which nothing is written. -/
def blank : Cells α := ⟨#[]⟩

def get (c : Cells α) (i : Nat) : α := c.written.getD i default

def set (c : Cells α) (i : Nat) (a : α) : Cells α :=
  if i < c.written.size then ⟨c.written.setIfInBounds i a⟩
  else ⟨(c.written ++ Array.replicate (i - c.written.size) default).push a⟩

@[simp] theorem get_blank (i : Nat) : (blank : Cells α).get i = default := by
  simp [blank, get]

/-- A cell shows what was last written to it. -/
theorem get_set (c : Cells α) (i j : Nat) (a : α) :
    (c.set i a).get j = if i = j then a else c.get j := by
  unfold set get
  split
  · rename_i h
    by_cases hij : i = j
    · subst hij
      simp [Array.getD_eq_getD_getElem?, h]
    · simp [Array.getD_eq_getD_getElem?, hij]
  · rename_i h
    by_cases hij : i = j
    · subst hij
      have hs : (c.written ++ Array.replicate (i - c.written.size) (default : α)).size = i := by
        simp; omega
      simp only [Array.getD_eq_getD_getElem?, Array.getElem?_push, hs, if_true, Option.getD_some]
    · have hs : (c.written ++ Array.replicate (i - c.written.size) (default : α)).size = i := by
        simp; omega
      have hji : j ≠ i := fun e => hij e.symm
      simp only [Array.getD_eq_getD_getElem?, Array.getElem?_push, hs, hji, if_false, hij]
      by_cases hj : j < c.written.size
      · simp [Array.getElem?_append, hj]
      · have hn : c.written[j]? = none := by simp; omega
        simp only [Array.getElem?_append, hj, if_false, hn, Option.getD_none,
          Array.getElem?_replicate]
        split <;> rfl

end Cells

end LogPipeline
