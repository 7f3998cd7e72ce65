/-
Setting a text into a column: cut to a precision first, then filled to a
width on one side or both. Widths count characters.
-/

namespace LogPipeline.Text

/-- Where a text shorter than its column goes. -/
inductive Align where
  | left
  | right
  | center
  deriving DecidableEq

/-- How a text is set: filled with `fill` to `width`, cut to `precision`. -/
structure Column where
  align : Align
  fill : Char
  width : Nat
  precision : Option Nat

/-- Set `cs` into the column. Centred text has the smaller half of the
filling on its left. -/
def Column.set (col : Column) (cs : List Char) : List Char :=
  let cut := match col.precision with
    | some p => cs.take p
    | none => cs
  let room := col.width - cut.length
  let before := match col.align with
    | .left => 0
    | .right => room
    | .center => room / 2
  List.replicate before col.fill ++ cut ++ List.replicate (room - before) col.fill

/-- Left-aligned in `width` characters, filled with spaces. -/
def padRight (width : Nat) (s : String) : String :=
  String.ofList (Column.set ⟨.left, ' ', width, none⟩ s.toList)

/-- Decimal digits of `n`, filled on the left to `width`. -/
def padNat (fill : Char) (width n : Nat) : List Char :=
  Column.set ⟨.right, fill, width, none⟩ (Nat.toDigits 10 n)

/-- Hexadecimal digits of `n`, filled with zeros to `width`. -/
def padHex (width n : Nat) : List Char :=
  Column.set ⟨.right, '0', width, none⟩ (Nat.toDigits 16 n)

end LogPipeline.Text
