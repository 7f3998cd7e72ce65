/-
Reading names: a level or a filter result is recognised in any case and
between any blanks. "Blank" is the Unicode White_Space property, and
"any case" means that the capital spellings agree; a few characters
outside ASCII have capitals inside it (the long s, the dotless i, the
ligatures), and those count too.
-/

namespace LogPipeline.Text

/-- The Unicode White_Space property. -/
def isBlank (c : Char) : Bool :=
  let n := c.toNat
  (9 ≤ n && n ≤ 13) || n == 0x20 || n == 0x85 || n == 0xA0 || n == 0x1680
    || (0x2000 ≤ n && n ≤ 0x200A) || n == 0x2028 || n == 0x2029 || n == 0x202F
    || n == 0x205F || n == 0x3000

/-- Blanks removed at both ends. -/
def trim (cs : List Char) : List Char :=
  ((cs.dropWhile isBlank).reverse.dropWhile isBlank).reverse

/-- The capital spelling of a character where that spelling is made of
ASCII letters; any other character stands for itself, and no name holds
such a character. -/
def capital (c : Char) : List Char :=
  if 'a' ≤ c ∧ c ≤ 'z' then [Char.ofNat (c.toNat - 32)]
  else match c.toNat with
    | 0x00DF => ['S', 'S']
    | 0x0131 => ['I']
    | 0x017F => ['S']
    | 0xFB00 => ['F', 'F']
    | 0xFB01 => ['F', 'I']
    | 0xFB02 => ['F', 'L']
    | 0xFB03 => ['F', 'F', 'I']
    | 0xFB04 => ['F', 'F', 'L']
    | 0xFB05 => ['S', 'T']
    | 0xFB06 => ['S', 'T']
    | _ => [c]

/-- The spelling under which names are compared: trimmed and in capitals. -/
def nameKey (s : String) : String :=
  String.ofList ((trim s.toList).flatMap capital)

end LogPipeline.Text
