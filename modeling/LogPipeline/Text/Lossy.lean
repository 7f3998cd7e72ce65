/-
Bytes shown as text. Where the bytes are no UTF-8, each longest piece
that could still have begun a character is shown as one replacement
character.
-/

namespace LogPipeline.Text

/-- The character that stands for bytes that are none. -/
def replacement : Char := '\ufffd'

/-- How many bytes follow a first byte, and which the next one may be:
nothing longer than needed, no surrogate, nothing beyond the last plane. -/
def sequenceAfter (b : UInt8) : Option (Nat × UInt8 × UInt8) :=
  if b < 0x80 then some (0, 0x80, 0xBF)
  else if 0xC2 ≤ b && b ≤ 0xDF then some (1, 0x80, 0xBF)
  else if b == 0xE0 then some (2, 0xA0, 0xBF)
  else if b == 0xED then some (2, 0x80, 0x9F)
  else if 0xE1 ≤ b && b ≤ 0xEF then some (2, 0x80, 0xBF)
  else if b == 0xF0 then some (3, 0x90, 0xBF)
  else if 0xF1 ≤ b && b ≤ 0xF3 then some (3, 0x80, 0xBF)
  else if b == 0xF4 then some (3, 0x80, 0x8F)
  else none

/-- The bits that a first byte gives to its character. -/
def leadBits (following : Nat) (b : UInt8) : Nat :=
  match following with
  | 0 => b.toNat
  | 1 => b.toNat % 32
  | 2 => b.toNat % 16
  | _ => b.toNat % 8

/-- Read on in a character: `due` bytes are missing, the next one between
`low` and `high`, and `code` is what the bytes so far have given. -/
def lossyFrom : List UInt8 → (due : Nat) → (low high : UInt8) → (code : Nat) → List Char
  | [], due, _, _, _ => if due = 0 then [] else [replacement]
  | b :: rest, due, low, high, code =>
    match due with
    | 0 => start b rest
    | due + 1 =>
      if low ≤ b && b ≤ high then
        let code := code * 64 + b.toNat % 64
        if due = 0 then Char.ofNat code :: lossyFrom rest 0 0 0 0
        else lossyFrom rest due 0x80 0xBF code
      else replacement :: start b rest
where
  start (b : UInt8) (rest : List UInt8) : List Char :=
    match sequenceAfter b with
    | none => replacement :: lossyFrom rest 0 0 0 0
    | some (0, _, _) => Char.ofNat b.toNat :: lossyFrom rest 0 0 0 0
    | some (n + 1, low, high) => lossyFrom rest (n + 1) low high (leadBits (n + 1) b)

/-- Bytes as text, whatever they are. -/
def lossy (bytes : ByteArray) : String := String.ofList (lossyFrom bytes.toList 0 0 0 0)

end LogPipeline.Text
