/-
Bytes as text: two hexadecimal digits for each.
-/

namespace LogPipeline.Text

/-- The lower-case digits of bytes. -/
def hex (bytes : ByteArray) : String :=
  String.ofList (bytes.toList.flatMap fun b => [(b.toNat / 16).digitChar, (b.toNat % 16).digitChar])

/-- What a digit of either case stands for. -/
def digitValue (c : Char) : Nat :=
  if c.isDigit then c.toNat - '0'.toNat else c.toLower.toNat - 'a'.toNat + 10

/-- The bytes of digits; an odd digit at the end stands for nothing. -/
def bytesOfDigits : List Char → List UInt8
  | a :: b :: rest => UInt8.ofNat (digitValue a * 16 + digitValue b) :: bytesOfDigits rest
  | _ => []

def ofHex (text : String) : ByteArray := ⟨(bytesOfDigits text.toList).toArray⟩

end LogPipeline.Text
