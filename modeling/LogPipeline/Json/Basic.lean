/-
JSON values, as a reader of configuration sees them: objects keep their
members in the order and number they were written in, integers keep all
their digits, and what is only fit to be skipped is kept as such.
-/

namespace LogPipeline

/-- A JSON value. -/
inductive Json where
  | null
  | bool (b : Bool)
  /-- A number written without fraction and exponent. -/
  | int (n : Int)
  /-- Any other number: `mantissa · 10 ^ exponent`. -/
  | float (mantissa exponent : Int)
  | str (s : String)
  | arr (items : List Json)
  | obj (members : List (String × Json))
  /-- A string, or an object with such a key, that escapes half of a
  surrogate pair. It names no text and can only be skipped. -/
  | unreadable
  deriving Inhabited

namespace Json

-- ============================================================ strings

/-- The lower-case hexadecimal digit of a number below sixteen. -/
def hexDigit (n : Nat) : Char := n.digitChar

/-- How a character is written inside a string: quotes and backslashes
are escaped, control characters below the space by their short name or
by number, all else stands for itself. -/
def escapeChar (c : Char) : List Char :=
  if c = '"' then ['\\', '"']
  else if c = '\\' then ['\\', '\\']
  else if c = '\x08' then ['\\', 'b']
  else if c = '\t' then ['\\', 't']
  else if c = '\n' then ['\\', 'n']
  else if c = '\x0c' then ['\\', 'f']
  else if c = '\r' then ['\\', 'r']
  else if c.toNat < 0x20 then
    ['\\', 'u', '0', '0', hexDigit (c.toNat / 16), hexDigit (c.toNat % 16)]
  else [c]

def escape (cs : List Char) : List Char := cs.flatMap escapeChar

/-- A string in its quotes. -/
def quote (s : String) : List Char := '"' :: (escape s.toList ++ ['"'])

def intChars : Int → List Char
  | .ofNat n => Nat.toDigits 10 n
  | .negSucc n => '-' :: Nat.toDigits 10 (n + 1)

-- ====================================================== one-line form

mutual

/-- The value without any blank between its parts. -/
def compact : Json → List Char
  | null => ['n', 'u', 'l', 'l']
  | bool true => ['t', 'r', 'u', 'e']
  | bool false => ['f', 'a', 'l', 's', 'e']
  | int n => intChars n
  | float m e => intChars m ++ 'e' :: intChars e
  | str s => quote s
  | arr [] => ['[', ']']
  | arr (v :: vs) => '[' :: (compact v ++ compactItems vs)
  | obj [] => ['{', '}']
  | obj ((k, v) :: ms) => '{' :: (quote k ++ ':' :: (compact v ++ compactMembers ms))
  | unreadable => ['"', '\\', 'u', 'd', '8', '0', '0', '"']

/-- The items after the first, and the bracket that closes them. -/
def compactItems : List Json → List Char
  | [] => [']']
  | v :: vs => ',' :: (compact v ++ compactItems vs)

/-- The members after the first, and the brace that closes them. -/
def compactMembers : List (String × Json) → List Char
  | [] => ['}']
  | (k, v) :: ms => ',' :: (quote k ++ ':' :: (compact v ++ compactMembers ms))

end

-- ======================================================= indented form

/-- A line break and two blanks for each level. -/
def newline (level : Nat) : List Char := '\n' :: List.replicate (2 * level) ' '

mutual

/-- The value with one item or member to a line. -/
def pretty (level : Nat) : Json → List Char
  | arr [] => ['[', ']']
  | arr (v :: vs) =>
    '[' :: (newline (level + 1) ++ (pretty (level + 1) v ++ prettyItems level vs))
  | obj [] => ['{', '}']
  | obj ((k, v) :: ms) =>
    '{' :: (newline (level + 1)
      ++ (quote k ++ ':' :: ' ' :: (pretty (level + 1) v ++ prettyMembers level ms)))
  | v => compact v

def prettyItems (level : Nat) : List Json → List Char
  | [] => newline level ++ [']']
  | v :: vs => ',' :: (newline (level + 1) ++ (pretty (level + 1) v ++ prettyItems level vs))

def prettyMembers (level : Nat) : List (String × Json) → List Char
  | [] => newline level ++ ['}']
  | (k, v) :: ms =>
    ',' :: (newline (level + 1)
      ++ (quote k ++ ':' :: ' ' :: (pretty (level + 1) v ++ prettyMembers level ms)))

end

/-- The one-line text of a value. -/
def render (v : Json) : String := String.ofList v.compact

/-- The indented text of a value. -/
def renderPretty (v : Json) : String := String.ofList (v.pretty 0)

end Json

end LogPipeline
