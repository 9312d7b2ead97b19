import OrderFlow.Json.Value
import OrderFlow.Text.Digits

/-! Writing JSON text, either on one line without blanks or indented by two spaces. -/
namespace OrderFlow.Json
open OrderFlow.Text

/-- Doubles keep a `.0` when whole, and take an exponent below `10^-5` and from `10^16` on. -/
def floatLayout : Binary.Layout where
  positional := some (-5, 16)
  wholeMark := ".0"
  exponentMark := "+"
  tieUp := false
  nan := "null"
  infinity := "null"

def floatChars (x : Float) : List Char :=
  if Binary.isFinite x then floatLayout.exactChars (Binary.exact x) else ['n', 'u', 'l', 'l']

def hexChar (n : Nat) : Char := if n < 10 then digitChar n else Char.ofNat (87 + n)

/-- A character inside a string: quotes, backslashes and control characters are escaped. -/
def escapedChars (c : Char) : List Char :=
  match c with
  | '"' => ['\\', '"']
  | '\\' => ['\\', '\\']
  | '\x08' => ['\\', 'b']
  | '\x0c' => ['\\', 'f']
  | '\n' => ['\\', 'n']
  | '\r' => ['\\', 'r']
  | '\t' => ['\\', 't']
  | c =>
    if c.toNat < 32 then ['\\', 'u', '0', '0', hexChar (c.toNat / 16), hexChar (c.toNat % 16)]
    else [c]

def stringChars (s : String) : List Char := '"' :: s.toList.flatMap escapedChars ++ ['"']

/-- How the parts of arrays and objects are set apart. -/
structure Spacing where
  /-- Written before each item and before the closing bracket, given the depth. -/
  newline : Nat → List Char
  colon : List Char

def compact : Spacing := ⟨fun _ => [], [':']⟩

def indented : Spacing := ⟨fun n => '\n' :: List.replicate (2 * n) ' ', [':', ' ']⟩

mutual

def chars (s : Spacing) (level : Nat) : Json → List Char
  | .null => ['n', 'u', 'l', 'l']
  | .bool true => ['t', 'r', 'u', 'e']
  | .bool false => ['f', 'a', 'l', 's', 'e']
  | .integer i => (if i < 0 then ['-'] else []) ++ natDigits i.natAbs
  | .float x => floatChars x
  | .string t => stringChars t
  | .array [] => ['[', ']']
  | .array (j :: js) =>
    '[' :: (s.newline (level + 1) ++ chars s (level + 1) j ++ itemsChars s (level + 1) js ++
      s.newline level ++ [']'])
  | .object [] => ['\x7b', '\x7d']
  | .object ((k, j) :: ms) =>
    '\x7b' :: (s.newline (level + 1) ++ stringChars k ++ s.colon ++ chars s (level + 1) j ++
      membersChars s (level + 1) ms ++ s.newline level ++ ['\x7d'])
  | .unreadable => ['n', 'u', 'l', 'l']

def itemsChars (s : Spacing) (level : Nat) : List Json → List Char
  | [] => []
  | j :: js => ',' :: (s.newline level ++ chars s level j ++ itemsChars s level js)

def membersChars (s : Spacing) (level : Nat) : List (String × Json) → List Char
  | [] => []
  | (k, j) :: ms =>
    ',' :: (s.newline level ++ stringChars k ++ s.colon ++ chars s level j ++
      membersChars s level ms)

end

/-- One line without blanks. -/
def toText (j : Json) : String := String.ofList (chars compact 0 j)

/-- One line per item, indented by two spaces, without a final newline. -/
def toIndentedText (j : Json) : String := String.ofList (chars indented 0 j)

end OrderFlow.Json
