import FighterData.Bytes
import FighterData.Text.Printable

/-! Quoted text inside a message. The quotes are single, unless the text holds a single quote and
no double one; the quote in use and the backslash are escaped, and so is every character that
does not print. -/
namespace FighterData.Text

def lowerHexPadded (width value : Nat) : List Char :=
  let digits := Nat.toDigits 16 value
  List.replicate (width - digits.length) '0' ++ digits

def quoteFor (holdsSingle holdsDouble : Bool) : Char :=
  if holdsSingle && !holdsDouble then '"' else '\''

def escapeCode (code : Nat) : List Char :=
  if code ≤ 0xFF then '\\' :: 'x' :: lowerHexPadded 2 code
  else if code ≤ 0xFFFF then '\\' :: 'u' :: lowerHexPadded 4 code
  else '\\' :: 'U' :: lowerHexPadded 8 code

def escapeWith (quote : Char) (prints : Char → Bool) (c : Char) : List Char :=
  if c = quote || c = '\\' then ['\\', c]
  else if c = '\n' then ['\\', 'n']
  else if c = '\r' then ['\\', 'r']
  else if c = '\t' then ['\\', 't']
  else if prints c then [c]
  else escapeCode c.toNat

def quoted (text : String) : String :=
  let chars := text.toList
  let quote := quoteFor (chars.contains '\'') (chars.contains '"')
  String.ofList (quote :: chars.flatMap (escapeWith quote isPrintable) ++ [quote])

/-- Bytes are quoted like text of the same codes, where only ASCII prints. -/
def quotedBytes (data : Bytes) : String :=
  let chars := data.map fun byte => Char.ofNat byte.toNat
  let quote := quoteFor (chars.contains '\'') (chars.contains '"')
  let prints := fun c : Char => 0x20 ≤ c.toNat && c.toNat < 0x7F
  String.ofList ('b' :: quote :: chars.flatMap (escapeWith quote prints) ++ [quote])

/-- A list of quoted items between brackets. -/
def quotedList (items : List String) : String :=
  "[" ++ String.intercalate ", " (items.map quoted) ++ "]"

end FighterData.Text
