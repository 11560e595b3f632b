import FighterData.Text.Blank
import FighterData.Text.Digit
import FighterData.Text.Number

/-! Integer literals: an optional sign, then decimal digits of any script, or hexadecimal, octal or
binary digits behind `0x`, `0o` or `0b`. A single underscore may stand between two digits and
behind such a mark. A decimal literal with a leading zero denotes zero or nothing. -/
namespace FighterData.Text

/-- The blanks that may surround a literal; the ASCII separators are not among them. -/
def isLiteralBlank (c : Char) : Bool :=
  isBlank c && !(0x1C ≤ c.toNat && c.toNat ≤ 0x1F)

def trimLiteral (text : List Char) : List Char :=
  ((text.dropWhile isLiteralBlank).reverse.dropWhile isLiteralBlank).reverse

def literalDigit? (c : Char) : Option Nat :=
  if 'a' ≤ c && c ≤ 'z' then some (c.toNat - 'a'.toNat + 10)
  else if 'A' ≤ c && c ≤ 'Z' then some (c.toNat - 'A'.toNat + 10)
  else digitValue? c

def digitIn? (base : Nat) (c : Char) : Option Nat :=
  (literalDigit? c).filter (· < base)

/-- Digits with single underscores between them. The flag tells whether an underscore may come
next, which is also what it takes to stop. -/
def literalDigits? (base : Nat) (afterDigit : Bool) : List Char → Option (List Nat)
  | [] => if afterDigit then some [] else none
  | c :: rest =>
      if c = '_' then
        if afterDigit then literalDigits? base false rest else none
      else
        match digitIn? base c with
        | none => none
        | some digit => (literalDigits? base true rest).map (digit :: ·)

def ofDigits (base : Nat) (digits : List Nat) : Nat :=
  digits.foldl (fun total digit => total * base + digit) 0

def markedBase? (c : Char) : Option Nat :=
  if c = 'x' || c = 'X' then some 16
  else if c = 'o' || c = 'O' then some 8
  else if c = 'b' || c = 'B' then some 2
  else none

def decimalLiteral? (text : List Char) : Option Nat := do
  let digits ← literalDigits? 10 false text
  if digits.length > digitLimit then none
  else
    let value := ofDigits 10 digits
    if digits.head? = some 0 && value ≠ 0 then none else some value

def magnitude? : List Char → Option Nat
  | [] => none
  | [c] => decimalLiteral? [c]
  | c :: mark :: rest =>
      match (if digitValue? c = some 0 then markedBase? mark else none) with
      | some base =>
          let digits := match rest with
            | '_' :: after => after
            | _ => rest
          (literalDigits? base false digits).map (ofDigits base)
      | none => decimalLiteral? (c :: mark :: rest)

/-- The value of an integer literal, or nothing for any other text. -/
def literal? (text : String) : Option Int :=
  match trimLiteral text.toList with
  | '-' :: rest => (magnitude? rest).map fun value => -(value : Int)
  | '+' :: rest => (magnitude? rest).map fun value => (value : Int)
  | rest => (magnitude? rest).map fun value => (value : Int)

end FighterData.Text
