/-! Written numbers: a minus sign and the digits of the absolute value. A width counts the sign,
and zeros fill the digits up to it. -/
namespace FighterData.Text

def decimalDigits (value : Nat) : List Char :=
  Nat.toDigits 10 value

/-- Base sixteen with capital letters. -/
def hexDigits (value : Nat) : List Char :=
  (Nat.toDigits 16 value).map Char.toUpper

def withSign (negative : Bool) (width : Nat) (digits : List Char) : String :=
  let sign := if negative then ['-'] else []
  let zeros := List.replicate (width - sign.length - digits.length) '0'
  String.ofList (sign ++ zeros ++ digits)

def decimalPadded (width : Nat) (value : Int) : String :=
  withSign (value < 0) width (decimalDigits value.natAbs)

def hexPadded (width : Nat) (value : Int) : String :=
  withSign (value < 0) width (hexDigits value.natAbs)

def decimal (value : Int) : String :=
  decimalPadded 0 value

def hex (value : Int) : String :=
  hexPadded 0 value

/-- The length of the longest decimal number that is written or read. -/
def digitLimit : Nat := 4300

/-- The least number that is longer. -/
def decimalLimit : Nat := Nat.pow 10 digitLimit

def decimalWithinLimit? (value : Int) : Option String :=
  if value.natAbs < decimalLimit then some (decimal value) else none

theorem decimalWithinLimit?_eq_some {value : Int} {text : String}
    (written : decimalWithinLimit? value = some text) : text = decimal value := by
  unfold decimalWithinLimit? at written
  split at written
  · exact (Option.some.inj written).symm
  · cases written

end FighterData.Text
