import FighterData.Bytes
import FighterData.Text.JisRows

/-! Names in Shift-JIS: ASCII, half-width katakana and double-byte characters. A byte that begins
none of these is replaced by U+FFFD alone, and decoding goes on right behind it. -/
namespace FighterData.Text

def isLeadByte (byte : UInt8) : Bool :=
  (0x81 ≤ byte && byte ≤ 0x9F) || (0xE0 ≤ byte && byte ≤ 0xFC)

def isTrailByte (byte : UInt8) : Bool :=
  (0x40 ≤ byte && byte ≤ 0x7E) || (0x80 ≤ byte && byte ≤ 0xFC)

/-- Two rows share a lead byte; the trail byte tells them apart. -/
def doubleByte? (lead trail : UInt8) : Option Char :=
  if isLeadByte lead && isTrailByte trail then
    let pair := lead.toNat - (if lead < 0xA0 then 0x81 else 0xC1)
    let place := trail.toNat - (if trail < 0x7F then 0x40 else 0x41)
    jisCharacter? (2 * pair + place / 94) (place % 94)
  else none

def singleByte? (byte : UInt8) : Option Char :=
  if byte < 0x80 then some (Char.ofNat byte.toNat)
  else if 0xA1 ≤ byte && byte ≤ 0xDF then some (Char.ofNat (0xFF61 + byte.toNat - 0xA1))
  else none

def shiftJisChars : Bytes → List Char
  | [] => []
  | byte :: rest =>
      match singleByte? byte with
      | some c => c :: shiftJisChars rest
      | none =>
          match rest with
          | [] => ['\uFFFD']
          | trail :: after =>
              match doubleByte? byte trail with
              | some c => c :: shiftJisChars after
              | none => '\uFFFD' :: shiftJisChars (trail :: after)

def shiftJis (data : Bytes) : String :=
  String.ofList (shiftJisChars data)

end FighterData.Text
