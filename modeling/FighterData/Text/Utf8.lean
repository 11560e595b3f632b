import FighterData.Fault

/-! Text files in UTF-8. A file that is not valid is refused at the first byte where no character
starts, with the number of bytes that still made sense. -/
namespace FighterData.Text

def utf8 (text : String) : Bytes :=
  text.toList.flatMap String.utf8EncodeChar

def isContinuation (byte : UInt8) : Bool :=
  0x80 ≤ byte && byte ≤ 0xBF

/-- Whether a second byte may follow a lead byte: overlong forms, surrogates and code points past
the last one are excluded by their second byte. -/
def mayFollow (lead second : UInt8) : Bool :=
  isContinuation second
    && !(lead == 0xE0 && second < 0xA0) && !(lead == 0xED && 0xA0 ≤ second)
    && !(lead == 0xF0 && second < 0x90) && !(lead == 0xF4 && 0x90 ≤ second)

/-- The number of bytes of the character that a lead byte opens, zero for other bytes. -/
def characterSize (lead : UInt8) : Nat :=
  if lead < 0x80 then 1
  else if 0xC2 ≤ lead && lead ≤ 0xDF then 2
  else if 0xE0 ≤ lead && lead ≤ 0xEF then 3
  else if 0xF0 ≤ lead && lead ≤ 0xF4 then 4
  else 0

/-- How many of the bytes behind `lead` continue its character, at most `wanted`. -/
def continued (lead : UInt8) (wanted : Nat) : Bytes → Nat
  | [] => 0
  | second :: rest =>
      if wanted = 0 || !mayFollow lead second then 0
      else 1 + ((rest.take (wanted - 1)).takeWhile isContinuation).length

/-- The first place where the data are not UTF-8, searched from the given position on. -/
def firstFault (position : Nat) : Nat → Bytes → Option EncodingFault
  | 0, _ => none
  | _ + 1, [] => none
  | budget + 1, lead :: rest =>
      let size := characterSize lead
      if size = 0 then some (.start position lead)
      else
        let good := continued lead (size - 1) rest
        if good + 1 = size then firstFault (position + size) budget (rest.drop good)
        else if good = rest.length then some (.cut position (good + 1) lead)
        else some (.continuation position (good + 1) lead)

def ofUtf8 (data : Bytes) : Except EncodingFault String :=
  match String.fromUTF8? data.toByteArray with
  | some text => .ok text
  | none => .error ((firstFault 0 data.length data).getD (.start 0 0))

theorem ofUtf8_utf8 (text : String) : ofUtf8 (utf8 text) = .ok text := by
  have same : (utf8 text).toByteArray = text.toByteArray := by
    have whole := String.utf8Encode_toList (b := text)
    simpa [utf8, List.utf8Encode] using whole
  have valid : text.toByteArray.IsValidUTF8 := text.isValidUTF8
  unfold ofUtf8 String.fromUTF8?
  rw [same, dif_pos valid]
  rfl

end FighterData.Text
