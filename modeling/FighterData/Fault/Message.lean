import FighterData.Fault
import FighterData.Text.Number
import FighterData.Text.Quoted

/-! The wording of every fault. Positions and flags are written in hexadecimal, counts in
decimal. -/
namespace FighterData
open Text

def hexBytes (data : Bytes) : String :=
  String.intercalate " " (data.map fun byte => hexPadded 2 byte.toNat)

def Mismatch.message : Mismatch → String
  | offsetOutside offset size =>
      "Offset 0x" ++ hex offset ++ " lies outside the " ++ decimal size ++ " byte buffer"
  | shortRead wanted left =>
      "Expected " ++ decimal wanted ++ " bytes, only " ++ decimal left ++ " left"
  | endOfData => "Unexpected end of data"
  | wrongMagic what expected found =>
      what ++ ": expected " ++ hexBytes expected ++ ", found " ++ hexBytes found
  | overrun what => what ++ " overruns the following block"
  | slotOrder slot offset following =>
      "Pointer table slot " ++ decimal slot ++ " at 0x" ++ hex offset
        ++ " ends before it starts (0x" ++ hex following ++ ")"
  | tableOverlap first => "First entry (0x" ++ hex first ++ ") overlaps its own pointer table"
  | spriteOrder slot offset following =>
      "Sprite " ++ decimal slot ++ " offset 0x" ++ hex offset
        ++ " is not below the next (0x" ++ hex following ++ ")"
  | spriteHeader slot => "Sprite " ++ decimal slot ++ " is shorter than its header"
  | topLevelSlots found =>
      "Top-level table needs a player and an audio slot, found " ++ decimal found
  | wrapperCut magic held stated =>
      magic ++ " stream truncated: " ++ decimal held ++ " of " ++ decimal stated ++ " bytes"
  | wrapperSize magic stated held =>
      magic ++ " size mismatch: header says " ++ decimal stated ++ ", got " ++ decimal held
  | notArchive magic => "Not an FPAC archive (magic: " ++ quotedBytes magic ++ ")"
  | archiveHeader index => "FPAC entry " ++ decimal index ++ " runs past the header"
  | archiveContents index =>
      "FPAC entry " ++ decimal index ++ " contents run past the archive"

def LineFault.message : LineFault → String
  | notAssignment token => "expected name=value, got " ++ quoted token
  | notInteger name value => name ++ " is not an integer: " ++ quoted value
  | unknownName record name =>
      record ++ ".__init__() got an unexpected keyword argument '" ++ name ++ "'"
  | reservedName record => record ++ ".__init__() got multiple values for argument 'self'"
  | unknownInstruction name => "unknown instruction " ++ quoted name
  | outsideAction => "instruction outside of an action"

def StreamFault.dataMessage? : StreamFault → Option String
  | truncated => none
  | dictionary => none
  | header => some "incorrect header check"
  | method => some "unknown compression method"
  | window => some "invalid window size"
  | check => some "incorrect data check"
  | blockType => some "invalid block type"
  | storedLengths => some "invalid stored block lengths"
  | tooManySymbols => some "too many length or distance symbols"
  | codeLengthCode => some "invalid code lengths set"
  | lengthRepeat => some "invalid bit length repeat"
  | noEndOfBlock => some "invalid code -- missing end-of-block"
  | literalCode => some "invalid literal/lengths set"
  | distanceCode => some "invalid distances set"
  | literalSymbol => some "invalid literal/length code"
  | distanceSymbol => some "invalid distance code"
  | distance => some "invalid distance too far back"

def StreamFault.message (cause : StreamFault) : String :=
  match cause.dataMessage? with
  | some text => "Error -3 while decompressing data: " ++ text
  | none =>
      if cause = .dictionary then "Error 2 while decompressing data"
      else "Error -5 while decompressing data: incomplete or truncated stream"

def Refusal.message : Refusal → String
  | missing => "[Errno 2] No such file or directory"
  | occupied => "[Errno 17] File exists"
  | notFolder => "[Errno 20] Not a directory"
  | isFolder => "[Errno 21] Is a directory"
  | nameTooLong => "[Errno 36] File name too long"
  | nullCharacter => "embedded null byte"

def NumberUse.message : NumberUse → String
  | append => "'int' object has no attribute 'append'"
  | insert => "'int' object has no attribute 'insert'"
  | last => "'int' object is not subscriptable"
  | count => "object of type 'int' has no len()"
  | iterate => "'int' object is not iterable"

def undecodable (position length : Nat) (byte : UInt8) (reason : String) : String :=
  let place :=
    if length = 1 then
      "byte 0x" ++ String.ofList (lowerHexPadded 2 byte.toNat) ++ " in position " ++ decimal position
    else
      "bytes in position " ++ decimal position ++ "-" ++ decimal (position + length - 1 : Nat)
  "'utf-8' codec can't decode " ++ place ++ ": " ++ reason

def EncodingFault.message : EncodingFault → String
  | start position byte => undecodable position 1 byte "invalid start byte"
  | continuation position length byte =>
      undecodable position length byte "invalid continuation byte"
  | cut position length byte => undecodable position length byte "unexpected end of data"

def Fault.message : Fault → String
  | mismatch cause none => cause.message
  | mismatch cause (some position) => cause.message ++ " (at 0x" ++ hex position ++ ")"
  | unknownOpcode opcode position =>
      "Unknown script opcode " ++ decimal opcode.toNat ++ " (0x" ++ hexPadded 2 opcode.toNat
        ++ ") at 0x" ++ hex position
  | noTerminator start limit =>
      "No sprite terminator between 0x" ++ hex start ++ " and 0x" ++ hex limit
  | leftover what start stop =>
      what ++ ": 0x" ++ hex start ++ "-0x" ++ hex stop ++ " holds unexpected bytes"
  | shortBuffer needed => "unpack requires a buffer of " ++ decimal needed ++ " bytes"
  | shortHeader offset length size =>
      "unpack_from requires a buffer of at least " ++ decimal (offset + length : Nat)
        ++ " bytes for unpacking " ++ decimal length ++ " bytes at offset " ++ decimal offset
        ++ " (actual buffer size is " ++ decimal size ++ ")"
  | fieldCount expected found =>
      "pack expected " ++ decimal expected ++ " items for packing (got " ++ decimal found ++ ")"
  | fieldRange => "value outside the range of its field"
  | zeroStep => "integer modulo by zero"
  | fillByte => "bytes must be in range(0, 256)"
  | lengthRange => "cannot fit 'int' into an index-sized integer"
  | memory => ""
  | noSuchSlot => "list index out of range"
  | popEmpty => "pop from empty list"
  | popOutside => "pop index out of range"
  | aliasFirst slot => "Alias slot " ++ decimal slot ++ " has no slot before it"
  | aliasDiffers slot =>
      "Alias slot " ++ decimal slot ++ " differs from slot " ++ decimal (slot - 1)
  | playerBlock size => "Player block must be 0xB0 bytes, got 0x" ++ hex size
  | scriptEnd flags found =>
      "Script-end action (flags=0x" ++ hex flags ++ ") must hold exactly one ScriptEnd, found "
        ++ quotedList found
  | bareNumber use => use.message
  | digitLimit =>
      "Exceeds the limit (4300 digits) for integer string conversion; "
        ++ "use sys.set_int_max_str_digits() to increase the limit"
  | line number cause => "Line " ++ decimal number ++ ": " ++ cause.message
  | entryKey key => "Entry must be 'player' or an object index, got " ++ quoted key
  | objectIndex index count =>
      "Object " ++ decimal index ++ " out of range (file has " ++ decimal count ++ " objects)"
  | archiveName key => quoted ("No entry named " ++ quoted key)
  | archiveNumber key => quoted ("No entry with id " ++ key)
  | imageSize width height =>
      "Palette image must be 16x16, got " ++ decimal width ++ "x" ++ decimal height
  | colorRange => "color outside the range of a pixel"
  | colorCount => "palette does not hold 256 colors"
  | stream cause => cause.message
  | notWrapped name => name ++ " is not ZCMP/DFASFPAC compressed"
  | notReproduced name => name ++ " does not decode back to the imported script"
  | encoding cause => cause.message
  | notImage path => "cannot identify image file " ++ quoted path
  | file .nullCharacter _ => Refusal.nullCharacter.message
  | file cause path => cause.message ++ ": " ++ quoted path

end FighterData
