import FighterData.Bytes

/-! The causes for which an operation is refused. The wording of each stands in one place, apart
from the types, so that a proof speaks of causes and never of text. -/
namespace FighterData

/-- How bytes fail to match the layout expected of them. -/
inductive Mismatch where
  | offsetOutside (offset : Int) (size : Nat)
  | shortRead (wanted : Int) (left : Nat)
  | endOfData
  | wrongMagic (what : String) (expected found : Bytes)
  | overrun (what : String)
  | slotOrder (slot : Nat) (offset following : Int)
  | tableOverlap (first : Int)
  | spriteOrder (slot : Nat) (offset following : Int)
  | spriteHeader (slot : Nat)
  | topLevelSlots (found : Nat)
  | wrapperCut (magic : String) (held stated : Nat)
  | wrapperSize (magic : String) (stated held : Nat)
  | notArchive (magic : Bytes)
  | archiveHeader (index : Nat)
  | archiveContents (index : Nat)
deriving DecidableEq, Repr

/-- What is wrong with one line of a listing. -/
inductive LineFault where
  | notAssignment (token : String)
  | notInteger (name value : String)
  | unknownName (record name : String)
  | reservedName (record : String)
  | unknownInstruction (name : String)
  | outsideAction
deriving DecidableEq, Repr

/-- How a compressed stream is broken. -/
inductive StreamFault where
  | truncated
  | header
  | method
  | window
  | dictionary
  | check
  | blockType
  | storedLengths
  | tooManySymbols
  | codeLengthCode
  | lengthRepeat
  | noEndOfBlock
  | literalCode
  | distanceCode
  | literalSymbol
  | distanceSymbol
  | distance
deriving DecidableEq, Repr

/-- Why a path cannot be used as asked. -/
inductive Refusal where
  | missing
  | occupied
  | notFolder
  | isFolder
  | nameTooLong
  | nullCharacter
deriving DecidableEq, Repr

/-- What was asked of a script body that holds a bare number in place of its instructions. -/
inductive NumberUse where
  | append
  | insert
  | last
  | count
  | iterate
deriving DecidableEq, Repr

/-- Where a byte string stops being UTF-8. -/
inductive EncodingFault where
  | start (position : Nat) (byte : UInt8)
  | continuation (position length : Nat) (byte : UInt8)
  | cut (position length : Nat) (byte : UInt8)
deriving DecidableEq, Repr

inductive Fault where
  | mismatch (cause : Mismatch) (position : Option Int)
  | unknownOpcode (opcode : UInt8) (position : Nat)
  | noTerminator (start limit : Int)
  | leftover (what : String) (start stop : Int)
  | shortBuffer (needed : Nat)
  | shortHeader (offset length size : Nat)
  | fieldCount (expected found : Nat)
  | fieldRange
  | zeroStep
  | fillByte
  | lengthRange
  | memory
  | noSuchSlot
  | popEmpty
  | popOutside
  | aliasFirst (slot : Int)
  | aliasDiffers (slot : Int)
  | playerBlock (size : Nat)
  | scriptEnd (flags : Int) (found : List String)
  | bareNumber (use : NumberUse)
  | digitLimit
  | line (number : Nat) (cause : LineFault)
  | entryKey (key : String)
  | objectIndex (index : Int) (count : Nat)
  | archiveName (key : String)
  | archiveNumber (key : String)
  | imageSize (width height : Nat)
  | colorRange
  | colorCount
  | stream (cause : StreamFault)
  | notWrapped (name : String)
  | notReproduced (name : String)
  | encoding (cause : EncodingFault)
  | notImage (path : String)
  | file (cause : Refusal) (path : String)
deriving DecidableEq, Repr

/-- The position that a fault reports beside its text. -/
def Fault.position? : Fault → Option Int
  | mismatch _ position => position
  | unknownOpcode _ position => some position
  | _ => none

/-- Two steps succeed together exactly if the first one does and the second does on its value. -/
theorem bind_eq_ok_iff {ε α β : Type} {first : Except ε α} {next : α → Except ε β} {b : β} :
    (first >>= next) = .ok b ↔ ∃ a, first = .ok a ∧ next a = .ok b := by
  cases first with
  | error fault => simp [bind, Except.bind]
  | ok a => simp [bind, Except.bind]

end FighterData
