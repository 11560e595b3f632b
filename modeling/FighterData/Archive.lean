import FighterData.Alignment
import FighterData.Text.Literal
import FighterData.Text.ShiftJis
import FighterData.Wrapper

/-! FPAC archives: a header, a record for each file with its numbers, its place and perhaps its
name, and the contents of the files. The records are aligned within the archive, whatever size the
names have. -/
namespace FighterData

structure ArchiveEntry where
  name : Option String
  fileId : Nat
  hashId : Nat
  contents : Bytes
deriving DecidableEq

namespace ArchiveEntry

/-- The name that the file gets outside the archive. -/
def outputName (entry : ArchiveEntry) : String :=
  match entry.name with
  | some name => if name.isEmpty then numbered else name
  | none => numbered
where
  numbered : String :=
    Text.decimalPadded 4 entry.fileId ++ "_" ++ Text.hexPadded 8 entry.hashId ++ ".bin"

def hasNumber (entry : ArchiveEntry) (number : Int) : Bool :=
  number = entry.fileId || number = entry.hashId

end ArchiveEntry

namespace Archive

def magic : Bytes := [0x46, 0x50, 0x41, 0x43]

def recordsStart : Nat := 0x20

def recordSize : Nat := 16

/-- The style bit of archives whose files have numbers only. -/
def idOnlyBit : Nat := 1

structure Header where
  dataStart : Nat
  fileCount : Nat
  style : Nat
  nameSize : Nat
deriving DecidableEq, Repr

/-- The bytes between two places, cut at the end of the archive. -/
def slice (archive : Buffer) (start stop : Nat) : Bytes :=
  (archive.extract start stop).toList

def word (archive : Buffer) (place : Nat) : Nat :=
  Bytes.toNat (slice archive place (place + 4))

def readHeader (archive : Buffer) : Except Fault Header :=
  if !magic.isPrefixOf (slice archive 0 4) then
    .error (.mismatch (.notArchive (slice archive 0 4)) (some 0))
  else if archive.size < 24 then .error (.shortHeader 4 20 archive.size)
  else .ok ⟨word archive 4, word archive 12, word archive 16, word archive 20⟩

def Header.hasNames (header : Header) : Bool :=
  !header.style.testBit idOnlyBit && 0 < header.nameSize

/-- The name up to its first zero byte. -/
def readName (header : Header) (archive : Buffer) (place : Nat) : Option String :=
  if header.hasNames then
    let raw := slice archive place (place + header.nameSize)
    some (Text.shiftJis (raw.takeWhile (· ≠ 0)))
  else none

/-- Where the numbers of a record stand, behind its name. -/
def Header.numbersPlace (header : Header) (place : Nat) : Nat :=
  if header.hasNames then place + header.nameSize else place

def readRecord (header : Header) (archive : Buffer) (index place : Nat) :
    Except Fault ArchiveEntry :=
  let numbers := header.numbersPlace place
  if archive.size < numbers + recordSize then
    .error (.mismatch (.archiveHeader index) (some numbers))
  else
    let start := header.dataStart + word archive (numbers + 4)
    let size := word archive (numbers + 8)
    if archive.size < start + size then
      .error (.mismatch (.archiveContents index) (some start))
    else
      .ok {
        name := readName header archive place
        fileId := word archive numbers
        hashId := word archive (numbers + 12)
        contents := slice archive start (start + size) }

/-- Where the record behind the one at `place` starts. -/
def nextPlace (header : Header) (place : Nat) : Nat :=
  let stop := header.numbersPlace place + recordSize
  stop + Alignment.gapNat stop recordSize

def readRecords (header : Header) (archive : Buffer) (index place : Nat) :
    Nat → Except Fault (List ArchiveEntry)
  | 0 => return []
  | count + 1 => do
      let entry ← readRecord header archive index place
      let rest ← readRecords header archive (index + 1) (nextPlace header place) count
      return entry :: rest

/-- The files of an archive, which may itself be compressed. -/
def read (data : Bytes) : Except Fault (List ArchiveEntry) := do
  let contents ← Wrapper.contents data
  let archive := contents.toArray
  let header ← readHeader archive
  readRecords header archive 0 recordsStart header.fileCount

/-- The first entry with that name, or else the first with that number or hash. -/
def findIndex (entries : List ArchiveEntry) (key : String) : Except Fault Nat :=
  match entries.findIdx? fun entry => entry.name == some key with
  | some index => .ok index
  | none =>
      match Text.literal? key with
      | none => .error (.archiveName key)
      | some number =>
          match entries.findIdx? (·.hasNumber number) with
          | some index => .ok index
          | none => .error (.archiveNumber key)

end Archive

end FighterData
