import FighterData.Proofs.Cursor.Inside

/-! Sequences of reads over one buffer. An operation is one access to the buffer, one check, or the
reader of a part of the format with any positions; it leaves the cursor where its reader stops, also
when it is refused, and the next operation goes on from there. Over every sequence the buffer stays
the same and the cursor stays inside it. -/
namespace FighterData

/-- The readers that share a cursor. An array is read with any operation for its entries, and a
script block with any operation for its script. -/
inductive Operation where
  | seek (target : Int)
  | bytes (count : Int)
  | byte
  | field (width : Width) (order : ByteOrder)
  | fields (layout : Layout)
  | peek
  | expect (magic : Bytes) (what : String)
  | expectFill (start stop : Int) (fill : UInt8) (what : String)
  | expectTrailer (start stop count : Int) (what : String)
  | table (base : Int) (order : ByteOrder) (alignment : Int)
  | instruction
  | action
  | actions
  | playData
  | objectScript
  | playerScript
  | cell
  | palette
  | emptyArray (found : PointerTable) (stop : Int) (what : String)
  | array (start stop : Int) (entry : Operation) (what gap : String)
  | cells (start stop : Int)
  | sprites (start stop : Int)
  | palettes (start stop : Int)
  | header (start : Int)
  | scriptBlock (script : Operation) (start stop : Int)
  | player (start stop : Int)
  | object (start stop : Int)
  | audio (start : Int)
  | binary

namespace Operation

/-- What an operation returns when it succeeds. -/
def Value : Operation → Type
  | seek _ | expect _ _ | expectFill _ _ _ _ | expectTrailer _ _ _ _ | emptyArray _ _ _ => Unit
  | bytes _ => Bytes
  | byte | peek => UInt8
  | field _ _ => Int
  | fields _ | header _ => List Int
  | table _ _ _ => PointerTable
  | instruction => Instruction
  | action => Action
  | actions => List Action
  | playData => PlayData
  | objectScript => ObjectScript
  | playerScript => PlayerScript
  | cell => Cell
  | palette => Palette
  | array _ _ entry _ _ => List entry.Value × List Int
  | cells _ _ => List Cell × List Int
  | sprites _ _ => List Sprite
  | palettes _ _ => List Palette × List Int
  | scriptBlock script _ _ => script.Value
  | player _ _ => PlayerEntry
  | object _ _ => ObjectEntry
  | audio _ => Audio
  | binary => ObjectBinary

def reader : (operation : Operation) → Reader operation.Value
  | seek target => Reader.seek target
  | bytes count => Reader.bytes count
  | byte => Reader.byte
  | field width order => Reader.field width order
  | fields layout => Reader.fields layout
  | peek => Reader.peek
  | expect magic what => Reader.expect magic what
  | expectFill start stop fill what => Reader.expectFill start stop fill what
  | expectTrailer start stop count what => Reader.expectTrailer start stop count what
  | table base order alignment => PointerTable.read base order alignment
  | instruction => Instruction.read
  | action => Action.read
  | actions => Action.readAll
  | playData => PlayData.read
  | objectScript => ObjectScript.read
  | playerScript => PlayerScript.read
  | cell => Cell.read
  | palette => Palette.read
  | emptyArray found stop what => EntryArray.expectEmpty found stop what
  | array start stop entry what gap => EntryArray.read start stop entry.reader what gap
  | cells start stop => Cell.readArray start stop
  | sprites start stop => Sprite.readArray start stop
  | palettes start stop => Palette.readArray start stop
  | header start => Entry.readHeader start
  | scriptBlock script start stop => Entry.readScript script.reader start stop
  | player start stop => PlayerEntry.read start stop
  | object start stop => ObjectEntry.read start stop
  | audio start => Audio.read start
  | binary => ObjectBinary.read

/-- A single access, which takes place or is refused as a whole. -/
def isAccess : Operation → Bool
  | seek _ | bytes _ | byte | field _ _ | fields _ | peek => true
  | _ => false

/-- A look at a gap. -/
def isCheck : Operation → Bool
  | expectFill _ _ _ _ | expectTrailer _ _ _ _ | emptyArray _ _ _ => true
  | _ => false

theorem staysInside_reader (operation : Operation) : operation.reader.StaysInside := by
  induction operation with
  | seek target => exact Reader.staysInside_seek target
  | bytes count => exact Reader.staysInside_bytes count
  | byte => exact Reader.staysInside_byte
  | field width order => exact Reader.staysInside_field width order
  | fields layout => exact Reader.staysInside_fields layout
  | peek => exact Reader.staysInside_peek
  | expect magic what => exact Reader.staysInside_expect magic what
  | expectFill start stop fill what => exact Reader.staysInside_expectGap _ _ _ _
  | expectTrailer start stop count what => exact Reader.staysInside_expectGap _ _ _ _
  | table base order alignment => exact PointerTable.staysInside_read base order alignment
  | instruction => exact Instruction.staysInside_read
  | action => exact Action.staysInside_read
  | actions => exact Action.staysInside_readAll
  | playData => exact PlayData.staysInside_read
  | objectScript => exact ObjectScript.staysInside_read
  | playerScript => exact PlayerScript.staysInside_read
  | cell => exact Cell.staysInside_read
  | palette => exact Palette.staysInside_read
  | emptyArray found stop what => exact EntryArray.staysInside_expectEmpty found stop what
  | array start stop entry what gap ih => exact EntryArray.staysInside_read start stop ih what gap
  | cells start stop => exact Cell.staysInside_readArray start stop
  | sprites start stop => exact Sprite.staysInside_readArray start stop
  | palettes start stop => exact Palette.staysInside_readArray start stop
  | header start => exact Entry.staysInside_readHeader start
  | scriptBlock script start stop ih => exact Entry.staysInside_readScript ih start stop
  | player start stop => exact PlayerEntry.staysInside_read start stop
  | object start stop => exact ObjectEntry.staysInside_read start stop
  | audio start => exact Audio.staysInside_read start
  | binary => exact ObjectBinary.staysInside_read

theorem movesWhole_of_isAccess {operation : Operation} (access : operation.isAccess = true) :
    operation.reader.MovesWhole := by
  cases operation with
  | seek target => exact Reader.seek_movesWhole target
  | bytes count => exact Reader.bytes_movesWhole count
  | byte => exact Reader.byte_movesWhole
  | field width order => exact Reader.field_movesWhole width order
  | fields layout => exact Reader.fields_movesWhole layout
  | peek => exact Reader.peek_movesWhole
  | _ => cases access

theorem standsStill_of_isCheck {operation : Operation} (check : operation.isCheck = true) :
    operation.reader.StandsStill := by
  cases operation with
  | expectFill start stop fill what => exact Reader.expectGap_standsStill _ _ _ _
  | expectTrailer start stop count what => exact Reader.expectGap_standsStill _ _ _ _
  | emptyArray found stop what => exact Reader.expectGap_standsStill _ _ _ _
  | _ => cases check

end Operation

/-- A buffer, and the position from which it is read on. -/
structure Cursor where
  buffer : Buffer
  position : Nat
deriving DecidableEq

namespace Cursor

variable {cursor : Cursor}

def opened (data : Bytes) : Cursor :=
  ⟨data.toArray, 0⟩

def answer (cursor : Cursor) (operation : Operation) : Except Fault operation.Value :=
  (operation.reader.run cursor.buffer cursor.position).result

/-- The cursor behind an operation, which may have been refused halfway. -/
def after (cursor : Cursor) (operation : Operation) : Cursor :=
  { cursor with position := (operation.reader.run cursor.buffer cursor.position).position }

def follow (cursor : Cursor) (operations : List Operation) : Cursor :=
  operations.foldl after cursor

def Inside (cursor : Cursor) : Prop :=
  cursor.position ≤ cursor.buffer.size

/-- No operation leads out of the buffer. -/
theorem Inside.after (inside : cursor.Inside) (operation : Operation) :
    (cursor.after operation).Inside :=
  operation.staysInside_reader cursor.buffer cursor.position inside

theorem Inside.follow (inside : cursor.Inside) (operations : List Operation) :
    (cursor.follow operations).Inside := by
  induction operations generalizing cursor with
  | nil => exact inside
  | cons operation rest ih => exact ih (inside.after operation)

theorem buffer_follow (cursor : Cursor) (operations : List Operation) :
    (cursor.follow operations).buffer = cursor.buffer := by
  induction operations generalizing cursor with
  | nil => rfl
  | cons operation rest ih => exact ih (cursor.after operation)

theorem opened_inside (data : Bytes) : (opened data).Inside :=
  Nat.zero_le _

theorem after_eq_of_refused {operation : Operation} {fault : Fault}
    (access : operation.isAccess = true) (refused : cursor.answer operation = .error fault) :
    cursor.after operation = cursor := by
  have stays := Operation.movesWhole_of_isAccess access cursor.buffer cursor.position fault _
    ⟨refused, rfl⟩
  rw [after, stays]

theorem after_eq_of_check {operation : Operation} (check : operation.isCheck = true) :
    cursor.after operation = cursor := by
  rw [after, Operation.standsStill_of_isCheck check]

/-- The bytes that are read are those that the cursor passes. -/
theorem carries_of_answer {count : Int} {data : Bytes}
    (read : cursor.answer (.bytes count) = .ok data) :
    count = data.length ∧
      cursor.buffer.Carries cursor.position (cursor.after (.bytes count)).position data :=
  Reader.reads_bytes_iff.mp ⟨read, rfl⟩

/-- Over any sequence of operations, refused ones among them, the buffer stays as it was opened and
the cursor inside it. A single access that is refused leaves the cursor where it was, a check always
does, and a read of bytes returns what lies between the old position and the new one. -/
theorem follow_keeps_inside (data : Bytes) (operations : List Operation) :
    let cursor := (opened data).follow operations
    cursor.buffer = data.toArray ∧ cursor.position ≤ data.length ∧
    (∀ operation : Operation,
      (cursor.after operation).buffer = data.toArray ∧
      (cursor.after operation).position ≤ data.length ∧
      (operation.isAccess = true → ∀ fault, cursor.answer operation = .error fault →
        cursor.after operation = cursor) ∧
      (operation.isCheck = true → cursor.after operation = cursor)) ∧
    ∀ (count : Int) (read : Bytes), cursor.answer (.bytes count) = .ok read →
      cursor.position + count = (cursor.after (.bytes count)).position ∧
      read =
        (data.toArray.extract cursor.position (cursor.after (.bytes count)).position).toList := by
  intro cursor
  have same : cursor.buffer = data.toArray := buffer_follow (opened data) operations
  have size : cursor.buffer.size = data.length := by rw [same, List.size_toArray]
  have inside : cursor.Inside := (opened_inside data).follow operations
  refine ⟨same, size ▸ inside, fun operation => ⟨same, size ▸ inside.after operation, ?_, ?_⟩, ?_⟩
  · exact fun access fault refused => after_eq_of_refused access refused
  · exact fun check => after_eq_of_check check
  · intro count read answered
    obtain ⟨rfl, carried⟩ := carries_of_answer answered
    rw [← same]
    have ends := carried.stop_eq
    exact ⟨by omega, carried.eq_extract⟩

/-- Two reads that fit, a seek and a read that do not, and a magic that differs. -/
example : ((opened [7, 8, 9]).follow
    [.bytes 1, .byte, .seek 4, .bytes 5, .expect [1] "mark", .peek]).position = 3 := by
  decide

end Cursor

end FighterData
