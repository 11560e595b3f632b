import FighterData.ObjectBinary
import FighterData.Reader.Failure

/-! Where a reader stops, refused or not. From a position of the buffer every reader of the format
stops at a position of the buffer, whatever the pointers say that it follows: only a seek and a
read of bytes move, and they move inside the buffer or not at all. A single access that is refused
has not moved, and a look at a gap never moves. -/
namespace FighterData

namespace Reader

variable {α β : Type}

/-- From a position of the buffer the reader stops at one, refused or not. -/
def StaysInside (reader : Reader α) : Prop :=
  ∀ (buffer : Buffer) (start : Nat), start ≤ buffer.size →
    (reader.run buffer start).position ≤ buffer.size

/-- The reader stops where it starts, refused or not. -/
def StandsStill (reader : Reader α) : Prop :=
  ∀ (buffer : Buffer) (start : Nat), (reader.run buffer start).position = start

/-- A reader that is refused stops where it starts. -/
def MovesWhole (reader : Reader α) : Prop :=
  ∀ (buffer : Buffer) (start : Nat) (fault : Fault) (stop : Nat),
    reader.Refuses buffer start fault stop → stop = start

theorem StandsStill.staysInside {reader : Reader α} (still : reader.StandsStill) :
    reader.StaysInside := by
  intro buffer start inside
  rw [still]
  exact inside

section Chains

theorem staysInside_pure (a : α) : (pure a : Reader α).StaysInside :=
  StandsStill.staysInside fun _ _ => rfl

theorem staysInside_refuse (fault : Fault) : (refuse fault : Reader α).StaysInside :=
  StandsStill.staysInside fun _ _ => rfl

theorem staysInside_lift (result : Except Fault α) : (lift result).StaysInside :=
  StandsStill.staysInside fun _ _ => rfl

theorem staysInside_note (entry : Note) : (note entry).StaysInside :=
  StandsStill.staysInside fun _ _ => rfl

theorem staysInside_position : position.StaysInside :=
  StandsStill.staysInside fun _ _ => rfl

theorem staysInside_buffer : buffer.StaysInside :=
  StandsStill.staysInside fun _ _ => rfl

theorem staysInside_size : size.StaysInside :=
  StandsStill.staysInside fun _ _ => rfl

/-- The second reader starts where the first one stops, or nothing follows a refusal. -/
theorem StaysInside.bind {first : Reader α} {next : α → Reader β} (stays : first.StaysInside)
    (behind : ∀ a, (next a).StaysInside) : (first >>= next).StaysInside := by
  intro buffer start inside
  have reached := stays buffer start inside
  cases found : first buffer start with
  | mk result middle notes =>
      rw [run, found] at reached
      cases result with
      | error fault => simpa [run, Bind.bind, andThen, found] using reached
      | ok a => simpa [run, Bind.bind, andThen, found] using behind a buffer middle reached

/-- Nothing behind a refusal is read. -/
theorem staysInside_refuse_bind (fault : Fault) (next : α → Reader β) :
    (refuse fault >>= next).StaysInside :=
  StandsStill.staysInside fun _ _ => rfl

theorem StaysInside.times {item : Reader α} (stays : item.StaysInside) (count : Nat) :
    (times item count).StaysInside := by
  induction count with
  | zero => exact staysInside_pure []
  | succ count ih => exact stays.bind fun _ => ih.bind fun _ => staysInside_pure _

theorem StaysInside.forEach {item : α → Reader β} (each : ∀ a, (item a).StaysInside)
    (items : List α) : (forEach item items).StaysInside := by
  induction items with
  | nil => exact staysInside_pure []
  | cons a rest ih => exact (each a).bind fun _ => ih.bind fun _ => staysInside_pure _

theorem StaysInside.upToLast {item : Reader α} (stays : item.StaysInside) (isLast : α → Bool) :
    (upToLast item isLast).StaysInside := by
  have within (budget : Nat) : (upToLastWithin item isLast budget).StaysInside := by
    induction budget with
    | zero => exact stays.bind fun _ => staysInside_pure _
    | succ budget ih =>
        refine stays.bind fun a => ?_
        split
        · exact staysInside_pure _
        · exact ih.bind fun _ => staysInside_pure _
  intro buffer start inside
  exact within (buffer.size - start) buffer start inside

end Chains

section Accesses

theorem seek_movesWhole (target : Int) : (seek target).MovesWhole :=
  fun _ _ _ _ refused => (refuses_seek_iff.mp refused).2.2

theorem bytes_movesWhole (count : Int) : (bytes count).MovesWhole :=
  fun _ _ _ _ refused => (refuses_bytes_iff.mp refused).2.2

theorem field_movesWhole (width : Width) (order : ByteOrder) : (field width order).MovesWhole :=
  fun _ _ _ _ refused => bytes_movesWhole _ _ _ _ _ (refuses_field_iff.mp refused)

theorem fields_movesWhole (layout : Layout) : (fields layout).MovesWhole :=
  fun _ _ _ _ refused => bytes_movesWhole _ _ _ _ _ (refuses_fields_iff.mp refused)

theorem byte_movesWhole : byte.MovesWhole :=
  fun _ _ _ _ refused => bytes_movesWhole _ _ _ _ _ (refuses_byte_iff.mp refused)

theorem peek_movesWhole : peek.MovesWhole :=
  fun _ _ _ _ refused => (refuses_peek_iff.mp refused).2.2

/-- A reader that is refused without having moved stays inside if its successes do. -/
theorem MovesWhole.staysInside {reader : Reader α} (whole : reader.MovesWhole)
    (reads : ∀ buffer start a stop, reader.Reads buffer start a stop → start ≤ buffer.size →
      stop ≤ buffer.size) : reader.StaysInside := by
  intro buffer start inside
  obtain ⟨a, stop, read⟩ | ⟨fault, stop, refused⟩ := reads_or_refuses reader buffer start
  · rw [read.2]
    exact reads buffer start a stop read inside
  · rw [refused.2, whole buffer start fault stop refused]
    exact inside

theorem staysInside_seek (target : Int) : (seek target).StaysInside :=
  (seek_movesWhole target).staysInside fun _ _ _ _ read _ => (reads_seek_iff.mp read).2

theorem staysInside_bytes (count : Int) : (bytes count).StaysInside :=
  (bytes_movesWhole count).staysInside fun _ _ _ _ read _ => (reads_bytes_iff.mp read).2.stop_le

theorem staysInside_field (width : Width) (order : ByteOrder) : (field width order).StaysInside :=
  (staysInside_bytes _).bind fun _ => staysInside_pure _

theorem staysInside_fields (layout : Layout) : (fields layout).StaysInside :=
  (staysInside_bytes _).bind fun _ => staysInside_pure _

theorem staysInside_byte : byte.StaysInside :=
  (staysInside_bytes _).bind fun _ => staysInside_pure _

theorem staysInside_peek : peek.StaysInside := by
  refine peek_movesWhole.staysInside fun buffer start next stop read inside => ?_
  rw [(reads_peek_iff.mp read).2]
  exact inside

/-- Unlike a read that is too short, bytes that are no magic have been consumed. -/
theorem staysInside_expect (magic : Bytes) (what : String) : (expect magic what).StaysInside := by
  refine staysInside_position.bind fun start => (staysInside_bytes _).bind fun found => ?_
  split
  · exact staysInside_refuse _
  · exact staysInside_pure _

theorem expectGap_standsStill (first last : Int) (accepts : Bytes → Bool) (what : String) :
    (expectGap first last accepts what).StandsStill := by
  intro buffer start
  obtain ⟨_, stop, read⟩ | ⟨fault, stop, refused⟩ :=
    reads_or_refuses (expectGap first last accepts what) buffer start
  · rw [read.2, (reads_expectGap_iff.mp read).2.2]
  · rw [refused.2, (refuses_expectGap_iff.mp refused).1]

theorem staysInside_expectGap (first last : Int) (accepts : Bytes → Bool) (what : String) :
    (expectGap first last accepts what).StaysInside :=
  (expectGap_standsStill first last accepts what).staysInside

end Accesses

end Reader

open Reader

theorem PointerTable.staysInside_read (base : Int) (order : ByteOrder) (alignment : Int) :
    (PointerTable.read base order alignment).StaysInside := by
  refine (staysInside_seek _).bind fun _ => ?_
  refine ((staysInside_field _ _).upToLast _).bind fun words => ?_
  refine staysInside_position.bind fun stop => (staysInside_lift _).bind fun padding => ?_
  refine (staysInside_expectGap _ _ _ _).bind fun _ => (staysInside_seek _).bind fun _ => ?_
  exact (staysInside_note _).bind fun _ => staysInside_pure _

namespace EntryArray

variable {α : Type} {entry : Reader α}

theorem staysInside_expectEmpty (table : PointerTable) (stop : Int) (what : String) :
    (expectEmpty table stop what).StaysInside :=
  staysInside_expectGap _ _ _ _

theorem staysInside_readSlot (table : PointerTable) (aliases : List Nat) (length : Int)
    (stays : entry.StaysInside) (what gap : String) (slot : Nat) :
    (readSlot table aliases length entry what gap slot).StaysInside := by
  refine (staysInside_lift _).bind fun span => (staysInside_seek _).bind fun _ => ?_
  refine stays.bind fun value => ?_
  split
  · exact staysInside_pure _
  · refine staysInside_position.bind fun stop => ?_
    split
    · exact (staysInside_expectGap _ _ _ _).bind fun _ => staysInside_pure _
    · exact (staysInside_expectGap _ _ _ _).bind fun _ => staysInside_pure _

/-- An array stays inside with every entry that does. -/
theorem staysInside_read (start stop : Int) (stays : entry.StaysInside) (what gap : String) :
    (read start stop entry what gap).StaysInside := by
  refine (PointerTable.staysInside_read _ _ _).bind fun table => ?_
  split
  · exact (staysInside_expectEmpty _ _ _).bind fun _ => staysInside_pure _
  · refine (StaysInside.forEach (fun slot => ?_) _).bind fun _ => staysInside_pure _
    exact staysInside_readSlot _ _ _ stays _ _ slot

end EntryArray

namespace Cell

theorem staysInside_read : read.StaysInside := by
  have box : Box.read.StaysInside := (staysInside_fields _).bind fun _ => staysInside_pure _
  have info : SpriteInfo.read.StaysInside := (staysInside_fields _).bind fun _ => staysInside_pure _
  refine (staysInside_field _ _).bind fun count => (box.times _).bind fun boxes => ?_
  exact info.bind fun _ => staysInside_pure _

theorem staysInside_readArray (start stop : Int) : (readArray start stop).StaysInside := by
  refine (EntryArray.staysInside_read _ _ staysInside_read _ _).bind fun _ => ?_
  exact (staysInside_note _).bind fun _ => staysInside_pure _

end Cell

namespace Palette

theorem staysInside_read : read.StaysInside :=
  (staysInside_fields _).bind fun _ => staysInside_pure _

theorem staysInside_readArray (start stop : Int) : (readArray start stop).StaysInside :=
  EntryArray.staysInside_read _ _ staysInside_read _ _

end Palette

namespace Sprite

theorem staysInside_readBounded (table : PointerTable) (start stop : Int) (slot : Nat) :
    (readBounded table start stop slot).StaysInside := by
  refine (staysInside_lift _).bind fun span => ?_
  dsimp only
  split
  · refine (staysInside_lift _).bind fun _ => (staysInside_lift _).bind fun _ => ?_
    exact staysInside_refuse_bind _ _
  · split
    · exact staysInside_refuse_bind _ _
    · refine (staysInside_seek _).bind fun _ => (staysInside_fields _).bind fun header => ?_
      exact (staysInside_bytes _).bind fun _ => staysInside_pure _

/-- The scan for the end looks at the buffer without moving in it. -/
theorem staysInside_readLast (table : PointerTable) (start stop : Int) (slot : Nat) :
    (readLast table start stop slot).StaysInside := by
  refine (staysInside_lift _).bind fun span => (staysInside_seek _).bind fun _ => ?_
  refine (staysInside_fields _).bind fun header => staysInside_position.bind fun body => ?_
  refine staysInside_buffer.bind fun held => (staysInside_lift _).bind fun found => ?_
  refine (staysInside_expectGap _ _ _ _).bind fun _ => ?_
  exact (staysInside_note _).bind fun _ => staysInside_pure _

theorem staysInside_readArray (start stop : Int) : (readArray start stop).StaysInside := by
  refine (PointerTable.staysInside_read _ _ _).bind fun table => ?_
  split
  · exact (EntryArray.staysInside_expectEmpty _ _ _).bind fun _ => staysInside_pure _
  · refine (StaysInside.forEach (fun slot => ?_) _).bind fun bounded => ?_
    · exact staysInside_readBounded _ _ _ slot
    · exact (staysInside_readLast _ _ _ _).bind fun _ => staysInside_pure _

end Sprite

theorem Instruction.staysInside_read : Instruction.read.StaysInside := by
  refine staysInside_position.bind fun start => staysInside_byte.bind fun code => ?_
  split
  · exact staysInside_refuse _
  · exact (staysInside_fields _).bind fun _ => staysInside_pure _

namespace Action

theorem staysInside_read : read.StaysInside := by
  refine (staysInside_fields _).bind fun header => ?_
  dsimp only
  split
  · exact staysInside_pure _
  · exact (Instruction.staysInside_read.upToLast _).bind fun _ => staysInside_pure _

theorem staysInside_readAll : readAll.StaysInside := by
  refine staysInside_position.bind fun start => (staysInside_read.upToLast _).bind fun actions => ?_
  refine staysInside_position.bind fun stop => ?_
  exact (staysInside_note _).bind fun _ => staysInside_pure _

end Action

theorem PlayData.staysInside_read : PlayData.read.StaysInside := by
  refine (staysInside_expect _ _).bind fun _ => ?_
  exact (staysInside_bytes _).bind fun _ => staysInside_pure _

theorem ObjectScript.staysInside_read : ObjectScript.read.StaysInside :=
  Action.staysInside_readAll.bind fun _ => staysInside_pure _

theorem PlayerScript.staysInside_read : PlayerScript.read.StaysInside := by
  refine PlayData.staysInside_read.bind fun _ => (staysInside_bytes _).bind fun _ => ?_
  exact Action.staysInside_readAll.bind fun _ => staysInside_pure _

namespace Entry

theorem staysInside_readHeader (start : Int) : (readHeader start).StaysInside := by
  refine (staysInside_seek _).bind fun _ => (staysInside_fields _).bind fun pointers => ?_
  exact (staysInside_expectGap _ _ _ _).bind fun _ => staysInside_pure _

theorem staysInside_readScript {α : Type} {script : Reader α} (stays : script.StaysInside)
    (start stop : Int) : (readScript script start stop).StaysInside := by
  refine (staysInside_seek _).bind fun _ => stays.bind fun value => ?_
  refine staysInside_position.bind fun place => ?_
  exact (staysInside_expectGap _ _ _ _).bind fun _ => staysInside_pure _

end Entry

theorem PlayerEntry.staysInside_read (start stop : Int) :
    (PlayerEntry.read start stop).StaysInside := by
  refine (Entry.staysInside_readHeader _).bind fun pointers => ?_
  refine (Cell.staysInside_readArray _ _).bind fun cells => ?_
  refine (Sprite.staysInside_readArray _ _).bind fun sprites => ?_
  refine (Entry.staysInside_readScript PlayerScript.staysInside_read _ _).bind fun script => ?_
  refine (Palette.staysInside_readArray _ _).bind fun palettes => ?_
  exact (staysInside_note _).bind fun _ => staysInside_pure _

theorem ObjectEntry.staysInside_read (start stop : Int) :
    (ObjectEntry.read start stop).StaysInside := by
  refine (Entry.staysInside_readHeader _).bind fun pointers => ?_
  refine (Cell.staysInside_readArray _ _).bind fun cells => ?_
  refine (Sprite.staysInside_readArray _ _).bind fun sprites => ?_
  refine (Entry.staysInside_readScript ObjectScript.staysInside_read _ _).bind fun script => ?_
  exact (staysInside_note _).bind fun _ => staysInside_pure _

theorem Audio.staysInside_read (start : Int) : (Audio.read start).StaysInside := by
  refine (PointerTable.staysInside_read _ _ _).bind fun table => ?_
  refine staysInside_size.bind fun size => ?_
  dsimp only
  split
  · split
    · exact staysInside_refuse_bind _ _
    · exact staysInside_pure _
  · refine (StaysInside.forEach (fun slot => ?_) _).bind fun blobs => ?_
    · refine (staysInside_lift _).bind fun span => ?_
      exact (staysInside_seek _).bind fun _ => staysInside_bytes _
    · exact (staysInside_note _).bind fun _ => staysInside_pure _

theorem ObjectBinary.staysInside_read : ObjectBinary.read.StaysInside := by
  refine (PointerTable.staysInside_read _ _ _).bind fun table => ?_
  dsimp only
  split
  · exact staysInside_refuse_bind _ _
  · refine staysInside_position.bind fun behind => (staysInside_seek _).bind fun _ => ?_
    refine (staysInside_field _ _).bind fun audioStart => ?_
    refine (PlayerEntry.staysInside_read _ _).bind fun player => ?_
    refine (StaysInside.forEach (fun bound => ObjectEntry.staysInside_read _ _) _).bind
      fun objects => ?_
    refine (Audio.staysInside_read _).bind fun audio => staysInside_size.bind fun size => ?_
    exact (staysInside_note _).bind fun _ => staysInside_pure _

end FighterData
