import FighterData.Action
import FighterData.Alignment
import FighterData.Archive
import FighterData.Audio
import FighterData.Bytes
import FighterData.Cell
import FighterData.Command.Archives
import FighterData.Command.Binaries
import FighterData.Command.Job
import FighterData.Command.Line
import FighterData.Command.Palettes
import FighterData.Command.Scripts
import FighterData.Deflate.Alphabet
import FighterData.Deflate.Bits
import FighterData.Deflate.Block
import FighterData.Deflate.Code
import FighterData.Deflate.Inflate
import FighterData.Deflate.LengthRuns
import FighterData.Deflate.Search
import FighterData.Deflate.Source
import FighterData.Deflate.Stored
import FighterData.Deflate.Token
import FighterData.Deflate.WordLengths
import FighterData.Edit
import FighterData.Entry
import FighterData.EntryArray
import FighterData.Fault
import FighterData.Fault.Message
import FighterData.Fill
import FighterData.Image
import FighterData.Image.PaletteImage
import FighterData.Image.Png
import FighterData.Instruction
import FighterData.Listing
import FighterData.Main
import FighterData.ObjectBinary
import FighterData.Opcode
import FighterData.Palette
import FighterData.Path
import FighterData.PointerTable
import FighterData.Proofs.Alignment
import FighterData.Proofs.Archive
import FighterData.Proofs.Archive.Refusals
import FighterData.Proofs.Audio.Plan
import FighterData.Proofs.Audio.Writing
import FighterData.Proofs.Command.Extraction
import FighterData.Proofs.Command.Failing
import FighterData.Proofs.Command.Job
import FighterData.Proofs.Command.Palettes
import FighterData.Proofs.Command.Recoloring
import FighterData.Proofs.Command.Saving
import FighterData.Proofs.Command.Scripts
import FighterData.Proofs.Command.Verify
import FighterData.Proofs.Cursor.Inside
import FighterData.Proofs.Cursor.Run
import FighterData.Proofs.Entry.Canonical
import FighterData.Proofs.Entry.Layout
import FighterData.Proofs.Entry.Partition
import FighterData.Proofs.Entry.Plan
import FighterData.Proofs.Entry.Refusals
import FighterData.Proofs.Entry.Sections
import FighterData.Proofs.Entry.Writing
import FighterData.Proofs.EntryArray.Entries
import FighterData.Proofs.EntryArray.Partition
import FighterData.Proofs.EntryArray.Pieces
import FighterData.Proofs.EntryArray.Plan
import FighterData.Proofs.EntryArray.Reading
import FighterData.Proofs.EntryArray.Runs
import FighterData.Proofs.EntryArray.Slots
import FighterData.Proofs.EntryArray.Writing
import FighterData.Proofs.Faithful
import FighterData.Proofs.Image.Pixels
import FighterData.Proofs.Image.Png
import FighterData.Proofs.Listing.Decoded
import FighterData.Proofs.Listing.Faults
import FighterData.Proofs.Listing.Layout
import FighterData.Proofs.Listing.Lines
import FighterData.Proofs.Listing.RoundTrip
import FighterData.Proofs.ObjectBinary.Canonical
import FighterData.Proofs.ObjectBinary.Extension
import FighterData.Proofs.ObjectBinary.Layout
import FighterData.Proofs.ObjectBinary.Partition
import FighterData.Proofs.ObjectBinary.Plan
import FighterData.Proofs.ObjectBinary.Reading
import FighterData.Proofs.ObjectBinary.Refusals
import FighterData.Proofs.ObjectBinary.RoundTrip
import FighterData.Proofs.ObjectBinary.Writing
import FighterData.Proofs.Piece
import FighterData.Proofs.PointerTable.Blocks
import FighterData.Proofs.PointerTable.Placing
import FighterData.Proofs.PointerTable.Reading
import FighterData.Proofs.PointerTable.Refusals
import FighterData.Proofs.PointerTable.RoundTrip
import FighterData.Proofs.PointerTable.Spans
import FighterData.Proofs.PointerTable.Spelling
import FighterData.Proofs.PointerTable.Writing
import FighterData.Proofs.Reading
import FighterData.Proofs.Record
import FighterData.Proofs.Refusals
import FighterData.Proofs.Script.Canonical
import FighterData.Proofs.Script.Operands
import FighterData.Proofs.Script.Pieces
import FighterData.Proofs.Script.Refusals
import FighterData.Proofs.Script.RoundTrip
import FighterData.Proofs.Script.Writing
import FighterData.Proofs.Sprite.Earliest
import FighterData.Proofs.Sprite.Plan
import FighterData.Proofs.Sprite.Refusals
import FighterData.Proofs.Sprite.Scan
import FighterData.Proofs.Sprite.Writing
import FighterData.Proofs.Text.Layout
import FighterData.Proofs.Text.Literal
import FighterData.Proofs.Text.Words
import FighterData.Proofs.Tiling
import FighterData.Proofs.Trailer
import FighterData.Proofs.Workspace
import FighterData.Proofs.Workspace.Inside
import FighterData.Proofs.Wrapper
import FighterData.Reader
import FighterData.Reader.Failure
import FighterData.Reader.Success
import FighterData.Script
import FighterData.Selection
import FighterData.Sprite
import FighterData.Text.Blank
import FighterData.Text.Case
import FighterData.Text.Digit
import FighterData.Text.JisRows
import FighterData.Text.Literal
import FighterData.Text.Number
import FighterData.Text.Printable
import FighterData.Text.Quoted
import FighterData.Text.ShiftJis
import FighterData.Text.Utf8
import FighterData.Trace
import FighterData.Word
import FighterData.Workspace
import FighterData.Wrapper
import FighterData.Zlib
import FighterData.Zlib.Lossless
import FighterData.Zlib.Size
