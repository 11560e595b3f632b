import FighterData.Fault.Message

/-! What a decoder reports about the structures it has passed, in the order in which it completes
them. -/
namespace FighterData
open Text

inductive Note where
  | table (base : Int) (entries : Nat) (padding : Int)
  | cells (start : Int) (count aliased : Nat)
  | sprites (start : Int) (count : Nat) (terminator : Bytes)
  | script (start actions size : Nat)
  | player (start : Int) (cells sprites actions palettes : Nat)
  | object (start : Int) (cells sprites actions : Nat)
  | audio (start : Int) (blobs : Nat)
  | binary (size objects blobs : Nat)
deriving DecidableEq, Repr

def Note.text : Note → String
  | table base entries padding =>
      "ggxx_binary: Pointer table at 0x" ++ hex base ++ ": " ++ decimal entries ++ " entries, "
        ++ decimal padding ++ " padding bytes"
  | cells start count aliased =>
      "ggxx_obj: Cells at 0x" ++ hex start ++ ": " ++ decimal count ++ " entries, "
        ++ decimal aliased ++ " aliased"
  | sprites start count terminator =>
      "ggxx_obj: Sprites at 0x" ++ hex start ++ ": " ++ decimal count
        ++ " entries, last terminator " ++ String.join (terminator.map fun b => hexPadded 2 b.toNat)
  | script start actions size =>
      "ggxx_script: Script body at 0x" ++ hex start ++ ": " ++ decimal actions ++ " actions, "
        ++ decimal size ++ " bytes"
  | player start held drawn acted coloured =>
      "ggxx_obj: Player at 0x" ++ hex start ++ ": " ++ decimal held ++ " cells, "
        ++ decimal drawn ++ " sprites, " ++ decimal acted ++ " actions, "
        ++ decimal coloured ++ " palettes"
  | object start held drawn acted =>
      "ggxx_obj: Object at 0x" ++ hex start ++ ": " ++ decimal held ++ " cells, "
        ++ decimal drawn ++ " sprites, " ++ decimal acted ++ " actions"
  | audio start blobs =>
      "ggxx_obj: Audio at 0x" ++ hex start ++ ": " ++ decimal blobs ++ " blobs"
  | binary size objects blobs =>
      "ggxx_obj: Object binary: " ++ decimal size ++ " bytes, " ++ decimal objects ++ " objects, "
        ++ decimal blobs ++ " audio blobs"

end FighterData
