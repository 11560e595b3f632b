import FighterData.Proofs.Entry.Canonical
import FighterData.Proofs.EntryArray.Partition

/-! Entries split into their header, zeros, and the blocks that the pointers of the header name. A
script splits into its actions and zeros behind them. Nothing that reading drops stands anywhere but
in a reserved slot. -/
namespace FighterData

/-- A slot with a label keeps its value. -/
theorem Slot.getElem?_spread_keep {slots : List Slot} {values : List Int} {index : Nat} {slot : Slot}
    (exact : values.length = slots.length) (place : slots[index]? = some slot)
    (named : slot.label ≠ none) : (spread slots (keep slots values))[index]? = values[index]? := by
  induction slots generalizing values index with
  | nil => cases place
  | cons first slots ih =>
      cases values with
      | nil => cases exact
      | cons value rest =>
          have same : rest.length = slots.length := by simpa using exact
          cases index with
          | zero =>
              obtain rfl := Option.some.inj place
              cases label : first.label with
              | none => exact absurd label named
              | some label => simp [keep, spread, label]
          | succ index =>
              have behind := ih same place
              cases label : first.label with
              | none => simpa [keep, spread, label] using behind
              | some label => simpa [keep, spread, label] using behind

namespace InstructionPiece

/-- The code, and a value for each slot. Only a value without a label is not in the instruction. -/
structure Splits (piece : InstructionPiece) : Prop where
  whole : Piece.bytes piece =
    (Piece.value piece).opcode.code :: piece.opcode.layout.spell piece.values
  labelled : ∀ (index : Nat) (slot : Slot), piece.opcode.slots[index]? = some slot → slot.label ≠ none →
    piece.values[index]? = (Piece.value piece).slotValues[index]?

theorem splits (piece : InstructionPiece) : piece.Splits where
  whole := rfl
  labelled := by
    intro index slot place named
    have length : piece.values.length = piece.opcode.slots.length := by
      rw [Layout.length_of_holds piece.fits, Opcode.layout, List.length_map]
    exact (Slot.getElem?_spread_keep length place named).symm

end InstructionPiece

namespace ActionPiece

/-- The header, and the instructions. An action that ends its script in the header has only the
instruction that the header spells, and nothing follows. -/
structure Splits (piece : ActionPiece) : Prop where
  whole : Piece.bytes piece = Action.headerLayout.spell (Piece.value piece).header ++
    piece.body.flatMap Piece.bytes
  shown : (Piece.value piece).instructions =
    if Action.marksScriptEnd (Piece.value piece).flags then
      [Action.headerEnd (Piece.value piece).flags]
    else piece.body.map Piece.value
  closed : Action.marksScriptEnd (Piece.value piece).flags = true → piece.body = []
  instructions : ∀ instruction ∈ piece.body, instruction.Splits

theorem splits (piece : ActionPiece) : piece.Splits where
  whole := by
    have header : (Piece.value piece).header = piece.header := piece.header_action
    rw [header]
    rfl
  shown := rfl
  closed := by
    intro marked
    have closed := piece.closed
    have same : Action.marksScriptEnd (piece.header.getD 0 0) = true := marked
    rwa [if_pos same] at closed
  instructions instruction _ := instruction.splits

end ActionPiece

namespace PlayerScriptPiece

structure Splits (piece : PlayerScriptPiece) : Prop where
  whole : Piece.bytes piece = PlayData.magic ++
    PlayData.layout.spell (Piece.value piece).playData.values ++ (Piece.value piece).block ++
      piece.actions.actions.flatMap Piece.bytes
  actions : ∀ action ∈ piece.actions.actions, action.Splits

theorem splits (piece : PlayerScriptPiece) : piece.Splits where
  whole := rfl
  actions action _ := action.splits

theorem length_pos (piece : PlayerScriptPiece) : 0 < (Piece.bytes piece).length := by
  rw [piece.splits.whole]
  simp [PlayData.magic]

end PlayerScriptPiece

namespace ObjectScriptPiece

structure Splits (piece : ObjectScriptPiece) : Prop where
  whole : Piece.bytes piece = piece.actions.actions.flatMap Piece.bytes
  actions : ∀ action ∈ piece.actions.actions, action.Splits

theorem splits (piece : ObjectScriptPiece) : piece.Splits where
  whole := rfl
  actions action _ := action.splits

end ObjectScriptPiece

theorem EntryArray.Plan.length_pos {π α : Type} [Piece π α] (plan : EntryArray.Plan π) :
    0 < (Piece.bytes plan).length := by
  have room := plan.room
  rw [length_bytes, contentLength]
  omega

theorem Sprite.Plan.length_pos (plan : Sprite.Plan) : 0 < (Piece.bytes plan).length := by
  have room := plan.room
  rw [length_bytes, contentLength]
  omega

theorem Cell.splits_plan (plan : EntryArray.Plan { cell : Cell // cell.fits = true }) :
    plan.Splits bytes :=
  plan.splits bytes_piece fun piece => piece.val.length_bytes_pos

theorem Palette.splits_plan (plan : EntryArray.Plan { palette : Palette // palette.fits = true }) :
    plan.Splits bytes := by
  refine plan.splits bytes_piece fun piece => ?_
  have length : (Piece.bytes piece).length = 1040 := length_bytes piece.property
  omega

namespace PlayerEntry.Plan

structure Splits (plan : Plan) : Prop where
  tiled : Bytes.Tiled (Piece.bytes plan)
    (Entry.headerLayout.spell plan.pointers ++ Bytes.filled 0 plan.gap) plan.pointers
    [Piece.bytes plan.cells, Piece.bytes plan.sprites,
      Piece.bytes plan.script.script ++ Bytes.filled 0 plan.script.slack,
      Piece.bytes plan.palettes]
  increasing : plan.pointers.Pairwise (· < ·)
  cells : plan.cells.Splits Cell.bytes
  sprites : plan.sprites.Splits
  script : plan.script.script.Splits
  palettes : plan.palettes.Splits Palette.bytes

theorem splits (plan : Plan) : plan.Splits where
  tiled := by
    have whole := Entry.tiled_pointersFrom (Entry.headerBytes plan.pointers plan.gap) plan.blocks
    rw [plan.length_header] at whole
    exact whole
  increasing := by
    refine Entry.increasing_pointersFrom ?_
    have solid := plan.script.script.length_pos
    simp only [blocks, List.dropLast, List.forall_mem_cons]
    refine ⟨plan.cells.length_pos, plan.sprites.length_pos, ?_, by simp⟩
    show 0 < (Piece.bytes plan.script.script ++ Bytes.filled 0 plan.script.slack).length
    rw [List.length_append]
    omega
  cells := Cell.splits_plan plan.cells
  sprites := plan.sprites.splits
  script := plan.script.script.splits
  palettes := Palette.splits_plan plan.palettes

theorem length_pos (plan : Plan) : 0 < (Piece.bytes plan).length := by
  have whole : Piece.bytes plan = Entry.headerBytes plan.pointers plan.gap ++ plan.blocks.flatten :=
    rfl
  rw [whole, List.length_append, plan.length_header]
  omega

end PlayerEntry.Plan

namespace ObjectEntry.Plan

def pointers (plan : Plan) : List Int :=
  Entry.pointersFrom (16 + plan.gap) plan.blocks

/-- The first three words of the header are pointers; the last one belongs to the entry. -/
structure Splits (plan : Plan) : Prop where
  tiled : Bytes.Tiled (Piece.bytes plan)
    (Entry.headerLayout.spell (plan.pointers ++ [(Piece.value plan).unused]) ++
      Bytes.filled 0 plan.gap) plan.pointers
    [Piece.bytes plan.cells, Piece.bytes plan.sprites,
      Piece.bytes plan.script.script ++ Bytes.filled 0 plan.script.slack]
  increasing : plan.pointers.Pairwise (· < ·)
  cells : plan.cells.Splits Cell.bytes
  sprites : plan.sprites.Splits
  script : plan.script.script.Splits

theorem splits (plan : Plan) : plan.Splits where
  tiled := by
    have whole := Entry.tiled_pointersFrom (Entry.headerBytes plan.words plan.gap) plan.blocks
    rw [plan.length_header] at whole
    exact whole
  increasing := by
    refine Entry.increasing_pointersFrom ?_
    simp only [blocks, List.dropLast, List.forall_mem_cons]
    exact ⟨plan.cells.length_pos, plan.sprites.length_pos, by simp⟩
  cells := Cell.splits_plan plan.cells
  sprites := plan.sprites.splits
  script := plan.script.script.splits

theorem length_pos (plan : Plan) : 0 < (Piece.bytes plan).length := by
  have whole : Piece.bytes plan = Entry.headerBytes plan.words plan.gap ++ plan.blocks.flatten :=
    rfl
  rw [whole, List.length_append, plan.length_header]
  omega

end ObjectEntry.Plan

end FighterData
