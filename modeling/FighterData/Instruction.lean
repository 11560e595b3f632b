import FighterData.Opcode
import FighterData.Reader.Success

/-! One instruction of a script: an opcode and the values of its named operands, reserved slots
left out. -/
namespace FighterData

/-- The values of the slots that have a label. A missing value counts as zero. -/
def Slot.keep : List Slot → List Int → List Int
  | [], _ => []
  | slot :: slots, values =>
      match slot.label with
      | none => keep slots values.tail
      | some _ => values.headD 0 :: keep slots values.tail

/-- A value for every slot, zero for the reserved ones. -/
def Slot.spread : List Slot → List Int → List Int
  | [], _ => []
  | slot :: slots, operands =>
      match slot.label with
      | none => 0 :: spread slots operands
      | some _ => operands.headD 0 :: spread slots operands.tail

theorem Slot.length_keep (slots : List Slot) (values : List Int) :
    (keep slots values).length = (slots.filterMap Slot.label).length := by
  induction slots generalizing values with
  | nil => rfl
  | cons slot slots ih =>
      cases named : slot.label with
      | none => simp [keep, named, ih]
      | some label => simp [keep, named, ih]

@[simp] theorem Slot.length_spread (slots : List Slot) (operands : List Int) :
    (spread slots operands).length = slots.length := by
  induction slots generalizing operands with
  | nil => rfl
  | cons slot slots ih =>
      cases named : slot.label with
      | none => simp [spread, named, ih]
      | some label => simp [spread, named, ih]

theorem Slot.keep_spread {slots : List Slot} {operands : List Int}
    (exact : operands.length = (slots.filterMap Slot.label).length) :
    keep slots (spread slots operands) = operands := by
  induction slots generalizing operands with
  | nil => exact (List.eq_nil_of_length_eq_zero exact).symm
  | cons slot slots ih =>
      cases named : slot.label with
      | none => simpa [keep, spread, named] using ih (by simpa [named] using exact)
      | some label =>
          cases operands with
          | nil => simp [named] at exact
          | cons value rest => simpa [keep, spread, named] using ih (by simpa [named] using exact)

structure Instruction where
  opcode : Opcode
  operands : List Int
  arity : operands.length = opcode.labels.length
deriving DecidableEq

namespace Instruction

/-- The instruction whose slots hold these values. -/
def ofSlots (opcode : Opcode) (values : List Int) : Instruction :=
  ⟨opcode, Slot.keep opcode.slots values, Slot.length_keep _ _⟩

/-- The instruction whose operands are looked up by name. -/
def ofNamed (opcode : Opcode) (value : String → Int) : Instruction :=
  ⟨opcode, opcode.labels.map value, List.length_map _⟩

def slotValues (instruction : Instruction) : List Int :=
  Slot.spread instruction.opcode.slots instruction.operands

theorem ofSlots_slotValues (instruction : Instruction) :
    ofSlots instruction.opcode instruction.slotValues = instruction := by
  obtain ⟨opcode, operands, arity⟩ := instruction
  simp only [ofSlots, slotValues, mk.injEq, true_and]
  exact Slot.keep_spread arity

/-- Names and values, in slot order. -/
def assignments (instruction : Instruction) : List (String × Int) :=
  instruction.opcode.labels.zip instruction.operands

def scriptEnd (flag arg : Int) : Instruction :=
  ⟨.scriptEnd, [flag, arg], rfl⟩

def isTerminal (instruction : Instruction) : Bool :=
  instruction.opcode.isTerminal

def encode (instruction : Instruction) : Except Fault Bytes := do
  let operands ← instruction.opcode.layout.encode instruction.slotValues
  return instruction.opcode.code :: operands

/-- Reads an opcode and its slots; a byte that is no opcode cannot be skipped. -/
def read : Reader Instruction := do
  let start ← Reader.position
  let code ← Reader.byte
  match Opcode.ofCode? code with
  | none => Reader.refuse (.unknownOpcode code start)
  | some opcode =>
      let values ← Reader.fields opcode.layout
      return ofSlots opcode values

theorem read_advances : read.Advances := by
  intro buffer start instruction stop done
  simp only [read, Reader.reads_bind_iff, Reader.reads_position_iff, Reader.reads_byte_iff] at done
  obtain ⟨_, place, ⟨_, same⟩, code, middle, first, behind⟩ := done
  have byte : middle = place + 1 := first.stop_eq
  split at behind
  next => exact absurd behind Reader.not_reads_refuse
  next opcode _ =>
    simp only [Reader.reads_bind_iff, Reader.reads_fields_iff, Reader.reads_pure_iff] at behind
    obtain ⟨values, _, ⟨data, _, carried⟩, _, rfl⟩ := behind
    have ends := carried.stop_eq
    exact ⟨by omega, carried.stop_le⟩

end Instruction

end FighterData
