import FighterData.Instruction

/-! Actions: a header and the instructions up to a terminal one. In the last action of a script the
first header bytes can be the terminal instruction themselves; the low byte of the flags marks such
an action, and no instruction follows its header. -/
namespace FighterData

/-- The instructions of an action. A listing may also set them to a bare number, which no
instruction can join and no file can hold. -/
inductive Body where
  | code (instructions : List Instruction)
  | number (value : Int)
deriving DecidableEq

structure Action where
  flags : Int := 0
  attackLevel : Int := 0
  damage : Int := 0
  collisionMask : Int := 0
  body : Body := .code []
deriving DecidableEq

namespace Action

def headerLayout : Layout :=
  [.u32, .u16, .u8, .u8]

/-- The low byte of the flags has every bit of FD. -/
def marksScriptEnd (flags : Int) : Bool :=
  (flags % 256).toNat &&& 0xFD == 0xFD

/-- Whether the last instruction ends the script. -/
def endsWithScriptEnd (instructions : List Instruction) : Bool :=
  instructions.getLast?.any (·.opcode = .scriptEnd)

/-- Whether this action is the last of its script. A bare number other than zero has no last
instruction to ask. -/
def endsScript (action : Action) : Except Fault Bool :=
  match action.body with
  | .code instructions => .ok (endsWithScriptEnd instructions)
  | .number value => if value = 0 then .ok false else .error (.bareNumber .last)

/-- The instruction that the header of a script-end action spells. -/
def headerEnd (flags : Int) : Instruction :=
  .scriptEnd (flags / 256 % 256) (flags / 65536)

def ofHeader (header : List Int) (instructions : List Instruction) : Action where
  flags := header.getD 0 0
  attackLevel := header.getD 1 0
  damage := header.getD 2 0
  collisionMask := header.getD 3 0
  body := .code instructions

def read : Reader Action := do
  let header ← Reader.fields headerLayout
  let flags := header.getD 0 0
  if marksScriptEnd flags then
    return ofHeader header [headerEnd flags]
  let instructions ← Reader.upToLast Instruction.read Instruction.isTerminal
  return ofHeader header instructions

theorem read_advances : read.Advances := by
  intro buffer start action stop done
  simp only [read, Reader.reads_bind_iff, Reader.reads_fields_iff] at done
  obtain ⟨header, middle, ⟨data, encoded, carried⟩, behind⟩ := done
  have length : data.length = 8 := Layout.length_of_encode encoded
  have ends := carried.stop_eq
  split at behind
  next =>
    obtain ⟨_, rfl⟩ := Reader.reads_pure_iff.mp behind
    exact ⟨by omega, carried.stop_le⟩
  next =>
    simp only [Reader.reads_bind_iff, Reader.reads_pure_iff] at behind
    obtain ⟨instructions, _, body, _, rfl⟩ := behind
    have later := Reader.upToLast_advances Instruction.read_advances _ _ _ _ _ body
    exact ⟨by omega, later.2⟩

/-- The first header word of a script-end action: the low byte of its flags, with the two operands
moved behind it. A negative operand leaves no word that fits. -/
def endWord (flags flag arg : Int) : Int :=
  if flag < 0 ∨ arg < 0 then -1
  else ((flags % 256).toNat ||| flag.toNat <<< 8 ||| arg.toNat <<< 16 : Nat)

def encodeHeader (action : Action) (flags : Int) : Except Fault Bytes :=
  headerLayout.encode [flags, action.attackLevel, action.damage, action.collisionMask]

def encodeEnd (action : Action) : Except Fault Bytes :=
  match action.body with
  | .number _ => .error (.bareNumber .count)
  | .code [⟨.scriptEnd, operands, _⟩] =>
      action.encodeHeader (endWord action.flags (operands.getD 0 0) (operands.getD 1 0))
  | .code instructions =>
      .error (.scriptEnd action.flags (instructions.map fun found => found.opcode.name))

def encode (action : Action) : Except Fault Bytes :=
  if marksScriptEnd action.flags then action.encodeEnd
  else do
    let header ← action.encodeHeader action.flags
    match action.body with
    | .number _ => .error (.bareNumber .iterate)
    | .code instructions =>
        let encoded ← instructions.mapM Instruction.encode
        return header ++ encoded.flatten

/-- Whether an action that was read is the last one; those hold instructions only. -/
def isLast (action : Action) : Bool :=
  match action.body with
  | .code instructions => endsWithScriptEnd instructions
  | .number _ => false

theorem endsScript_eq_isLast {action : Action} {instructions : List Instruction}
    (coded : action.body = .code instructions) : action.endsScript = .ok action.isLast := by
  simp [endsScript, isLast, coded]

/-- Reads actions up to the one that ends the script. -/
def readAll : Reader (List Action) := do
  let start ← Reader.position
  let actions ← Reader.upToLast read isLast
  let stop ← Reader.position
  Reader.note (.script start actions.length (stop - start))
  return actions

def encodeAll (actions : List Action) : Except Fault Bytes := do
  let encoded ← actions.mapM encode
  return encoded.flatten

end Action

end FighterData
