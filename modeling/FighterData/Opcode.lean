import FighterData.Word

/-! The instruction set of the scripts: for every opcode its byte, its name and the slots that
follow the byte. A reserved slot is read and dropped, and written as zero. -/
namespace FighterData

structure Slot where
  label : Option String
  width : Width
deriving DecidableEq, Repr

namespace Slot

def operand (label : String) (width : Width) : Slot :=
  ⟨some label, width⟩

def reserved (width : Width) : Slot :=
  ⟨none, width⟩

def flagArg : List Slot :=
  [operand "flag" .u8, operand "arg" .u16]

def flagSignedArg : List Slot :=
  [operand "flag" .u8, operand "arg" .i16]

def flagMagnitude : List Slot :=
  [operand "flag" .u8, operand "magnitude" .i16]

def flagTwoBytes : List Slot :=
  [operand "flag" .u8, operand "arg" .u8, operand "arg2" .u8]

def flagThreeArgs : List Slot :=
  [operand "flag" .u8, operand "arg" .u16, operand "arg2" .u16, operand "arg3" .u16]

def flagArgDword : List Slot :=
  [operand "flag" .u8, operand "arg" .u16, operand "arg2" .u32]

def sound : List Slot :=
  [operand "data" .u8, operand "flag" .u8, operand "random_factor" .u8]

def noOperands : List Slot :=
  [reserved .u8, reserved .u16]

def reservedArg : List Slot :=
  [reserved .u8, operand "arg" .u16]

end Slot

inductive Opcode where
  | cellBegin
  | unk1
  | unk2
  | recovery
  | renewCollision
  | unk5
  | unk6
  | scale
  | posZ
  | unk9
  | unk10
  | unk11
  | doNotCheckAttack
  | setStrikeInvuln
  | reverse
  | drawNormal
  | drawReverse
  | enableCancel
  | unk19
  | offsetXFromOwner
  | offsetYFromOwner
  | initInstance
  | deleteChildInstance
  | initRqSound
  | initEnemyHitSeMode
  | unk29
  | enemyGuardModeVoice
  | enemyDamageModeVoice
  | downReturn
  | hitGravity
  | hitAirPushbackX
  | hitAirPushbackY
  | deleteIttai
  | unk39
  | unk40
  | unk45
  | unk47
  | attackLevel
  | goto
  | untech
  | addTension
  | unk53
  | unk54
  | unk55
  | unk57
  | unk58
  | unk60
  | removeStrikeInvuln
  | unk62
  | enableCancelSecondary
  | superFreeze
  | xTransform
  | yTransform
  | setGravity
  | unk68
  | unk69
  | unk70
  | unk71
  | unk72
  | chipDamage
  | setAttackStunVal
  | unk75
  | setStance
  | unk77
  | setProration
  | unk79
  | setThrowInvuln
  | unk81
  | unk82
  | unk83
  | pushback
  | stagger
  | unk86
  | unk87
  | unk88
  | unk89
  | unk90
  | unk91
  | jumpInstall
  | unk93
  | unk94
  | unk95
  | unk96
  | unk97
  | unk98
  | unk99
  | unk100
  | setAttackProperties
  | unk102
  | unk103
  | scriptEnd
  | actionEnd
deriving DecidableEq, Repr

namespace Opcode
open Slot

/-- The byte, the name and the slots of an opcode. -/
structure Row where
  code : UInt8
  name : String
  slots : List Slot

def row : Opcode → Row
  | cellBegin => ⟨0, "CellBegin", [operand "duration" .u8, operand "cell_no" .u16]⟩
  | unk1 => ⟨1, "Unk1", flagArg⟩
  | unk2 => ⟨2, "Unk2", flagArg⟩
  | recovery => ⟨3, "Recovery", flagArg⟩
  | renewCollision => ⟨4, "RenewCollision", flagArg⟩
  | unk5 => ⟨5, "Unk5", [operand "flag" .u8, reserved .u16]⟩
  | unk6 => ⟨6, "Unk6", flagArg⟩
  | scale => ⟨7, "Scale", [operand "flag" .u8, operand "stretch" .i16]⟩
  | posZ => ⟨8, "PosZ", [operand "flag" .u8, operand "depth" .i16]⟩
  | unk9 => ⟨9, "Unk9", flagArg⟩
  | unk10 => ⟨10, "Unk10", flagTwoBytes⟩
  | unk11 => ⟨11, "Unk11", flagTwoBytes⟩
  | doNotCheckAttack => ⟨13, "DoNotCheckAttack", noOperands⟩
  | setStrikeInvuln => ⟨14, "SetStrikeInvuln", noOperands⟩
  | reverse => ⟨15, "Reverse", flagArg⟩
  | drawNormal => ⟨16, "DrawNormal", flagArg⟩
  | drawReverse => ⟨17, "DrawReverse", flagArg⟩
  | enableCancel => ⟨18, "EnableCancel", flagArg⟩
  | unk19 => ⟨19, "Unk19", flagArg⟩
  | offsetXFromOwner => ⟨23, "OffsetXFromOwner", flagMagnitude⟩
  | offsetYFromOwner => ⟨24, "OffsetYFromOwner", flagMagnitude⟩
  | initInstance => ⟨25, "InitInstance",
      [operand "flag" .u8, operand "anime_no" .u16, operand "obj_no" .u32, operand "kind" .u32,
        operand "state_no" .u16, operand "is_check_col" .u16]⟩
  | deleteChildInstance => ⟨26, "DeleteChildInstance",
      [operand "obj_no" .u8, operand "flag" .u8, operand "act_no" .u8]⟩
  | initRqSound => ⟨27, "InitRqSound", sound⟩
  | initEnemyHitSeMode => ⟨28, "InitEnemyHitSeMode", sound⟩
  | unk29 => ⟨29, "Unk29", sound⟩
  | enemyGuardModeVoice => ⟨30, "EnemyGuardModeVoice", sound⟩
  | enemyDamageModeVoice => ⟨31, "EnemyDamageModeVoice", sound⟩
  | downReturn => ⟨33, "DownReturn", flagArg⟩
  | hitGravity => ⟨34, "HitGravity", flagSignedArg⟩
  | hitAirPushbackX => ⟨35, "HitAirPushbackX", flagSignedArg⟩
  | hitAirPushbackY => ⟨36, "HitAirPushbackY", flagSignedArg⟩
  | deleteIttai => ⟨38, "DeleteIttai", flagArg⟩
  | unk39 => ⟨39, "Unk39", flagArg⟩
  | unk40 => ⟨40, "Unk40", flagArg⟩
  | unk45 => ⟨45, "Unk45", flagArg⟩
  | unk47 => ⟨47, "Unk47", reservedArg⟩
  | attackLevel => ⟨48, "AttackLevel", reservedArg⟩
  | goto => ⟨49, "Goto", [operand "flag" .u8, reserved .u16, operand "jump_target" .u32]⟩
  | untech => ⟨50, "Untech", flagArg⟩
  | addTension => ⟨52, "AddTension", [operand "active" .u8, operand "hit" .u16]⟩
  | unk53 => ⟨53, "Unk53", flagThreeArgs⟩
  | unk54 => ⟨54, "Unk54", flagArg⟩
  | unk55 => ⟨55, "Unk55", flagArg⟩
  | unk57 => ⟨57, "Unk57", flagArg⟩
  | unk58 => ⟨58, "Unk58", flagArg⟩
  | unk60 => ⟨60, "Unk60", flagArg⟩
  | removeStrikeInvuln => ⟨61, "RemoveStrikeInvuln", noOperands⟩
  | unk62 => ⟨62, "Unk62", flagArg⟩
  | enableCancelSecondary => ⟨63, "EnableCancelSecondary", flagArg⟩
  | superFreeze => ⟨64, "SuperFreeze",
      [operand "stop_self" .u8, operand "stop_world" .u8, operand "unk" .u8]⟩
  | xTransform => ⟨65, "XTransform", flagMagnitude⟩
  | yTransform => ⟨66, "YTransform", flagMagnitude⟩
  | setGravity => ⟨67, "SetGravity", flagMagnitude⟩
  | unk68 => ⟨68, "Unk68", flagArg⟩
  | unk69 => ⟨69, "Unk69", flagArg⟩
  | unk70 => ⟨70, "Unk70", flagArg⟩
  | unk71 => ⟨71, "Unk71", flagArgDword⟩
  | unk72 => ⟨72, "Unk72", flagArg⟩
  | chipDamage => ⟨73, "ChipDamage", flagArg⟩
  | setAttackStunVal => ⟨74, "SetAttackStunVal", flagArg⟩
  | unk75 => ⟨75, "Unk75", flagArg⟩
  | setStance => ⟨76, "SetStance", flagArg⟩
  | unk77 => ⟨77, "Unk77", flagArg⟩
  | setProration => ⟨78, "SetProration", flagArg⟩
  | unk79 => ⟨79, "Unk79", flagArg⟩
  | setThrowInvuln => ⟨80, "SetThrowInvuln", flagArg⟩
  | unk81 => ⟨81, "Unk81", flagArg⟩
  | unk82 => ⟨82, "Unk82", flagArg⟩
  | unk83 => ⟨83, "Unk83", flagArg⟩
  | pushback => ⟨84, "Pushback", flagMagnitude⟩
  | stagger => ⟨85, "Stagger", flagArg⟩
  | unk86 => ⟨86, "Unk86",
      [operand "flag" .u8, operand "obj_id" .u16, operand "buffered_act" .u16,
        operand "act_id" .u16]⟩
  | unk87 => ⟨87, "Unk87", flagArg⟩
  | unk88 => ⟨88, "Unk88", flagThreeArgs⟩
  | unk89 => ⟨89, "Unk89", flagArg⟩
  | unk90 => ⟨90, "Unk90", flagThreeArgs⟩
  | unk91 => ⟨91, "Unk91", flagArgDword⟩
  | jumpInstall => ⟨92, "JumpInstall", flagArg⟩
  | unk93 => ⟨93, "Unk93", flagArg⟩
  | unk94 => ⟨94, "Unk94", flagArgDword⟩
  | unk95 => ⟨95, "Unk95",
      [operand "rsrv" .u8, operand "arg1" .u16, operand "flag" .u32, operand "arg3" .u16,
        operand "arg4" .u16]⟩
  | unk96 => ⟨96, "Unk96",
      [operand "flag" .u8, operand "arg1" .u16, operand "arg2" .u16, operand "arg3" .u16]⟩
  | unk97 => ⟨97, "Unk97",
      [operand "flag" .u8, operand "arg1" .u16, operand "arg2" .u16, operand "arg3" .u16,
        operand "arg4" .u16, operand "arg5" .u16]⟩
  | unk98 => ⟨98, "Unk98", flagSignedArg⟩
  | unk99 => ⟨99, "Unk99", flagArg⟩
  | unk100 => ⟨100, "Unk100", [operand "flag" .u8, operand "arg1" .u16, operand "arg2" .u32]⟩
  | setAttackProperties => ⟨101, "SetAttackProperties",
      [operand "flag" .u8, operand "arg" .u16, operand "unk1" .u8, operand "unk2" .u8,
        operand "unk3" .u8, operand "unk4" .u8]⟩
  | unk102 => ⟨102, "Unk102", flagThreeArgs⟩
  | unk103 => ⟨103, "Unk103", flagThreeArgs⟩
  | scriptEnd => ⟨253, "ScriptEnd", flagArg⟩
  | actionEnd => ⟨255, "ActionEnd", flagArg⟩

/-- Every opcode, by increasing byte. -/
def all : List Opcode :=
  [.cellBegin, .unk1, .unk2, .recovery, .renewCollision, .unk5, .unk6, .scale, .posZ, .unk9,
    .unk10, .unk11, .doNotCheckAttack, .setStrikeInvuln, .reverse, .drawNormal, .drawReverse,
    .enableCancel, .unk19, .offsetXFromOwner, .offsetYFromOwner, .initInstance,
    .deleteChildInstance, .initRqSound, .initEnemyHitSeMode, .unk29, .enemyGuardModeVoice,
    .enemyDamageModeVoice, .downReturn, .hitGravity, .hitAirPushbackX, .hitAirPushbackY,
    .deleteIttai, .unk39, .unk40, .unk45, .unk47, .attackLevel, .goto, .untech, .addTension,
    .unk53, .unk54, .unk55, .unk57, .unk58, .unk60, .removeStrikeInvuln, .unk62,
    .enableCancelSecondary, .superFreeze, .xTransform, .yTransform, .setGravity, .unk68, .unk69,
    .unk70, .unk71, .unk72, .chipDamage, .setAttackStunVal, .unk75, .setStance, .unk77,
    .setProration, .unk79, .setThrowInvuln, .unk81, .unk82, .unk83, .pushback, .stagger, .unk86,
    .unk87, .unk88, .unk89, .unk90, .unk91, .jumpInstall, .unk93, .unk94, .unk95, .unk96, .unk97,
    .unk98, .unk99, .unk100, .setAttackProperties, .unk102, .unk103, .scriptEnd, .actionEnd]

theorem mem_all (opcode : Opcode) : opcode ∈ all := by
  cases opcode <;> decide +kernel

def code (opcode : Opcode) : UInt8 :=
  opcode.row.code

def name (opcode : Opcode) : String :=
  opcode.row.name

def slots (opcode : Opcode) : List Slot :=
  opcode.row.slots

def layout (opcode : Opcode) : Layout :=
  opcode.slots.map Slot.width

/-- The names of the operands, in slot order. -/
def labels (opcode : Opcode) : List String :=
  opcode.slots.filterMap Slot.label

/-- The bytes that an instruction takes, its opcode included. -/
def size (opcode : Opcode) : Nat :=
  1 + opcode.layout.size

/-- The two opcodes that close an action. -/
def isTerminal (opcode : Opcode) : Bool :=
  opcode = scriptEnd || opcode = actionEnd

def ofCode? (code : UInt8) : Option Opcode :=
  all.find? fun opcode => opcode.code == code

def ofName? (name : String) : Option Opcode :=
  all.find? fun opcode => opcode.name == name

theorem ofCode?_code (opcode : Opcode) : ofCode? opcode.code = some opcode := by
  have every : ∀ member ∈ all, ofCode? member.code = some member := by decide +kernel
  exact every opcode (mem_all opcode)

theorem code_of_ofCode? {code : UInt8} {opcode : Opcode} (found : ofCode? code = some opcode) :
    opcode.code = code := by
  simpa using List.find?_some found

theorem ofName?_name (opcode : Opcode) : ofName? opcode.name = some opcode := by
  have every : ∀ member ∈ all, ofName? member.name = some member := by decide +kernel
  exact every opcode (mem_all opcode)

theorem name_of_ofName? {name : String} {opcode : Opcode} (found : ofName? name = some opcode) :
    opcode.name = name := by
  simpa using List.find?_some found

end Opcode

end FighterData
