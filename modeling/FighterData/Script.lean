import FighterData.Action

/-! Script bodies. A player's script opens with the character's tuning values and a block that
nothing here interprets; the script of an object holds actions only. -/
namespace FighterData

namespace PlayData

/-- The tuning values, in file order. -/
def names : List String := [
  "unk", "fwalk_vel", "bwalk_vel", "fdash_init_vel", "bdash_x_vel", "bdash_y_vel",
  "bdash_gravity", "fjump_x_vel", "bjump_x_vel", "jump_y_vel", "jump_gravity",
  "fsuperjump_x_vel", "bsuperjump_x_vel", "superjump_y_vel", "superjump_gravity",
  "fdash_accel", "fdash_reduce", "init_homingjump_y_vel", "init_homingjump_x_vel",
  "init_homingjump_x_reduce", "init_homingjump_y_offset", "airdash_minimum_height",
  "fairdash_time", "bairdash_time", "stun_res", "defense", "guts", "critical", "weight",
  "airdash_count", "airjump_count", "fairdash_no_attack_time", "bairdash_no_attack_time",
  "fwalk_tension", "fjump_tension", "fdash_tension", "fairdash_tension",
  "guardbalance_defense", "guardbalance_tension", "instantblock_tension"]

/-- One unsigned byte, then signed words. -/
def layout : Layout :=
  .u8 :: List.replicate 39 .i16

theorem length_layout : layout.length = names.length := rfl

def magic : Bytes := [0xE5]

end PlayData

structure PlayData where
  values : List Int := List.replicate PlayData.names.length 0
  complete : values.length = PlayData.names.length := by rfl
deriving DecidableEq

namespace PlayData

def ofNamed (value : String → Int) : PlayData :=
  ⟨names.map value, List.length_map _⟩

/-- Names and values, in file order. -/
def assignments (data : PlayData) : List (String × Int) :=
  names.zip data.values

def read : Reader PlayData := do
  Reader.expect magic "PlayData magic"
  let raw ← Reader.bytes layout.size
  return ⟨layout.decode raw, Layout.length_decode layout raw⟩

def encode (data : PlayData) : Except Fault Bytes := do
  let values ← layout.encode data.values
  return magic ++ values

end PlayData

structure PlayerScript where
  playData : PlayData := {}
  block : Bytes := Bytes.filled 0 0xB0
  actions : List Action := []
deriving DecidableEq

structure ObjectScript where
  actions : List Action := []
deriving DecidableEq

namespace PlayerScript

def blockSize : Nat := 0xB0

def read : Reader PlayerScript := do
  let playData ← PlayData.read
  let block ← Reader.bytes blockSize
  let actions ← Action.readAll
  return ⟨playData, block, actions⟩

def encode (script : PlayerScript) : Except Fault Bytes := do
  if script.block.length ≠ blockSize then
    throw (.playerBlock script.block.length)
  let playData ← script.playData.encode
  let actions ← Action.encodeAll script.actions
  return playData ++ script.block ++ actions

end PlayerScript

namespace ObjectScript

def read : Reader ObjectScript := do
  let actions ← Action.readAll
  return ⟨actions⟩

def encode (script : ObjectScript) : Except Fault Bytes :=
  Action.encodeAll script.actions

end ObjectScript

end FighterData
