import FighterData.Proofs.Script.Pieces

/-! Encoding scripts. What can be encoded and read again is said action by action: all but the last
end in the instruction that ends an action, and the last one ends the script, through its header or
through its last instruction. -/
namespace FighterData

namespace Slot

/-- Reserved slots that hold zero lose nothing. -/
theorem spread_keep {slots : List Slot} {values : List Int} (exact : values.length = slots.length)
    (plain : ∀ pair ∈ slots.zip values, pair.1.label = none → pair.2 = 0) :
    spread slots (keep slots values) = values := by
  induction slots generalizing values with
  | nil => exact (List.eq_nil_of_length_eq_zero exact).symm
  | cons slot slots ih =>
      cases values with
      | nil => cases exact
      | cons value rest =>
          have behind := ih (by simpa using exact) fun pair member =>
            plain pair (by simp [member])
          cases named : slot.label with
          | none =>
              have zero : value = 0 := plain (slot, value) (by simp) named
              simp [keep, spread, named, behind, zero]
          | some label => simp [keep, spread, named, behind]

/-- Zero fits every reserved slot. -/
theorem holds_spread_keep {slots : List Slot} {values : List Int}
    (fits : Layout.holds (slots.map Slot.width) values = true) :
    Layout.holds (slots.map Slot.width) (spread slots (keep slots values)) = true := by
  induction slots generalizing values with
  | nil => rfl
  | cons slot slots ih =>
      cases values with
      | nil => simp [Layout.holds] at fits
      | cons value rest =>
          simp only [List.map_cons, Layout.holds, Bool.and_eq_true] at fits
          have behind := ih fits.2
          have zero : slot.width.holds 0 = true := by
            cases slot.width <;> decide
          cases named : slot.label with
          | none => simp [keep, spread, named, Layout.holds, behind, zero]
          | some label => simp [keep, spread, named, Layout.holds, behind, fits.1]

end Slot

namespace Instruction

/-- Every operand fits its slot. -/
def fits (instruction : Instruction) : Bool :=
  instruction.opcode.layout.holds instruction.slotValues

def bytes (instruction : Instruction) : Bytes :=
  instruction.opcode.code :: instruction.opcode.layout.spell instruction.slotValues

theorem encode_eq_ok_iff {instruction : Instruction} {data : Bytes} :
    instruction.encode = .ok data ↔ instruction.fits = true ∧ data = instruction.bytes := by
  simp only [encode, bind_eq_ok_iff, Layout.encode_eq_ok_iff, exists_made_iff, pure, Except.pure,
    Except.ok.injEq]
  rw [@eq_comm _ data]
  rfl

end Instruction

namespace InstructionPiece

/-- Every reserved slot holds zero. -/
def Plain (piece : InstructionPiece) : Prop :=
  ∀ pair ∈ piece.opcode.slots.zip piece.values, pair.1.label = none → pair.2 = 0

theorem fits_instruction (piece : InstructionPiece) : piece.instruction.fits = true :=
  Slot.holds_spread_keep piece.fits

theorem Plain.bytes_eq {piece : InstructionPiece} (plain : piece.Plain) :
    piece.instruction.bytes = Piece.bytes piece := by
  have exact : piece.values.length = piece.opcode.slots.length := by
    rw [Layout.length_of_holds piece.fits]
    exact List.length_map _
  have same : piece.instruction.slotValues = piece.values := Slot.spread_keep exact plain
  rw [Instruction.bytes, same]
  rfl

/-- An instruction that fits has a plain piece. -/
def ofFits (instruction : Instruction) (fits : instruction.fits = true) : InstructionPiece :=
  ⟨instruction.opcode, instruction.slotValues, fits⟩

theorem value_ofFits (instruction : Instruction) (fits : instruction.fits = true) :
    Piece.value (ofFits instruction fits) = instruction :=
  Instruction.ofSlots_slotValues instruction

theorem plain_spread (slots : List Slot) (operands : List Int) :
    ∀ pair ∈ slots.zip (Slot.spread slots operands), pair.1.label = none → pair.2 = 0 := by
  induction slots generalizing operands with
  | nil => simp
  | cons slot slots ih =>
      intro pair member reserved
      cases named : slot.label with
      | none =>
          simp only [Slot.spread, named, List.zip_cons_cons, List.mem_cons] at member
          cases member with
          | inl here => rw [here]
          | inr later => exact ih _ pair later reserved
      | some label =>
          simp only [Slot.spread, named, List.zip_cons_cons, List.mem_cons] at member
          cases member with
          | inl here =>
              rw [here, named] at reserved
              cases reserved
          | inr later => exact ih _ pair later reserved

theorem plain_ofFits (instruction : Instruction) (fits : instruction.fits = true) :
    (ofFits instruction fits).Plain :=
  plain_spread _ _

/-- Instructions that fit have plain pieces. -/
theorem exists_plain {instructions : List Instruction}
    (fits : ∀ instruction ∈ instructions, instruction.fits = true) :
    ∃ body : List InstructionPiece, Piece.value body = instructions ∧
      ∀ piece ∈ body, piece.Plain := by
  induction instructions with
  | nil => exact ⟨[], rfl, by simp⟩
  | cons instruction rest ih =>
      have held := fits instruction (by simp)
      obtain ⟨body, rfl, plain⟩ := ih fun other member => fits other (by simp [member])
      refine ⟨ofFits instruction held :: body, ?_, ?_⟩
      · rw [Piece.value_cons, value_ofFits]
      · rw [List.forall_mem_cons]
        exact ⟨plain_ofFits instruction held, plain⟩

end InstructionPiece

namespace Action

/-- The only terminal instruction is the last one, and it has this opcode. -/
def EndsIn (opcode : Opcode) (instructions : List Instruction) : Prop :=
  ∃ front last, instructions = front ++ [last] ∧
    (∀ instruction ∈ front, instruction.isTerminal = false) ∧ last.opcode = opcode

def header (action : Action) : List Int :=
  [action.flags, action.attackLevel, action.damage, action.collisionMask]

/-- The instructions, when there are some in place of a number. -/
def instructions (action : Action) : List Instruction :=
  match action.body with
  | .code instructions => instructions
  | .number _ => []

/-- The body is a list of instructions, and every number fits its field. -/
structure Holds (action : Action) : Prop where
  coded : action.body = .code action.instructions
  header : headerLayout.holds action.header = true
  operands : ∀ instruction ∈ action.instructions, instruction.fits = true

/-- An action with another one behind it. -/
structure Continues (action : Action) : Prop where
  holds : action.Holds
  plain : marksScriptEnd action.flags = false
  ends : EndsIn .actionEnd action.instructions

/-- The last action of a script. It ends the script in its header or in its last instruction. -/
structure Closes (action : Action) : Prop where
  holds : action.Holds
  ends : (marksScriptEnd action.flags = true ∧ ∃ flag arg,
      action.instructions = [Instruction.scriptEnd flag arg] ∧
        action.flags = endWord action.flags flag arg) ∨
    (marksScriptEnd action.flags = false ∧ EndsIn .scriptEnd action.instructions)

/-- A script that can be encoded and read again. -/
def ScriptFits (actions : List Action) : Prop :=
  ∃ front last, actions = front ++ [last] ∧ (∀ action ∈ front, action.Continues) ∧ last.Closes

def bytes (action : Action) : Bytes :=
  headerLayout.spell action.header ++
    if marksScriptEnd action.flags then [] else action.instructions.flatMap Instruction.bytes

/-- Operands that fit do not meet each other or the low byte in the word. -/
theorem endWord_eq {flags flag arg : Int} (first : 0 ≤ flag ∧ flag < 256)
    (second : 0 ≤ arg ∧ arg < 65536) :
    endWord flags flag arg = flags % 256 + 256 * flag + 65536 * arg := by
  have low : (flags % 256).toNat < 2 ^ 8 := by omega
  have inner : (flags % 256).toNat ||| flag.toNat <<< 8 = flag.toNat <<< 8 + (flags % 256).toNat := by
    rw [Nat.or_comm]
    exact (Nat.shiftLeft_add_eq_or_of_lt low _).symm
  have middle : flag.toNat <<< 8 + (flags % 256).toNat < 2 ^ 16 := by
    rw [Nat.shiftLeft_eq]
    omega
  have outer : (flags % 256).toNat ||| flag.toNat <<< 8 ||| arg.toNat <<< 16 =
      arg.toNat <<< 16 + (flag.toNat <<< 8 + (flags % 256).toNat) := by
    rw [inner, Nat.or_comm]
    exact (Nat.shiftLeft_add_eq_or_of_lt middle _).symm
  rw [endWord, if_neg (by omega), outer, Nat.shiftLeft_eq, Nat.shiftLeft_eq]
  omega

theorem encodeHeader_eq {action : Action} (holds : action.Holds) :
    action.encodeHeader action.flags = .ok (headerLayout.spell action.header) :=
  Layout.encode_of_holds holds.header

theorem encode_of_plain {action : Action} (holds : action.Holds)
    (plain : marksScriptEnd action.flags = false) : action.encode = .ok action.bytes := by
  have encoded : action.instructions.mapM Instruction.encode =
      .ok (action.instructions.map Instruction.bytes) :=
    mapM_eq_ok_of_forall fun instruction member =>
      Instruction.encode_eq_ok_iff.mpr ⟨holds.operands instruction member, rfl⟩
  rw [encode, plain, encodeHeader_eq holds, holds.coded, bytes, plain]
  simp only [Bool.false_eq_true, if_false, bind, Except.bind, encoded]
  rfl

theorem encode_of_scriptEnd {action : Action} {flag arg : Int}
    (marked : marksScriptEnd action.flags = true)
    (body : action.body = .code [.scriptEnd flag arg]) :
    action.encode = action.encodeHeader (endWord action.flags flag arg) := by
  rw [encode, if_pos marked, encodeEnd, body]
  rfl

theorem encode_of_marked {action : Action} {flag arg : Int} (holds : action.Holds)
    (marked : marksScriptEnd action.flags = true)
    (only : action.instructions = [Instruction.scriptEnd flag arg])
    (word : action.flags = endWord action.flags flag arg) : action.encode = .ok action.bytes := by
  have coded := holds.coded
  rw [only] at coded
  rw [encode_of_scriptEnd marked coded, ← word, encodeHeader_eq holds, bytes, if_pos marked,
    List.append_nil]

theorem encode_of_continues {action : Action} (continues : action.Continues) :
    action.encode = .ok action.bytes :=
  encode_of_plain continues.holds continues.plain

theorem encode_of_closes {action : Action} (closes : action.Closes) :
    action.encode = .ok action.bytes := by
  cases closes.ends with
  | inl marked =>
      obtain ⟨marked, flag, arg, only, word⟩ := marked
      exact encode_of_marked closes.holds marked only word
  | inr plain => exact encode_of_plain closes.holds plain.1

theorem encodeAll_of_fits {actions : List Action} (fits : ScriptFits actions) :
    encodeAll actions = .ok (actions.flatMap bytes) := by
  obtain ⟨front, last, rfl, continues, closes⟩ := fits
  have each : ∀ action ∈ front ++ [last], action.encode = .ok action.bytes := by
    intro action member
    cases List.mem_append.mp member with
    | inl inside => exact encode_of_continues (continues action inside)
    | inr ending =>
        rw [List.mem_singleton.mp ending]
        exact encode_of_closes closes
  rw [encodeAll, mapM_eq_ok_of_forall each]
  rfl

end Action

namespace ObjectScript

def bytes (script : ObjectScript) : Bytes :=
  script.actions.flatMap Action.bytes

theorem encode_of_fits {script : ObjectScript} (fits : Action.ScriptFits script.actions) :
    script.encode = .ok script.bytes :=
  Action.encodeAll_of_fits fits

end ObjectScript

namespace PlayerScript

/-- The script of a player that can be encoded and read again. -/
structure Fits (script : PlayerScript) : Prop where
  playData : PlayData.layout.holds script.playData.values = true
  block : script.block.length = blockSize
  actions : Action.ScriptFits script.actions

def bytes (script : PlayerScript) : Bytes :=
  PlayData.magic ++ PlayData.layout.spell script.playData.values ++ script.block
    ++ script.actions.flatMap Action.bytes

theorem encode_of_fits {script : PlayerScript} (fits : script.Fits) :
    script.encode = .ok script.bytes := by
  have playData : script.playData.encode =
      .ok (PlayData.magic ++ PlayData.layout.spell script.playData.values) := by
    rw [PlayData.encode, Layout.encode_of_holds fits.playData]
    rfl
  have size : ¬ script.block.length ≠ blockSize := by simp [fits.block]
  rw [encode, if_neg size]
  simp only [bind, Except.bind, playData, Action.encodeAll_of_fits fits.actions]
  rfl

end PlayerScript

end FighterData
