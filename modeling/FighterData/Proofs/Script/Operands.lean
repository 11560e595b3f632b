import FighterData.Proofs.Script.Writing
import Mathlib.Data.List.Forall2

/-! The operands that can be written. A slot refuses a value outside its width, so instructions behind a
header hold only operands in range. The header of a script-end action is put together by shifting, and
only its whole word is refused: a flag too large for its byte passes, and its upper bits are written into
the other operand. -/
namespace FighterData

/-- The widths of the operands, in slot order; reserved slots have no operand. -/
def Opcode.widths (opcode : Opcode) : List Width :=
  (opcode.slots.filter fun slot => slot.label.isSome).map Slot.width

/-- Every operand lies within its declared width. -/
def Instruction.InRange (instruction : Instruction) : Prop :=
  List.Forall₂ (fun width value => Width.holds width value = true) instruction.opcode.widths
    instruction.operands

theorem Layout.holds_iff {layout : Layout} {values : List Int} :
    layout.holds values = true ↔
      List.Forall₂ (fun width value => Width.holds width value = true) layout values := by
  induction layout generalizing values with
  | nil => cases values <;> simp [holds]
  | cons width layout ih => cases values <;> simp [holds, ih]

/-- Zero is within every width, so the reserved slots refuse nothing. -/
theorem Slot.holds_spread_iff {slots : List Slot} {operands : List Int}
    (exact : operands.length = (slots.filterMap Slot.label).length) :
    Layout.holds (slots.map Slot.width) (spread slots operands) =
      Layout.holds ((slots.filter fun slot => slot.label.isSome).map Slot.width) operands := by
  induction slots generalizing operands with
  | nil =>
      obtain rfl := List.eq_nil_of_length_eq_zero exact
      rfl
  | cons slot slots ih =>
      cases named : slot.label with
      | none =>
          have zero : slot.width.holds 0 = true := by cases slot.width <;> decide
          have behind := @ih operands (by simpa [named] using exact)
          simp [spread, named, Layout.holds, zero, behind]
      | some label =>
          cases operands with
          | nil => simp [named] at exact
          | cons value rest =>
              have behind := @ih rest (by simpa [named] using exact)
              simp [spread, named, Layout.holds, behind]

theorem Instruction.fits_iff {instruction : Instruction} :
    instruction.fits = true ↔ instruction.InRange := by
  have spread := Slot.holds_spread_iff instruction.arity
  have same : instruction.fits = Layout.holds instruction.opcode.widths instruction.operands := spread
  rw [same, Layout.holds_iff]
  rfl

theorem Width.holds_u8_iff {value : Int} :
    Width.u8.holds value = true ↔ 0 ≤ value ∧ value < 256 := by
  simp [Width.holds, Width.lowest, Width.isSigned, Width.span_eq]

theorem Width.holds_u16_iff {value : Int} :
    Width.u16.holds value = true ↔ 0 ≤ value ∧ value < 65536 := by
  simp [Width.holds, Width.lowest, Width.isSigned, Width.span_eq]

theorem Instruction.inRange_scriptEnd_iff {flag arg : Int} :
    (scriptEnd flag arg).InRange ↔ (0 ≤ flag ∧ flag < 256) ∧ 0 ≤ arg ∧ arg < 65536 := by
  have widths : (scriptEnd flag arg).opcode.widths = [.u8, .u16] := rfl
  have operands : (scriptEnd flag arg).operands = [flag, arg] := rfl
  rw [InRange, widths, operands, List.forall₂_cons, List.forall₂_cons, Width.holds_u8_iff,
    Width.holds_u16_iff]
  simp

/-- The only instruction of its opcode, with both of its operands. -/
theorem Instruction.exists_scriptEnd {instruction : Instruction}
    (ended : instruction.opcode = .scriptEnd) :
    ∃ flag arg, instruction = scriptEnd flag arg := by
  obtain ⟨opcode, operands, arity⟩ := instruction
  obtain rfl : opcode = .scriptEnd := ended
  match operands, arity with
  | [flag, arg], _ => exact ⟨flag, arg, rfl⟩

namespace Action

variable {action : Action} {actions : List Action} {data : Bytes} {flags : Int} {flag arg : Nat}

/-- The word of a script-end action, for operands that are not negative. -/
theorem endWord_eq_or (flags : Int) (flag arg : Nat) :
    endWord flags flag arg = ((flags % 256).toNat ||| flag <<< 8 ||| arg <<< 16 : Nat) := by
  rw [endWord, if_neg (by omega), Int.toNat_natCast, Int.toNat_natCast]

/-- The word fits if each of its parts does. -/
theorem endWord_lt_iff :
    (flags % 256).toNat ||| flag <<< 8 ||| arg <<< 16 < 0x100000000 ↔
      flag < 0x1000000 ∧ arg < 0x10000 := by
  constructor
  · intro below
    have first : flag <<< 8 < 0x100000000 :=
      Nat.lt_of_le_of_lt (Nat.le_trans Nat.right_le_or Nat.left_le_or) below
    have second : arg <<< 16 < 0x100000000 := Nat.lt_of_le_of_lt Nat.right_le_or below
    rw [Nat.shiftLeft_eq] at first second
    omega
  · rintro ⟨first, second⟩
    have low : (flags % 256).toNat < 2 ^ 32 := by omega
    have middle : flag <<< 8 < 2 ^ 32 := by
      rw [Nat.shiftLeft_eq]
      omega
    have high : arg <<< 16 < 2 ^ 32 := by
      rw [Nat.shiftLeft_eq]
      omega
    exact Nat.or_lt_two_pow (Nat.or_lt_two_pow low middle) high

theorem holds_endWord_iff {flag arg : Int} :
    Width.u32.holds (endWord flags flag arg) = true ↔
      (0 ≤ flag ∧ flag < 0x1000000) ∧ 0 ≤ arg ∧ arg < 0x10000 := by
  by_cases negative : flag < 0 ∨ arg < 0
  · have word : endWord flags flag arg = -1 := if_pos negative
    rw [word]
    exact ⟨fun held => absurd held (by decide), fun bounds => by omega⟩
  · obtain ⟨flag, rfl⟩ := Int.eq_ofNat_of_zero_le (show 0 ≤ flag by omega)
    obtain ⟨arg, rfl⟩ := Int.eq_ofNat_of_zero_le (show 0 ≤ arg by omega)
    have below := @endWord_lt_iff flags flag arg
    rw [endWord_eq_or, Width.holds_u32_iff]
    constructor
    · rintro ⟨number, same, bound⟩
      obtain rfl := Int.ofNat.inj same
      have parts := below.mp bound
      omega
    · intro bounds
      exact ⟨_, rfl, below.mpr (by omega)⟩

/-- The upper bits of the flag meet the other operand. -/
theorem endWord_spill (flags : Int) (flag arg : Nat) :
    endWord flags flag arg =
      endWord flags (flag % 256 : Nat) (arg ||| flag / 256 : Nat) := by
  have parts : flag <<< 8 = (flag % 256) <<< 8 ||| (flag / 256) <<< 16 := by
    have low : (flag % 256) <<< 8 < 2 ^ 16 := by
      rw [Nat.shiftLeft_eq]
      omega
    rw [Nat.or_comm, ← Nat.shiftLeft_add_eq_or_of_lt low]
    simp only [Nat.shiftLeft_eq]
    omega
  rw [endWord_eq_or, endWord_eq_or, parts, Nat.shiftLeft_or_distrib]
  congr 1
  rw [← Nat.or_assoc, Nat.or_assoc _ _ (arg <<< 16), Nat.or_comm _ (arg <<< 16)]

/-- Behind a header, every operand is checked by its slot. -/
theorem inRange_of_encode (plain : marksScriptEnd action.flags = false)
    (encoded : action.encode = .ok data) :
    ∀ instruction ∈ action.instructions, instruction.InRange := by
  rw [encode, if_neg (by simp [plain])] at encoded
  obtain ⟨header, _, behind⟩ := bind_eq_ok_iff.mp encoded
  cases body : action.body with
  | number value =>
      rw [body] at behind
      cases behind
  | code instructions =>
      have same : action.instructions = instructions := by simp [Action.instructions, body]
      rw [body] at behind
      obtain ⟨each, mapped, _⟩ := bind_eq_ok_iff.mp behind
      have fits := ((mapM_eq_ok_iff fun _ _ _ => Instruction.encode_eq_ok_iff).mp mapped).1
      rw [same]
      intro instruction member
      exact Instruction.fits_iff.mp (fits instruction member)

/-- A script-end action holds one instruction, and its header is written with both operands. -/
theorem encode_eq_ok_iff_of_marked (marked : marksScriptEnd action.flags = true) :
    action.encode = .ok data ↔ ∃ flag arg, action.body = .code [.scriptEnd flag arg] ∧
      action.encodeHeader (endWord action.flags flag arg) = .ok data := by
  constructor
  · intro encoded
    rw [encode, if_pos marked, encodeEnd] at encoded
    split at encoded
    next => cases encoded
    next operands arity body =>
      obtain ⟨flag, arg, same⟩ := @Instruction.exists_scriptEnd ⟨.scriptEnd, operands, arity⟩ rfl
      obtain rfl : operands = [flag, arg] := congrArg Instruction.operands same
      exact ⟨flag, arg, body, encoded⟩
    next => cases encoded
  · rintro ⟨flag, arg, body, encoded⟩
    rw [encode_of_scriptEnd marked body, encoded]

/-- A script-end action with a flag that its byte has no room for, but the word of its header has. -/
structure Spills (action : Action) (flag arg : Nat) : Prop where
  marked : marksScriptEnd action.flags = true
  body : action.body = .code [.scriptEnd flag arg]
  lower : 256 ≤ flag
  upper : flag < 0x1000000
  arg : arg < 0x10000

/-- The instruction that is written for a flag that spills: the lower byte of the flag, and the other
operand with the rest of the flag in it. -/
def spillEnd (flag arg : Nat) : Instruction :=
  .scriptEnd (flag % 256 : Nat) (arg ||| flag / 256 : Nat)

theorem Spills.instructions_eq (spills : action.Spills flag arg) :
    action.instructions = [.scriptEnd flag arg] := by
  rw [Action.instructions, spills.body]

theorem Spills.not_inRange (spills : action.Spills flag arg) :
    ¬ (Instruction.scriptEnd flag arg).InRange := by
  intro within
  have bounds := Instruction.inRange_scriptEnd_iff.mp within
  have lower := spills.lower
  omega

theorem Spills.inRange_spillEnd (spills : action.Spills flag arg) : (spillEnd flag arg).InRange := by
  have upper := spills.upper
  have rest : flag / 256 < 2 ^ 16 := by omega
  have mixed := Nat.or_lt_two_pow spills.arg rest
  exact Instruction.inRange_scriptEnd_iff.mpr (by omega)

theorem Spills.encode_eq (spills : action.Spills flag arg) :
    action.encode = { action with body := .code [spillEnd flag arg] }.encode := by
  let other : Action := { action with body := .code [spillEnd flag arg] }
  have written : other.encode = _ := encode_of_scriptEnd spills.marked rfl
  rw [encode_of_scriptEnd spills.marked spills.body, endWord_spill]
  exact written.symm

/-- An action that is written holds operands in range, or its flag spills. -/
theorem inRange_or_spills_of_encode (encoded : action.encode = .ok data) :
    (∀ instruction ∈ action.instructions, instruction.InRange) ∨
      ∃ flag arg, action.Spills flag arg := by
  cases marked : marksScriptEnd action.flags with
  | false => exact Or.inl (inRange_of_encode marked encoded)
  | true =>
      obtain ⟨flag, arg, body, header⟩ := (encode_eq_ok_iff_of_marked marked).mp encoded
      have fits := (Layout.encode_eq_ok_iff.mp header).1
      simp only [headerLayout, Layout.holds, Bool.and_eq_true] at fits
      obtain ⟨first, second⟩ := holds_endWord_iff.mp fits.1
      by_cases small : flag < 256
      · left
        have only : action.instructions = [.scriptEnd flag arg] := by
          simp [Action.instructions, body]
        rw [only]
        intro instruction member
        rw [List.mem_singleton.mp member]
        exact Instruction.inRange_scriptEnd_iff.mpr ⟨⟨first.1, small⟩, second⟩
      · obtain ⟨flag, rfl⟩ := Int.eq_ofNat_of_zero_le first.1
        obtain ⟨arg, rfl⟩ := Int.eq_ofNat_of_zero_le second.1
        exact Or.inr ⟨flag, arg, marked, body, by omega, by omega, by omega⟩

/-- Where a script is written, every operand is within its width, unless it is the flag of a script-end
action that spills: any other operand out of range is refused. An action with a flag that spills is
written as the one with two other operands, which are in range. -/
theorem encodeAll_inRange_iff (encoded : encodeAll actions = .ok data) (member : action ∈ actions) :
    ((∀ instruction ∈ action.instructions, instruction.InRange) ↔
      ∀ flag arg, ¬ action.Spills flag arg) ∧
    ∀ flag arg, action.Spills flag arg → (spillEnd flag arg).InRange ∧
      action.encode = { action with body := .code [spillEnd flag arg] }.encode := by
  obtain ⟨each, mapped, _⟩ := bind_eq_ok_iff.mp encoded
  obtain ⟨written, alone⟩ := exists_ok_of_mapM_ok mapped action member
  refine ⟨⟨?_, ?_⟩, fun _ _ spills => ⟨spills.inRange_spillEnd, spills.encode_eq⟩⟩
  · intro within flag arg spills
    refine spills.not_inRange (within _ ?_)
    rw [spills.instructions_eq]
    exact List.mem_singleton.mpr rfl
  · intro none
    obtain within | ⟨flag, arg, spills⟩ := inRange_or_spills_of_encode alone
    · exact within
    · exact absurd spills (none flag arg)

/-- The smallest flag that spills. -/
def spilling : Action :=
  { flags := 0xFD, body := .code [.scriptEnd 256 0] }

theorem encodeAll_spilling : encodeAll [spilling] = .ok [0xFD, 0, 1, 0, 0, 0, 0, 0] := by rfl

theorem encodeAll_inRange_iff_spilling :
    spilling.Spills 256 0 ∧ encodeAll [spilling] = .ok [0xFD, 0, 1, 0, 0, 0, 0, 0] ∧
      spilling.encode = { spilling with body := .code [.scriptEnd 0 1] }.encode := by
  have spills : spilling.Spills 256 0 := ⟨by decide, rfl, by decide, by decide, by decide⟩
  have altered := (encodeAll_inRange_iff encodeAll_spilling (List.mem_singleton.mpr rfl)).2
  exact ⟨spills, encodeAll_spilling, (altered 256 0 spills).2⟩

/-- A script with an operand out of range can be written. -/
theorem not_forall_inRange :
    ¬ ∀ (actions : List Action) (data : Bytes), encodeAll actions = .ok data →
      ∀ action ∈ actions, ∀ instruction ∈ action.instructions, instruction.InRange := by
  intro within
  have inside := within [spilling] _ encodeAll_spilling spilling (List.mem_singleton.mpr rfl)
    (.scriptEnd 256 0) (List.mem_singleton.mpr rfl)
  have bounds := Instruction.inRange_scriptEnd_iff.mp inside
  omega

end Action

end FighterData
