import FighterData.Proofs.Script.Writing

/-! Scripts that are read can be encoded. What was in the reserved slots is lost, and where nothing
was there, encoding gives back the bytes that were read. -/
namespace FighterData

namespace Action

theorem EndsIn.onlyLast {opcode : Opcode} {instructions : List Instruction}
    (ends : EndsIn opcode instructions) (terminal : opcode.isTerminal = true) :
    onlyLast Instruction.isTerminal instructions = true := by
  obtain ⟨front, last, rfl, plain, rfl⟩ := ends
  exact onlyLast_iff.mpr ⟨front, last, rfl, terminal, plain⟩

/-- Instructions with one terminal one, the last, end an action or the whole script. -/
theorem endsIn_of_onlyLast {instructions : List Instruction}
    (only : FighterData.onlyLast Instruction.isTerminal instructions = true) :
    if endsWithScriptEnd instructions then EndsIn .scriptEnd instructions
    else EndsIn .actionEnd instructions := by
  obtain ⟨front, last, rfl, terminal, plain⟩ := onlyLast_iff.mp only
  have ending : endsWithScriptEnd (front ++ [last]) = decide (last.opcode = .scriptEnd) := by
    rw [endsWithScriptEnd, List.getLast?_concat]
    rfl
  simp only [Instruction.isTerminal, Opcode.isTerminal, Bool.or_eq_true, decide_eq_true_eq]
    at terminal
  rw [ending]
  by_cases closes : last.opcode = .scriptEnd
  · rw [if_pos (decide_eq_true closes)]
    exact ⟨front, last, rfl, plain, closes⟩
  · rw [if_neg (by simpa using closes)]
    exact ⟨front, last, rfl, plain, terminal.resolve_left closes⟩

theorem EndsIn.endsWithScriptEnd_eq {opcode : Opcode} {instructions : List Instruction}
    (ends : EndsIn opcode instructions) :
    endsWithScriptEnd instructions = decide (opcode = .scriptEnd) := by
  obtain ⟨front, last, rfl, _, rfl⟩ := ends
  rw [endsWithScriptEnd, List.getLast?_concat]
  rfl

theorem isLast_eq {action : Action} (holds : action.Holds) :
    action.isLast = endsWithScriptEnd action.instructions := by
  rw [isLast, holds.coded]

theorem Continues.isLast_eq {action : Action} (continues : action.Continues) :
    action.isLast = false := by
  rw [Action.isLast_eq continues.holds, continues.ends.endsWithScriptEnd_eq]
  rfl

theorem Closes.isLast_eq {action : Action} (closes : action.Closes) : action.isLast = true := by
  rw [Action.isLast_eq closes.holds]
  cases closes.ends with
  | inl marked =>
      obtain ⟨_, flag, arg, only, _⟩ := marked
      rw [only]
      rfl
  | inr plain => rw [plain.2.endsWithScriptEnd_eq]; rfl

end Action

namespace ActionPiece

variable {piece : ActionPiece}

theorem exists_header (piece : ActionPiece) : ∃ flags attackLevel damage collisionMask : Int,
    piece.header = [flags, attackLevel, damage, collisionMask] := by
  have length : piece.header.length = 4 := Layout.length_of_holds piece.fits
  match piece.header, length with
  | [a, b, c, d], _ => exact ⟨a, b, c, d, rfl⟩

theorem header_action (piece : ActionPiece) : piece.action.header = piece.header := by
  obtain ⟨flags, attackLevel, damage, collisionMask, shape⟩ := piece.exists_header
  rw [action, Action.ofHeader, shape]
  rfl

theorem flags_bounds (piece : ActionPiece) : 0 ≤ piece.flags ∧ piece.flags < 0x100000000 := by
  obtain ⟨flags, attackLevel, damage, collisionMask, shape⟩ := piece.exists_header
  have fits := piece.fits
  rw [shape] at fits
  simp only [Action.headerLayout, Layout.holds, Bool.and_eq_true] at fits
  obtain ⟨number, rfl, bound⟩ := Width.holds_u32_iff.mp fits.1
  rw [flags, shape]
  show 0 ≤ (number : Int) ∧ (number : Int) < 0x100000000
  omega

theorem fits_headerEnd {flags : Int} (bounds : 0 ≤ flags ∧ flags < 0x100000000) :
    (Action.headerEnd flags).fits = true := by
  show Layout.holds [.u8, .u16] [flags / 256 % 256, flags / 65536] = true
  simp only [Layout.holds, Width.holds, Width.lowest, Width.isSigned, Width.span_eq]
  simp
  omega

theorem holds_action (piece : ActionPiece) : piece.action.Holds where
  coded := rfl
  header := by
    rw [header_action]
    exact piece.fits
  operands := by
    intro instruction member
    have inside : instruction ∈ piece.instructions := member
    by_cases marked : Action.marksScriptEnd piece.flags = true
    · rw [instructions_of_marked marked] at inside
      rw [List.mem_singleton.mp inside]
      exact fits_headerEnd piece.flags_bounds
    · rw [instructions_of_unmarked marked] at inside
      obtain ⟨held, _, rfl⟩ := List.mem_map.mp inside
      exact held.fits_instruction

theorem closed_of_unmarked {piece : ActionPiece}
    (plain : ¬ Action.marksScriptEnd piece.flags = true) :
    onlyLast Instruction.isTerminal piece.instructions = true := by
  have closed := piece.closed
  have same : Action.marksScriptEnd (piece.header.getD 0 0) =
      Action.marksScriptEnd piece.flags := rfl
  rw [same, if_neg plain] at closed
  rw [instructions_of_unmarked plain]
  exact closed

theorem continues_action {piece : ActionPiece} (more : piece.action.isLast = false) :
    piece.action.Continues := by
  have last : piece.action.isLast = Action.endsWithScriptEnd piece.instructions := rfl
  have plain : ¬ Action.marksScriptEnd piece.flags = true := by
    intro marked
    rw [last, instructions_of_marked marked] at more
    cases more
  have ends := Action.endsIn_of_onlyLast (closed_of_unmarked plain)
  rw [last] at more
  rw [more, if_neg Bool.false_ne_true] at ends
  exact ⟨piece.holds_action, eq_false_of_ne_true plain, ends⟩

theorem closes_action {piece : ActionPiece} (last : piece.action.isLast = true) :
    piece.action.Closes := by
  have same : piece.action.isLast = Action.endsWithScriptEnd piece.instructions := rfl
  refine ⟨piece.holds_action, ?_⟩
  by_cases marked : Action.marksScriptEnd piece.flags = true
  · have bounds := piece.flags_bounds
    refine Or.inl ⟨marked, piece.flags / 256 % 256, piece.flags / 65536,
      instructions_of_marked marked, ?_⟩
    show piece.flags = Action.endWord piece.flags _ _
    rw [Action.endWord_eq ⟨by omega, by omega⟩ ⟨by omega, by omega⟩]
    omega
  · have ends := Action.endsIn_of_onlyLast (closed_of_unmarked marked)
    rw [← same, last, if_pos rfl] at ends
    exact Or.inr ⟨eq_false_of_ne_true marked, ends⟩

/-- Every reserved slot of the action holds zero. -/
def Plain (piece : ActionPiece) : Prop :=
  ∀ instruction ∈ piece.body, instruction.Plain

theorem Plain.bytes_eq {piece : ActionPiece} (plain : piece.Plain) :
    piece.action.bytes = Piece.bytes piece := by
  have each : ∀ body : List InstructionPiece, (∀ instruction ∈ body, instruction.Plain) →
      (Piece.value body).flatMap Instruction.bytes = Piece.bytes body := by
    intro body plain
    induction body with
    | nil => rfl
    | cons instruction rest ih =>
        rw [List.forall_mem_cons] at plain
        have head : (Piece.value instruction).bytes = Piece.bytes instruction :=
          plain.1.bytes_eq
        rw [Piece.value_cons, Piece.bytes_cons, List.flatMap_cons, ih plain.2, head]
  have flags : piece.action.flags = piece.flags := rfl
  have instructions : piece.action.instructions = piece.instructions := rfl
  have whole : Piece.bytes piece =
      Action.headerLayout.spell piece.header ++ Piece.bytes piece.body := rfl
  rw [Action.bytes, header_action, flags, instructions, whole]
  congr 1
  have closed := piece.closed
  have same : Action.marksScriptEnd (piece.header.getD 0 0) =
      Action.marksScriptEnd piece.flags := rfl
  rw [same] at closed
  split at closed
  next marked => rw [if_pos marked, closed, Piece.bytes_nil]
  next unmarked =>
    rw [if_neg unmarked, instructions_of_unmarked unmarked]
    exact each piece.body plain

/-- An action whose instructions are read from behind its header has a plain piece. -/
theorem exists_plain_of_unmarked {action : Action} {opcode : Opcode} (holds : action.Holds)
    (plain : Action.marksScriptEnd action.flags = false)
    (ends : Action.EndsIn opcode action.instructions) (terminal : opcode.isTerminal = true) :
    ∃ piece : ActionPiece, Piece.value piece = action ∧ piece.Plain := by
  obtain ⟨body, shown, slots⟩ := InstructionPiece.exists_plain holds.operands
  have only := ends.onlyLast terminal
  rw [← shown] at only
  have unmarked : ¬ Action.marksScriptEnd (action.header.getD 0 0) = true := by
    intro marked
    have same : action.header.getD 0 0 = action.flags := rfl
    rw [same, plain] at marked
    cases marked
  let piece : ActionPiece := ⟨action.header, holds.header, body, by
    rw [if_neg unmarked]
    exact only⟩
  refine ⟨piece, ?_, slots⟩
  have body : piece.instructions = Piece.value piece.body := instructions_of_unmarked unmarked
  have instructions : piece.instructions = action.instructions := body.trans shown
  have value : Piece.value piece = Action.ofHeader action.header piece.instructions := rfl
  rw [value, instructions, Action.ofHeader, ← holds.coded]
  rfl

theorem exists_plain_of_marked {action : Action} {flag arg : Int} (holds : action.Holds)
    (marked : Action.marksScriptEnd action.flags = true)
    (only : action.instructions = [Instruction.scriptEnd flag arg])
    (word : action.flags = Action.endWord action.flags flag arg) :
    ∃ piece : ActionPiece, Piece.value piece = action ∧ piece.Plain := by
  let piece : ActionPiece := ⟨action.header, holds.header, [], by
    have same : action.header.getD 0 0 = action.flags := rfl
    rw [same, if_pos marked]⟩
  refine ⟨piece, ?_, by simp [Plain, piece]⟩
  have bounds : (0 ≤ flag ∧ flag < 256) ∧ (0 ≤ arg ∧ arg < 65536) := by
    have fits := holds.operands (Instruction.scriptEnd flag arg) (by rw [only]; simp)
    have held : Layout.holds [.u8, .u16] [flag, arg] = true := fits
    simp only [Layout.holds, Width.holds, Width.lowest, Width.isSigned, Width.span_eq] at held
    simp at held
    omega
  rw [Action.endWord_eq bounds.1 bounds.2] at word
  have first : action.flags / 256 % 256 = flag := by omega
  have second : action.flags / 65536 = arg := by omega
  have instructions : piece.instructions = action.instructions := by
    have shown : piece.instructions = [Action.headerEnd action.flags] :=
      instructions_of_marked marked
    rw [shown, only, Action.headerEnd, first, second]
  have value : Piece.value piece = Action.ofHeader action.header piece.instructions := rfl
  rw [value, instructions, Action.ofHeader, ← holds.coded]
  rfl

theorem exists_plain_of_continues {action : Action} (continues : action.Continues) :
    ∃ piece : ActionPiece, Piece.value piece = action ∧ piece.Plain :=
  exists_plain_of_unmarked continues.holds continues.plain continues.ends rfl

theorem exists_plain_of_closes {action : Action} (closes : action.Closes) :
    ∃ piece : ActionPiece, Piece.value piece = action ∧ piece.Plain := by
  cases closes.ends with
  | inl marked =>
      obtain ⟨marked, flag, arg, only, word⟩ := marked
      exact exists_plain_of_marked closes.holds marked only word
  | inr plain => exact exists_plain_of_unmarked closes.holds plain.1 plain.2 rfl

end ActionPiece

namespace ActionsPiece

/-- Every reserved slot of the script holds zero. -/
def Plain (piece : ActionsPiece) : Prop :=
  ∀ action ∈ piece.actions, action.Plain

theorem scriptFits (piece : ActionsPiece) : Action.ScriptFits (Piece.value piece) := by
  obtain ⟨front, last, split, ended, more⟩ := onlyLast_iff.mp piece.ended
  have read : ∀ action ∈ front ++ [last], ∃ held : ActionPiece, held.action = action := by
    intro action member
    rw [← split] at member
    obtain ⟨held, _, same⟩ := List.mem_map.mp member
    exact ⟨held, same⟩
  refine ⟨front, last, split, ?_, ?_⟩
  · intro action member
    obtain ⟨held, rfl⟩ := read action (by simp [member])
    exact ActionPiece.continues_action (more held.action member)
  · obtain ⟨held, rfl⟩ := read last (by simp)
    exact ActionPiece.closes_action ended

theorem Plain.bytes_eq {piece : ActionsPiece} (plain : piece.Plain) :
    (Piece.value piece).flatMap Action.bytes = Piece.bytes piece := by
  obtain ⟨actions, ended⟩ := piece
  show (Piece.value actions).flatMap Action.bytes = Piece.bytes actions
  have each : ∀ action ∈ actions, action.Plain := plain
  clear plain ended
  induction actions with
  | nil => rfl
  | cons action rest ih =>
      rw [List.forall_mem_cons] at each
      have head : (Piece.value action).bytes = Piece.bytes action := each.1.bytes_eq
      rw [Piece.value_cons, Piece.bytes_cons, List.flatMap_cons, ih each.2, head]

theorem exists_plain {actions : List Action} (fits : Action.ScriptFits actions) :
    ∃ piece : ActionsPiece, Piece.value piece = actions ∧ piece.Plain := by
  obtain ⟨front, last, rfl, continues, closes⟩ := fits
  have pieces : ∃ each : List ActionPiece, Piece.value each = front ∧
      ∀ piece ∈ each, piece.Plain := by
    clear closes
    induction front with
    | nil => exact ⟨[], rfl, by simp⟩
    | cons action rest ih =>
        rw [List.forall_mem_cons] at continues
        obtain ⟨piece, rfl, plain⟩ := ActionPiece.exists_plain_of_continues continues.1
        obtain ⟨each, rfl, others⟩ := ih continues.2
        exact ⟨piece :: each, rfl, List.forall_mem_cons.mpr ⟨plain, others⟩⟩
  obtain ⟨each, rfl, plain⟩ := pieces
  obtain ⟨final, rfl, ending⟩ := ActionPiece.exists_plain_of_closes closes
  have whole : Piece.value (each ++ [final]) = Piece.value each ++ [Piece.value final] :=
    Piece.value_append _ _
  refine ⟨⟨each ++ [final], ?_⟩, whole, ?_⟩
  · rw [whole]
    refine onlyLast_iff.mpr ⟨_, _, rfl, closes.isLast_eq, ?_⟩
    intro action member
    exact (continues action member).isLast_eq
  · intro piece member
    cases List.mem_append.mp member with
    | inl inside => exact plain piece inside
    | inr last =>
        rw [List.mem_singleton.mp last]
        exact ending

end ActionsPiece

namespace ObjectScriptPiece

theorem scriptFits (piece : ObjectScriptPiece) :
    Action.ScriptFits (Piece.value piece).actions :=
  piece.actions.scriptFits

theorem bytes_eq {piece : ObjectScriptPiece} (plain : piece.actions.Plain) :
    (Piece.value piece).bytes = Piece.bytes piece :=
  plain.bytes_eq

theorem exists_plain {script : ObjectScript} (fits : Action.ScriptFits script.actions) :
    ∃ piece : ObjectScriptPiece, Piece.value piece = script ∧ piece.actions.Plain := by
  obtain ⟨piece, shown, plain⟩ := ActionsPiece.exists_plain fits
  exact ⟨⟨piece⟩, congrArg ObjectScript.mk shown, plain⟩

end ObjectScriptPiece

namespace PlayerScriptPiece

theorem scriptFits (piece : PlayerScriptPiece) : (Piece.value piece).Fits :=
  ⟨piece.fits, piece.size, piece.actions.scriptFits⟩

theorem bytes_eq {piece : PlayerScriptPiece} (plain : piece.actions.Plain) :
    (Piece.value piece).bytes = Piece.bytes piece := by
  have whole : Piece.bytes piece = PlayData.magic ++
      PlayData.layout.spell piece.playData.values ++ piece.block ++ Piece.bytes piece.actions := rfl
  rw [whole, ← plain.bytes_eq]
  rfl

theorem exists_plain {script : PlayerScript} (fits : script.Fits) :
    ∃ piece : PlayerScriptPiece, Piece.value piece = script ∧ piece.actions.Plain := by
  obtain ⟨piece, shown, plain⟩ := ActionsPiece.exists_plain fits.actions
  exact ⟨⟨script.playData, fits.playData, script.block, fits.block, piece⟩,
    congrArg (PlayerScript.mk script.playData script.block) shown, plain⟩

end PlayerScriptPiece

end FighterData
