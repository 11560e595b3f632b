import FighterData.Proofs.Listing.RoundTrip

/-! Listings of decoded scripts. Whatever is read from a file fits its fields, so it is short enough
to be written and its flags have no sign; its listing is made and is read as the same actions, and a
binary that takes them back is the binary that it was. -/
namespace FighterData

namespace Text

/-- The limit is a power that must not be computed, so it stands for any power here. -/
theorem le_decimalLimit : 0x100000000 ≤ decimalLimit := by
  have enough : 10 ≤ digitLimit := by decide
  unfold decimalLimit
  generalize digitLimit = limit at enough ⊢
  exact Nat.le_trans (by decide) (Nat.pow_le_pow_right (by omega) enough)

theorem short_of_holds {width : Width} {value : Int} (fits : width.holds value = true) :
    value.natAbs < decimalLimit := by
  have limit := le_decimalLimit
  have bound : value.natAbs < 0x100000000 := by
    simp only [Width.holds, Width.lowest, Width.isSigned, Width.span_eq, Bool.and_eq_true,
      decide_eq_true_eq] at fits
    cases width <;> simp at fits <;> omega
  exact Nat.lt_of_lt_of_le bound limit

theorem short_of_mem_holds {layout : Layout} {values : List Int}
    (fits : layout.holds values = true) : ∀ value ∈ values, value.natAbs < decimalLimit := by
  induction layout generalizing values with
  | nil =>
      cases values with
      | nil => simp
      | cons value values => cases fits
  | cons width layout ih =>
      cases values with
      | nil => simp
      | cons value values =>
          simp only [Layout.holds, Bool.and_eq_true] at fits
          rw [List.forall_mem_cons]
          exact ⟨short_of_holds fits.1, ih fits.2⟩

end Text

/-- The values that are kept are among those that were read. -/
theorem Slot.mem_of_mem_keep {slots : List Slot} {values : List Int}
    (exact : values.length = slots.length) {value : Int} (member : value ∈ keep slots values) :
    value ∈ values := by
  induction slots generalizing values with
  | nil => cases member
  | cons slot slots ih =>
      cases values with
      | nil => cases exact
      | cons first rest =>
          have length : rest.length = slots.length := by simpa using exact
          cases named : slot.label with
          | none =>
              simp only [keep, named] at member
              exact List.mem_cons_of_mem _ (ih length member)
          | some label =>
              simp only [keep, named, List.mem_cons] at member
              obtain rfl | later := member
              · exact List.mem_cons_self
              · exact List.mem_cons_of_mem _ (ih length later)

namespace Listing
open Text

theorem writesInstruction_of_fits {instruction : Instruction} (fits : instruction.fits = true) :
    WritesInstruction instruction := by
  intro pair member
  have kept : instruction.operands =
      Slot.keep instruction.opcode.slots instruction.slotValues :=
    (Slot.keep_spread instruction.arity).symm
  have operand := (List.of_mem_zip member).2
  rw [kept] at operand
  exact short_of_mem_holds fits pair.2
    (Slot.mem_of_mem_keep (Slot.length_spread _ _) operand)

theorem writesAction_of_holds {action : Action} (holds : action.Holds) :
    WritesAction action ∧ 0 ≤ action.flags := by
  have short := short_of_mem_holds holds.header
  have flags : Width.u32.holds action.flags = true := by
    have header := holds.header
    simp only [Action.headerLayout, Action.header, Layout.holds, Bool.and_eq_true] at header
    exact header.1
  obtain ⟨number, same, _⟩ := Width.holds_u32_iff.mp flags
  refine ⟨⟨⟨?_, ?_, ?_⟩, holds.coded, ?_⟩, by omega⟩
  · exact short _ (by simp [Action.header])
  · exact short _ (by simp [Action.header])
  · exact short _ (by simp [Action.header])
  · intro instruction member
    exact writesInstruction_of_fits (holds.operands instruction member)

/-- The actions of a script that fits can all be written, and they have no sign in their flags. -/
theorem writes_of_scriptFits {actions : List Action} (fits : Action.ScriptFits actions) :
    (∀ action ∈ actions, WritesAction action) ∧ ∀ action ∈ actions, 0 ≤ action.flags := by
  obtain ⟨front, last, rfl, continues, closes⟩ := fits
  have holds : ∀ action ∈ front ++ [last], action.Holds := by
    intro action member
    cases List.mem_append.mp member with
    | inl inside => exact (continues action inside).holds
    | inr ending =>
        rw [List.mem_singleton.mp ending]
        exact closes.holds
  exact ⟨fun action member => (writesAction_of_holds (holds action member)).1,
    fun action member => (writesAction_of_holds (holds action member)).2⟩

theorem exists_ofObject {script : ObjectScript} (fits : Action.ScriptFits script.actions) :
    ∃ text, ofObject script = .ok text ∧ parse text = .ok script.actions := by
  obtain ⟨writes, natural⟩ := writes_of_scriptFits fits
  have lines : linesFrom 0 script.actions = .ok (textsFrom 0 script.actions) :=
    linesFrom_eq_ok_iff.mpr ⟨writes, rfl⟩
  have written : ofObject script = .ok (ofLines (textsFrom 0 script.actions)) := by
    rw [ofObject, lines]
    rfl
  exact ⟨_, written, parse_of_ofObject natural written⟩

theorem exists_ofPlayer {script : PlayerScript} (fits : script.Fits) :
    ∃ text, ofPlayer script = .ok text ∧ parse text = .ok script.actions := by
  obtain ⟨writes, natural⟩ := writes_of_scriptFits fits.actions
  have values : ∀ pair ∈ script.playData.assignments, pair.2.natAbs < decimalLimit :=
    fun pair member => short_of_mem_holds fits.playData pair.2 (List.of_mem_zip member).2
  have head := playDataLines_eq_ok_iff.mpr ⟨values, rfl⟩
  have lines : linesFrom 0 script.actions = .ok (textsFrom 0 script.actions) :=
    linesFrom_eq_ok_iff.mpr ⟨writes, rfl⟩
  have written : ofPlayer script =
      .ok (ofLines (headTexts script.playData ++ textsFrom 0 script.actions)) := by
    rw [ofPlayer, head, lines]
    rfl
  exact ⟨_, written, parse_of_ofPlayer natural written⟩

end Listing

namespace ObjectBinary

variable {binary : ObjectBinary} {entry : EntryRef}

theorem setActions_actions (inside : binary.Has entry) :
    binary.setActions entry (binary.actions entry) = binary := by
  cases entry with
  | player => rfl
  | object index =>
      have held : binary.objects[index]? = some binary.objects[index] :=
        List.getElem?_eq_getElem inside
      have same : binary.objects.modify index (fun object =>
          { object with script := ⟨binary.actions (.object index)⟩ }) = binary.objects := by
        refine List.ext_getElem? fun place => ?_
        rw [List.getElem?_modify]
        by_cases here : index = place
        · obtain rfl := here
          simp [actions, held]
        · simp [here]
      rw [setActions, modifyObject, same]

theorem exists_listing (fits : binary.WellFormed) (inside : binary.Has entry) :
    ∃ text, Edit.listing binary entry = .ok text ∧
      Listing.parse text = .ok (binary.actions entry) := by
  cases entry with
  | player => exact Listing.exists_ofPlayer fits.player.script
  | object index =>
      have held : binary.objects[index]? = some binary.objects[index] :=
        List.getElem?_eq_getElem inside
      have actions : binary.actions (.object index) = binary.objects[index].script.actions := by
        simp [ObjectBinary.actions, held]
      have script := (fits.objects _ (List.getElem_mem inside)).script
      rw [← actions] at script
      let alone : ObjectScript := ⟨binary.actions (.object index)⟩
      have fits : Action.ScriptFits alone.actions := script
      exact Listing.exists_ofObject fits

/-- A listing that is exported and imported again leaves the binary as it was. -/
theorem import_export {data : Bytes} {key : String} (read : decode data = .ok binary)
    (chosen : binary.select key = .ok entry) :
    ∃ text, Edit.listing binary entry = .ok text ∧
      Listing.parse text = .ok (binary.actions entry) ∧
        Edit.importListing binary key text = .ok binary := by
  have inside := has_of_select chosen
  obtain ⟨text, written, back⟩ := exists_listing (wellFormed_of_decode read) inside
  refine ⟨text, written, back, ?_⟩
  simp only [Edit.importListing, back, chosen, bind, Except.bind]
  exact congrArg Except.ok (setActions_actions inside)

end ObjectBinary

namespace Listing

/-- What a listing of a script is read as: the actions of the script, whatever their numbers are.
Every script that is decoded has a listing, and importing it changes nothing. -/
theorem parse_listing :
    (∀ (script : ObjectScript) (text : String), (∀ action ∈ script.actions, 0 ≤ action.flags) →
      ofObject script = .ok text → parse text = .ok script.actions) ∧
    (∀ (script : PlayerScript) (text : String), (∀ action ∈ script.actions, 0 ≤ action.flags) →
      ofPlayer script = .ok text → parse text = .ok script.actions) ∧
    (∀ buffer start script stop, ObjectScript.read.Reads buffer start script stop →
      ∃ text, ofObject script = .ok text ∧ parse text = .ok script.actions) ∧
    (∀ buffer start script stop, PlayerScript.read.Reads buffer start script stop →
      ∃ text, ofPlayer script = .ok text ∧ parse text = .ok script.actions) ∧
    ∀ (data : Bytes) (binary : ObjectBinary) (key : String) (entry : EntryRef),
      ObjectBinary.decode data = .ok binary → binary.select key = .ok entry →
        ∃ text, Edit.listing binary entry = .ok text ∧
          parse text = .ok (binary.actions entry) ∧
            Edit.importListing binary key text = .ok binary := by
  refine ⟨?_, ?_, ?_, ?_, ?_⟩
  · intro script text natural written
    exact parse_of_ofObject natural written
  · intro script text natural written
    exact parse_of_ofPlayer natural written
  · intro buffer start script stop read
    obtain ⟨piece, rfl, _⟩ := ObjectScript.readsPieces.mp read
    exact exists_ofObject piece.scriptFits
  · intro buffer start script stop read
    obtain ⟨piece, rfl, _⟩ := PlayerScript.readsPieces.mp read
    exact exists_ofPlayer piece.scriptFits
  · intro data binary key entry read chosen
    exact ObjectBinary.import_export read chosen

/-- A script that no file can hold, with numbers that do not fit and an action without an end. -/
def wild : ObjectScript where
  actions := [
    { flags := 0x123456789A, attackLevel := -3, damage := 70000,
      body := .code [.ofSlots .actionEnd [1, 2], .ofSlots .unk1 [-1, 300]] },
    {}]

def wildText : String :=
  "action 0 flags=0x123456789A attack_level=-3 damage=70000 collision_mask=0\n" ++
    "    ActionEnd flag=1 arg=2\n    Unk1 flag=-1 arg=300\n" ++
    "action 1 flags=0x00000000 attack_level=0 damage=0 collision_mask=0\n"

theorem parse_listing_wild :
    ofObject wild = .ok wildText ∧ parse wildText = .ok wild.actions := by
  have shown : (ofObject wild).toOption = some wildText := by decide +kernel
  have written : ofObject wild = .ok wildText := by
    cases found : ofObject wild with
    | error fault =>
        rw [found] at shown
        cases shown
    | ok text =>
        rw [found] at shown
        exact congrArg Except.ok (Option.some.inj shown)
  exact ⟨written, parse_listing.1 wild wildText (by decide) written⟩

end Listing

end FighterData
