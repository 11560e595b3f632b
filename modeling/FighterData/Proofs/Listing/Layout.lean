import Mathlib.Data.List.Nodup
import Mathlib.Data.List.Perm.Basic
import Mathlib.Data.List.TakeWhile
import Mathlib.Logic.Relation
import FighterData.Proofs.Listing.Lines
import FighterData.Proofs.Text.Layout

/-! The layout of a listing counts for nothing. A line is read by its words, a silent line is passed
over, the words of an action line without an equals sign are notes, and assignments to different
names may stand in any order. Numbers of lines are only for the faults, so whether a listing is read,
and as what, is the same when lines come or go. -/
namespace FighterData.Listing
open Text

/-- The line is made of these words, with blanks around and between them, and may end in a
comment. -/
def InLine (items : List (List Char)) (line : List Char) : Prop :=
  ∃ code comment, line = code ++ comment ∧ '#' ∉ code ∧ (∀ c ∈ comment.head?, c = '#') ∧
    InWords items code

theorem lineWords_eq_iff {line : List Char} {items : List (List Char)} :
    lineWords line = items ↔ InLine items line := by
  constructor
  · rintro rfl
    refine ⟨line.takeWhile (· ≠ '#'), line.dropWhile (· ≠ '#'),
      List.takeWhile_append_dropWhile.symm, fun member => ?_, fun c first => ?_,
      words_eq_iff.mp rfl⟩
    · simpa using List.mem_takeWhile_imp member
    · have stops := List.head?_dropWhile_not (· ≠ '#') line
      rw [Option.mem_def.mp first] at stops
      simpa using stops
  · intro made
    obtain ⟨code, comment, rfl, free, mark, made⟩ := made
    have open_ : ∀ c ∈ code, decide (c ≠ '#') = true := by
      intro c member
      exact decide_eq_true fun same => free (same ▸ member)
    have cut : comment.takeWhile (· ≠ '#') = [] := by
      cases comment with
      | nil => rfl
      | cons c comment =>
          obtain rfl : c = '#' := mark c rfl
          rfl
    rw [lineWords, List.takeWhile_append_of_pos open_, cut, List.append_nil]
    exact words_eq_iff.mpr made

theorem InLine.commented {items : List (List Char)} {line : List Char} (made : InLine items line)
    (text : List Char) : InLine items (line ++ '#' :: text) := by
  obtain ⟨code, comment, rfl, free, mark, made⟩ := made
  refine ⟨code, comment ++ '#' :: text, List.append_assoc _ _ _, free, fun c first => ?_, made⟩
  cases comment with
  | nil => exact (Option.some.inj first).symm
  | cons d comment => exact mark c first

/-- The names in front of the equals signs of these words. -/
def assignedNames (tokens : List (List Char)) : List (List Char) :=
  (tokens.filter (·.contains '=')).map (·.takeWhile (· ≠ '='))

/-- What may be done to a line: a comment is put behind it, its blanks and its comment are changed,
words without an equals sign come, go or change behind `action`, or the words behind the first one
change places if no name has two assignments. -/
inductive LineEdit : List Char → List Char → Prop
  | commented {line : List Char} (text : List Char) : LineEdit line (line ++ '#' :: text)
  | spaced {items : List (List Char)} {line other : List Char} (before : InLine items line)
      (after : InLine items other) : LineEdit line other
  | noted {tokens others : List (List Char)} {line other : List Char}
      (before : InLine ("action".toList :: tokens) line)
      (after : InLine ("action".toList :: others) other)
      (same : tokens.filter (·.contains '=') = others.filter (·.contains '=')) :
      LineEdit line other
  | permuted {first : List Char} {tokens others : List (List Char)} {line other : List Char}
      (before : InLine (first :: tokens) line) (after : InLine (first :: others) other)
      (order : tokens.Perm others) (distinct : (assignedNames tokens).Nodup) :
      LineEdit line other

/-- What may be done to the lines of a text: one that is blank or a comment comes in, or one of them
is edited. -/
inductive LinesEdit : List (List Char) → List (List Char) → Prop
  | inserted (front behind : List (List Char)) {line : List Char} (silent : InLine [] line) :
      LinesEdit (front ++ behind) (front ++ line :: behind)
  | changed (front behind : List (List Char)) {line other : List Char}
      (edit : LineEdit line other) : LinesEdit (front ++ line :: behind) (front ++ other :: behind)

/-- One edit of a text. -/
def Edit (text other : String) : Prop :=
  ∃ items others, InLines items text.toList ∧ InLines others other.toList ∧ LinesEdit items others

section Order

variable {tokens others : List (List Char)} {given rearranged : List (String × Int)}
  {action : Action} {opcode : Opcode} {instruction : Instruction}

theorem lastValue?_eq_some_iff (distinct : (given.map Prod.fst).Nodup) {name : String}
    {value : Int} : lastValue? given name = some value ↔ (name, value) ∈ given := by
  refine ⟨mem_of_lastValue?, fun member => ?_⟩
  cases found : lastValue? given name with
  | none => exact absurd (List.mem_map_of_mem member) (lastValue?_eq_none_iff.mp found)
  | some last =>
      have same := List.inj_on_of_nodup_map distinct (mem_of_lastValue? found) member rfl
      rw [(Prod.mk.inj same).2]

theorem lastValue?_of_perm (order : given.Perm rearranged)
    (distinct : (given.map Prod.fst).Nodup) : lastValue? given = lastValue? rearranged := by
  have kept : (rearranged.map Prod.fst).Nodup := (order.map Prod.fst).nodup_iff.mp distinct
  funext name
  ext value
  rw [lastValue?_eq_some_iff distinct, lastValue?_eq_some_iff kept, order.mem_iff]

/-- The names that are read are the names in front of the equals signs. -/
theorem assignedNames_of_given (mapped : tokens.mapM readAssignment = .ok given) :
    assignedNames tokens = (given.map Prod.fst).map String.toList := by
  have each := mapM_eq_ok_iff_forall₂.mp mapped
  induction each with
  | nil => rfl
  | @cons token pair tokens given read later ih =>
      obtain ⟨text, rfl, free, _⟩ := readAssignment_eq_ok_iff.mp read
      have others := ih (mapM_eq_ok_iff_forall₂.mpr later)
      rw [assignedNames] at others ⊢
      rw [List.filter_cons_of_pos (by simp), List.map_cons, takeWhile_name free, others]
      rfl

/-- Assignments to different names in another order are read as well, to the same names, and every
name has the same value. -/
theorem exists_rearranged {record : String} {allowed : List String} (plain : "self" ∉ allowed)
    (order : tokens.Perm others) (distinct : (assignedNames tokens).Nodup)
    (mapped : tokens.mapM readAssignment = .ok given)
    (checked : checkNames record allowed given = .ok ()) :
    ∃ rearranged, others.mapM readAssignment = .ok rearranged ∧
      checkNames record allowed rearranged = .ok () ∧ lastValue? rearranged = lastValue? given := by
  obtain ⟨rearranged, each, same⟩ :=
    List.perm_comp_forall₂ order.symm (mapM_eq_ok_iff_forall₂.mp mapped)
  rw [assignedNames_of_given mapped] at distinct
  rw [checkNames_eq_ok_iff plain] at checked
  refine ⟨rearranged, mapM_eq_ok_iff_forall₂.mpr each, ?_, ?_⟩
  · exact (checkNames_eq_ok_iff plain).mpr fun pair member => checked pair (same.mem_iff.mp member)
  · exact (lastValue?_of_perm same.symm (distinct.of_map _)).symm

theorem readAction_of_perm (order : tokens.Perm others) (distinct : (assignedNames tokens).Nodup)
    (read : readAction tokens = .ok action) : readAction others = .ok action := by
  obtain ⟨given, mapped, read⟩ := bind_eq_ok_iff.mp read
  obtain ⟨_, checked, read⟩ := bind_eq_ok_iff.mp read
  have apart : (assignedNames (tokens.filter (·.contains '='))).Nodup := by
    simpa only [assignedNames, List.filter_filter, Bool.and_self] using distinct
  obtain ⟨rearranged, moved, known, values⟩ :=
    exists_rearranged (by decide) (order.filter _) apart mapped checked
  refine bind_eq_ok_iff.mpr ⟨rearranged, moved, bind_eq_ok_iff.mpr ⟨_, known, ?_⟩⟩
  simpa only [valueOf, values] using read

theorem readInstruction_of_perm (order : tokens.Perm others)
    (distinct : (assignedNames tokens).Nodup)
    (read : readInstruction opcode tokens = .ok instruction) :
    readInstruction opcode others = .ok instruction := by
  obtain ⟨given, mapped, read⟩ := bind_eq_ok_iff.mp read
  obtain ⟨_, checked, read⟩ := bind_eq_ok_iff.mp read
  obtain ⟨rearranged, moved, known, values⟩ :=
    exists_rearranged opcode.self_notMem_labels order distinct mapped checked
  have same : valueOf rearranged = valueOf given := by
    funext name
    rw [valueOf, valueOf, values]
  refine bind_eq_ok_iff.mpr ⟨rearranged, moved, bind_eq_ok_iff.mpr ⟨_, known, ?_⟩⟩
  rwa [same]

/-- A line with its words in another order is read as the same line. -/
theorem readLine_of_perm {first line other : List Char} {inAction : Bool} {read : Line}
    (before : lineWords line = first :: tokens) (after : lineWords other = first :: others)
    (order : tokens.Perm others) (distinct : (assignedNames tokens).Nodup)
    (taken : readLine inAction line = .ok read) : readLine inAction other = .ok read := by
  obtain rfl | ⟨opcode, rfl⟩ | ⟨unlike, unknown⟩ := keyword_cases first
  · rw [readLine_of_action before] at taken
    rw [readLine_of_action after]
    obtain ⟨action, held, same⟩ := bind_eq_ok_iff.mp taken
    exact bind_eq_ok_iff.mpr ⟨action, readAction_of_perm order distinct held, same⟩
  · rw [readLine_of_instruction before] at taken
    rw [readLine_of_instruction after]
    split at taken
    next inside =>
      obtain ⟨instruction, held, same⟩ := bind_eq_ok_iff.mp taken
      rw [if_pos inside]
      exact bind_eq_ok_iff.mpr ⟨instruction, readInstruction_of_perm order distinct held, same⟩
    next => cases taken
  · rw [readLine_of_unknown before unlike unknown] at taken
    cases taken

end Order

section Edits

variable {line other : List Char} {items others : List (List Char)} {text changed : String}
  {actions : List Action}

/-- An edited line is read as the same line, wherever the line is read at all. -/
theorem LineEdit.readLine_eq_ok_iff (edit : LineEdit line other) (inAction : Bool) (read : Line) :
    readLine inAction line = .ok read ↔ readLine inAction other = .ok read := by
  cases edit with
  | commented text =>
      have made : InLine (lineWords line) line := lineWords_eq_iff.mp rfl
      rw [readLine, readLine, lineWords_eq_iff.mpr (made.commented text)]
  | spaced before after =>
      rw [readLine, readLine, lineWords_eq_iff.mpr before, lineWords_eq_iff.mpr after]
  | noted before after same =>
      rw [readLine_of_action (lineWords_eq_iff.mpr before),
        readLine_of_action (lineWords_eq_iff.mpr after), readAction, readAction, same]
  | permuted before after order distinct =>
      have kept := ((order.filter _).map _).nodup_iff.mp distinct
      have first := lineWords_eq_iff.mpr before
      have second := lineWords_eq_iff.mpr after
      constructor
      · exact readLine_of_perm first second order distinct
      · exact readLine_of_perm second first order.symm kept

/-- The actions behind a line, if the line can stand behind these actions. -/
def advance (actions : List Action) (line : List Char) : Option (List Action) :=
  match readLine (!actions.isEmpty) line with
  | .error _ => none
  | .ok .empty => some actions
  | .ok (.action action) => some (action :: actions)
  | .ok (.instruction instruction) =>
      match actions with
      | [] => none
      | open_ :: earlier => (push instruction open_).toOption.map (· :: earlier)

theorem advance_of_silent (silent : InLine [] line) (actions : List Action) :
    advance actions line = some actions := by
  rw [advance, readLine_of_silent (lineWords_eq_iff.mpr silent)]

theorem advance_eq_of_edit (edit : LineEdit line other) (actions : List Action) :
    advance actions line = advance actions other := by
  have same := edit.readLine_eq_ok_iff (!actions.isEmpty)
  cases first : readLine (!actions.isEmpty) line with
  | ok read => rw [advance, advance, first, (same read).mp first]
  | error cause =>
      cases second : readLine (!actions.isEmpty) other with
      | ok read => cases first.symm.trans ((same read).mpr second)
      | error cause => simp only [advance, first, second]

/-- The lines are read one after another, and their numbers are only for the faults. -/
theorem toOption_readLines (number : Nat) (actions : List Action) (items : List (List Char)) :
    (readLines number actions items).toOption =
      (items.foldlM advance actions).map fun last => last.reverse.map turned := by
  induction items generalizing number actions with
  | nil => rfl
  | cons line items ih =>
      rw [readLines, List.foldlM_cons, advance]
      cases readLine (!actions.isEmpty) line with
      | error cause => rfl
      | ok read =>
          cases read with
          | empty => exact ih _ _
          | action action => exact ih _ _
          | instruction instruction =>
              cases actions with
              | nil => rfl
              | cons open_ earlier =>
                  cases pushed : push instruction open_ with
                  | error fault =>
                      simp only [pushed]
                      rfl
                  | ok extended =>
                      simp only [pushed]
                      exact ih _ _

theorem LinesEdit.foldlM_advance (edit : LinesEdit items others) (actions : List Action) :
    items.foldlM advance actions = others.foldlM advance actions := by
  cases edit with
  | inserted front behind silent =>
      rw [List.foldlM_append, List.foldlM_append]
      congr 1
      funext held
      rw [List.foldlM_cons, advance_of_silent silent]
      rfl
  | changed front behind edit =>
      rw [List.foldlM_append, List.foldlM_append]
      congr 1
      funext held
      rw [List.foldlM_cons, List.foldlM_cons, advance_eq_of_edit edit]

theorem Edit.toOption_parse (edit : Edit text changed) :
    (parse text).toOption = (parse changed).toOption := by
  obtain ⟨items, others, before, after, edit⟩ := edit
  rw [parse, parse, toOption_readLines, toOption_readLines, lines_eq_iff.mpr before,
    lines_eq_iff.mpr after, edit.foldlM_advance]

theorem toOption_parse_of_edits (edits : Relation.EqvGen Edit text changed) :
    (parse text).toOption = (parse changed).toOption := by
  induction edits with
  | rel _ _ edit => exact edit.toOption_parse
  | refl => rfl
  | symm _ _ _ same => exact same.symm
  | trans _ _ _ _ _ first second => exact first.trans second

/-- A listing that is read stays the same under any number of edits and of their opposites. -/
theorem parse_of_edits (edits : Relation.EqvGen Edit text changed)
    (parsed : parse text = .ok actions) : parse changed = .ok actions := by
  have same := toOption_parse_of_edits edits
  rw [parsed] at same
  cases found : parse changed with
  | error fault =>
      rw [found] at same
      cases same
  | ok others =>
      rw [found] at same
      exact congrArg Except.ok (Option.some.inj same).symm

/-- The action gets a note, a comment line comes in, and the operands change places. -/
theorem parse_of_edits_noted : ∃ actions,
    parse "action\nCellBegin cell_no=1 duration=3" = .ok actions ∧
      parse "action one\n# cell\n\tCellBegin duration=3 cell_no=1" = .ok actions := by
  have bare : InLine ["action".toList] "action".toList := lineWords_eq_iff.mp (by decide +kernel)
  have counted : InLine ["action".toList, "one".toList] "action one".toList :=
    lineWords_eq_iff.mp (by decide +kernel)
  have silent : InLine [] "# cell".toList := lineWords_eq_iff.mp (by decide +kernel)
  have cell : InLine ["CellBegin".toList, "cell_no=1".toList, "duration=3".toList]
      "CellBegin cell_no=1 duration=3".toList := lineWords_eq_iff.mp (by decide +kernel)
  have swapped : InLine ["CellBegin".toList, "duration=3".toList, "cell_no=1".toList]
      "\tCellBegin duration=3 cell_no=1".toList := lineWords_eq_iff.mp (by decide +kernel)
  have start : InLines ["action".toList, "CellBegin cell_no=1 duration=3".toList]
      "action\nCellBegin cell_no=1 duration=3".toList := lines_eq_iff.mp (by decide +kernel)
  have noted : InLines ["action one".toList, "CellBegin cell_no=1 duration=3".toList]
      "action one\nCellBegin cell_no=1 duration=3".toList := lines_eq_iff.mp (by decide +kernel)
  have longer : InLines ["action one".toList, "# cell".toList,
      "CellBegin cell_no=1 duration=3".toList]
      "action one\n# cell\nCellBegin cell_no=1 duration=3".toList :=
    lines_eq_iff.mp (by decide +kernel)
  have last : InLines ["action one".toList, "# cell".toList,
      "\tCellBegin duration=3 cell_no=1".toList]
      "action one\n# cell\n\tCellBegin duration=3 cell_no=1".toList :=
    lines_eq_iff.mp (by decide +kernel)
  have first : Edit _ _ := ⟨_, _, start, noted, .changed [] _ (.noted bare counted rfl)⟩
  have second : Edit _ _ := ⟨_, _, noted, longer, .inserted ["action one".toList] _ silent⟩
  have third : Edit _ _ := ⟨_, _, longer, last,
    .changed ["action one".toList, "# cell".toList] _
      (.permuted cell swapped (.swap _ _ _) (by decide))⟩
  have edits := (Relation.EqvGen.rel _ _ first).trans _ _ _
    ((Relation.EqvGen.rel _ _ second).trans _ _ _ (.rel _ _ third))
  have read : (parse "action\nCellBegin cell_no=1 duration=3").toOption.isSome = true := by
    decide +kernel
  cases parsed : parse "action\nCellBegin cell_no=1 duration=3" with
  | error fault =>
      rw [parsed] at read
      cases read
  | ok actions => exact ⟨actions, rfl, parse_of_edits edits parsed⟩

end Edits

end FighterData.Listing
