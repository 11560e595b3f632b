import FighterData.Listing
import FighterData.Proofs.Record
import FighterData.Proofs.Text.Literal
import FighterData.Proofs.Text.Words

/-! The lines of a listing, one by one. A line is a name and assignments with a space before each,
no two of which are to the same name, so the words of the line are found again and every assignment
gives back its value. -/
namespace FighterData

namespace Opcode

/-- What a listing asks of an opcode: its name and its labels are plain words, no two labels are the
same, and none of them is a word with a meaning of its own. -/
structure Spelled (opcode : Opcode) : Prop where
  name : opcode.name.toList ≠ [] ∧ Text.Plain opcode.name.toList
  notAction : opcode.name ≠ "action"
  labels : ∀ label ∈ opcode.labels, label ≠ "self" ∧ Text.Plain label.toList
  distinct : opcode.labels.Nodup

theorem spelled (opcode : Opcode) : opcode.Spelled := by
  have member := mem_all opcode
  constructor
  · revert opcode
    decide +kernel
  · revert opcode
    decide +kernel
  · revert opcode
    decide +kernel
  · revert opcode
    decide +kernel

theorem self_notMem_labels (opcode : Opcode) : "self" ∉ opcode.labels :=
  fun member => (opcode.spelled.labels _ member).1 rfl

end Opcode

namespace Listing
open Text

def assignmentText (name : String) (value : Int) : String :=
  name ++ "=" ++ decimal value

theorem number_eq_ok_iff {value : Int} {text : String} :
    number value = .ok text ↔ value.natAbs < decimalLimit ∧ text = decimal value := by
  unfold number decimalWithinLimit?
  generalize decimalLimit = limit
  by_cases short : value.natAbs < limit
  · rw [if_pos short]
    simp only [Except.ok.injEq, short, true_and]
    exact eq_comm
  · rw [if_neg short]
    simp only [reduceCtorEq, short, false_and]

theorem assignment_eq_ok_iff {name text : String} {value : Int} :
    assignment name value = .ok text ↔
      value.natAbs < decimalLimit ∧ text = assignmentText name value := by
  simp only [assignment, bind_eq_ok_iff, number_eq_ok_iff, exists_made_iff, pure, Except.pure,
    Except.ok.injEq]
  rw [@eq_comm _ _ text]
  rfl

theorem ne_equals_of_isPlain {c : Char} (plain : isPlain c = true) : c ≠ '=' := by
  rintro rfl
  exact absurd plain (by decide)

/-- A word that no comment starts in. -/
structure IsToken (word : List Char) : Prop extends IsWord word where
  open_ : ∀ c ∈ word, c ≠ '#'

theorem isToken_of_plain {word : List Char} (some : word ≠ []) (plain : Plain word) :
    IsToken word where
  some := some
  solid c member := isBlank_of_isPlain (plain c member)
  open_ := by
    rintro c member rfl
    exact absurd (plain _ member) (by decide)

/-- A name, an equals sign and the text of a number. -/
theorem isToken_assignment {name text : List Char} (named : Plain name) (plain : Plain text) :
    IsToken (name ++ '=' :: text) := by
  have each : ∀ c ∈ name ++ '=' :: text, isPlain c = true ∨ c = '=' := by
    intro c member
    cases List.mem_append.mp member with
    | inl first => exact Or.inl (named c first)
    | inr later =>
        cases List.mem_cons.mp later with
        | inl sign => exact Or.inr sign
        | inr last => exact Or.inl (plain c last)
  refine ⟨⟨by simp, ?_⟩, ?_⟩
  · intro c member
    obtain plain | rfl := each c member
    · exact isBlank_of_isPlain plain
    · decide
  · rintro c member rfl
    obtain plain | same := each _ member
    · exact absurd plain (by decide)
    · exact absurd same (by decide)

theorem mem_intercalate {items : List (List Char)} {c : Char}
    (member : c ∈ [' '].intercalate items) :
    c = ' ' ∨ ∃ word ∈ items, c ∈ word := by
  induction items with
  | nil => cases member
  | cons word items ih =>
      cases items with
      | nil => exact Or.inr ⟨word, by simp, by simpa using member⟩
      | cons other items =>
          rw [List.intercalate_cons_cons, List.append_assoc] at member
          cases List.mem_append.mp member with
          | inl first => exact Or.inr ⟨word, by simp, first⟩
          | inr later =>
              cases List.mem_cons.mp later with
              | inl space => exact Or.inl space
              | inr rest =>
                  obtain space | ⟨found, inside, held⟩ := ih rest
                  · exact Or.inl space
                  · exact Or.inr ⟨found, by simp [inside], held⟩

/-- A line without a comment is its words. -/
theorem lineWords_intercalate {items : List (List Char)} (each : ∀ word ∈ items, IsToken word) :
    lineWords ([' '].intercalate items) = items := by
  have whole : ([' '].intercalate items).takeWhile (· ≠ '#') = [' '].intercalate items := by
    have free : ∀ c ∈ [' '].intercalate items, decide (c ≠ '#') = true := by
      intro c member
      obtain rfl | ⟨word, inside, held⟩ := mem_intercalate member
      · decide
      · exact decide_eq_true ((each word inside).open_ c held)
    have cut : ([' '].intercalate items ++ []).takeWhile (· ≠ '#') =
        [' '].intercalate items ++ [].takeWhile (· ≠ '#') := List.takeWhile_append_of_pos free
    rwa [List.append_nil, List.takeWhile_nil, List.append_nil] at cut
  rw [lineWords, whole]
  exact words_intercalate fun word inside => (each word inside).toIsWord

/-- No break is in a line, so it stays one line. -/
def Unbroken (line : String) : Prop :=
  ∀ c ∈ line.toList, isLineBreak c = false

instance : DecidablePred Unbroken := fun line =>
  decidable_of_iff (line.toList.all (!isLineBreak ·) = true) (by simp [Unbroken])

theorem isLineBreak_of_not_isBlank {c : Char} (solid : isBlank c = false) :
    isLineBreak c = false := by
  cases ends : isLineBreak c with
  | false => rfl
  | true =>
      rw [isBlank_of_isLineBreak ends] at solid
      cases solid

theorem unbroken_of_plain {line : String} (plain : Plain line.toList) : Unbroken line :=
  fun c member => isLineBreak_of_not_isBlank (isBlank_of_isPlain (plain c member))

theorem Unbroken.append {front back : String} (first : Unbroken front) (second : Unbroken back) :
    Unbroken (front ++ back) := by
  intro c member
  rw [String.toList_append] at member
  cases List.mem_append.mp member with
  | inl inside => exact first c inside
  | inr inside => exact second c inside

theorem unbroken_intercalate {items : List (List Char)} (each : ∀ word ∈ items, IsToken word) :
    ∀ c ∈ [' '].intercalate items, isLineBreak c = false := by
  intro c member
  obtain rfl | ⟨word, inside, held⟩ := mem_intercalate member
  · decide
  · exact isLineBreak_of_not_isBlank ((each word inside).solid c held)

theorem lineWords_space (line : List Char) : lineWords (' ' :: line) = lineWords line :=
  rfl

theorem takeWhile_name {front : List Char} (free : '=' ∉ front) (back : List Char) :
    (front ++ '=' :: back).takeWhile (· ≠ '=') = front := by
  have other : ∀ c ∈ front, decide (c ≠ '=') = true := by
    intro c member
    exact decide_eq_true fun same => free (same ▸ member)
  rw [List.takeWhile_append_of_pos other, List.takeWhile_cons_of_neg (by simp), List.append_nil]

/-- A token is cut at its first equals sign. -/
theorem splitAssignment_append {front : List Char} (free : '=' ∉ front) (back : List Char) :
    splitAssignment (front ++ '=' :: back) = some (String.ofList front, String.ofList back) := by
  have behind : (front ++ '=' :: back).dropWhile (· ≠ '=') = '=' :: back := by
    have whole := @List.takeWhile_append_dropWhile _ (· ≠ '=') (front ++ '=' :: back)
    rw [takeWhile_name free] at whole
    exact List.append_cancel_left whole
  rw [splitAssignment, takeWhile_name free, behind, if_pos (by simp)]
  rfl

/-- An assignment is cut at its own equals sign, since the name holds none. -/
theorem splitAssignment_eq_some_iff {token : List Char} {name text : String} :
    splitAssignment token = some (name, text) ↔
      token = name.toList ++ '=' :: text.toList ∧ '=' ∉ name.toList := by
  constructor
  · intro cut
    have sign : '=' ∈ token := by
      unfold splitAssignment at cut
      split at cut
      next sign => exact List.contains_iff_mem.mp sign
      next => cases cut
    obtain ⟨front, back, rfl, free⟩ := List.eq_append_cons_of_mem sign
    rw [splitAssignment_append free] at cut
    obtain ⟨rfl, rfl⟩ := Prod.mk.inj (Option.some.inj cut)
    simpa using free
  · intro found
    obtain ⟨rfl, free⟩ := found
    rw [splitAssignment_append free, String.ofList_toList, String.ofList_toList]

theorem readAssignment_append {name text : String} {value : Int} (free : '=' ∉ name.toList)
    (denotes : literal? text = some value) :
    readAssignment (name.toList ++ '=' :: text.toList) = .ok (name, value) := by
  rw [readAssignment, splitAssignment_append free]
  simp only [String.ofList_toList, denotes]

theorem readAssignment_eq_ok_iff {token : List Char} {name : String} {value : Int} :
    readAssignment token = .ok (name, value) ↔
      ∃ text : String, token = name.toList ++ '=' :: text.toList ∧ '=' ∉ name.toList ∧
        literal? text = some value := by
  constructor
  · intro read
    unfold readAssignment at read
    split at read
    next => cases read
    next found text cut =>
      split at read
      next => cases read
      next held denotes =>
        obtain ⟨rfl, rfl⟩ := Prod.mk.inj (Except.ok.inj read)
        obtain ⟨split, free⟩ := splitAssignment_eq_some_iff.mp cut
        exact ⟨text, split, free, denotes⟩
  · intro found
    obtain ⟨text, rfl, free, denotes⟩ := found
    exact readAssignment_append free denotes

theorem equals_notMem_of_plain {word : List Char} (plain : Plain word) : '=' ∉ word :=
  fun member => ne_equals_of_isPlain (plain _ member) rfl

theorem toList_assignmentText (name : String) (value : Int) :
    (assignmentText name value).toList = name.toList ++ '=' :: (decimal value).toList := by
  simp [assignmentText]

/-- Assignments to plain names give back their values. -/
theorem mapM_readAssignment {given : List (String × Int)}
    (each : ∀ pair ∈ given, Plain pair.1.toList ∧ pair.2.natAbs < decimalLimit) :
    (given.map fun pair => (assignmentText pair.1 pair.2).toList).mapM readAssignment =
      .ok given := by
  induction given with
  | nil => rfl
  | cons pair given ih =>
      rw [List.forall_mem_cons] at each
      have first := readAssignment_append (equals_notMem_of_plain each.1.1) (literal?_decimal each.1.2)
      rw [← toList_assignmentText] at first
      rw [List.map_cons, List.mapM_cons, first, ih each.2]
      rfl

theorem checkNames_eq_ok {record : String} {allowed : List String} {given : List (String × Int)}
    (each : ∀ pair ∈ given, pair.1 ≠ "self" ∧ pair.1 ∈ allowed) :
    checkNames record allowed given = .ok () := by
  induction given with
  | nil => rfl
  | cons pair given ih =>
      rw [List.forall_mem_cons] at each
      obtain ⟨name, value⟩ := pair
      have known : allowed.contains name = true := List.contains_iff_mem.mpr each.1.2
      rw [checkNames, if_neg each.1.1, if_pos known]
      exact ih each.2

theorem checkNames_eq_ok_iff {record : String} {allowed : List String}
    {given : List (String × Int)} (plain : "self" ∉ allowed) :
    checkNames record allowed given = .ok () ↔ ∀ pair ∈ given, pair.1 ∈ allowed := by
  constructor
  · intro checked
    induction given with
    | nil => simp
    | cons pair given ih =>
        obtain ⟨name, value⟩ := pair
        rw [checkNames] at checked
        split at checked
        next => cases checked
        next =>
          split at checked
          next known => exact List.forall_mem_cons.mpr ⟨List.contains_iff_mem.mp known, ih checked⟩
          next => cases checked
  · intro each
    refine checkNames_eq_ok fun pair member => ⟨?_, each pair member⟩
    rintro same
    exact plain (same ▸ each pair member)

theorem lastValue?_cons (given : List (String × Int)) (name other : String) (value : Int) :
    lastValue? ((other, value) :: given) name =
      (lastValue? given name).or (if name == other then some value else none) := by
  simp only [lastValue?, List.reverse_cons, List.lookup_append, List.lookup_cons, List.lookup_nil]
  cases name == other <;> rfl

theorem lastValue?_eq_none_iff {given : List (String × Int)} {name : String} :
    lastValue? given name = none ↔ name ∉ given.map Prod.fst := by
  rw [lastValue?, List.lookup_eq_none_iff, List.mem_map]
  constructor
  · intro absent
    rintro ⟨pair, member, rfl⟩
    exact bne_iff_ne.mp (absent pair (List.mem_reverse.mpr member)) rfl
  · intro absent pair member
    rw [bne_iff_ne]
    rintro rfl
    exact absent ⟨pair, List.mem_reverse.mp member, rfl⟩

theorem mem_of_lastValue? {given : List (String × Int)} {name : String} {value : Int}
    (found : lastValue? given name = some value) : (name, value) ∈ given := by
  obtain ⟨front, behind, split, _⟩ := List.lookup_eq_some_iff.mp found
  rw [← List.mem_reverse, split]
  simp

/-- Names that are all different have the values that were given to them. -/
theorem map_valueOf_zip {names : List String} {values : List Int} (distinct : names.Nodup)
    (exact : values.length = names.length) : names.map (valueOf (names.zip values)) = values := by
  induction names generalizing values with
  | nil => exact (List.eq_nil_of_length_eq_zero exact).symm
  | cons name names ih =>
      cases values with
      | nil => cases exact
      | cons value values =>
          have length : values.length = names.length := by simpa using exact
          rw [List.nodup_cons] at distinct
          have absent : name ∉ (names.zip values).map Prod.fst := by
            rw [List.map_fst_zip (by omega)]
            exact distinct.1
          have first : valueOf ((name, value) :: names.zip values) name = value := by
            rw [valueOf, lastValue?_cons, lastValue?_eq_none_iff.mpr absent]
            simp
          have others : ∀ other ∈ names, valueOf ((name, value) :: names.zip values) other =
              valueOf (names.zip values) other := by
            intro other member
            have differ : (other == name) = false := by
              rw [beq_eq_false_iff_ne]
              rintro rfl
              exact distinct.1 member
            rw [valueOf, lastValue?_cons, differ, valueOf]
            simp
          rw [List.zip_cons_cons, List.map_cons, first, List.map_congr_left others,
            ih distinct.2 length]

/-- Every operand is short enough to be written. -/
def WritesInstruction (instruction : Instruction) : Prop :=
  ∀ pair ∈ instruction.assignments, pair.2.natAbs < decimalLimit

def operandTexts (instruction : Instruction) : List String :=
  instruction.assignments.map fun pair => assignmentText pair.1 pair.2

def instructionText (instruction : Instruction) : String :=
  "    " ++ String.intercalate " " (instruction.opcode.name :: operandTexts instruction)

theorem instructionLine_eq_ok_iff {instruction : Instruction} {line : String} :
    instructionLine instruction = .ok line ↔
      WritesInstruction instruction ∧ line = instructionText instruction := by
  have operands (texts : List String) :
      (instruction.assignments.mapM fun pair => assignment pair.1 pair.2) = .ok texts ↔
        WritesInstruction instruction ∧ texts = operandTexts instruction :=
    mapM_eq_ok_iff fun pair _ text => assignment_eq_ok_iff
  have step : instructionLine instruction =
      (instruction.assignments.mapM fun pair => assignment pair.1 pair.2) >>= fun texts =>
        .ok ("    " ++ String.intercalate " " (instruction.opcode.name :: texts)) := rfl
  rw [step, bind_eq_ok_iff]
  simp only [operands, exists_made_iff, Except.ok.injEq]
  rw [@eq_comm _ _ line]
  rfl

theorem plain_label {instruction : Instruction} {pair : String × Int}
    (member : pair ∈ instruction.assignments) :
    pair.1 ∈ instruction.opcode.labels ∧ pair.1 ≠ "self" ∧ Plain pair.1.toList := by
  have inside := (List.of_mem_zip member).1
  exact ⟨inside, instruction.opcode.spelled.labels pair.1 inside⟩

/-- The operands of an instruction are found again under their labels. -/
theorem readInstruction_operandTexts {instruction : Instruction}
    (writes : WritesInstruction instruction) :
    readInstruction instruction.opcode ((operandTexts instruction).map String.toList) =
      .ok instruction := by
  have given : ((operandTexts instruction).map String.toList).mapM readAssignment =
      .ok instruction.assignments := by
    rw [operandTexts, List.map_map]
    exact mapM_readAssignment fun pair member => ⟨(plain_label member).2.2, writes pair member⟩
  have known : checkNames instruction.opcode.name instruction.opcode.labels
      instruction.assignments = .ok () :=
    checkNames_eq_ok fun pair member => ⟨(plain_label member).2.1, (plain_label member).1⟩
  have same : Instruction.ofNamed instruction.opcode (valueOf instruction.assignments) =
      instruction := by
    obtain ⟨opcode, operands, arity⟩ := instruction
    simp only [Instruction.ofNamed, Instruction.assignments, Instruction.mk.injEq, true_and]
    exact map_valueOf_zip opcode.spelled.distinct arity
  simp only [readInstruction, given, known, bind, Except.bind, same]
  rfl

theorem toList_instructionText (instruction : Instruction) :
    (instructionText instruction).toList = ' ' :: ' ' :: ' ' :: ' ' ::
      [' '].intercalate (instruction.opcode.name.toList ::
        (operandTexts instruction).map String.toList) := by
  simp [instructionText, String.toList_intercalate]

theorem isToken_instructionText (instruction : Instruction) :
    ∀ word ∈ instruction.opcode.name.toList :: (operandTexts instruction).map String.toList,
      IsToken word := by
  rw [List.forall_mem_cons]
  refine ⟨isToken_of_plain instruction.opcode.spelled.name.1 instruction.opcode.spelled.name.2, ?_⟩
  intro word member
  obtain ⟨text, inside, rfl⟩ := List.mem_map.mp member
  obtain ⟨pair, held, rfl⟩ := List.mem_map.mp inside
  rw [toList_assignmentText]
  exact isToken_assignment (plain_label held).2.2 (plain_decimal _)

theorem lineWords_instructionText (instruction : Instruction) :
    lineWords (instructionText instruction).toList =
      instruction.opcode.name.toList :: (operandTexts instruction).map String.toList := by
  rw [toList_instructionText, lineWords_space, lineWords_space, lineWords_space, lineWords_space]
  exact lineWords_intercalate (isToken_instructionText instruction)

theorem unbroken_instructionText (instruction : Instruction) :
    Unbroken (instructionText instruction) := by
  have space : isLineBreak ' ' = false := by decide
  rw [Unbroken, toList_instructionText]
  simp only [List.forall_mem_cons]
  exact ⟨space, space, space, space, unbroken_intercalate (isToken_instructionText instruction)⟩

section Forms

variable {line : List Char} {tokens : List (List Char)}

theorem readLine_of_silent (none : lineWords line = []) (inAction : Bool) :
    readLine inAction line = .ok .empty := by
  rw [readLine, none]

theorem readLine_of_action (opens : lineWords line = "action".toList :: tokens) (inAction : Bool) :
    readLine inAction line = readAction tokens >>= fun action => .ok (.action action) := by
  rw [readLine, opens]
  exact if_pos rfl

theorem toList_name_ne_action (opcode : Opcode) : opcode.name.toList ≠ "action".toList :=
  fun same => opcode.spelled.notAction (String.toList_inj.mp same)

theorem readLine_of_instruction {opcode : Opcode}
    (named : lineWords line = opcode.name.toList :: tokens) (inAction : Bool) :
    readLine inAction line =
      if inAction then readInstruction opcode tokens >>= fun instruction =>
        .ok (.instruction instruction)
      else .error .outsideAction := by
  have found : Opcode.ofName? (String.ofList opcode.name.toList) = some opcode := by
    rw [String.ofList_toList]
    exact Opcode.ofName?_name _
  simp only [readLine, named, if_neg (toList_name_ne_action opcode), found]
  rfl

/-- The first word of a line opens an action, names an instruction or is unknown. -/
theorem keyword_cases (name : List Char) :
    name = "action".toList ∨ (∃ opcode : Opcode, name = opcode.name.toList) ∨
      name ≠ "action".toList ∧ Opcode.ofName? (String.ofList name) = none := by
  by_cases opens : name = "action".toList
  · exact Or.inl opens
  · cases known : Opcode.ofName? (String.ofList name) with
    | none => exact Or.inr (Or.inr ⟨opens, rfl⟩)
    | some opcode =>
        refine Or.inr (Or.inl ⟨opcode, ?_⟩)
        rw [Opcode.name_of_ofName? known, String.toList_ofList]

theorem readLine_of_unknown {name : List Char} (named : lineWords line = name :: tokens)
    (other : name ≠ "action".toList) (unknown : Opcode.ofName? (String.ofList name) = none)
    (inAction : Bool) :
    readLine inAction line = .error (.unknownInstruction (String.ofList name)) := by
  simp only [readLine, named, if_neg other, unknown]

end Forms

/-- An instruction line below an action is read as its instruction. -/
theorem readLine_instructionText {instruction : Instruction}
    (writes : WritesInstruction instruction) :
    readLine true (instructionText instruction).toList = .ok (.instruction instruction) := by
  rw [readLine_of_instruction (lineWords_instructionText instruction), if_pos rfl,
    readInstruction_operandTexts writes]
  rfl

/-- Every number of the header but the flags is short enough to be written in base ten. -/
structure WritesHeader (action : Action) : Prop where
  attackLevel : action.attackLevel.natAbs < decimalLimit
  damage : action.damage.natAbs < decimalLimit
  collisionMask : action.collisionMask.natAbs < decimalLimit

/-- The fields of the header behind the flags. -/
def headerFields (action : Action) : List (String × Int) :=
  [("attack_level", action.attackLevel), ("damage", action.damage),
    ("collision_mask", action.collisionMask)]

def flagsText (action : Action) : String :=
  "flags=" ++ ("0x" ++ hexPadded 8 action.flags)

def headerTexts (action : Action) : List String :=
  flagsText action :: (headerFields action).map fun pair => assignmentText pair.1 pair.2

def actionText (index : Nat) (action : Action) : String :=
  String.intercalate " " ("action" :: decimal index :: headerTexts action)

theorem actionLine_eq_ok_iff {index : Nat} {action : Action} {line : String} :
    actionLine index action = .ok line ↔ WritesHeader action ∧ line = actionText index action := by
  simp only [actionLine, bind_eq_ok_iff, assignment_eq_ok_iff, exists_made_iff, pure, Except.pure,
    Except.ok.injEq]
  constructor
  · intro found
    obtain ⟨attackLevel, damage, collisionMask, rfl⟩ := found
    refine ⟨⟨attackLevel, damage, collisionMask⟩, ?_⟩
    rw [← String.toList_inj]
    simp [actionText, headerTexts, headerFields, flagsText]
  · intro found
    obtain ⟨⟨attackLevel, damage, collisionMask⟩, rfl⟩ := found
    refine ⟨attackLevel, damage, collisionMask, ?_⟩
    rw [← String.toList_inj]
    simp [actionText, headerTexts, headerFields, flagsText]

theorem toList_flagsText (action : Action) : (flagsText action).toList =
    "flags".toList ++ '=' :: ("0x" ++ hexPadded 8 action.flags).toList := by
  simp [flagsText]

theorem plain_headerFields {action : Action} :
    ∀ pair ∈ headerFields action, Plain pair.1.toList := by
  have every : ∀ name ∈ ["attack_level", "damage", "collision_mask"], Plain name.toList := by
    decide
  intro pair member
  refine every pair.1 ?_
  simp only [headerFields, List.mem_cons, List.not_mem_nil, or_false] at member
  obtain rfl | rfl | rfl := member <;> simp

theorem isToken_headerTexts {action : Action} (natural : 0 ≤ action.flags) :
    ∀ text ∈ headerTexts action, IsToken text.toList := by
  rw [headerTexts, List.forall_mem_cons]
  constructor
  · rw [toList_flagsText]
    exact isToken_assignment (by decide) (plain_hexPadded 8 natural)
  · intro text member
    obtain ⟨pair, held, rfl⟩ := List.mem_map.mp member
    rw [toList_assignmentText]
    exact isToken_assignment (plain_headerFields pair held) (plain_decimal _)

theorem isToken_actionText (index : Nat) {action : Action} (natural : 0 ≤ action.flags) :
    ∀ word ∈ "action".toList :: (decimal index).toList :: (headerTexts action).map String.toList,
      IsToken word := by
  have plain : Plain (decimal index).toList := plain_decimal index
  have some : (decimal index).toList ≠ [] := by
    obtain ⟨first, rest, spelled, _, _⟩ := exists_cons_toDigits (index : Int).natAbs
    rw [toList_decimal, spelled]
    simp
  rw [List.forall_mem_cons, List.forall_mem_cons]
  refine ⟨isToken_of_plain (by decide) (by decide), isToken_of_plain some plain, ?_⟩
  intro word member
  obtain ⟨text, held, rfl⟩ := List.mem_map.mp member
  exact isToken_headerTexts natural text held

theorem toList_actionText (index : Nat) (action : Action) : (actionText index action).toList =
    [' '].intercalate ("action".toList :: (decimal index).toList ::
      (headerTexts action).map String.toList) :=
  String.toList_intercalate

theorem lineWords_actionText (index : Nat) {action : Action} (natural : 0 ≤ action.flags) :
    lineWords (actionText index action).toList =
      "action".toList :: (decimal index).toList :: (headerTexts action).map String.toList := by
  rw [toList_actionText]
  exact lineWords_intercalate (isToken_actionText index natural)

theorem unbroken_actionText (index : Nat) {action : Action} (natural : 0 ≤ action.flags) :
    Unbroken (actionText index action) := by
  rw [Unbroken, toList_actionText]
  exact unbroken_intercalate (isToken_actionText index natural)

/-- The values of the header are found again under their names; the index counts for nothing. -/
theorem readAction_headerTexts (index : Nat) {action : Action} (natural : 0 ≤ action.flags)
    (writes : WritesHeader action) :
    readAction ((decimal index).toList :: (headerTexts action).map String.toList) =
      .ok { action with body := .code [] } := by
  have skipped : ¬ (decimal index).toList.contains '=' = true := by
    rw [List.contains_iff_mem]
    intro member
    exact ne_equals_of_isPlain (plain_decimal _ _ member) rfl
  have kept : ((headerTexts action).map String.toList).filter (·.contains '=') =
      (headerTexts action).map String.toList := by
    simp [headerTexts, toList_flagsText, headerFields, toList_assignmentText]
  have filtered : ((decimal index).toList :: (headerTexts action).map String.toList).filter
      (·.contains '=') = (headerTexts action).map String.toList := by
    rw [List.filter_cons, if_neg skipped, kept]
  have flags : readAssignment (flagsText action).toList = .ok ("flags", action.flags) := by
    rw [toList_flagsText]
    exact readAssignment_append (by decide) (literal?_hexPadded natural)
  have short : ∀ pair ∈ headerFields action, pair.2.natAbs < decimalLimit := by
    intro pair member
    simp only [headerFields, List.mem_cons, List.not_mem_nil, or_false] at member
    obtain rfl | rfl | rfl := member
    · exact writes.attackLevel
    · exact writes.damage
    · exact writes.collisionMask
  have fields := mapM_readAssignment fun pair member =>
    ⟨plain_headerFields pair member, short pair member⟩
  have given : (((decimal index).toList :: (headerTexts action).map String.toList).filter
      (·.contains '=')).mapM readAssignment =
        .ok (("flags", action.flags) :: headerFields action) := by
    have rest : ((headerFields action).map
        (String.toList ∘ fun pair => assignmentText pair.1 pair.2)).mapM readAssignment =
          .ok (headerFields action) := fields
    rw [filtered, headerTexts, List.map_cons, List.mapM_cons, flags, List.map_map, rest]
    rfl
  have known : checkNames "ScriptAction" actionNames
      (("flags", action.flags) :: headerFields action) = .ok () := rfl
  simp only [readAction, given, known, bind, Except.bind]
  rfl

/-- An action line is read as its header, with no instruction yet. -/
theorem readLine_actionText (inAction : Bool) (index : Nat) {action : Action}
    (natural : 0 ≤ action.flags) (writes : WritesHeader action) :
    readLine inAction (actionText index action).toList =
      .ok (.action { action with body := .code [] }) := by
  rw [readLine_of_action (lineWords_actionText index natural),
    readAction_headerTexts index natural writes]
  rfl

end Listing

end FighterData
