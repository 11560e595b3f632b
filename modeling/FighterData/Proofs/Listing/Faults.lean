import Mathlib.Data.Set.Basic
import Mathlib.Order.Bounds.Basic
import FighterData.Fault.Message
import FighterData.Proofs.Listing.Lines

/-! Which lines a listing may have, and what is said about the first line that it may not have.
Every line is read or refused on its own, but for the question whether an action stands above it, so
the first line that has none of the forms is the one that is reported. The name `instructions` is
not meant to be given in an action line, and is taken there all the same: it puts a number in the
place of the instructions, and the line is not reported. -/
namespace FighterData.Listing
open Text

/-- A token that gives an integer to one of these names. -/
def Assigns (names : List String) (token : List Char) : Prop :=
  ∃ name text value, token = name.toList ++ '=' :: text.toList ∧ '=' ∉ name.toList ∧
    literal? text = some value ∧ name ∈ names

section Assignments

variable {token : List Char} {tokens : List (List Char)} {name text : String} {names : List String}

theorem assigns_iff : Assigns names token ↔
    ∃ name value, readAssignment token = .ok (name, value) ∧ name ∈ names := by
  simp only [readAssignment_eq_ok_iff]
  constructor
  · intro found
    obtain ⟨name, text, value, split, free, denotes, member⟩ := found
    exact ⟨name, value, ⟨text, split, free, denotes⟩, member⟩
  · intro found
    obtain ⟨name, value, ⟨text, split, free, denotes⟩, member⟩ := found
    exact ⟨name, text, value, split, free, denotes, member⟩

/-- The name of an assignment is what stands in front of the first equals sign. -/
theorem Assigns.mem (assigned : Assigns names (name.toList ++ '=' :: text.toList))
    (free : '=' ∉ name.toList) : name ∈ names := by
  obtain ⟨other, held, _, split, apart, _, member⟩ := assigned
  have cut : splitAssignment (name.toList ++ '=' :: text.toList) = some (name, text) :=
    splitAssignment_eq_some_iff.mpr ⟨rfl, free⟩
  rw [splitAssignment_eq_some_iff.mpr ⟨split, apart⟩] at cut
  obtain ⟨rfl, _⟩ := Prod.mk.inj (Option.some.inj cut)
  exact member

/-- The tokens are all read, to names among these, exactly if each of them is an assignment to one. -/
theorem exists_given_iff :
    (∃ given, tokens.mapM readAssignment = .ok given ∧ ∀ pair ∈ given, pair.1 ∈ names) ↔
      ∀ token ∈ tokens, Assigns names token := by
  induction tokens with
  | nil => exact ⟨fun _ => by simp, fun _ => ⟨[], rfl, by simp⟩⟩
  | cons token tokens ih =>
      rw [List.forall_mem_cons, ← ih, assigns_iff]
      constructor
      · intro found
        obtain ⟨given, mapped, each⟩ := found
        rw [List.mapM_cons] at mapped
        obtain ⟨pair, first, mapped⟩ := bind_eq_ok_iff.mp mapped
        obtain ⟨others, later, mapped⟩ := bind_eq_ok_iff.mp mapped
        obtain rfl := Except.ok.inj mapped
        rw [List.forall_mem_cons] at each
        exact ⟨⟨pair.1, pair.2, first, each.1⟩, others, later, each.2⟩
      · intro found
        obtain ⟨⟨name, value, first, member⟩, others, later, each⟩ := found
        refine ⟨(name, value) :: others, ?_, List.forall_mem_cons.mpr ⟨member, each⟩⟩
        rw [List.mapM_cons, first, later]
        rfl

/-- What is given to a record is taken exactly if each token is an assignment to one of its names. -/
theorem exists_checked_iff (record : String) (plain : "self" ∉ names) :
    (∃ given, tokens.mapM readAssignment = .ok given ∧ checkNames record names given = .ok ()) ↔
      ∀ token ∈ tokens, Assigns names token := by
  simp only [checkNames_eq_ok_iff plain]
  exact exists_given_iff

end Assignments

section Lines

variable {names : List String} {before : List (List Char)} {line : List Char}
  {tokens : List (List Char)} {inAction : Bool} {action : Action}

/-- The first word of the line is `action`. -/
def OpensAction (line : List Char) : Prop :=
  ∃ tokens, lineWords line = "action".toList :: tokens

/-- The forms that a line behind others may have. A line without a word is blank or a comment. An
action line gives integers to some of the names, and its other words have no equals sign. An
instruction line gives integers to operands of its instruction, and stands below an action. -/
inductive Valid (names : List String) (before : List (List Char)) (line : List Char) : Prop
  | silent (none : lineWords line = [])
  | action {tokens : List (List Char)} (opens : lineWords line = "action".toList :: tokens)
      (assigned : ∀ token ∈ tokens, '=' ∈ token → Assigns names token)
  | instruction {opcode : Opcode} {tokens : List (List Char)}
      (named : lineWords line = opcode.name.toList :: tokens)
      (assigned : ∀ token ∈ tokens, Assigns opcode.labels token)
      (inside : ∃ opener ∈ before, OpensAction opener)

/-- The names of the four header fields. -/
def headerNames : List String :=
  ["flags", "attack_level", "damage", "collision_mask"]

theorem assigns_actionNames_iff {token : List Char} : Assigns actionNames token ↔
    Assigns headerNames token ∨ Assigns ["instructions"] token := by
  have parts : actionNames = headerNames ++ ["instructions"] := rfl
  simp only [assigns_iff, parts, List.mem_append, and_or_left, exists_or]

/-- An action line that gives an integer to the name `instructions`. -/
def SetsBody (line : List Char) : Prop :=
  ∃ tokens, lineWords line = "action".toList :: tokens ∧
    ∃ token ∈ tokens, Assigns ["instructions"] token

/-- A line that gives something to a name which is none of the four fields in an action line, or none
of the operands in an instruction line. -/
inductive NamesUnknown (line : List Char) : Prop
  | action {tokens : List (List Char)} {name text : String}
      (opens : lineWords line = "action".toList :: tokens)
      (member : name.toList ++ '=' :: text.toList ∈ tokens) (free : '=' ∉ name.toList)
      (unknown : name ∉ headerNames)
  | instruction {opcode : Opcode} {tokens : List (List Char)} {name text : String}
      (named : lineWords line = opcode.name.toList :: tokens)
      (member : name.toList ++ '=' :: text.toList ∈ tokens) (free : '=' ∉ name.toList)
      (unknown : name ∉ opcode.labels)

/-- Such a line has none of the forms, wherever it stands. -/
theorem NamesUnknown.not_valid (names : NamesUnknown line) : ¬ Valid headerNames before line := by
  intro valid
  cases names with
  | action opens member free unknown =>
      cases valid with
      | silent none => cases opens.symm.trans none
      | action other assigned =>
          obtain ⟨_, rfl⟩ := List.cons.inj (opens.symm.trans other)
          exact unknown ((assigned _ member (by simp)).mem free)
      | instruction named =>
          exact toList_name_ne_action _ (List.cons.inj (named.symm.trans opens)).1
  | @instruction opcode _ _ _ named member free unknown =>
      cases valid with
      | silent none => cases named.symm.trans none
      | action opens =>
          exact toList_name_ne_action _ (List.cons.inj (named.symm.trans opens)).1
      | instruction other assigned =>
          obtain ⟨same, rfl⟩ := List.cons.inj (named.symm.trans other)
          have found := Opcode.ofName?_name opcode
          rw [String.toList_inj.mp same, Opcode.ofName?_name] at found
          obtain rfl := Option.some.inj found
          exact unknown ((assigned _ member).mem free)

theorem SetsBody.namesUnknown (sets : SetsBody line) : NamesUnknown line := by
  obtain ⟨tokens, opens, token, member, name, text, value, rfl, free, _, known⟩ := sets
  obtain rfl := List.mem_singleton.mp known
  exact .action opens member free (by decide)

/-- Only an action line can tell the four fields from all names that are taken. -/
theorem valid_headerNames_iff :
    Valid headerNames before line ↔ Valid actionNames before line ∧ ¬ SetsBody line := by
  constructor
  · intro valid
    refine ⟨?_, fun sets => sets.namesUnknown.not_valid valid⟩
    cases valid with
    | silent none => exact .silent none
    | action opens assigned =>
        exact .action opens fun token member sign =>
          assigns_actionNames_iff.mpr (Or.inl (assigned token member sign))
    | instruction named assigned inside => exact .instruction named assigned inside
  · intro found
    obtain ⟨valid, unset⟩ := found
    cases valid with
    | silent none => exact .silent none
    | @action tokens opens assigned =>
        refine .action opens fun token member sign => ?_
        obtain header | body := assigns_actionNames_iff.mp (assigned token member sign)
        · exact header
        · exact absurd ⟨tokens, opens, token, member, body⟩ unset
    | instruction named assigned inside => exact .instruction named assigned inside

theorem exists_readAction_iff :
    (∃ action, readAction tokens = .ok action) ↔
      ∀ token ∈ tokens, '=' ∈ token → Assigns actionNames token := by
  have marked : (∀ token ∈ tokens.filter (·.contains '='), Assigns actionNames token) ↔
      ∀ token ∈ tokens, '=' ∈ token → Assigns actionNames token := by
    simp only [List.mem_filter, List.contains_iff_mem, and_imp]
  rw [← marked, ← exists_checked_iff "ScriptAction" (by decide)]
  constructor
  · intro found
    obtain ⟨action, read⟩ := found
    obtain ⟨given, mapped, read⟩ := bind_eq_ok_iff.mp read
    obtain ⟨_, checked, _⟩ := bind_eq_ok_iff.mp read
    exact ⟨given, mapped, checked⟩
  · intro found
    obtain ⟨given, mapped, checked⟩ := found
    simp only [readAction, mapped, checked, bind, Except.bind]
    exact ⟨_, rfl⟩

theorem exists_readInstruction_iff {opcode : Opcode} :
    (∃ instruction, readInstruction opcode tokens = .ok instruction) ↔
      ∀ token ∈ tokens, Assigns opcode.labels token := by
  rw [← exists_checked_iff opcode.name opcode.self_notMem_labels]
  constructor
  · intro found
    obtain ⟨instruction, read⟩ := found
    obtain ⟨given, mapped, read⟩ := bind_eq_ok_iff.mp read
    obtain ⟨_, checked, _⟩ := bind_eq_ok_iff.mp read
    exact ⟨given, mapped, checked⟩
  · intro found
    obtain ⟨given, mapped, checked⟩ := found
    simp only [readInstruction, mapped, checked, bind, Except.bind]
    exact ⟨_, rfl⟩

/-- The body of a new action is empty, unless a number was given for it. -/
theorem body_of_readAction (read : readAction tokens = .ok action) :
    action.body = .code [] ∨ ∃ token ∈ tokens, Assigns ["instructions"] token := by
  obtain ⟨given, mapped, read⟩ := bind_eq_ok_iff.mp read
  obtain ⟨_, _, read⟩ := bind_eq_ok_iff.mp read
  obtain rfl := Except.ok.inj read
  cases found : lastValue? given "instructions" with
  | none => exact Or.inl rfl
  | some value =>
      obtain ⟨token, member, denotes⟩ :=
        exists_of_mem_encoded (mapM_eq_ok_iff_forall₂.mp mapped) (mem_of_lastValue? found)
      refine Or.inr ⟨token, (List.mem_filter.mp member).1, assigns_iff.mpr ?_⟩
      exact ⟨"instructions", value, denotes, List.mem_singleton_self _⟩

/-- A number that is given for the body takes its place. -/
theorem exists_number_of_readAction (read : readAction tokens = .ok action)
    {token : List Char} (member : token ∈ tokens) (given : Assigns ["instructions"] token) :
    ∃ value, action.body = .number value := by
  obtain ⟨pairs, mapped, read⟩ := bind_eq_ok_iff.mp read
  obtain ⟨_, _, read⟩ := bind_eq_ok_iff.mp read
  obtain rfl := Except.ok.inj read
  obtain ⟨name, text, value, rfl, free, denotes, known⟩ := given
  obtain rfl := List.mem_singleton.mp known
  obtain ⟨pair, held, taken⟩ := exists_of_mem_encoded (mapM_eq_ok_iff_forall₂.mp mapped).flip
    (List.mem_filter.mpr ⟨member, by simp⟩)
  obtain rfl := Except.ok.inj ((readAssignment_append free denotes).symm.trans taken)
  cases found : lastValue? pairs "instructions" with
  | none => exact absurd (List.mem_map_of_mem held) (lastValue?_eq_none_iff.mp found)
  | some value => exact ⟨value, rfl⟩

/-- A line is read exactly if it has one of the forms, the name `instructions` counted among those
of an action line. -/
theorem exists_readLine_iff (context : inAction = true ↔ ∃ opener ∈ before, OpensAction opener) :
    (∃ read, readLine inAction line = .ok read) ↔ Valid actionNames before line := by
  constructor
  · intro found
    obtain ⟨read, found⟩ := found
    cases opens : lineWords line with
    | nil => exact .silent opens
    | cons name tokens =>
        obtain rfl | ⟨opcode, rfl⟩ | ⟨other, unknown⟩ := keyword_cases name
        · rw [readLine_of_action opens] at found
          obtain ⟨action, taken, _⟩ := bind_eq_ok_iff.mp found
          exact .action opens (exists_readAction_iff.mp ⟨action, taken⟩)
        · rw [readLine_of_instruction opens] at found
          split at found
          next inside =>
            obtain ⟨instruction, taken, _⟩ := bind_eq_ok_iff.mp found
            exact .instruction opens (exists_readInstruction_iff.mp ⟨instruction, taken⟩)
              (context.mp inside)
          next => cases found
        · rw [readLine_of_unknown opens other unknown] at found
          cases found
  · intro valid
    cases valid with
    | silent none => exact ⟨_, readLine_of_silent none inAction⟩
    | action opens assigned =>
        obtain ⟨action, taken⟩ := exists_readAction_iff.mpr assigned
        rw [readLine_of_action opens, taken]
        exact ⟨_, rfl⟩
    | instruction named assigned inside =>
        obtain ⟨instruction, taken⟩ := exists_readInstruction_iff.mpr assigned
        rw [readLine_of_instruction named, if_pos (context.mpr inside), taken]
        exact ⟨_, rfl⟩

end Lines

section Order

variable {names : List String} {before front rest lines : List (List Char)} {line : List Char}

/-- Every line has one of the forms, behind the lines that stand above it. -/
def AllValid (names : List String) (before : List (List Char)) : List (List Char) → Prop
  | [] => True
  | line :: rest => Valid names before line ∧ AllValid names (before ++ [line]) rest

/-- The numbers of the lines that have none of the forms. -/
def faulty (names : List String) (lines : List (List Char)) : Set Nat :=
  {number | ∃ front line rest, lines = front ++ line :: rest ∧ number = front.length + 1 ∧
    ¬ Valid names front line}

theorem allValid_append : AllValid names before (front ++ rest) ↔
    AllValid names before front ∧ AllValid names (before ++ front) rest := by
  induction front generalizing before with
  | nil => simp [AllValid]
  | cons line front ih =>
      rw [List.cons_append, AllValid, AllValid, ih, List.append_assoc, and_assoc]
      rfl

/-- Either every line has one of the forms, or there is a first one that has none. -/
theorem allValid_or_exists_first (names : List String) (before lines : List (List Char)) :
    AllValid names before lines ∨ ∃ front line rest, lines = front ++ line :: rest ∧
      AllValid names before front ∧ ¬ Valid names (before ++ front) line := by
  induction lines generalizing before with
  | nil => exact Or.inl trivial
  | cons line rest ih =>
      by_cases valid : Valid names before line
      · obtain all | ⟨front, bad, behind, split, each, invalid⟩ := ih (before ++ [line])
        · exact Or.inl ⟨valid, all⟩
        · refine Or.inr ⟨line :: front, bad, behind, congrArg (line :: ·) split, ⟨valid, each⟩, ?_⟩
          rwa [List.append_assoc] at invalid
      · exact Or.inr ⟨[], line, rest, rfl, trivial, by rwa [List.append_nil]⟩

theorem faulty_eq_empty (all : AllValid names [] lines) : faulty names lines = ∅ := by
  refine Set.eq_empty_iff_forall_notMem.mpr fun number member => ?_
  obtain ⟨front, line, rest, rfl, _, invalid⟩ := member
  exact invalid (allValid_append.mp all).2.1

theorem isLeast_faulty (each : AllValid names [] front) (invalid : ¬ Valid names front line) :
    IsLeast (faulty names (front ++ line :: rest)) (front.length + 1) := by
  refine ⟨⟨front, line, rest, rfl, rfl, invalid⟩, fun number member => ?_⟩
  obtain ⟨other, bad, behind, split, rfl, failing⟩ := member
  obtain ⟨more, rfl, _⟩ | ⟨more, rfl, back⟩ := List.append_eq_append_iff.mp split
  · simp
  · cases more with
    | nil => simp
    | cons first more =>
        -- the other line stands among those in front, which all have one of the forms
        obtain ⟨rfl, _⟩ := List.cons.inj back
        exact absurd (allValid_append.mp each).2.1 failing

end Order

section Run

variable {before front : List (List Char)} {line : List Char} {actions result : List Action}
  {action : Action} {lines : List (List Char)} {number : Nat} {fault : Fault}

/-- What the reader holds behind lines that all have one of the forms: some action exactly if one
of the lines opens it, and instructions in each. -/
structure Holds (before : List (List Char)) (actions : List Action) : Prop where
  opened : (!actions.isEmpty) = true ↔ ∃ opener ∈ before, OpensAction opener
  coded : ∀ action ∈ actions, ∃ instructions, action.body = .code instructions

theorem holds_nil : Holds [] [] where
  opened := by simp
  coded := by simp

/-- A line of one of the forms is read, and the reader goes on behind it. -/
theorem Holds.step (holds : Holds before actions) (valid : Valid headerNames before line) :
    ∃ next, Holds (before ++ [line]) next ∧
      ∀ number rest, readLines number actions (line :: rest) = readLines (number + 1) next rest := by
  cases valid with
  | silent none =>
      refine ⟨actions, ⟨?_, holds.coded⟩, fun number rest => ?_⟩
      · have closed : ¬ OpensAction line := by
          rintro ⟨tokens, opens⟩
          cases none.symm.trans opens
        rw [holds.opened]
        simp [or_and_right, exists_or, closed]
      · rw [readLines, readLine_of_silent none]
  | @action tokens opens assigned =>
      obtain ⟨action, read⟩ := exists_readAction_iff.mpr fun token member sign =>
        assigns_actionNames_iff.mpr (Or.inl (assigned token member sign))
      have coded : action.body = .code [] := by
        obtain coded | ⟨token, member, given⟩ := body_of_readAction read
        · exact coded
        · have sets : SetsBody line := ⟨tokens, opens, token, member, given⟩
          have invalid : ¬ Valid headerNames before line := sets.namesUnknown.not_valid
          exact absurd (.action opens assigned) invalid
      refine ⟨action :: actions, ⟨?_, ?_⟩, fun number rest => ?_⟩
      · exact iff_of_true rfl ⟨line, by simp, tokens, opens⟩
      · exact List.forall_mem_cons.mpr ⟨⟨[], coded⟩, holds.coded⟩
      · rw [readLines, readLine_of_action opens, read]
        rfl
  | instruction named assigned inside =>
      obtain ⟨instruction, read⟩ := exists_readInstruction_iff.mpr assigned
      have some := holds.opened.mpr inside
      cases actions with
      | nil => cases some
      | cons open_ earlier =>
          obtain ⟨⟨instructions, code⟩, others⟩ := List.forall_mem_cons.mp holds.coded
          refine ⟨{ open_ with body := .code (instruction :: instructions) } :: earlier,
            ⟨?_, ?_⟩, fun number rest => ?_⟩
          · obtain ⟨opener, member, opens⟩ := inside
            exact iff_of_true rfl ⟨opener, List.mem_append_left _ member, opens⟩
          · exact List.forall_mem_cons.mpr ⟨⟨_, rfl⟩, others⟩
          · rw [readLines, readLine_of_instruction named, if_pos some, read]
            simp only [bind, Except.bind, push, code]

/-- The reader goes on behind any number of such lines. -/
theorem Holds.run (holds : Holds before actions) (each : AllValid headerNames before front) :
    ∃ next, Holds (before ++ front) next ∧ ∀ number rest,
      readLines number actions (front ++ rest) = readLines (number + front.length) next rest := by
  induction front generalizing before actions with
  | nil => exact ⟨actions, by rwa [List.append_nil], fun _ _ => rfl⟩
  | cons line front ih =>
      obtain ⟨next, held, first⟩ := holds.step each.1
      obtain ⟨last, kept, others⟩ := ih held each.2
      refine ⟨last, by rwa [List.append_assoc] at kept, fun number rest => ?_⟩
      rw [List.cons_append, first, others, List.length_cons, Nat.add_assoc, Nat.add_comm 1]

/-- A reader is refused at a line from its own on, or for an action that holds a number. -/
theorem fault_of_readLines (refused : readLines number actions lines = .error fault) :
    (∃ place cause, number ≤ place ∧ fault = .line place cause) ∨
      fault = .bareNumber .append := by
  induction lines generalizing number actions with
  | nil => cases refused
  | cons line lines ih =>
      have later (next : List Action)
          (refused : readLines (number + 1) next lines = .error fault) :
          (∃ place cause, number ≤ place ∧ fault = .line place cause) ∨
            fault = .bareNumber .append := by
        obtain ⟨place, cause, bound, same⟩ | same := ih refused
        · exact Or.inl ⟨place, cause, by omega, same⟩
        · exact Or.inr same
      rw [readLines] at refused
      split at refused
      next cause _ =>
        cases refused
        exact Or.inl ⟨number, cause, le_rfl, rfl⟩
      next => exact later _ refused
      next => exact later _ refused
      next instruction _ =>
        split at refused
        next =>
          cases refused
          exact Or.inl ⟨number, _, le_rfl, rfl⟩
        next open_ earlier =>
          obtain stuck | ⟨extended, _, refused⟩ := bind_eq_error_iff.mp refused
          · rw [push] at stuck
            split at stuck
            next => cases stuck
            next =>
              cases stuck
              exact Or.inr rfl
          · exact later _ refused

/-- A number in the place of instructions stays there to the end. -/
theorem exists_number_of_readLines (held : ∃ action ∈ actions, ∃ value, action.body = .number value)
    (read : readLines number actions lines = .ok result) :
    ∃ action ∈ result, ∃ value, action.body = .number value := by
  induction lines generalizing number actions with
  | nil =>
      obtain rfl := Except.ok.inj read
      obtain ⟨action, member, value, body⟩ := held
      refine ⟨turned action, by simpa using ⟨action, member, rfl⟩, value, ?_⟩
      rw [turned, body]
      exact body
  | cons line lines ih =>
      rw [readLines] at read
      split at read
      next => cases read
      next => exact ih held read
      next opened _ =>
        obtain ⟨action, member, number⟩ := held
        exact ih ⟨action, List.mem_cons_of_mem _ member, number⟩ read
      next instruction _ =>
        split at read
        next => cases read
        next open_ earlier =>
          obtain ⟨extended, pushed, read⟩ := bind_eq_ok_iff.mp read
          obtain ⟨action, member, value, body⟩ := held
          cases List.mem_cons.mp member with
          | inl same =>
              rw [push, ← same, body] at pushed
              cases pushed
          | inr inside => exact ih ⟨action, List.mem_cons_of_mem _ inside, value, body⟩ read

end Run

section Located

variable {text : String}

/-- Every line has one of the forms and every action has instructions, or the first line that has
none of the forms is the one that is named. -/
def Located (text : String) : Prop :=
  (∃ actions, parse text = .ok actions ∧ faulty headerNames (lines text.toList) = ∅ ∧
    ∀ action ∈ actions, ∃ instructions, action.body = .code instructions) ∨
  ∃ number cause, parse text = .error (.line number cause) ∧
    IsLeast (faulty headerNames (lines text.toList)) number ∧
    (Fault.line number cause).message = "Line " ++ decimal number ++ ": " ++ cause.message

/-- The first line that has none of the forms would be an action line, but for an integer that it
gives to the name `instructions`. -/
def Numbered (text : String) : Prop :=
  ∃ front line rest, lines text.toList = front ++ line :: rest ∧
    AllValid headerNames [] front ∧ Valid actionNames front line ∧ SetsBody line

/-- An action with a number in the place of its instructions is returned, or a line further down
than the first faulty one is named, or none is. -/
def Spoiled (text : String) : Prop :=
  (∃ actions, parse text = .ok actions ∧
    ∃ action ∈ actions, ∃ value, action.body = .number value) ∨
  (∃ first number cause, IsLeast (faulty headerNames (lines text.toList)) first ∧
    first < number ∧ parse text = .error (.line number cause)) ∨
  parse text = .error (.bareNumber .append)

theorem Spoiled.not_located (spoiled : Spoiled text) : ¬ Located text := by
  intro located
  obtain ⟨actions, parsed, _, coded⟩ | ⟨number, cause, refused, least, _⟩ := located
  · obtain ⟨found, same, action, member, value, body⟩ | ⟨_, _, _, _, _, refused⟩ | refused := spoiled
    · obtain rfl := Except.ok.inj (parsed.symm.trans same)
      obtain ⟨instructions, code⟩ := coded action member
      cases code.symm.trans body
    · cases parsed.symm.trans refused
    · cases parsed.symm.trans refused
  · obtain ⟨_, parsed, _⟩ | ⟨first, later, other, lowest, above, same⟩ | other := spoiled
    · cases parsed.symm.trans refused
    · obtain ⟨rfl, _⟩ := Fault.line.inj (Except.error.inj (refused.symm.trans same))
      exact absurd (least.unique lowest) (Nat.ne_of_gt above)
    · cases refused.symm.trans other

theorem located_of_not_numbered (plain : ¬ Numbered text) : Located text := by
  obtain all | ⟨front, line, rest, split, each, invalid⟩ :=
    allValid_or_exists_first headerNames [] (lines text.toList)
  · obtain ⟨next, held, run⟩ := holds_nil.run all
    have parsed := run 1 []
    rw [List.append_nil] at parsed
    refine Or.inl ⟨_, parsed, faulty_eq_empty all, fun action member => ?_⟩
    obtain ⟨found, inside, rfl⟩ := List.mem_map.mp member
    obtain ⟨instructions, code⟩ := held.coded found (List.mem_reverse.mp inside)
    exact ⟨instructions.reverse, by rw [turned, code]⟩
  · obtain ⟨next, held, run⟩ := holds_nil.run each
    have least : IsLeast (faulty headerNames (front ++ line :: rest)) (front.length + 1) :=
      isLeast_faulty each invalid
    have parsed := run 1 (line :: rest)
    rw [← split] at least parsed
    have unread : ¬ ∃ read, readLine (!next.isEmpty) line = .ok read := by
      intro taken
      have valid := (exists_readLine_iff held.opened).mp taken
      have unset : ¬ SetsBody line := fun sets => plain ⟨front, line, rest, split, each, valid, sets⟩
      exact invalid (valid_headerNames_iff.mpr ⟨valid, unset⟩)
    cases found : readLine (!next.isEmpty) line with
    | ok read => exact absurd ⟨read, found⟩ unread
    | error cause =>
        rw [readLines, found, Nat.add_comm 1] at parsed
        exact Or.inr ⟨front.length + 1, cause, parsed, least, rfl⟩

theorem spoiled_of_numbered (numbered : Numbered text) : Spoiled text := by
  obtain ⟨front, line, rest, split, each, valid, sets⟩ := numbered
  obtain ⟨next, held, run⟩ := holds_nil.run each
  have least : IsLeast (faulty headerNames (front ++ line :: rest)) (front.length + 1) :=
    isLeast_faulty each sets.namesUnknown.not_valid
  have parsed := run 1 (line :: rest)
  rw [← split] at least parsed
  obtain ⟨read, found⟩ := (exists_readLine_iff held.opened).mpr valid
  obtain ⟨tokens, opens, token, member, given⟩ := sets
  have taken := found
  rw [readLine_of_action opens] at taken
  obtain ⟨action, made, same⟩ := bind_eq_ok_iff.mp taken
  obtain rfl := Except.ok.inj same
  rw [readLines, found] at parsed
  have number : ∃ held ∈ action :: next, ∃ value, held.body = .number value :=
    ⟨action, List.mem_cons_self, exists_number_of_readAction made member given⟩
  cases outcome : parse text with
  | ok actions =>
      exact Or.inl ⟨actions, outcome, exists_number_of_readLines number (parsed.symm.trans outcome)⟩
  | error fault =>
      obtain ⟨place, cause, bound, rfl⟩ | rfl := fault_of_readLines (parsed.symm.trans outcome)
      · exact Or.inr (Or.inl ⟨_, place, cause, least, by omega, outcome⟩)
      · exact Or.inr (Or.inr outcome)

/-- A listing is read, or its first faulty line is named, unless that line is an action line which
gives an integer to the name `instructions`: then the line is never named. A name that is neither a
field nor an operand makes its line a faulty one. -/
theorem parse_located_iff (text : String) :
    (Located text ↔ ¬ Numbered text) ∧ (Numbered text → Spoiled text) ∧
      ∀ front line rest, lines text.toList = front ++ line :: rest → NamesUnknown line →
        front.length + 1 ∈ faulty headerNames (lines text.toList) := by
  refine ⟨⟨fun located numbered => ?_, located_of_not_numbered⟩, spoiled_of_numbered, ?_⟩
  · exact (spoiled_of_numbered numbered).not_located located
  · intro front line rest split names
    exact ⟨front, line, rest, split, rfl, names.not_valid⟩

theorem not_forall_located : ¬ ∀ text, Located text := by
  intro every
  have parsed : parse "action instructions=5" = .ok [{ body := .number 5 }] := rfl
  obtain ⟨actions, read, _, coded⟩ | ⟨_, _, refused, _⟩ := every "action instructions=5"
  · obtain rfl := Except.ok.inj (parsed.symm.trans read)
    obtain ⟨instructions, code⟩ := coded _ List.mem_cons_self
    cases code
  · cases parsed.symm.trans refused

end Located

end FighterData.Listing
