import FighterData.Edit
import FighterData.Proofs.Listing.Lines
import FighterData.Proofs.ObjectBinary.RoundTrip

/-! Listings are read as the actions that they were made of. The reader goes through the lines with
the actions so far in reverse; one instruction line puts its instruction in front of the code of the
last action, one action line opens a new action, and comments and empty lines change nothing. -/
namespace FighterData

namespace Listing
open Text

/-- Every number of the action is short enough to be written, and the body is a list of
instructions. -/
structure WritesAction (action : Action) : Prop where
  header : WritesHeader action
  coded : action.body = .code action.instructions
  code : ∀ instruction ∈ action.instructions, WritesInstruction instruction

def actionTexts (index : Nat) (action : Action) : List String :=
  actionText index action :: action.instructions.map instructionText

def textsFrom (index : Nat) : List Action → List String
  | [] => []
  | action :: rest => actionTexts index action ++ textsFrom (index + 1) rest

theorem actionLines_eq_ok_iff {index : Nat} {action : Action} {lines : List String} :
    actionLines index action = .ok lines ↔
      WritesAction action ∧ lines = actionTexts index action := by
  obtain ⟨flags, attackLevel, damage, collisionMask, body⟩ := action
  cases body with
  | number value =>
      constructor
      · intro written
        simp [actionLines, bind_eq_ok_iff] at written
      · intro found
        cases found.1.coded
  | code instructions =>
      have code (texts : List String) : instructions.mapM instructionLine = .ok texts ↔
          (∀ instruction ∈ instructions, WritesInstruction instruction) ∧
            texts = instructions.map instructionText :=
        mapM_eq_ok_iff fun instruction _ text => instructionLine_eq_ok_iff
      simp only [actionLines, bind_eq_ok_iff, actionLine_eq_ok_iff, code, exists_made_iff, pure,
        Except.pure, Except.ok.injEq]
      constructor
      · intro found
        obtain ⟨header, code, rfl⟩ := found
        exact ⟨⟨header, rfl, code⟩, rfl⟩
      · intro found
        obtain ⟨writes, rfl⟩ := found
        exact ⟨writes.header, writes.code, rfl⟩

theorem linesFrom_eq_ok_iff {index : Nat} {actions : List Action} {lines : List String} :
    linesFrom index actions = .ok lines ↔
      (∀ action ∈ actions, WritesAction action) ∧ lines = textsFrom index actions := by
  induction actions generalizing index lines with
  | nil => simp [linesFrom, textsFrom, pure, Except.pure, eq_comm]
  | cons action rest ih =>
      simp only [linesFrom, bind_eq_ok_iff, actionLines_eq_ok_iff, ih, exists_made_iff, pure,
        Except.pure, Except.ok.injEq, List.forall_mem_cons]
      rw [and_assoc, @eq_comm _ _ lines]
      rfl

/-- An action whose code has been turned round, as the reader keeps it. -/
theorem turned_turned (action : Action) : turned (turned action) = action := by
  obtain ⟨flags, attackLevel, damage, collisionMask, body⟩ := action
  cases body with
  | code instructions => simp [turned]
  | number value => rfl

/-- The lines of the code put it in front of what the last action has, in reverse. -/
theorem readLines_code {instructions : List Instruction}
    (writes : ∀ instruction ∈ instructions, WritesInstruction instruction) (number : Nat)
    (action : Action) (done : List Instruction) (earlier : List Action) (rest : List (List Char)) :
    readLines number ({ action with body := .code done } :: earlier)
        (instructions.map (fun instruction => (instructionText instruction).toList) ++ rest) =
      readLines (number + instructions.length)
        ({ action with body := .code (instructions.reverse ++ done) } :: earlier) rest := by
  induction instructions generalizing number done with
  | nil => rfl
  | cons instruction instructions ih =>
      rw [List.forall_mem_cons] at writes
      have first := readLine_instructionText writes.1
      rw [List.map_cons, List.cons_append, readLines]
      simp only [List.isEmpty_cons, Bool.not_false, first, push, bind, Except.bind]
      rw [ih writes.2, List.reverse_cons, List.append_assoc, List.length_cons]
      have place : number + 1 + instructions.length = number + (instructions.length + 1) := by omega
      rw [place]
      rfl

/-- The lines of an action open it and fill it. -/
theorem readLines_actionTexts {action : Action} (writes : WritesAction action)
    (natural : 0 ≤ action.flags) (index number : Nat) (earlier : List Action)
    (rest : List (List Char)) :
    readLines number earlier ((actionTexts index action).map String.toList ++ rest) =
      readLines (number + (actionTexts index action).length) (turned action :: earlier) rest := by
  have head := readLine_actionText (!earlier.isEmpty) index natural writes.header
  have code := readLines_code writes.code (number + 1) action [] earlier rest
  have whole : turned action =
      { action with body := .code (action.instructions.reverse ++ []) } := by
    rw [turned, writes.coded, List.append_nil]
  have place : number + (actionTexts index action).length =
      number + 1 + action.instructions.length := by
    simp only [actionTexts, List.length_cons, List.length_map]
    omega
  rw [whole, place, ← code, actionTexts, List.map_cons, List.cons_append, readLines, List.map_map]
  simp only [head]
  rfl

/-- The run over the lines of all actions, from any number on. -/
theorem readLines_textsFrom {actions : List Action}
    (writes : ∀ action ∈ actions, WritesAction action)
    (natural : ∀ action ∈ actions, 0 ≤ action.flags) (index number : Nat) (earlier : List Action) (rest : List (List Char)) :
    readLines number earlier ((textsFrom index actions).map String.toList ++ rest) =
      readLines (number + (textsFrom index actions).length)
        ((actions.map turned).reverse ++ earlier) rest := by
  induction actions generalizing index number earlier with
  | nil => rfl
  | cons action actions ih =>
      rw [List.forall_mem_cons] at writes natural
      rw [textsFrom, List.map_append, List.append_assoc,
        readLines_actionTexts writes.1 natural.1, ih writes.2 natural.2, List.length_append,
        List.map_cons, List.reverse_cons, List.append_assoc, Nat.add_assoc]
      rfl

/-- Lines of comments and empty lines are only counted. -/
theorem readLines_comments {comments : List (List Char)}
    (none : ∀ line ∈ comments, lineWords line = []) (number : Nat) (actions : List Action)
    (rest : List (List Char)) :
    readLines number actions (comments ++ rest) =
      readLines (number + comments.length) actions rest := by
  induction comments generalizing number with
  | nil => rfl
  | cons line comments ih =>
      rw [List.forall_mem_cons] at none
      have empty := readLine_of_silent none.1 (!actions.isEmpty)
      rw [List.cons_append, readLines, empty]
      simp only []
      rw [ih none.2, List.length_cons, Nat.add_assoc, Nat.add_comm 1]

theorem readLines_all {actions : List Action} (writes : ∀ action ∈ actions, WritesAction action)
    (natural : ∀ action ∈ actions, 0 ≤ action.flags) (number : Nat) :
    readLines number [] ((textsFrom 0 actions).map String.toList) = .ok actions := by
  have run := readLines_textsFrom writes natural 0 number [] []
  rw [List.append_nil, List.append_nil] at run
  rw [run, readLines, List.reverse_reverse, List.map_map]
  congr 1
  exact (List.map_congr_left fun action _ => turned_turned action).trans (List.map_id actions)

theorem intercalate_append_separator {items : List (List Char)} (some : items ≠ [])
    (separator : List Char) :
    separator.intercalate items ++ separator = items.flatMap (· ++ separator) := by
  induction items with
  | nil => exact absurd rfl some
  | cons item items ih =>
      cases items with
      | nil => simp
      | cons other items =>
          rw [List.intercalate_cons_cons, List.flatMap_cons, ← ih (by simp)]
          simp only [List.append_assoc]

/-- The text of unbroken lines is read line by line. -/
theorem parse_ofLines {texts : List String} (whole : ∀ line ∈ texts, Unbroken line) :
    parse (ofLines texts) = readLines 1 [] (texts.map String.toList) := by
  cases texts with
  | nil => rfl
  | cons line texts =>
      have text : (ofLines (line :: texts)).toList =
          ((line :: texts).map String.toList).flatMap (· ++ ['\n']) := by
        rw [← intercalate_append_separator (by simp), ofLines, String.toList_append,
          String.toList_intercalate]
        rfl
      rw [parse, text, lines_flatMap]
      intro chars member
      obtain ⟨held, inside, rfl⟩ := List.mem_map.mp member
      exact whole held inside

theorem unbroken_textsFrom {actions : List Action} (natural : ∀ action ∈ actions, 0 ≤ action.flags)
    (index : Nat) : ∀ line ∈ textsFrom index actions, Unbroken line := by
  induction actions generalizing index with
  | nil => simp [textsFrom]
  | cons action actions ih =>
      rw [List.forall_mem_cons] at natural
      intro line member
      cases List.mem_append.mp member with
      | inr later => exact ih natural.2 _ line later
      | inl here =>
          cases List.mem_cons.mp here with
          | inl head =>
              rw [head]
              exact unbroken_actionText index natural.1
          | inr code =>
              obtain ⟨instruction, _, rfl⟩ := List.mem_map.mp code
              exact unbroken_instructionText instruction

/-- The listing of an object script is read as its actions. -/
theorem parse_of_ofObject {script : ObjectScript} {text : String}
    (natural : ∀ action ∈ script.actions, 0 ≤ action.flags) (written : ofObject script = .ok text) :
    parse text = .ok script.actions := by
  simp only [ofObject, bind_eq_ok_iff, linesFrom_eq_ok_iff, exists_made_iff, pure, Except.pure,
    Except.ok.injEq] at written
  obtain ⟨writes, rfl⟩ := written
  rw [parse_ofLines (unbroken_textsFrom natural 0)]
  exact readLines_all writes natural 1

/-- The comment of one tuning value. -/
def commentText (name : String) (value : Int) : String :=
  "#   " ++ name ++ " = " ++ decimal value

/-- What stands above the actions of a player. -/
def headTexts (data : PlayData) : List String :=
  "# PlayData" :: (data.assignments.map fun pair => commentText pair.1 pair.2) ++ [""]

def comment (pair : String × Int) : Except Fault String := do
  let text ← number pair.2
  return "#   " ++ pair.1 ++ " = " ++ text

theorem comment_eq_ok_iff {pair : String × Int} {text : String} :
    comment pair = .ok text ↔
      pair.2.natAbs < decimalLimit ∧ text = commentText pair.1 pair.2 := by
  simp only [comment, bind_eq_ok_iff, number_eq_ok_iff, exists_made_iff, pure, Except.pure,
    Except.ok.injEq]
  rw [@eq_comm _ _ text]
  rfl

theorem playDataLines_eq_ok_iff {data : PlayData} {lines : List String} :
    playDataLines data = .ok lines ↔
      (∀ pair ∈ data.assignments, pair.2.natAbs < decimalLimit) ∧ lines = headTexts data := by
  have values (texts : List String) : data.assignments.mapM comment = .ok texts ↔
      (∀ pair ∈ data.assignments, pair.2.natAbs < decimalLimit) ∧
        texts = data.assignments.map fun pair => commentText pair.1 pair.2 :=
    mapM_eq_ok_iff fun pair _ text => comment_eq_ok_iff
  have step : playDataLines data = (data.assignments.mapM comment >>= fun texts =>
      .ok ("# PlayData" :: texts ++ [""])) := rfl
  rw [step, bind_eq_ok_iff]
  simp only [values, exists_made_iff, Except.ok.injEq]
  rw [@eq_comm _ _ lines]
  rfl

/-- Nothing above the actions of a player is a word of the listing. -/
theorem lineWords_headTexts (data : PlayData) :
    ∀ line ∈ (headTexts data).map String.toList, lineWords line = [] := by
  intro line member
  obtain ⟨text, inside, rfl⟩ := List.mem_map.mp member
  simp only [headTexts, List.cons_append, List.mem_cons, List.mem_append, List.mem_map,
    List.not_mem_nil, or_false] at inside
  obtain rfl | ⟨pair, _, rfl⟩ | rfl := inside
  · rfl
  · rw [commentText, String.append_assoc, String.append_assoc, String.toList_append]
    rfl
  · rfl

theorem plain_names : ∀ name ∈ PlayData.names, Plain name.toList := by
  decide +kernel

theorem unbroken_headTexts (data : PlayData) : ∀ line ∈ headTexts data, Unbroken line := by
  have mark : Unbroken "#   " := by decide
  have sign : Unbroken " = " := by decide
  intro text inside
  simp only [headTexts, List.cons_append, List.mem_cons, List.mem_append, List.mem_map,
    List.not_mem_nil, or_false] at inside
  obtain rfl | ⟨pair, held, rfl⟩ | rfl := inside
  · decide
  · have name := unbroken_of_plain (plain_names pair.1 (List.of_mem_zip held).1)
    have value := unbroken_of_plain (plain_decimal pair.2)
    exact ((mark.append name).append sign).append value
  · decide

/-- The listing of a player script is read as its actions; the tuning values are comments. -/
theorem parse_of_ofPlayer {script : PlayerScript} {text : String}
    (natural : ∀ action ∈ script.actions, 0 ≤ action.flags) (written : ofPlayer script = .ok text) :
    parse text = .ok script.actions := by
  simp only [ofPlayer, bind_eq_ok_iff, playDataLines_eq_ok_iff, linesFrom_eq_ok_iff,
    exists_made_iff, pure, Except.pure, Except.ok.injEq] at written
  obtain ⟨_, writes, rfl⟩ := written
  have whole : ∀ line ∈ headTexts script.playData ++ textsFrom 0 script.actions, Unbroken line := by
    intro line member
    cases List.mem_append.mp member with
    | inl head => exact unbroken_headTexts script.playData line head
    | inr code => exact unbroken_textsFrom natural 0 line code
  rw [parse_ofLines whole, List.map_append, readLines_comments (lineWords_headTexts _)]
  exact readLines_all writes natural _

end Listing

end FighterData
