import FighterData.Script
import FighterData.Text.Literal

/-! Script listings: text with a line for each action and, below it, a line for each of its
instructions, all written as names with integer values. Reading takes any layout: blanks separate
the words, a `#` starts a comment, and empty lines count only for the numbering. -/
namespace FighterData.Listing
open Text

def number (value : Int) : Except Fault String :=
  match decimalWithinLimit? value with
  | some text => .ok text
  | none => .error .digitLimit

def assignment (name : String) (value : Int) : Except Fault String := do
  let text ← number value
  return name ++ "=" ++ text

def instructionLine (instruction : Instruction) : Except Fault String := do
  let operands ← instruction.assignments.mapM fun (name, value) => assignment name value
  return "    " ++ String.intercalate " " (instruction.opcode.name :: operands)

/-- The line of an action; its index is there for the reader only. -/
def actionLine (index : Nat) (action : Action) : Except Fault String := do
  let level ← assignment "attack_level" action.attackLevel
  let damage ← assignment "damage" action.damage
  let mask ← assignment "collision_mask" action.collisionMask
  return "action " ++ decimal index ++ " flags=0x" ++ hexPadded 8 action.flags ++ " " ++ level
    ++ " " ++ damage ++ " " ++ mask

def actionLines (index : Nat) (action : Action) : Except Fault (List String) := do
  let head ← actionLine index action
  match action.body with
  | .number _ => .error (.bareNumber .iterate)
  | .code instructions =>
      let body ← instructions.mapM instructionLine
      return head :: body

def linesFrom (index : Nat) : List Action → Except Fault (List String)
  | [] => return []
  | action :: rest => do
      let first ← actionLines index action
      let others ← linesFrom (index + 1) rest
      return first ++ others

/-- The tuning values of a player, as comments, and an empty line. -/
def playDataLines (data : PlayData) : Except Fault (List String) := do
  let values ← data.assignments.mapM fun (name, value) => do
    let text ← number value
    return "#   " ++ name ++ " = " ++ text
  return "# PlayData" :: values ++ [""]

def ofLines (lines : List String) : String :=
  String.intercalate "\n" lines ++ "\n"

def ofObject (script : ObjectScript) : Except Fault String := do
  let lines ← linesFrom 0 script.actions
  return ofLines lines

def ofPlayer (script : PlayerScript) : Except Fault String := do
  let head ← playDataLines script.playData
  let lines ← linesFrom 0 script.actions
  return ofLines (head ++ lines)

/-- Cuts a word at its first equals sign. -/
def splitAssignment (token : List Char) : Option (String × String) :=
  if token.contains '=' then
    some (String.ofList (token.takeWhile (· ≠ '=')),
      String.ofList ((token.dropWhile (· ≠ '=')).drop 1))
  else none

def readAssignment (token : List Char) : Except LineFault (String × Int) :=
  match splitAssignment token with
  | none => .error (.notAssignment (String.ofList token))
  | some (name, text) =>
      match literal? text with
      | none => .error (.notInteger name text)
      | some value => .ok (name, value)

/-- Refuses the first name that a record does not have. The name `self` stands for the record. -/
def checkNames (record : String) (allowed : List String) :
    List (String × Int) → Except LineFault Unit
  | [] => .ok ()
  | (name, _) :: rest =>
      if name = "self" then .error (.reservedName record)
      else if allowed.contains name then checkNames record allowed rest
      else .error (.unknownName record name)

def actionNames : List String :=
  ["flags", "attack_level", "damage", "collision_mask", "instructions"]

/-- The value that was given to a name last. -/
def lastValue? (given : List (String × Int)) (name : String) : Option Int :=
  given.reverse.lookup name

def valueOf (given : List (String × Int)) (name : String) : Int :=
  (lastValue? given name).getD 0

/-- An action line; words without an equals sign are ignored. -/
def readAction (tokens : List (List Char)) : Except LineFault Action := do
  let given ← (tokens.filter (·.contains '=')).mapM readAssignment
  checkNames "ScriptAction" actionNames given
  return {
    flags := valueOf given "flags"
    attackLevel := valueOf given "attack_level"
    damage := valueOf given "damage"
    collisionMask := valueOf given "collision_mask"
    body := match lastValue? given "instructions" with
      | none => .code []
      | some value => .number value }

def readInstruction (opcode : Opcode) (tokens : List (List Char)) :
    Except LineFault Instruction := do
  let given ← tokens.mapM readAssignment
  checkNames opcode.name opcode.labels given
  return .ofNamed opcode (valueOf given)

inductive Line where
  | empty
  | action (action : Action)
  | instruction (instruction : Instruction)
deriving DecidableEq

/-- The words of a line, its comment left out. -/
def lineWords (line : List Char) : List (List Char) :=
  words (line.takeWhile (· ≠ '#'))

/-- Reads one line. An instruction needs an action above it. -/
def readLine (inAction : Bool) (line : List Char) : Except LineFault Line :=
  match lineWords line with
  | [] => .ok .empty
  | name :: tokens =>
      if name = "action".toList then do
        let action ← readAction tokens
        return .action action
      else
        match Opcode.ofName? (String.ofList name) with
        | none => .error (.unknownInstruction (String.ofList name))
        | some opcode =>
            if inAction then do
              let instruction ← readInstruction opcode tokens
              return .instruction instruction
            else .error .outsideAction

/-- Puts an instruction in front of the code that has been read. -/
def push (instruction : Instruction) (action : Action) : Except Fault Action :=
  match action.body with
  | .code instructions => .ok { action with body := .code (instruction :: instructions) }
  | .number _ => .error (.bareNumber .append)

/-- Turns the code of an action round. -/
def turned (action : Action) : Action :=
  match action.body with
  | .code instructions => { action with body := .code instructions.reverse }
  | .number _ => action

/-- Reads the lines from the given number on. The actions so far are in reverse, and so is the code
of each. -/
def readLines (number : Nat) (actions : List Action) :
    List (List Char) → Except Fault (List Action)
  | [] => .ok (actions.reverse.map turned)
  | line :: rest =>
      match readLine (!actions.isEmpty) line with
      | .error cause => .error (.line number cause)
      | .ok .empty => readLines (number + 1) actions rest
      | .ok (.action action) => readLines (number + 1) (action :: actions) rest
      | .ok (.instruction instruction) =>
          match actions with
          | [] => .error (.line number .outsideAction)
          | open_ :: earlier => do
              let extended ← push instruction open_
              readLines (number + 1) (extended :: earlier) rest

/-- The actions of a listing, or the fault of the first line that is none of its forms. -/
def parse (text : String) : Except Fault (List Action) :=
  readLines 1 [] (lines text.toList)

end FighterData.Listing
