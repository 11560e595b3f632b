import FighterData.ObjectBinary
import FighterData.Text.Case
import FighterData.Text.Literal

/-! Choosing one entry of a binary by a key: the word `player` in any case, or the literal of an
object index. -/
namespace FighterData

inductive EntryRef where
  | player
  | object (index : Nat)
deriving DecidableEq, Repr

namespace EntryRef

def ofKey (count : Nat) (key : String) : Except Fault EntryRef :=
  if Text.foldCase key = "player" then .ok .player
  else
    match Text.literal? key with
    | none => .error (.entryKey key)
    | some index =>
        if 0 ≤ index ∧ index < count then .ok (.object index.toNat)
        else
          match Text.decimalWithinLimit? index with
          | none => .error .digitLimit
          | some _ => .error (.objectIndex index count)

theorem ofKey_object_lt {count : Nat} {key : String} {index : Nat}
    (chosen : ofKey count key = .ok (.object index)) : index < count := by
  unfold ofKey at chosen
  split at chosen
  · cases chosen
  · split at chosen
    · cases chosen
    · split at chosen
      · cases chosen
        omega
      · split at chosen <;> cases chosen

end EntryRef

namespace ObjectBinary

def select (binary : ObjectBinary) (key : String) : Except Fault EntryRef :=
  EntryRef.ofKey binary.objects.length key

/-- Changes the object at an index; the player and the other objects stay as they are. -/
def modifyObject (binary : ObjectBinary) (index : Nat) (change : ObjectEntry → ObjectEntry) :
    ObjectBinary :=
  { binary with objects := binary.objects.modify index change }

def actions (binary : ObjectBinary) : EntryRef → List Action
  | .player => binary.player.script.actions
  | .object index => (binary.objects[index]?.map (·.script.actions)).getD []

def setActions (binary : ObjectBinary) (entry : EntryRef) (actions : List Action) : ObjectBinary :=
  match entry with
  | .player =>
      { binary with
        player := { binary.player with script := { binary.player.script with actions := actions } } }
  | .object index => binary.modifyObject index fun object => { object with script := ⟨actions⟩ }

/-- Whether the binary has the entry. -/
def Has (binary : ObjectBinary) : EntryRef → Prop
  | .player => True
  | .object index => index < binary.objects.length

theorem has_of_select {binary : ObjectBinary} {key : String} {entry : EntryRef}
    (chosen : binary.select key = .ok entry) : binary.Has entry := by
  cases entry with
  | player => trivial
  | object index => exact EntryRef.ofKey_object_lt chosen

theorem actions_setActions_self {binary : ObjectBinary} {entry : EntryRef}
    (inside : binary.Has entry) (actions : List Action) :
    (binary.setActions entry actions).actions entry = actions := by
  cases entry with
  | player => rfl
  | object index =>
      simp [setActions, modifyObject, ObjectBinary.actions, List.getElem?_eq_getElem inside]

theorem actions_setActions_of_ne {entry other : EntryRef} (differ : entry ≠ other)
    (binary : ObjectBinary) (actions : List Action) :
    (binary.setActions entry actions).actions other = binary.actions other := by
  cases entry with
  | player =>
      cases other with
      | player => exact absurd rfl differ
      | object index => rfl
  | object index =>
      cases other with
      | player => rfl
      | object place =>
          have apart : index ≠ place := fun same => differ (congrArg EntryRef.object same)
          simp [setActions, modifyObject, ObjectBinary.actions, List.getElem?_modify_ne _ _ apart]

end ObjectBinary

end FighterData
