import FighterData.Path

/-! The files and folders that a command sees. An item has a location: the names that lead to it
from the working folder, or from the root when the first of them is a slash. Double dots in a path
are resolved on the way, and only through folders that exist. -/
namespace FighterData

inductive Item where
  | folder
  | file (contents : Bytes)
deriving DecidableEq

abbrev Location := List String

structure Workspace where
  items : List (Location × Item) := []
deriving DecidableEq

namespace Workspace

/-- The working folder, the root and every folder above them are always there. -/
def isTop (location : Location) : Bool :=
  location = ["/"] || location.all (· == "..")

def itemAt (workspace : Workspace) (location : Location) : Option Item :=
  if isTop location then some .folder else workspace.items.lookup location

def put (workspace : Workspace) (location : Location) (item : Item) : Workspace :=
  ⟨workspace.items.filter (·.1 ≠ location) ++ [(location, item)]⟩

theorem lookup_filter_same (items : List (Location × Item)) (location : Location) :
    (items.filter (·.1 ≠ location)).lookup location = none := by
  rw [List.lookup_eq_none_iff]
  intro item held
  have other := (List.mem_filter.mp held).2
  simp only [ne_eq, decide_not, Bool.not_eq_true', decide_eq_false_iff_not] at other
  rw [bne_iff_ne]
  exact Ne.symm other

theorem lookup_filter_other {location other : Location} (differ : other ≠ location)
    (items : List (Location × Item)) :
    (items.filter (·.1 ≠ location)).lookup other = items.lookup other := by
  induction items with
  | nil => rfl
  | cons item rest ih =>
      obtain ⟨place, held⟩ := item
      by_cases same : place = location
      · have passed : (other == place) = false := by
          rw [same]
          exact beq_eq_false_iff_ne.mpr differ
        rw [List.filter_cons_of_neg (by simp [same]), ih, List.lookup_cons, passed]
      · rw [List.filter_cons_of_pos (by simp [same]), List.lookup_cons, List.lookup_cons, ih]

theorem itemAt_put_self {location : Location} (low : isTop location = false)
    (workspace : Workspace) (item : Item) :
    (workspace.put location item).itemAt location = some item := by
  have found : (location == location) = true := beq_self_eq_true location
  rw [itemAt, if_neg (by simp [low]), put, List.lookup_append, lookup_filter_same, Option.none_or,
    List.lookup_cons, found]

theorem itemAt_put_of_ne {location other : Location} (differ : other ≠ location)
    (workspace : Workspace) (item : Item) :
    (workspace.put location item).itemAt other = workspace.itemAt other := by
  have passed : (other == location) = false := beq_eq_false_iff_ne.mpr differ
  simp only [itemAt, put, List.lookup_append, lookup_filter_other differ, List.lookup_cons, passed,
    List.lookup_nil, Option.or_none]

/-- One step from a folder, by the name of a member or to the folder around it. -/
def step (folder : Location) (part : String) : Location :=
  if part = ".." then
    if folder = ["/"] then folder
    else if isTop folder then folder ++ [part]
    else folder.dropLast
  else folder ++ [part]

/-- Lengths in bytes of UTF-8. -/
def longestName : Nat := 255

def longestPath : Nat := 4095

def walk (workspace : Workspace) (location : Location) : List String → Except Refusal Location
  | [] => .ok location
  | part :: rest =>
      match workspace.itemAt location with
      | none => .error .missing
      | some (.file _) => .error .notFolder
      | some .folder =>
          if longestName < (Text.utf8 part).length then .error .nameTooLong
          else workspace.walk (step location part) rest

/-- The location that a path leads to; nothing need be there, but what leads there must. -/
def locate (workspace : Workspace) (path : Path) : Except Refusal Location :=
  if path.text.contains '\x00' then .error .nullCharacter
  else if longestPath < (Text.utf8 path.text).length then .error .nameTooLong
  else workspace.walk (if path.anchor.isEmpty then [] else ["/"]) path.parts

/-- The item at a path, or nothing where no path leads. Only names that are too long are refused. -/
def find (workspace : Workspace) (path : Path) : Except Refusal (Option Item) :=
  match workspace.locate path with
  | .ok location => .ok (workspace.itemAt location)
  | .error .nameTooLong => .error .nameTooLong
  | .error _ => .ok none

def readFile (workspace : Workspace) (path : Path) : Except Refusal Bytes := do
  let location ← workspace.locate path
  match workspace.itemAt location with
  | none => .error .missing
  | some .folder => .error .isFolder
  | some (.file contents) => .ok contents

def writeFile (workspace : Workspace) (path : Path) (contents : Bytes) :
    Except Refusal Workspace := do
  let location ← workspace.locate path
  match workspace.itemAt location with
  | some .folder => .error .isFolder
  | _ => .ok (workspace.put location (.file contents))

def makeFolder (workspace : Workspace) (path : Path) : Except Refusal Workspace := do
  let location ← workspace.locate path
  match workspace.itemAt location with
  | some _ => .error .occupied
  | none => .ok (workspace.put location .folder)

/-- Makes a folder that may be there already. What was made stays, whether this succeeds or not. -/
def ensureFolder (workspace : Workspace) (path : Path) : Workspace × Except (Refusal × Path) Unit :=
  match workspace.makeFolder path with
  | .ok changed => (changed, .ok ())
  | .error cause =>
      match workspace.find path with
      | .ok (some .folder) => (workspace, .ok ())
      | _ => (workspace, .error (cause, path))

/-- Makes a folder together with the missing ones that lead to it; the number of parts bounds how
many those are. -/
def ensureFoldersWithin (workspace : Workspace) (path : Path) :
    Nat → Workspace × Except (Refusal × Path) Unit
  | 0 => workspace.ensureFolder path
  | budget + 1 =>
      match workspace.makeFolder path with
      | .error .missing =>
          match workspace.ensureFoldersWithin path.parent budget with
          | (changed, .ok ()) => changed.ensureFolder path
          | stopped => stopped
      | _ => workspace.ensureFolder path

def ensureFolders (workspace : Workspace) (path : Path) :
    Workspace × Except (Refusal × Path) Unit :=
  workspace.ensureFoldersWithin path path.parts.length

def memberName? (folder location : Location) : Option String :=
  match location.getLast? with
  | some name => if location.dropLast = folder then some name else none
  | none => none

/-- The names in a folder, in increasing order. -/
def members (workspace : Workspace) (path : Path) : Except Refusal (List String) := do
  let location ← workspace.locate path
  match workspace.itemAt location with
  | none => .error .missing
  | some (.file _) => .error .notFolder
  | some .folder =>
      let names := workspace.items.filterMap fun item => memberName? location item.1
      .ok (names.mergeSort (· ≤ ·))

end Workspace

end FighterData
