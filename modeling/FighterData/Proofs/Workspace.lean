import FighterData.Fault
import FighterData.Workspace

/-! Files that are written and read again. What leads to a file are folders, and nothing is put where a
folder is, so every path that led somewhere leads there still. -/
namespace FighterData

namespace Path

theorem partsFrom_eq {current text : List Char} (whole : '/' ∉ text) :
    partsFrom current text = [current.reverse ++ text] := by
  induction text generalizing current with
  | nil => rw [partsFrom, List.append_nil]
  | cons c rest ih =>
      rw [List.mem_cons, not_or] at whole
      rw [partsFrom, if_neg (Ne.symm whole.1), ih whole.2, List.reverse_cons, List.append_assoc]
      rfl

theorem anchorOf_eq {text : List Char} (whole : '/' ∉ text) : anchorOf text = "" := by
  unfold anchorOf
  split <;> simp at whole ⊢

/-- A text without a slash that is neither empty nor a dot names a member of a folder. -/
theorem join_eq {name : String} (some : name.toList ≠ []) (dot : name.toList ≠ ['.'])
    (whole : '/' ∉ name.toList) (folder : Path) :
    folder.join name = { folder with parts := folder.parts ++ [name] } := by
  have parts : partsOf name.toList = [name] := by
    simp [partsOf, partsFrom_eq whole, some, dot]
  simp [join, ofString, anchorOf_eq whole, parts]

end Path

namespace Workspace

/-- A file can be put at the path: folders lead there, and no folder stands there. -/
def Writable (workspace : Workspace) (path : Path) : Prop :=
  ∃ location, workspace.locate path = .ok location ∧ workspace.itemAt location ≠ some .folder

variable {workspace changed : Workspace} {path other : Path} {location place start : Location}
  {parts : List String} {item : Item} {contents data : Bytes}

theorem isTop_eq_false (free : workspace.itemAt location ≠ some .folder) :
    isTop location = false :=
  Bool.eq_false_iff.mpr fun top => free (if_pos top)

theorem writeFile_eq_ok_iff :
    workspace.writeFile path contents = .ok changed ↔
      ∃ location, workspace.locate path = .ok location ∧
        workspace.itemAt location ≠ some .folder ∧
          changed = workspace.put location (.file contents) := by
  simp only [writeFile, bind_eq_ok_iff]
  refine exists_congr fun location => and_congr_right fun _ => ?_
  cases found : workspace.itemAt location with
  | none => simp [eq_comm]
  | some item => cases item <;> simp [eq_comm]

theorem readFile_eq_ok_iff :
    workspace.readFile path = .ok data ↔
      ∃ location, workspace.locate path = .ok location ∧
        workspace.itemAt location = some (.file data) := by
  simp only [readFile, bind_eq_ok_iff]
  refine exists_congr fun location => and_congr_right fun _ => ?_
  cases found : workspace.itemAt location with
  | none => simp
  | some item => cases item <;> simp

theorem makeFolder_eq_ok_iff :
    workspace.makeFolder path = .ok changed ↔
      ∃ location, workspace.locate path = .ok location ∧ workspace.itemAt location = none ∧
        changed = workspace.put location .folder := by
  simp only [makeFolder, bind_eq_ok_iff]
  refine exists_congr fun location => and_congr_right fun _ => ?_
  cases workspace.itemAt location <;> simp [eq_comm]

theorem Writable.exists_writeFile (writable : workspace.Writable path) (contents : Bytes) :
    ∃ changed, workspace.writeFile path contents = .ok changed := by
  obtain ⟨location, located, free⟩ := writable
  exact ⟨_, writeFile_eq_ok_iff.mpr ⟨location, located, free, rfl⟩⟩

theorem walk_cons_eq_ok_iff {part : String} :
    workspace.walk start (part :: parts) = .ok location ↔
      workspace.itemAt start = some .folder ∧ (Text.utf8 part).length ≤ longestName ∧
        workspace.walk (step start part) parts = .ok location := by
  rw [walk]
  cases found : workspace.itemAt start with
  | none => simp
  | some item =>
      cases item with
      | file held => simp
      | folder =>
          by_cases long : longestName < (Text.utf8 part).length
          · simp [long, Nat.not_le.mpr long]
          · simp [long, Nat.le_of_not_lt long]

theorem locate_eq_ok_iff :
    workspace.locate path = .ok location ↔ path.text.contains '\x00' = false ∧
      (Text.utf8 path.text).length ≤ longestPath ∧
      workspace.walk (if path.anchor.isEmpty then [] else ["/"]) path.parts = .ok location := by
  rw [locate]
  split
  next void => simp_all
  next plain =>
    split
    next long => simp [Nat.not_le.mpr long]
    next short => simp [Bool.eq_false_iff.mpr plain, Nat.le_of_not_lt short]

/-- What is put down where no folder was is on the way to nothing. -/
theorem walk_put (free : workspace.itemAt place ≠ some .folder)
    (walked : workspace.walk start parts = .ok location) :
    (workspace.put place item).walk start parts = .ok location := by
  induction parts generalizing start with
  | nil => exact walked
  | cons part rest ih =>
      obtain ⟨found, short, onward⟩ := walk_cons_eq_ok_iff.mp walked
      have apart : start ≠ place := by
        rintro rfl
        exact free found
      exact walk_cons_eq_ok_iff.mpr
        ⟨(itemAt_put_of_ne apart workspace item).trans found, short, ih onward⟩

theorem locate_put (free : workspace.itemAt place ≠ some .folder)
    (located : workspace.locate path = .ok location) :
    (workspace.put place item).locate path = .ok location := by
  obtain ⟨plain, short, walked⟩ := locate_eq_ok_iff.mp located
  exact locate_eq_ok_iff.mpr ⟨plain, short, walk_put free walked⟩

theorem readFile_of_writeFile (written : workspace.writeFile path contents = .ok changed) :
    changed.readFile path = .ok contents := by
  obtain ⟨location, located, free, rfl⟩ := writeFile_eq_ok_iff.mp written
  exact readFile_eq_ok_iff.mpr ⟨location, locate_put free located,
    itemAt_put_self (isTop_eq_false free) workspace _⟩

theorem Writable.of_writeFile (writable : workspace.Writable other)
    (written : workspace.writeFile path contents = .ok changed) : changed.Writable other := by
  obtain ⟨place, there, unlocked⟩ := writable
  obtain ⟨location, _, free, rfl⟩ := writeFile_eq_ok_iff.mp written
  refine ⟨place, locate_put free there, ?_⟩
  by_cases same : place = location
  · rw [same, itemAt_put_self (isTop_eq_false free)]
    exact fun folder => nomatch folder
  · rwa [itemAt_put_of_ne same]

/-- A file elsewhere keeps its contents. -/
theorem readFile_put (free : workspace.itemAt location ≠ some .folder)
    (held : workspace.readFile other = .ok data) (apart : workspace.locate other ≠ .ok location) :
    (workspace.put location item).readFile other = .ok data := by
  obtain ⟨place, there, found⟩ := readFile_eq_ok_iff.mp held
  have differ : place ≠ location := by
    rintro rfl
    exact apart there
  exact readFile_eq_ok_iff.mpr ⟨place, locate_put free there,
    (itemAt_put_of_ne differ workspace _).trans found⟩

theorem readFile_of_writeFile_of_ne (written : workspace.writeFile path contents = .ok changed)
    (apart : workspace.locate other ≠ workspace.locate path)
    (held : workspace.readFile other = .ok data) : changed.readFile other = .ok data := by
  obtain ⟨location, located, free, rfl⟩ := writeFile_eq_ok_iff.mp written
  rw [located] at apart
  exact readFile_put free held apart

/-- A file that can be read is found. -/
theorem find_of_readFile (held : workspace.readFile path = .ok data) :
    workspace.find path = .ok (some (.file data)) := by
  obtain ⟨location, located, found⟩ := readFile_eq_ok_iff.mp held
  rw [find, located]
  exact congrArg Except.ok found

section Folders

/-- A folder is made only where nothing is, so every file stays. -/
theorem readFile_of_makeFolder (made : workspace.makeFolder path = .ok changed)
    (held : workspace.readFile other = .ok data) : changed.readFile other = .ok data := by
  obtain ⟨location, _, none, rfl⟩ := makeFolder_eq_ok_iff.mp made
  refine readFile_put (by simp [none]) held ?_
  intro there
  obtain ⟨place, located, found⟩ := readFile_eq_ok_iff.mp held
  obtain rfl := Except.ok.inj (located.symm.trans there)
  rw [none] at found
  cases found

theorem readFile_ensureFolder (path : Path) (held : workspace.readFile other = .ok data) :
    (workspace.ensureFolder path).1.readFile other = .ok data := by
  unfold ensureFolder
  split
  · rename_i made
    exact readFile_of_makeFolder made held
  · split
    · exact held
    · exact held

theorem readFile_ensureFoldersWithin (budget : Nat) (path : Path)
    (held : workspace.readFile other = .ok data) :
    (workspace.ensureFoldersWithin path budget).1.readFile other = .ok data := by
  induction budget generalizing path with
  | zero => exact readFile_ensureFolder path held
  | succ budget ih =>
      unfold ensureFoldersWithin
      split
      · have above := ih path.parent
        split
        · rename_i ensured
          rw [ensured] at above
          exact readFile_ensureFolder path above
        · exact above
      · exact readFile_ensureFolder path held

theorem readFile_ensureFolders (path : Path) (held : workspace.readFile other = .ok data) :
    (workspace.ensureFolders path).1.readFile other = .ok data :=
  readFile_ensureFoldersWithin _ path held

end Folders

section Members

variable {name : String} {front : List String}

/-- A path that ends in a name leads to a location that does. -/
theorem exists_of_walk_concat (plain : name ≠ "..")
    (walked : workspace.walk start (front ++ [name]) = .ok location) :
    ∃ inside, location = inside ++ [name] := by
  induction front generalizing start with
  | nil =>
      obtain ⟨_, _, arrived⟩ := walk_cons_eq_ok_iff.mp walked
      obtain rfl := Except.ok.inj arrived
      exact ⟨start, if_neg plain⟩
  | cons part rest ih => exact ih (walk_cons_eq_ok_iff.mp walked).2.2

/-- Different names in one folder lead to different locations. -/
theorem locate_member_ne {folder : Path} {first second : String} (differ : first ≠ second)
    (plain : first ≠ "..") (also_plain : second ≠ "..")
    (located : workspace.locate { folder with parts := folder.parts ++ [first] } =
      .ok location) :
    workspace.locate { folder with parts := folder.parts ++ [second] } ≠ .ok location := by
  intro same
  have ends {last : String} (ordinary : last ≠ "..")
      (leads : workspace.locate { folder with parts := folder.parts ++ [last] } = .ok location) :
      ∃ inside, location = inside ++ [last] :=
    exists_of_walk_concat ordinary (locate_eq_ok_iff.mp leads).2.2
  obtain ⟨inside, rfl⟩ := ends plain located
  obtain ⟨_, joined⟩ := ends also_plain same
  have last := List.append_inj_right' joined rfl
  exact differ (List.cons.inj last).1

end Members

end Workspace

end FighterData
