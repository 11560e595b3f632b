import FighterData.Command.Archives
import FighterData.Proofs.Command.Palettes
import FighterData.Proofs.Workspace.Inside

/-! The extraction of archives. Each entry fills the file that its name leads to, so the last of the
entries that lead to a file decides what it holds. Nothing looks at the names: an inner name stays in
the folder, any other leads where it says. -/
namespace FighterData.Command

variable {before after : Workspace} {folder : Path} {place location : Location}
  {entry : ArchiveEntry} {entries front back : List ArchiveEntry}

/-- The entries whose files are at the location, in the order of the archive. -/
def leadingTo (workspace : Workspace) (folder : Path) (location : Location)
    (entries : List ArchiveEntry) : List ArchiveEntry :=
  entries.filter fun entry => workspace.locate (folder.join entry.outputName) = .ok location

/-- Every entry leads to a place for a file, and the last one that leads to a location fills it. The
files that are written lie on the way to nothing. -/
structure Filled (before after : Workspace) (folder : Path) (entries : List ArchiveEntry) :
    Prop where
  leads : ∀ path location,
    after.locate path = .ok location ↔ before.locate path = .ok location
  placed : ∀ entry ∈ entries, ∃ location,
    before.locate (folder.join entry.outputName) = .ok location ∧
      before.itemAt location ≠ some .folder
  fills : ∀ location, after.itemAt location =
    ((leadingTo before folder location entries).getLast?.map fun entry =>
      Item.file entry.contents).or (before.itemAt location)

section Filling

theorem filled_nil (workspace : Workspace) (folder : Path) : Filled workspace workspace folder [] where
  leads := fun _ _ => Iff.rfl
  placed := by simp
  fills := fun _ => rfl

theorem Filled.cons {target : Location}
    (located : before.locate (folder.join entry.outputName) = .ok target)
    (free : before.itemAt target ≠ some .folder)
    (rest : Filled (before.put target (.file entry.contents)) after folder entries) :
    Filled before after folder (entry :: entries) := by
  have kept (path : Path) (location : Location) :
      (before.put target (.file entry.contents)).locate path = .ok location ↔
        before.locate path = .ok location :=
    Workspace.locate_put_file_iff free
  have same (location : Location) :
      leadingTo (before.put target (.file entry.contents)) folder location entries =
        leadingTo before folder location entries :=
    List.filter_congr fun entry _ => decide_eq_decide.mpr (kept _ _)
  refine ⟨fun path location => (rest.leads path location).trans (kept path location), ?_, ?_⟩
  · rw [List.forall_mem_cons]
    refine ⟨⟨target, located, free⟩, fun other member => ?_⟩
    obtain ⟨location, led, unlocked⟩ := rest.placed other member
    refine ⟨location, (kept _ _).mp led, ?_⟩
    by_cases here : location = target
    · rwa [here]
    · rwa [Workspace.itemAt_put_of_ne here] at unlocked
  · intro location
    rw [rest.fills, same]
    by_cases here : location = target
    · have led : leadingTo before folder location (entry :: entries) =
          entry :: leadingTo before folder location entries :=
        List.filter_cons_of_pos (by simp [located, here])
      rw [led, List.getLast?_cons, here,
        Workspace.itemAt_put_self (Workspace.isTop_eq_false free)]
      cases (leadingTo before folder target entries).getLast? <;> rfl
    · have passed : leadingTo before folder location (entry :: entries) =
          leadingTo before folder location entries :=
        List.filter_cons_of_neg (by simp [located, Ne.symm here])
      rw [passed, Workspace.itemAt_put_of_ne here]

theorem exists_of_run_extractEntry {desk later : Desk}
    (done : (extractEntry folder entry).run desk = (.ok (), later)) :
    ∃ location, desk.workspace.locate (folder.join entry.outputName) = .ok location ∧
      desk.workspace.itemAt location ≠ some .folder ∧
      later.workspace = desk.workspace.put location (.file entry.contents) := by
  obtain ⟨_, middle, wrote, printed⟩ := run_bind_eq_ok_iff.mp done
  obtain ⟨changed, written, rfl⟩ := run_writeFile_eq_ok_iff.mp wrote
  obtain ⟨location, located, free, rfl⟩ := Workspace.writeFile_eq_ok_iff.mp written
  obtain ⟨_, rfl⟩ := Prod.mk.inj (printed.symm.trans (run_print _ _))
  exact ⟨location, located, free, rfl⟩

theorem filled_of_run_extractEntries {desk later : Desk}
    (done : (entries.forM (extractEntry folder)).run desk = (.ok (), later)) :
    Filled desk.workspace later.workspace folder entries := by
  induction entries generalizing desk with
  | nil =>
      obtain ⟨_, rfl⟩ := run_pure_eq_ok_iff.mp done
      exact filled_nil _ folder
  | cons entry rest ih =>
      obtain ⟨_, middle, first, others⟩ := run_bind_eq_ok_iff.mp done
      obtain ⟨target, located, free, written⟩ := exists_of_run_extractEntry first
      have filled := ih others
      rw [written] at filled
      exact filled.cons located free

def writeEntry (folder : Path) (workspace : Workspace) (entry : ArchiveEntry) :
    Except Refusal Workspace :=
  workspace.writeFile (folder.join entry.outputName) entry.contents

theorem exists_run_extractEntries {desk : Desk}
    (written : entries.foldlM (writeEntry folder) desk.workspace = .ok after) :
    ∃ later, (entries.forM (extractEntry folder)).run desk = (.ok (), later) ∧
      later.workspace = after := by
  induction entries generalizing desk with
  | nil =>
      obtain rfl := Except.ok.inj written
      exact ⟨desk, rfl, rfl⟩
  | cons entry rest ih =>
      rw [List.foldlM_cons, bind_eq_ok_iff] at written
      obtain ⟨changed, wrote, others⟩ := written
      obtain ⟨middle, first, same⟩ : ∃ middle,
          (extractEntry folder entry).run desk = (.ok (), middle) ∧ middle.workspace = changed := by
        have stored := run_writeFile_eq_ok_iff.mpr ⟨changed, wrote, rfl⟩
        rw [extractEntry, run_bind_of_ok stored]
        exact ⟨_, run_print _ _, rfl⟩
      rw [← same] at others
      obtain ⟨later, done, last⟩ := ih others
      exact ⟨later, (run_bind_of_ok first).trans done, last⟩

/-- A folder stays a folder. -/
theorem Filled.itemAt_folder (filled : Filled before after folder entries)
    (found : before.itemAt location = some .folder) : after.itemAt location = some .folder := by
  have none : leadingTo before folder location entries = [] := by
    refine List.filter_eq_nil_iff.mpr fun entry member led => ?_
    obtain ⟨target, located, free⟩ := filled.placed entry member
    obtain rfl := Except.ok.inj (located.symm.trans (of_decide_eq_true led))
    exact free found
  rw [filled.fills, none]
  exact found

theorem Filled.itemAt_or (filled : Filled before after folder entries) (location : Location) :
    after.itemAt location = before.itemAt location ∨
      ∃ entry ∈ entries, after.locate (folder.join entry.outputName) = .ok location := by
  cases last : (leadingTo before folder location entries).getLast? with
  | none =>
      left
      rw [filled.fills, last]
      rfl
  | some entry =>
      obtain ⟨member, led⟩ := List.mem_filter.mp (List.mem_of_getLast? last)
      exact Or.inr ⟨entry, member, (filled.leads _ _).mpr (of_decide_eq_true led)⟩

/-- The file of an entry has its contents if the later entries that lead there have the same. -/
theorem Filled.readFile_of_last (filled : Filled before after folder (front ++ entry :: back))
    (last : ∀ later ∈ back, after.locate (folder.join later.outputName) =
      after.locate (folder.join entry.outputName) → later.contents = entry.contents) :
    after.readFile (folder.join entry.outputName) = .ok entry.contents := by
  obtain ⟨location, located, _⟩ := filled.placed entry (by simp)
  have reached := (filled.leads _ _).mpr located
  refine Workspace.readFile_eq_ok_iff.mpr ⟨location, reached, ?_⟩
  have led : leadingTo before folder location (front ++ entry :: back) =
      leadingTo before folder location front ++ entry :: leadingTo before folder location back := by
    rw [leadingTo, List.filter_append, List.filter_cons_of_pos (by simp [located])]
    rfl
  rw [filled.fills, led, List.getLast?_append_cons, List.getLast?_cons]
  cases found : (leadingTo before folder location back).getLast? with
  | none => rfl
  | some other =>
      obtain ⟨member, there⟩ := List.mem_filter.mp (List.mem_of_getLast? found)
      have same := (filled.leads _ _).mpr (of_decide_eq_true there)
      have contents := last other member (same.trans reached.symm)
      simp [contents]

end Filling

/-- What an extraction into a folder has done to the files. The folder is there. Apart from folders that
were missing, only files changed that an entry leads to. An entry with an inner name leads into the
folder. The file of an entry has its contents, unless a later entry leads there with other ones. -/
structure Extracted (before after : Workspace) (folder : Path) (place : Location)
    (entries : List ArchiveEntry) : Prop where
  there : after.locate folder = .ok place ∧ after.itemAt place = some .folder
  frame : ∀ location, after.itemAt location ≠ before.itemAt location →
    (before.itemAt location = none ∧ after.itemAt location = some .folder) ∨
      ∃ entry ∈ entries, after.locate (folder.join entry.outputName) = .ok location
  inside : ∀ entry ∈ entries, Path.IsInner entry.outputName → ∀ location,
    after.locate (folder.join entry.outputName) = .ok location → place <+: location
  holds : ∀ front entry back, entries = front ++ entry :: back →
    (∀ later ∈ back, after.locate (folder.join later.outputName) =
      after.locate (folder.join entry.outputName) → later.contents = entry.contents) →
    after.readFile (folder.join entry.outputName) = .ok entry.contents

theorem Filled.extracted {made : Workspace} (filled : Filled made after folder entries)
    (added : Workspace.OnlyAddsFolders before made) (there : made.locate folder = .ok place)
    (found : made.itemAt place = some .folder) : Extracted before after folder place entries where
  there := ⟨(filled.leads _ _).mpr there, filled.itemAt_folder found⟩
  frame := by
    intro location differ
    obtain same | led := filled.itemAt_or location
    · rw [same] at differ ⊢
      exact Or.inl (added location differ)
    · exact Or.inr led
  inside := fun _ _ inner _ located =>
    Workspace.prefix_of_locate_join inner ((filled.leads _ _).mpr there) located
  holds := by
    rintro front entry back rfl last
    exact filled.readFile_of_last last

variable {file folderName : String} {desk later : Desk}

/-- Where every step succeeds, so does the extraction. -/
theorem exists_run_extractAll {made : Workspace} {data : Bytes}
    (ensured : desk.workspace.ensureFolders (Path.ofString folderName) = (made, .ok ()))
    (held : made.readFile (Path.ofString file) = .ok data) (read : Archive.read data = .ok entries)
    (written : entries.foldlM (writeEntry (Path.ofString folderName)) made = .ok after) :
    ∃ later, (extractAll file folderName).run desk = (.ok (), later) ∧ later.workspace = after := by
  have start : (ensureFolders (Path.ofString folderName)).run desk =
      (.ok (), { desk with workspace := made }) := by
    rw [run_ensureFolders, ensured]
    rfl
  have opened : (readFile (Path.ofString file)).run { desk with workspace := made } =
      (.ok data, { desk with workspace := made }) := run_readFile held
  obtain ⟨later, filled, rfl⟩ : ∃ later,
      (entries.forM (extractEntry (Path.ofString folderName))).run
        { desk with workspace := made } = (.ok (), later) ∧ later.workspace = after :=
    exists_run_extractEntries written
  rw [extractAll, run_bind_of_ok start, run_bind_of_ok opened, run_bind_of_ok (run_check read),
    run_bind_of_ok filled]
  exact ⟨_, run_print _ _, rfl⟩

/-- An extraction that ends well has made the folder, read the archive and filled the folder with it. -/
theorem extracted_of_run (done : (extractAll file folderName).run desk = (.ok (), later)) :
    ∃ made data entries place,
      desk.workspace.ensureFolders (Path.ofString folderName) = (made, .ok ()) ∧
      made.readFile (Path.ofString file) = .ok data ∧ Archive.read data = .ok entries ∧
      Extracted desk.workspace later.workspace (Path.ofString folderName) place entries := by
  obtain ⟨_, _, making, reading⟩ := run_bind_eq_ok_iff.mp done
  rw [run_ensureFolders] at making
  obtain ⟨success, rfl⟩ := run_check_eq_ok_iff.mp making
  obtain ⟨data, _, opened, checking⟩ := run_bind_eq_ok_iff.mp reading
  obtain ⟨held, rfl⟩ := run_readFile_eq_ok_iff.mp opened
  obtain ⟨entries, _, checked, writing⟩ := run_bind_eq_ok_iff.mp checking
  obtain ⟨read, rfl⟩ := run_check_eq_ok_iff.mp checked
  obtain ⟨_, _, wrote, printed⟩ := run_bind_eq_ok_iff.mp writing
  obtain ⟨_, rfl⟩ := Prod.mk.inj (printed.symm.trans (run_print _ _))
  have made : desk.workspace.ensureFolders (Path.ofString folderName) =
      ((desk.workspace.ensureFolders (Path.ofString folderName)).1, .ok ()) :=
    Prod.ext rfl (mapError_eq_ok_iff.mp success)
  obtain ⟨place, there, found⟩ := Workspace.exists_folder_of_ensureFolders made
  exact ⟨_, data, entries, place, made, held, read,
    (filled_of_run_extractEntries wrote).extracted
      (Workspace.onlyAddsFolders_ensureFolders _ _) there found⟩

section Climbing

/-- An archive of three files, one with a name that leads out of the folder and two with one name. -/
def climbingArchive : Bytes :=
  Archive.magic ++ [0x80, 0, 0, 0, 0x83, 0, 0, 0, 3, 0, 0, 0, 0, 0, 0, 0, 4, 0, 0, 0] ++
    Bytes.filled 0 8 ++
    [0x2E, 0x2E, 0x2F, 0x61] ++ [1, 0, 0, 0, 0, 0, 0, 0, 1, 0, 0, 0, 1, 0, 0, 0] ++
    Bytes.filled 0 12 ++
    [0x62, 0, 0, 0] ++ [2, 0, 0, 0, 1, 0, 0, 0, 1, 0, 0, 0, 2, 0, 0, 0] ++ Bytes.filled 0 12 ++
    [0x62, 0, 0, 0] ++ [3, 0, 0, 0, 2, 0, 0, 0, 1, 0, 0, 0, 3, 0, 0, 0] ++ Bytes.filled 0 12 ++
    [1, 2, 3]

def climbingEntries : List ArchiveEntry :=
  [⟨some "../a", 1, 1, [1]⟩, ⟨some "b", 2, 2, [2]⟩, ⟨some "b", 3, 3, [3]⟩]

theorem read_climbingArchive : Archive.read climbingArchive = .ok climbingEntries := by
  decide +kernel

/-- The archive, the folder and what else has been extracted. -/
def climbed (files : List (Location × Item)) : Workspace :=
  ⟨[(["x.pac"], .file climbingArchive), (["out"], .folder)] ++ files⟩

def climbingDesk : Desk where
  workspace := ⟨[(["x.pac"], .file climbingArchive)]⟩

theorem ensureFolders_climbing :
    climbingDesk.workspace.ensureFolders (Path.ofString "out") = (climbed [], .ok ()) := by
  cbv

theorem readFile_climbing :
    (climbed []).readFile (Path.ofString "x.pac") = .ok climbingArchive := by
  cbv

theorem run_climbing : ∃ later, (extractAll "x.pac" "out").run climbingDesk = (.ok (), later) ∧
    later.workspace = climbed [(["a"], .file [1]), (["out", "b"], .file [3])] := by
  have written : climbingEntries.foldlM (writeEntry (Path.ofString "out")) (climbed []) =
      .ok (climbed [(["a"], .file [1]), (["out", "b"], .file [3])]) := by cbv
  exact exists_run_extractAll ensureFolders_climbing readFile_climbing read_climbingArchive written

theorem locate_climbed : (climbed [(["a"], .file [1]), (["out", "b"], .file [3])]).locate
    (Path.ofString "out") = .ok ["out"] := by
  cbv

/-- What the second entry holds is nowhere once the third has been extracted. -/
theorem itemAt_climbed_ne (location : Location) :
    (climbed [(["a"], .file [1]), (["out", "b"], .file [3])]).itemAt location ≠
      some (.file [2]) := by
  have other : climbingArchive ≠ [2] := by decide
  intro found
  rw [Workspace.itemAt] at found
  split at found
  · cases found
  · obtain ⟨front, back, items, _⟩ := List.lookup_eq_some_iff.mp found
    have member : (location, Item.file [2]) ∈
        (climbed [(["a"], .file [1]), (["out", "b"], .file [3])]).items := by
      rw [items]
      simp
    simp [climbed, Ne.symm other] at member

/-- An extraction can end well and still write outside the folder and lose what an entry holds. -/
theorem extraction_escapes_and_loses : ∃ later,
    (extractAll "x.pac" "out").run climbingDesk = (.ok (), later) ∧
      Archive.read climbingArchive = .ok climbingEntries ∧
      later.workspace.locate (Path.ofString "out") = .ok ["out"] ∧
      (∃ location, ¬ ["out"] <+: location ∧ climbingDesk.workspace.itemAt location = none ∧
        later.workspace.itemAt location = some (.file [1])) ∧
      ∃ entry ∈ climbingEntries, ∀ location,
        later.workspace.itemAt location ≠ some (.file entry.contents) := by
  obtain ⟨later, done, files⟩ := run_climbing
  refine ⟨later, done, read_climbingArchive, ?_, ⟨["a"], by decide, by decide, ?_⟩,
    ⟨some "b", 2, 2, [2]⟩, by simp [climbingEntries], ?_⟩
  · rw [files]
    exact locate_climbed
  · rw [files]
    decide
  · rw [files]
    exact itemAt_climbed_ne

theorem extracted_of_run_climbing : ∃ later,
    (extractAll "x.pac" "out").run climbingDesk = (.ok (), later) ∧
      Extracted climbingDesk.workspace later.workspace (Path.ofString "out") ["out"]
        climbingEntries := by
  obtain ⟨later, done, files⟩ := run_climbing
  obtain ⟨made, data, entries, place, ensured, held, read, extracted⟩ := extracted_of_run done
  obtain rfl := (Prod.mk.inj (ensureFolders_climbing.symm.trans ensured)).1
  obtain rfl := Except.ok.inj (readFile_climbing.symm.trans held)
  obtain rfl := Except.ok.inj (read_climbingArchive.symm.trans read)
  have there := extracted.there.1
  rw [files, locate_climbed] at there
  obtain rfl := Except.ok.inj there
  exact ⟨later, done, extracted⟩

end Climbing

end FighterData.Command
