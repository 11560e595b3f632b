import FighterData.Proofs.Workspace

/-! What a path can reach, and what making files and folders leaves alone. A relative path whose
double dots always have a name in front of them leads into the folder where it starts. A new file
changes where no path leads, and a new folder stands where nothing was. -/
namespace FighterData

namespace Path

/-- Whether every double dot has a name in front of it, with `depth` names in front of all. -/
def staysWithin (depth : Nat) : List String → Bool
  | [] => true
  | part :: rest =>
      if part = ".." then decide (0 < depth) && staysWithin (depth - 1) rest
      else staysWithin (depth + 1) rest

/-- A relative path that never climbs above the place where it starts. -/
def IsInner (text : String) : Prop :=
  (ofString text).anchor = "" ∧ staysWithin 0 (ofString text).parts = true

theorem slash_not_mem_partsFrom {current text part : List Char} (whole : '/' ∉ current)
    (member : part ∈ partsFrom current text) : '/' ∉ part := by
  induction text generalizing current with
  | nil =>
      obtain rfl := List.mem_singleton.mp member
      simpa using whole
  | cons c rest ih =>
      rw [partsFrom] at member
      split at member
      · obtain rfl | later := List.mem_cons.mp member
        · simpa using whole
        · exact ih (List.not_mem_nil) later
      · rename_i other
        exact ih (List.not_mem_cons_of_ne_of_not_mem (Ne.symm other) whole) member

theorem ne_slash_of_mem_parts {text part : String} (member : part ∈ (ofString text).parts) :
    part ≠ "/" := by
  obtain ⟨letters, kept, rfl⟩ := List.mem_map.mp member
  have whole := slash_not_mem_partsFrom List.not_mem_nil (List.mem_filter.mp kept).1
  intro same
  have single : letters = ['/'] := by simpa using congrArg String.toList same
  simp [single] at whole

/-- Behind a relative text, the folder's own parts come first. -/
theorem join_of_relative {text : String} (relative : (ofString text).anchor = "")
    (folder : Path) : folder.join text =
      { folder with parts := folder.parts ++ (ofString text).parts } :=
  if_pos (by rw [relative]; rfl)

end Path

namespace Workspace

variable {workspace changed before after : Workspace} {path : Path}
  {location place start : Location} {parts : List String} {contents : Bytes}

section Walking

theorem walk_append_eq_ok_iff {front back : List String} :
    workspace.walk start (front ++ back) = .ok location ↔
      ∃ middle, workspace.walk start front = .ok middle ∧
        workspace.walk middle back = .ok location := by
  induction front generalizing start with
  | nil => simp [walk]
  | cons part rest ih =>
      simp only [List.cons_append, walk_cons_eq_ok_iff, ih]
      grind

/-- From below a name the way up leads to the folder of that name. -/
theorem step_up {name : String} (other : name ≠ "..") (below : name ≠ "/") (start : Location) :
    step (start ++ [name]) ".." = start := by
  have low : isTop (start ++ [name]) = false := by
    rw [isTop, List.all_append]
    simp [other, below, List.append_eq_singleton_iff]
  have apart : start ++ [name] ≠ ["/"] := by
    intro root
    rw [root] at low
    cases low
  rw [step, if_pos rfl, if_neg apart, if_neg (by simp [low]), List.dropLast_concat]

/-- A walk that does not climb above its start ends inside it. The names since the start pay for the
double dots to come. -/
theorem walk_inside {names : List String} (plain : ∀ name ∈ names, name ≠ ".." ∧ name ≠ "/")
    (whole : ∀ part ∈ parts, part ≠ "/") (stays : Path.staysWithin names.length parts = true)
    (walked : workspace.walk (start ++ names) parts = .ok location) : start <+: location := by
  induction parts generalizing names with
  | nil =>
      obtain rfl := Except.ok.inj walked
      exact List.prefix_append start names
  | cons part rest ih =>
      rw [List.forall_mem_cons] at whole
      obtain ⟨_, _, walked⟩ := walk_cons_eq_ok_iff.mp walked
      by_cases up : part = ".."
      · subst up
        rw [Path.staysWithin, if_pos rfl, Bool.and_eq_true, decide_eq_true_eq] at stays
        obtain ⟨front, last, rfl⟩ :=
          (List.eq_nil_or_concat names).resolve_left (List.ne_nil_of_length_pos stays.1)
        rw [List.concat_eq_append] at *
        have named := plain last (by simp)
        rw [← List.append_assoc, step_up named.1 named.2] at walked
        refine ih (fun name member => plain name (by simp [member])) whole.2 ?_ walked
        simpa using stays.2
      · rw [Path.staysWithin, if_neg up] at stays
        rw [step, if_neg up, List.append_assoc] at walked
        refine ih ?_ whole.2 (by simpa using stays) walked
        simp only [List.mem_append, List.mem_singleton]
        rintro name (old | rfl)
        · exact plain name old
        · exact ⟨up, whole.1⟩

/-- An inner path leads to a place inside the folder that it is joined to. -/
theorem prefix_of_locate_join {folder : Path} {text : String} (inner : Path.IsInner text)
    (there : workspace.locate folder = .ok place)
    (located : workspace.locate (folder.join text) = .ok location) : place <+: location := by
  rw [Path.join_of_relative inner.1] at located
  obtain ⟨_, _, walked⟩ := locate_eq_ok_iff.mp located
  obtain ⟨middle, reached, onward⟩ := walk_append_eq_ok_iff.mp walked
  obtain rfl := Except.ok.inj ((locate_eq_ok_iff.mp there).2.2.symm.trans reached)
  rw [← List.append_nil place] at onward
  have none : ∀ name ∈ ([] : List String), name ≠ ".." ∧ name ≠ "/" := by simp
  exact walk_inside none (fun part => Path.ne_slash_of_mem_parts) inner.2 onward

end Walking

section Putting

/-- Nothing leads through a file. -/
theorem walk_put_file_iff (free : workspace.itemAt place ≠ some .folder) :
    (workspace.put place (.file contents)).walk start parts = .ok location ↔
      workspace.walk start parts = .ok location := by
  refine ⟨fun walked => ?_, walk_put free⟩
  induction parts generalizing start with
  | nil => exact walked
  | cons part rest ih =>
      obtain ⟨found, short, onward⟩ := walk_cons_eq_ok_iff.mp walked
      have apart : start ≠ place := by
        rintro rfl
        rw [itemAt_put_self (isTop_eq_false free)] at found
        cases found
      rw [itemAt_put_of_ne apart] at found
      exact walk_cons_eq_ok_iff.mpr ⟨found, short, ih onward⟩

theorem locate_put_file_iff (free : workspace.itemAt place ≠ some .folder) :
    (workspace.put place (.file contents)).locate path = .ok location ↔
      workspace.locate path = .ok location := by
  rw [locate_eq_ok_iff, locate_eq_ok_iff, walk_put_file_iff free]

end Putting

section Folders

/-- Folders were added, and nothing else changed. -/
def OnlyAddsFolders (before after : Workspace) : Prop :=
  ∀ location, after.itemAt location ≠ before.itemAt location →
    before.itemAt location = none ∧ after.itemAt location = some .folder

theorem onlyAddsFolders_self (workspace : Workspace) : OnlyAddsFolders workspace workspace :=
  fun _ differ => absurd rfl differ

theorem OnlyAddsFolders.trans {middle : Workspace} (first : OnlyAddsFolders before middle)
    (second : OnlyAddsFolders middle after) : OnlyAddsFolders before after := by
  intro location differ
  by_cases same : middle.itemAt location = before.itemAt location
  · rw [← same] at differ ⊢
    exact second location differ
  · obtain ⟨free, made⟩ := first location same
    by_cases kept : after.itemAt location = middle.itemAt location
    · exact ⟨free, kept.trans made⟩
    · rw [(second location kept).1] at made
      cases made

theorem onlyAddsFolders_makeFolder (made : workspace.makeFolder path = .ok changed) :
    OnlyAddsFolders workspace changed := by
  obtain ⟨place, _, free, rfl⟩ := makeFolder_eq_ok_iff.mp made
  intro location differ
  by_cases same : location = place
  · rw [same]
    have low : isTop place = false := isTop_eq_false (by rw [free]; simp)
    exact ⟨free, itemAt_put_self low workspace _⟩
  · exact absurd (itemAt_put_of_ne same workspace _) differ

theorem onlyAddsFolders_ensureFolder (workspace : Workspace) (path : Path) :
    OnlyAddsFolders workspace (workspace.ensureFolder path).1 := by
  unfold ensureFolder
  split
  next made => exact onlyAddsFolders_makeFolder made
  next => split <;> exact onlyAddsFolders_self workspace

theorem onlyAddsFolders_ensureFoldersWithin (budget : Nat) (workspace : Workspace) (path : Path) :
    OnlyAddsFolders workspace (workspace.ensureFoldersWithin path budget).1 := by
  induction budget generalizing path with
  | zero => exact onlyAddsFolders_ensureFolder workspace path
  | succ budget ih =>
      unfold ensureFoldersWithin
      split
      · have above := ih path.parent
        split
        next changed ensured =>
          rw [ensured] at above
          exact above.trans (onlyAddsFolders_ensureFolder changed path)
        next => exact above
      · exact onlyAddsFolders_ensureFolder workspace path

theorem onlyAddsFolders_ensureFolders (workspace : Workspace) (path : Path) :
    OnlyAddsFolders workspace (workspace.ensureFolders path).1 :=
  onlyAddsFolders_ensureFoldersWithin _ workspace path

theorem exists_folder_of_ensureFolder (made : workspace.ensureFolder path = (changed, .ok ())) :
    ∃ place, changed.locate path = .ok place ∧ changed.itemAt place = some .folder := by
  unfold ensureFolder at made
  split at made
  next folders made_one =>
    obtain ⟨rfl, _⟩ := Prod.mk.inj made
    obtain ⟨place, located, free, rfl⟩ := makeFolder_eq_ok_iff.mp made_one
    have open_place : workspace.itemAt place ≠ some .folder := by simp [free]
    exact ⟨place, locate_put open_place located,
      itemAt_put_self (isTop_eq_false open_place) workspace _⟩
  next =>
    split at made
    next found =>
      obtain ⟨rfl, _⟩ := Prod.mk.inj made
      rw [find] at found
      split at found
      next place located => exact ⟨place, located, Except.ok.inj found⟩
      all_goals cases found
    next => cases (Prod.mk.inj made).2

/-- A folder that has been made sure of is there. -/
theorem exists_folder_of_ensureFolders (made : workspace.ensureFolders path = (changed, .ok ())) :
    ∃ place, changed.locate path = .ok place ∧ changed.itemAt place = some .folder := by
  unfold ensureFolders at made
  cases size : path.parts.length with
  | zero =>
      rw [size] at made
      exact exists_folder_of_ensureFolder made
  | succ budget =>
      rw [size, ensureFoldersWithin] at made
      split at made
      · split at made
        next => exact exists_folder_of_ensureFolder made
        next stopped => exact absurd made (stopped changed)
      · exact exists_folder_of_ensureFolder made

end Folders

end Workspace

end FighterData
