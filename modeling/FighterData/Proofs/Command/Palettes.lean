import FighterData.Command.Palettes
import FighterData.Proofs.Command.Saving
import FighterData.Proofs.Image.Png
import FighterData.Proofs.Text.Literal

/-! Palettes through image files. Every palette has a file of its own in the folder, so that what is
exported is found again when it is imported. An import gives up the aliases that the new colors break,
and what remains is well formed, whatever the images are; so the file that it writes is read back. -/
namespace FighterData

namespace Command

theorem imageName_injective {first second : Nat} (same : imageName first = imageName second) :
    first = second := by
  have texts := congrArg String.toList same
  simp only [imageName, String.toList_append] at texts
  have middle := List.append_cancel_left (List.append_cancel_right texts)
  exact Text.decimalPadded_injective (String.toList_inj.mp middle)

/-- The name of an image starts with a letter and has no slash. -/
theorem toList_imageName (index : Nat) : ∃ rest,
    (imageName index).toList = 'p' :: rest ∧ '/' ∉ (imageName index).toList := by
  obtain ⟨digits, spelled, below, _⟩ := Text.exists_digits_decimalPadded 3 index
  have whole : '/' ∉ digits.map Nat.digitChar := by
    have every : ∀ digit < 10, Nat.digitChar digit ≠ '/' := by decide
    intro member
    obtain ⟨digit, inside, slash⟩ := List.mem_map.mp member
    exact every digit (below digit inside) slash
  have shape : (imageName index).toList =
      "pal_".toList ++ digits.map Nat.digitChar ++ ".png".toList := by
    rw [imageName, String.toList_append, String.toList_append, spelled]
  refine ⟨_, shape, ?_⟩
  rw [shape, List.mem_append, List.mem_append, not_or, not_or]
  exact ⟨⟨by decide, whole⟩, by decide⟩

theorem imagePath_eq (folder : Path) (index : Nat) :
    imagePath folder index = { folder with parts := folder.parts ++ [imageName index] } := by
  obtain ⟨rest, letter, whole⟩ := toList_imageName index
  exact Path.join_eq (by simp [letter]) (by simp [letter]) whole folder

theorem imageName_ne_up (index : Nat) : imageName index ≠ ".." := by
  intro same
  obtain ⟨rest, letter, _⟩ := toList_imageName index
  rw [same] at letter
  exact absurd (List.cons.inj letter).1 (by decide)

end Command

namespace ObjectBinary

variable {binary : ObjectBinary} {images : Nat → Option Image}

/-- The binary after an import of images: an alias stays as long as its palette equals the one before
it. -/
def recolored (binary : ObjectBinary) (images : Nat → Option Image) : ObjectBinary :=
  let palettes := binary.player.palettes.mapIdx fun index palette =>
    palette.recolored (images index)
  let aliases := binary.player.paletteAliases.filter (Command.stillShared palettes)
  { binary with player :=
      { binary.player with palettes := palettes, paletteAliases := aliases } }

/-- Aliases that are kept fit any palettes of the same number. -/
theorem aliasesFit_filter {palettes changed : List Palette} {aliases : List Int}
    (fits : EntryArray.AliasesFit palettes aliases) (count : changed.length = palettes.length) :
    EntryArray.AliasesFit changed (aliases.filter (Command.stillShared changed)) where
  increasing := fits.increasing.filter _
  shared := by
    intro slot member
    obtain ⟨inside, shared⟩ := List.mem_filter.mp member
    obtain ⟨lower, upper, _⟩ := fits.shared slot inside
    rw [count]
    exact ⟨lower, upper, eq_of_beq shared⟩

theorem WellFormed.recolored (fits : binary.WellFormed)
    (full : ∀ index < binary.player.palettes.length, ∀ image ∈ images index,
      image.pixels.length = Palette.colorCount) : (binary.recolored images).WellFormed := by
  refine ⟨{ fits.player with palettes := ?_, paletteAliases := ?_ }, fits.objects⟩
  · intro palette member
    obtain ⟨index, inside, rfl⟩ := List.mem_mapIdx.mp member
    have old := fits.player.palettes _ (List.getElem_mem inside)
    cases found : images index with
    | none => exact old
    | some image => exact Palette.fits_recolored old (full index inside image found)
  · exact aliasesFit_filter fits.player.paletteAliases List.length_mapIdx

/-- Palettes that keep their colors keep their aliases. -/
theorem recolored_eq_self (fits : binary.WellFormed)
    (same : ∀ (index : Nat) (palette : Palette), binary.player.palettes[index]? = some palette →
      palette.recolored (images index) = palette) : binary.recolored images = binary := by
  have palettes : (binary.player.palettes.mapIdx fun index palette =>
      palette.recolored (images index)) = binary.player.palettes := by
    refine List.ext_getElem? fun index => ?_
    rw [List.getElem?_mapIdx]
    cases found : binary.player.palettes[index]? with
    | none => rfl
    | some palette => exact congrArg some (same index palette found)
  have aliases : binary.player.paletteAliases.filter
      (Command.stillShared binary.player.palettes) = binary.player.paletteAliases := by
    refine List.filter_eq_self.mpr fun slot member => ?_
    obtain ⟨_, _, shared⟩ := fits.player.paletteAliases.shared slot member
    exact beq_iff_eq.mpr shared
  rw [recolored, palettes, aliases]

end ObjectBinary

namespace Command

section Importing

variable {files : ImageFiles} {desk : Desk} {folder : Path} {index start count : Nat}
  {palette : Palette} {palettes : List Palette} {images : Nat → Option Image} {image : Image}

/-- The images that stand in a folder for so many palettes. Where there is none, nothing is at all. -/
structure Images (files : ImageFiles) (workspace : Workspace) (folder : Path) (count : Nat)
    (images : Nat → Option Image) : Prop where
  missing : ∀ index < count, images index = none →
    workspace.find (imagePath folder index) = .ok none
  opened : ∀ index < count, ∀ image, images index = some image → ∃ contents,
    workspace.readFile (imagePath folder index) = .ok contents ∧
      files.decode? contents = some image

/-- Whether an image has the size of a palette. -/
def IsSquare (image : Image) : Prop :=
  image.width = Palette.imageSide ∧ image.height = Palette.imageSide

theorem run_importPalette (finds : Images files desk.workspace folder count images)
    (inside : index < count) (square : ∀ image ∈ images index, IsSquare image)
    (palette : Palette) : ∃ replaced after,
      (importPalette files folder index palette).run desk =
        (.ok (palette.recolored (images index), replaced), after) ∧
      after.workspace = desk.workspace := by
  cases found : images index with
  | none =>
      have none := finds.missing index inside found
      rw [importPalette, run_get_bind, run_bind_of_ok (run_refused none),
        run_bind_of_ok (run_print _ _)]
      exact ⟨false, _, rfl, rfl⟩
  | some image =>
      obtain ⟨contents, held, opened⟩ := finds.opened index inside image found
      obtain ⟨wide, high⟩ := square image found
      rw [importPalette, run_get_bind,
        run_bind_of_ok (run_refused (Workspace.find_of_readFile held)),
        run_bind_of_ok (run_readFile held)]
      simp only [opened]
      rw [run_bind_of_ok (run_check (Palette.withImage_eq_ok wide high)),
        run_bind_of_ok (run_print _ _)]
      exact ⟨true, _, rfl, rfl⟩

/-- An image of another size ends the import before anything is printed for it. -/
theorem run_importPalette_of_not_square
    (finds : Images files desk.workspace folder count images) (inside : index < count)
    (found : images index = some image) (other : ¬ IsSquare image) :
    ∃ fault, (importPalette files folder index palette).run desk = (.error fault, desk) := by
  obtain ⟨contents, held, opened⟩ := finds.opened index inside image found
  have refused : palette.withImage image = .error (.imageSize image.width image.height) :=
    if_neg other
  rw [importPalette, run_get_bind,
    run_bind_of_ok (run_refused (Workspace.find_of_readFile held)),
    run_bind_of_ok (run_readFile held)]
  simp only [opened]
  exact ⟨_, run_bind_of_error (run_check_of_error refused) _⟩

theorem run_importFrom (finds : Images files desk.workspace folder count images)
    (inside : start + palettes.length ≤ count)
    (square : ∀ index < count, ∀ image ∈ images index, IsSquare image) :
    ∃ imported after, (importFrom files folder start palettes).run desk = (.ok imported, after) ∧
      after.workspace = desk.workspace ∧ imported.map (·.1) =
        palettes.mapIdx fun index palette => palette.recolored (images (start + index)) := by
  induction palettes generalizing start desk with
  | nil => exact ⟨[], desk, rfl, rfl, rfl⟩
  | cons palette rest ih =>
      rw [List.length_cons] at inside
      obtain ⟨replaced, middle, first, kept⟩ :=
        run_importPalette finds (by omega : start < count) (square start (by omega)) palette
      rw [← kept] at finds
      obtain ⟨others, after, done, same, colors⟩ :=
        ih finds (by omega : start + 1 + rest.length ≤ count)
      have moved (index : Nat) : start + 1 + index = start + (index + 1) := by omega
      refine ⟨(palette.recolored (images start), replaced) :: others, after, ?_,
        same.trans kept, ?_⟩
      · rw [importFrom, run_bind_of_ok first, run_bind_of_ok done]
        rfl
      · rw [List.map_cons, List.mapIdx_cons, colors]
        simp only [moved]
        rfl

theorem run_importFrom_of_not_square (finds : Images files desk.workspace folder count images)
    (inside : start + palettes.length ≤ count)
    (other : ∃ index, start ≤ index ∧ index < start + palettes.length ∧
      ∃ image, images index = some image ∧ ¬ IsSquare image) :
    ∃ fault after, (importFrom files folder start palettes).run desk = (.error fault, after) ∧
      after.workspace = desk.workspace := by
  induction palettes generalizing start desk with
  | nil =>
      obtain ⟨index, lower, upper, _⟩ := other
      exact absurd upper (by simpa using lower)
  | cons palette rest ih =>
      rw [List.length_cons] at inside
      by_cases square : ∀ image ∈ images start, IsSquare image
      · obtain ⟨replaced, middle, first, kept⟩ :=
          run_importPalette finds (by omega : start < count) square palette
        rw [← kept] at finds
        obtain ⟨index, lower, upper, image, found, odd⟩ := other
        have later : start ≠ index := by
          rintro rfl
          exact odd (square image found)
        rw [List.length_cons] at upper
        obtain ⟨fault, after, refused, same⟩ :=
          ih finds (by omega : start + 1 + rest.length ≤ count)
            ⟨index, by omega, by omega, image, found, odd⟩
        refine ⟨fault, after, ?_, same.trans kept⟩
        rw [importFrom, run_bind_of_ok first]
        exact run_bind_of_error refused _
      · simp only [not_forall] at square
        obtain ⟨image, found, odd⟩ := square
        obtain ⟨fault, refused⟩ :=
          run_importPalette_of_not_square finds (by omega : start < count) found odd
        refine ⟨fault, desk, ?_, rfl⟩
        rw [importFrom]
        exact run_bind_of_error refused _

theorem run_warnSplit (slots : List Int) (desk : Desk) :
    ∃ after, (slots.forM warnSplit).run desk = (.ok (), after) ∧
      after.workspace = desk.workspace := by
  induction slots generalizing desk with
  | nil => exact ⟨desk, rfl, rfl⟩
  | cons slot rest ih =>
      obtain ⟨after, done, same⟩ := ih _
      exact ⟨after, (run_bind_of_ok (run_print _ desk)).trans done, same⟩

section Files

variable {file folderName output : String} {binary : ObjectBinary} {wrapper : Option Wrapper}
  {data : Bytes}

/-- An import of images that all have the right size saves the binary with their colors. -/
theorem run_importPalettes (loads : desk.Loads (Path.ofString file) binary wrapper)
    (finds : Images files desk.workspace (Path.ofString folderName) binary.player.palettes.length
      images)
    (square : ∀ index < binary.player.palettes.length, ∀ image ∈ images index, IsSquare image)
    (encoded : (binary.recolored images).encode = .ok data)
    (read : ObjectBinary.decode data = .ok (binary.recolored images))
    (fits : wrapper ≠ none → Wrapper.SizesFit data)
    (writable : desk.workspace.Writable (Path.ofString output)) :
    ∃ after, (importPalettes files file folderName output).run desk = (.ok (), after) ∧
      after.Loads (Path.ofString output) (binary.recolored images) wrapper := by
  obtain ⟨notes, loaded⟩ := loads.run
  obtain ⟨imported, middle, done, kept, colors⟩ : ∃ imported middle,
      (importFrom files (Path.ofString folderName) 0 binary.player.palettes).run
        { desk with notes := notes } = (.ok imported, middle) ∧
      middle.workspace = desk.workspace ∧ imported.map (·.1) =
        binary.player.palettes.mapIdx fun index palette =>
          palette.recolored (images (0 + index)) :=
    run_importFrom finds (Nat.le_of_eq (Nat.zero_add _)) square
  simp only [Nat.zero_add] at colors
  obtain ⟨warned, split, same⟩ := run_warnSplit (binary.player.paletteAliases.filter fun slot =>
    !stillShared (imported.map (·.1)) slot) middle
  have shown : binary.recolored images = { binary with player := { binary.player with
      palettes := imported.map (·.1)
      paletteAliases := binary.player.paletteAliases.filter
        (stillShared (imported.map (·.1))) } } := by
    rw [colors]
    rfl
  rw [← kept, ← same] at writable
  obtain ⟨saved, wrote⟩ := exists_run_saveBinary encoded fits writable
  obtain ⟨_, again, loads⟩ := loads_of_save wrote
  obtain rfl := Except.ok.inj (encoded.symm.trans again)
  rw [importPalettes, run_bind_of_ok loaded, run_bind_of_ok done, run_bind_of_ok split]
  rw [shown] at wrote
  rw [run_bind_of_ok wrote]
  exact ⟨_, run_print _ _, ((loads _ _).mpr ⟨read, rfl⟩).congr rfl⟩

/-- An import with an image of another size changes no file. -/
theorem run_importPalettes_of_not_square (loads : desk.Loads (Path.ofString file) binary wrapper)
    (finds : Images files desk.workspace (Path.ofString folderName) binary.player.palettes.length
      images)
    (other : ∃ index < binary.player.palettes.length,
      ∃ image, images index = some image ∧ ¬ IsSquare image) :
    ∃ fault after, (importPalettes files file folderName output).run desk = (.error fault, after) ∧
      after.workspace = desk.workspace := by
  obtain ⟨notes, loaded⟩ := loads.run
  obtain ⟨index, inside, image, found, odd⟩ := other
  obtain ⟨fault, after, refused, kept⟩ : ∃ fault after,
      (importFrom files (Path.ofString folderName) 0 binary.player.palettes).run
        { desk with notes := notes } = (.error fault, after) ∧
      after.workspace = desk.workspace :=
    run_importFrom_of_not_square finds (Nat.le_of_eq (Nat.zero_add _))
      ⟨index, Nat.zero_le _, by omega, image, found, odd⟩
  refine ⟨fault, after, ?_, kept⟩
  rw [importPalettes, run_bind_of_ok loaded]
  exact run_bind_of_error refused _

end Files

end Importing

section Exporting

variable {files : ImageFiles} {desk after : Desk} {folder : Path} {start : Nat}
  {palettes : List Palette}

/-- Writing one image leaves those of the other palettes. -/
theorem readFile_of_writeFile_image {workspace changed : Workspace} {index other : Nat}
    {contents data : Bytes}
    (written : workspace.writeFile (imagePath folder index) contents = .ok changed)
    (differ : other ≠ index) (held : workspace.readFile (imagePath folder other) = .ok data) :
    changed.readFile (imagePath folder other) = .ok data := by
  refine Workspace.readFile_of_writeFile_of_ne written ?_ held
  obtain ⟨location, located, _⟩ := Workspace.writeFile_eq_ok_iff.mp written
  rw [located, imagePath_eq]
  rw [imagePath_eq] at located
  exact Workspace.locate_member_ne (fun same => differ (imageName_injective same).symm)
    (imageName_ne_up index) (imageName_ne_up other) located

/-- An export leaves an image of every palette, and the images of earlier ones. -/
theorem readFile_of_run_exportFrom (fits : ∀ palette ∈ palettes, palette.fits = true)
    (done : (exportFrom files folder start palettes).run desk = (.ok (), after)) :
    (∀ index < start, ∀ data, desk.workspace.readFile (imagePath folder index) = .ok data →
      after.workspace.readFile (imagePath folder index) = .ok data) ∧
    ∀ (index : Nat) (palette : Palette), palettes[index]? = some palette →
      after.workspace.readFile (imagePath folder (start + index)) =
        .ok (files.encode palette.image) := by
  induction palettes generalizing start desk with
  | nil =>
      obtain ⟨_, rfl⟩ := run_pure_eq_ok_iff.mp done
      exact ⟨fun _ _ _ held => held, fun _ _ found => nomatch found⟩
  | cons palette rest ih =>
      rw [List.forall_mem_cons] at fits
      rw [exportFrom, run_bind_of_ok (run_check (Palette.toImage_eq_ok fits.1))] at done
      obtain ⟨_, _, wrote, done⟩ := run_bind_eq_ok_iff.mp done
      obtain ⟨changed, written, rfl⟩ := run_writeFile_eq_ok_iff.mp wrote
      rw [run_bind_of_ok (run_print _ _)] at done
      obtain ⟨kept, later⟩ := ih fits.2 done
      constructor
      · intro index before data held
        exact kept index (by omega) data
          (readFile_of_writeFile_image written (by omega) held)
      · intro index other found
        cases index with
        | zero =>
            obtain rfl := Option.some.inj found
            exact kept start (by omega) _ (Workspace.readFile_of_writeFile written)
        | succ index =>
            have moved : start + (index + 1) = start + 1 + index := by omega
            rw [moved]
            exact later index other found

theorem run_ensureFolders (path : Path) (desk : Desk) :
    (ensureFolders path).run desk =
      (check ((desk.workspace.ensureFolders path).2.mapError fun (cause, place) =>
        .file cause place.text)).run
          { desk with workspace := (desk.workspace.ensureFolders path).1 } := rfl

/-- Making folders does not change what a file is loaded as. -/
theorem loads_ensureFolders {path : Path} {binary : ObjectBinary} {wrapper : Option Wrapper}
    (folder : Path) (loads : desk.Loads path binary wrapper) :
    Desk.Loads { desk with workspace := (desk.workspace.ensureFolders folder).1 } path binary
      wrapper := by
  obtain ⟨packed, data, held, unpacked, read, same⟩ := Desk.loads_iff.mp loads
  exact Desk.loads_iff.mpr
    ⟨packed, data, Workspace.readFile_ensureFolders folder held, unpacked, read, same⟩

theorem readFile_of_run_exportPalettes {file folderName : String} {binary : ObjectBinary}
    {wrapper : Option Wrapper} (loads : desk.Loads (Path.ofString file) binary wrapper)
    (done : (exportPalettes files file folderName).run desk = (.ok (), after)) :
    ∀ (index : Nat) (palette : Palette), binary.player.palettes[index]? = some palette →
      after.workspace.readFile (imagePath (Path.ofString folderName) index) =
        .ok (files.encode palette.image) := by
  obtain ⟨_, _, made, done⟩ := run_bind_eq_ok_iff.mp done
  rw [run_ensureFolders] at made
  obtain ⟨_, rfl⟩ := run_check_eq_ok_iff.mp made
  obtain ⟨notes, loaded⟩ := (loads_ensureFolders (Path.ofString folderName) loads).run
  rw [run_bind_of_ok loaded] at done
  obtain ⟨_, middle, exported, done⟩ := run_bind_eq_ok_iff.mp done
  obtain ⟨_, rfl⟩ := Prod.mk.inj (done.symm.trans (run_print _ _))
  obtain ⟨_, images⟩ := readFile_of_run_exportFrom loads.wellFormed.player.palettes exported
  intro index palette found
  have image := images index palette found
  rwa [Nat.zero_add] at image

/-- An export ends where every palette has an image that can be written. -/
theorem exists_run_exportFrom (fits : ∀ palette ∈ palettes, palette.fits = true)
    (writable : ∀ index, start ≤ index → index < start + palettes.length →
      desk.workspace.Writable (imagePath folder index)) :
    ∃ after, (exportFrom files folder start palettes).run desk = (.ok (), after) := by
  induction palettes generalizing start desk with
  | nil => exact ⟨desk, rfl⟩
  | cons palette rest ih =>
      rw [List.forall_mem_cons] at fits
      rw [List.length_cons] at writable
      obtain ⟨changed, written⟩ := (writable start (by omega) (by omega)).exists_writeFile
        (files.encode palette.image)
      rw [exportFrom, run_bind_of_ok (run_check (Palette.toImage_eq_ok fits.1)),
        run_bind_of_ok (run_writeFile_eq_ok_iff.mpr ⟨changed, written, rfl⟩),
        run_bind_of_ok (run_print _ _)]
      exact ih fits.2 fun index lower upper =>
        (writable index (by omega) (by omega)).of_writeFile written

theorem exists_run_exportPalettes {file folderName : String} {binary : ObjectBinary}
    {wrapper : Option Wrapper} {made : Workspace}
    (loads : desk.Loads (Path.ofString file) binary wrapper)
    (folders : desk.workspace.ensureFolders (Path.ofString folderName) = (made, .ok ()))
    (writable : ∀ index < binary.player.palettes.length,
      made.Writable (imagePath (Path.ofString folderName) index)) :
    ∃ after, (exportPalettes files file folderName).run desk = (.ok (), after) := by
  have still := loads_ensureFolders (Path.ofString folderName) loads
  rw [folders] at still
  obtain ⟨notes, loaded⟩ := still.run
  have start : (ensureFolders (Path.ofString folderName)).run desk =
      (.ok (), { desk with workspace := made }) := by
    rw [run_ensureFolders, folders]
    exact run_check rfl
  obtain ⟨after, exported⟩ : ∃ after,
      (exportFrom files (Path.ofString folderName) 0 binary.player.palettes).run
        { desk with workspace := made, notes := notes } = (.ok (), after) :=
    exists_run_exportFrom loads.wellFormed.player.palettes
      fun index _ upper => writable index (by omega)
  rw [exportPalettes, run_bind_of_ok start, run_bind_of_ok loaded, run_bind_of_ok exported]
  exact ⟨_, run_print _ _⟩

end Exporting

end Command

end FighterData
