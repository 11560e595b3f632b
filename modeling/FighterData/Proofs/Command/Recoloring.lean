import FighterData.Proofs.Command.Palettes

/-! Palettes that come back with other colors. What an import saves is loaded with the colors of the
images, an image of another size stops it before anything is saved, and the images of an export make
no difference. -/
namespace FighterData.Command

variable {files : ImageFiles} {desk : Desk} {file folderName output : String}
  {binary : ObjectBinary} {wrapper : Option Wrapper} {images : Nat → Option Image}

/-- An opened image with the size of a palette has a pixel for every color. -/
theorem length_pixels_of_isSquare {folder : Path} {count : Nat} (lawful : files.Lawful)
    (finds : Images files desk.workspace folder count images)
    (square : ∀ index < count, ∀ image ∈ images index, IsSquare image) :
    ∀ index < count, ∀ image ∈ images index, image.pixels.length = Palette.colorCount := by
  intro index inside image found
  obtain ⟨contents, _, opened⟩ := finds.opened index inside image found
  obtain ⟨wide, high⟩ := square index inside image found
  rw [lawful.whole contents image opened, wide, high]
  rfl

/-- Images that an export left are squares, and give the palettes their colors back. -/
theorem isSquare_and_recolored_of_exported {before exported : Desk} {place : String}
    (lawful : files.Lawful)
    (finds : Images files desk.workspace (Path.ofString folderName) binary.player.palettes.length
      images)
    (loads : before.Loads (Path.ofString file) binary wrapper)
    (done : (exportPalettes files file place).run before = (.ok (), exported))
    (kept : ∀ index < binary.player.palettes.length, ∀ contents,
      desk.workspace.readFile (imagePath (Path.ofString folderName) index) = .ok contents →
        exported.workspace.readFile (imagePath (Path.ofString place) index) = .ok contents)
    (index : Nat) (palette : Palette) (member : binary.player.palettes[index]? = some palette) :
    (∀ image ∈ images index, IsSquare image) ∧ palette.recolored (images index) = palette := by
  obtain ⟨inside, rfl⟩ := List.getElem?_eq_some_iff.mp member
  have whole := loads.wellFormed.player.palettes _ (List.getElem_mem inside)
  cases found : images index with
  | none => exact ⟨(fun _ none => nomatch none), rfl⟩
  | some image =>
      obtain ⟨contents, held, opened⟩ := finds.opened index inside image found
      have written := readFile_of_run_exportPalettes loads done index _ member
      obtain rfl := Except.ok.inj ((kept index inside contents held).symm.trans written)
      obtain ⟨same, again, wide, high, pixels⟩ :=
        lawful.lossless _ (Palette.isPicture_image whole)
      obtain rfl := Option.some.inj (opened.symm.trans again)
      refine ⟨?_, Palette.recolored_image whole pixels⟩
      intro image member
      obtain rfl := Option.some.inj member
      exact ⟨wide, high⟩

/-- A binary can be saved if its file can be written, its offsets stay below the closing word of a
table, and what is compressed has a size that fits its word. -/
structure Savable (desk : Desk) (path : Path) (binary : ObjectBinary) (wrapper : Option Wrapper) :
    Prop where
  writable : desk.workspace.Writable path
  short : binary.bytes.length < PointerTable.sentinel
  stream : wrapper ≠ none → (Zlib.compress binary.bytes).length < 0x100000000

theorem Savable.sizesFit {path : Path} (savable : Savable desk path binary wrapper)
    (compressed : wrapper ≠ none) : Wrapper.SizesFit binary.bytes := by
  have short := savable.short
  unfold PointerTable.sentinel at short
  exact ⟨by omega, savable.stream compressed⟩

/-- An import of images that all have the size of a palette saves the binary with their colors. -/
theorem run_importPalettes_of_square (lawful : files.Lawful)
    (loads : desk.Loads (Path.ofString file) binary wrapper)
    (finds : Images files desk.workspace (Path.ofString folderName) binary.player.palettes.length
      images)
    (square : ∀ index < binary.player.palettes.length, ∀ image ∈ images index, IsSquare image)
    (savable : Savable desk (Path.ofString output) (binary.recolored images) wrapper) :
    (binary.recolored images).encode = .ok (binary.recolored images).bytes ∧
    ∃ after, (importPalettes files file folderName output).run desk = (.ok (), after) ∧
      after.Loads (Path.ofString output) (binary.recolored images) wrapper := by
  have fits := loads.wellFormed.recolored (length_pixels_of_isSquare lawful finds square)
  have encoded := ObjectBinary.encode_of_short fits savable.short
  exact ⟨encoded, run_importPalettes loads finds square encoded
    (ObjectBinary.decode_bytes fits savable.short) savable.sizesFit savable.writable⟩

/-- Palettes are imported from the images of a folder. If all of them have the size of a palette, the
binary with their colors is saved, without the aliases that the colors break; if one has not, nothing
is; and the images of an export change nothing. -/
theorem importPalettes_recolors (lawful : files.Lawful)
    (loads : desk.Loads (Path.ofString file) binary wrapper)
    (finds : Images files desk.workspace (Path.ofString folderName) binary.player.palettes.length
      images) :
    ((∀ index < binary.player.palettes.length, ∀ image ∈ images index, IsSquare image) →
      Savable desk (Path.ofString output) (binary.recolored images) wrapper →
      (binary.recolored images).encode = .ok (binary.recolored images).bytes ∧
      ∃ after, (importPalettes files file folderName output).run desk = (.ok (), after) ∧
        after.Loads (Path.ofString output) (binary.recolored images) wrapper) ∧
    ((∃ index < binary.player.palettes.length,
        ∃ image, images index = some image ∧ ¬ IsSquare image) →
      ∃ fault after, (importPalettes files file folderName output).run desk =
          (.error fault, after) ∧ after.workspace = desk.workspace) ∧
    ∀ (place : String) (before exported : Desk),
      before.Loads (Path.ofString file) binary wrapper →
      (exportPalettes files file place).run before = (.ok (), exported) →
      (∀ index < binary.player.palettes.length, ∀ contents,
        desk.workspace.readFile (imagePath (Path.ofString folderName) index) = .ok contents →
          exported.workspace.readFile (imagePath (Path.ofString place) index) = .ok contents) →
      Savable desk (Path.ofString output) binary wrapper →
      ∃ after, (importPalettes files file folderName output).run desk = (.ok (), after) ∧
        after.Loads (Path.ofString output) binary wrapper := by
  refine ⟨run_importPalettes_of_square lawful loads finds,
    run_importPalettes_of_not_square loads finds, ?_⟩
  intro place before exported held done kept savable
  have back := isSquare_and_recolored_of_exported lawful finds held done kept
  have square : ∀ index < binary.player.palettes.length, ∀ image ∈ images index,
      IsSquare image :=
    fun index inside => (back index _ (List.getElem?_eq_getElem inside)).1
  have same := ObjectBinary.recolored_eq_self loads.wellFormed fun index palette member =>
    (back index palette member).2
  rw [← same] at savable
  obtain ⟨_, saved⟩ := run_importPalettes_of_square lawful loads finds square savable
  rwa [same] at saved

section Example

def black : Palette := {}

def white : Palette where
  colors := List.replicate 256 0xFFFFFFFF

theorem black_fits : black.fits = true := by
  decide +kernel

theorem white_fits : white.fits = true := by
  decide +kernel

/-- The binary `small` with a black palette that two slots share. -/
def sharing : ObjectBinary :=
  { ObjectBinary.small with player :=
      { ObjectBinary.small.player with palettes := [black, black], paletteAliases := [1] } }

/-- The binary `sharing` after its second palette has become white. -/
def parted : ObjectBinary :=
  { sharing with player :=
      { sharing.player with palettes := [black, white], paletteAliases := [] } }

theorem sharing_wellFormed : sharing.WellFormed where
  player := { ObjectBinary.small_wellFormed.player with
    palettes := by
      intro palette member
      obtain rfl : palette = black := by simpa [sharing] using member
      exact black_fits
    paletteAliases := ⟨by decide, by
      intro slot member
      obtain rfl := List.mem_singleton.mp member
      exact ⟨by decide, by decide, rfl⟩⟩ }
  objects := ObjectBinary.small_wellFormed.objects

theorem short_sharing : (sharing.bytes.length : Int) < PointerTable.sentinel := by
  decide +kernel

/-- A file, and an image for its second palette. -/
def paletteDesk (packed contents : Bytes) : Desk where
  workspace := ⟨[(["in.bin"], .file packed), (["pals"], .folder),
    (["pals", "pal_001.png"], .file contents)]⟩

def onlySecond (image : Image) (index : Nat) : Option Image :=
  if index = 1 then some image else none

variable (packed contents : Bytes)

theorem paletteDesk_loads :
    (paletteDesk sharing.bytes contents).Loads (Path.ofString "in.bin") sharing none := by
  have held (packed : Bytes) : (paletteDesk packed contents).workspace.readFile
      (Path.ofString "in.bin") = .ok packed := by cbv
  have plain := ObjectBinary.detect_bytes sharing
  exact Desk.loads_iff.mpr ⟨_, _, held _, Wrapper.contents_of_detect plain,
    ObjectBinary.decode_bytes sharing_wellFormed short_sharing, plain⟩

theorem paletteDesk_writable :
    (paletteDesk packed contents).workspace.Writable (Path.ofString "out.bin") := by
  have free : (paletteDesk packed contents).workspace.itemAt ["out.bin"] = none := by cbv
  exact ⟨["out.bin"], by cbv, by simp [free]⟩

theorem paletteDesk_find_first :
    (paletteDesk packed contents).workspace.find (imagePath (Path.ofString "pals") 0) =
      .ok none := by
  cbv

theorem paletteDesk_readFile_second :
    (paletteDesk packed contents).workspace.readFile (imagePath (Path.ofString "pals") 1) =
      .ok contents := by
  cbv

theorem paletteDesk_images {image : Image} (opened : Png.decode? contents = some image) :
    Images Png.files (paletteDesk packed contents).workspace (Path.ofString "pals")
      sharing.player.palettes.length (onlySecond image) where
  missing := by
    intro index inside none
    cases inside with
    | refl => cases none
    | step lower =>
        obtain rfl := Nat.le_zero.mp (Nat.le_of_succ_le_succ lower)
        exact paletteDesk_find_first packed contents
  opened := by
    intro index _ other found
    obtain ⟨rfl, rfl⟩ : index = 1 ∧ image = other := by simpa [onlySecond] using found
    exact ⟨contents, paletteDesk_readFile_second packed contents, opened⟩

/-- There is room for both images. -/
theorem paletteDesk_exports : ∃ after,
    (exportPalettes Png.files "in.bin" "pals").run (paletteDesk sharing.bytes contents) =
      (.ok (), after) := by
  have folders (packed : Bytes) : (paletteDesk packed contents).workspace.ensureFolders
      (Path.ofString "pals") = ((paletteDesk packed contents).workspace, .ok ()) := by cbv
  have room (packed : Bytes) (index : Nat) (inside : index < 2) :
      (paletteDesk packed contents).workspace.Writable (imagePath (Path.ofString "pals") index) := by
    cases inside with
    | refl => exact ⟨["pals", "pal_001.png"], by cbv, by cbv; simp⟩
    | step lower =>
        obtain rfl := Nat.le_zero.mp (Nat.le_of_succ_le_succ lower)
        exact ⟨["pals", "pal_000.png"], by cbv, by cbv; simp⟩
  exact exists_run_exportPalettes (paletteDesk_loads contents) (folders _) (room _)

theorem sharing_recolored {image : Image} (pixels : image.pixels = white.image.pixels) :
    sharing.recolored (onlySecond image) = parted := by
  have colors : black.recolored (some image) = white := Palette.recolored_image white_fits pixels
  have palettes : (sharing.player.palettes.mapIdx fun index palette =>
      palette.recolored (onlySecond image index)) = [black, white] := by
    rw [← colors]
    rfl
  rw [ObjectBinary.recolored, palettes]
  rfl

/-- A single black pixel. -/
def dot : Image := ⟨.rgba, 1, 1, [0, 0, 0, 255], []⟩

theorem importPalettes_recolors_sharing :
    (∃ after, (importPalettes Png.files "in.bin" "pals" "out.bin").run
        (paletteDesk sharing.bytes (Png.encode white.image)) = (.ok (), after) ∧
      after.Loads (Path.ofString "out.bin") parted none) ∧
    (∃ fault after, (importPalettes Png.files "in.bin" "pals" "out.bin").run
        (paletteDesk sharing.bytes (Png.encode dot)) = (.error fault, after) ∧
      after.workspace = (paletteDesk sharing.bytes (Png.encode dot)).workspace) ∧
    ∃ after, (importPalettes Png.files "in.bin" "pals" "out.bin").run
        (paletteDesk sharing.bytes (Png.encode black.image)) = (.ok (), after) ∧
      after.Loads (Path.ofString "out.bin") sharing none := by
  refine ⟨?_, ?_, ?_⟩
  · obtain ⟨image, opened, wide, high, pixels⟩ :=
      Png.files_lawful.lossless _ (Palette.isPicture_image white_fits)
    obtain ⟨imports, _⟩ := importPalettes_recolors Png.files_lawful
      (paletteDesk_loads (Png.encode white.image)) (paletteDesk_images sharing.bytes _ opened)
    rw [sharing_recolored pixels] at imports
    refine (imports ?_ ⟨paletteDesk_writable _ _, by decide +kernel, fun some => absurd rfl some⟩).2
    intro index _ other found
    obtain ⟨_, rfl⟩ : index = 1 ∧ image = other := by simpa [onlySecond] using found
    exact ⟨wide, high⟩
  · have opened : Png.decode? (Png.encode dot) = some dot :=
      Png.decode?_encode rfl (by decide) (by decide) rfl (by decide +kernel)
    obtain ⟨_, refuses, _⟩ := importPalettes_recolors Png.files_lawful
      (paletteDesk_loads (Png.encode dot)) (paletteDesk_images sharing.bytes _ opened)
    exact refuses ⟨1, by decide, dot, rfl, fun square => absurd square.1 (by decide)⟩
  · obtain ⟨image, opened, _⟩ :=
      Png.files_lawful.lossless _ (Palette.isPicture_image black_fits)
    obtain ⟨exported, done⟩ := paletteDesk_exports []
    have written := readFile_of_run_exportPalettes (paletteDesk_loads []) done
    obtain ⟨_, _, keeps⟩ := importPalettes_recolors Png.files_lawful
      (paletteDesk_loads (Png.encode black.image)) (paletteDesk_images sharing.bytes _ opened)
    refine keeps "pals" _ exported (paletteDesk_loads []) done ?_
      ⟨paletteDesk_writable _ _, short_sharing, fun some => absurd rfl some⟩
    intro index inside contents held
    cases inside with
    | refl =>
        rw [paletteDesk_readFile_second] at held
        obtain rfl := Except.ok.inj held
        exact written 1 black rfl
    | step lower =>
        obtain rfl := Nat.le_zero.mp (Nat.le_of_succ_le_succ lower)
        have found := Workspace.find_of_readFile held
        rw [paletteDesk_find_first] at found
        cases found

end Example

end FighterData.Command
