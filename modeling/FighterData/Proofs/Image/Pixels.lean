import FighterData.Image.PaletteImage
import FighterData.Proofs.EntryArray.Pieces

/-! The pixels of images. Data that fill the rows of an image give it all of its pixels, in every mode.
The image of a palette has a pixel for each color, and that pixel has the bytes of the color. -/
namespace FighterData

namespace Image

section Rows

variable {size count : Nat} {data : Bytes}

theorem flatten_rows (exact : data.length = size * count) : (rows size count data).flatten = data := by
  induction count generalizing data with
  | zero =>
      obtain rfl := List.eq_nil_of_length_eq_zero exact
      rfl
  | succ count ih =>
      rw [Nat.mul_succ] at exact
      rw [rows, List.flatten_cons, ih (by rw [List.length_drop]; omega), List.take_append_drop]

theorem length_of_mem_rows (exact : data.length = size * count) :
    ∀ row ∈ rows size count data, row.length = size := by
  induction count generalizing data with
  | zero => simp [rows]
  | succ count ih =>
      rw [Nat.mul_succ] at exact
      rw [rows, List.forall_mem_cons]
      exact ⟨by rw [List.length_take]; omega, ih (by rw [List.length_drop]; omega)⟩

theorem length_rows (size count : Nat) (data : Bytes) : (rows size count data).length = count := by
  induction count generalizing data with
  | zero => rfl
  | succ count ih => rw [rows, List.length_cons, ih]

end Rows

section Pixels

variable {mode : ImageMode} {palette row data : Bytes} {width : Nat} {image : Image}

theorem length_quads (data : Bytes) : (pixelsOf.quads data).length = data.length / 4 := by
  match data with
  | [] | [_] | [_, _] | [_, _, _] => simp [pixelsOf.quads]
  | _ :: _ :: _ :: _ :: rest =>
      have ih := length_quads rest
      simp only [pixelsOf.quads, List.length_cons]
      omega

theorem length_triples (data : Bytes) : (pixelsOf.triples data).length = data.length / 3 := by
  match data with
  | [] | [_] | [_, _] => simp [pixelsOf.triples]
  | _ :: _ :: _ :: rest =>
      have ih := length_triples rest
      simp only [pixelsOf.triples, List.length_cons]
      omega

theorem length_pairs (data : Bytes) : (pixelsOf.pairs data).length = data.length / 2 := by
  match data with
  | [] | [_] => simp [pixelsOf.pairs]
  | _ :: _ :: rest =>
      have ih := length_pairs rest
      simp only [pixelsOf.pairs, List.length_cons]
      omega

/-- A row has a pixel for every place of it, and padding may leave more. -/
theorem width_le_length_pixelsOf (palette : Bytes) (exact : row.length = mode.rowSize width) :
    width ≤ (pixelsOf mode palette row).length := by
  cases mode with
  | rgba =>
      change row.length = 4 * width at exact
      simp only [pixelsOf, length_quads]
      omega
  | rgb =>
      change row.length = 3 * width at exact
      simp only [pixelsOf, length_triples]
      omega
  | greyAlpha =>
      change row.length = 2 * width at exact
      simp only [pixelsOf, length_pairs]
      omega
  | grey =>
      change row.length = width at exact
      simp only [pixelsOf, List.length_map]
      omega
  | indexed =>
      change row.length = width at exact
      simp only [pixelsOf, List.length_map]
      omega
  | bilevel =>
      change row.length = (width + 7) / 8 at exact
      have eight (byte : UInt8) : (bitPixels byte).length = 8 := rfl
      simp only [pixelsOf, List.length_flatMap, eight, List.map_const', List.sum_replicate_nat]
      omega

/-- An image whose data fill its rows has all of its pixels. -/
theorem length_pixels (whole : image.data.length = image.mode.rowSize image.width * image.height) :
    image.pixels.length = image.width * image.height := by
  have each : ∀ row ∈ rows (image.mode.rowSize image.width) image.height image.data,
      ((pixelsOf image.mode image.palette row).take image.width).length = image.width := by
    intro row member
    have enough := width_le_length_pixelsOf image.palette (length_of_mem_rows whole row member)
    rw [List.length_take]
    omega
  rw [pixels, List.length_flatMap, List.map_congr_left each, List.map_const', length_rows,
    List.sum_replicate_nat, Nat.mul_comm]

theorem quads_append {front : Bytes} (count : Nat) (exact : front.length = 4 * count)
    (back : Bytes) :
    pixelsOf.quads (front ++ back) = pixelsOf.quads front ++ pixelsOf.quads back := by
  induction count generalizing front with
  | zero =>
      obtain rfl := List.eq_nil_of_length_eq_zero exact
      rfl
  | succ count ih =>
      match front, exact with
      | r :: g :: b :: a :: front, exact =>
          have rest : front.length = 4 * count := by
            simp only [List.length_cons] at exact
            omega
          simp only [List.cons_append, pixelsOf.quads, ih rest]

/-- The rows of an image with four samples a pixel have no padding. -/
theorem pixels_eq_quads (mode : image.mode = .rgba)
    (whole : image.data.length = 4 * image.width * image.height) :
    image.pixels = pixelsOf.quads image.data := by
  have each (lines : List Bytes) (exact : ∀ row ∈ lines, row.length = 4 * image.width) :
      lines.flatMap (fun row => (pixelsOf.quads row).take image.width) =
        pixelsOf.quads lines.flatten := by
    induction lines with
    | nil => rfl
    | cons row lines ih =>
        rw [List.forall_mem_cons] at exact
        have full : (pixelsOf.quads row).length ≤ image.width := by
          rw [length_quads, exact.1]
          omega
        rw [List.flatMap_cons, List.flatten_cons, quads_append image.width exact.1,
          ih exact.2, List.take_of_length_le full]
  have joined := each (rows (4 * image.width) image.height image.data) (length_of_mem_rows whole)
  rw [flatten_rows whole] at joined
  simp only [pixels, mode, ImageMode.rowSize, pixelsOf]
  exact joined

end Pixels

end Image

section Colors

variable {color : Int} {colors : List Int}

/-- The bytes of a packed color are one pixel, and the pixel packs to the color again. -/
theorem exists_pixel (fits : Width.u32.holds color = true) (rest : Bytes) :
    ∃ pixel : Pixel, pixel.toColor = color ∧
      Image.pixelsOf.quads (Width.u32.encode color ++ rest) =
        pixel :: Image.pixelsOf.quads rest := by
  have exact : (Width.u32.encode color).length = 4 := Width.length_encode _ _
  have decoded := Width.decode_encode fits
  match Width.u32.encode color, exact, decoded with
  | [red, green, blue, alpha], _, decoded => exact ⟨⟨red, green, blue, alpha⟩, decoded, rfl⟩

theorem map_toColor_quads (fits : ∀ color ∈ colors, Width.u32.holds color = true) :
    (Image.pixelsOf.quads (colors.flatMap fun color => Width.u32.encode color)).map Pixel.toColor =
      colors := by
  induction colors with
  | nil => rfl
  | cons color rest ih =>
      rw [List.forall_mem_cons] at fits
      obtain ⟨pixel, packs, split⟩ := exists_pixel fits.1
        (rest.flatMap fun color => Width.u32.encode color)
      rw [List.flatMap_cons, split, List.map_cons, packs, ih fits.2]

theorem length_flatMap_encode (colors : List Int) :
    (colors.flatMap fun color => Width.u32.encode color).length = 4 * colors.length := by
  simp only [List.length_flatMap, Width.length_encode, List.map_const', List.sum_replicate_nat]
  exact Nat.mul_comm _ _

end Colors

namespace Palette

variable {palette : Palette} {opened : Image}

theorem fits_iff : palette.fits = true ↔ palette.unknown.length = 8 ∧
    (∀ value ∈ palette.unknown, Width.u16.holds value = true) ∧
      palette.colors.length = colorCount ∧
        ∀ color ∈ palette.colors, Width.u32.holds color = true := by
  have words (exact : palette.unknown.length = 8) : Layout.holds (List.replicate 8 .u16)
      palette.unknown = true ↔ ∀ value ∈ palette.unknown, Width.u16.holds value = true := by
    rw [← exact]
    exact ⟨Layout.holds_of_mem_replicate, Layout.holds_replicate⟩
  have packed : Layout.holds (List.replicate colorCount .u32) palette.colors = true ↔
      palette.colors.length = colorCount ∧
        ∀ color ∈ palette.colors, Width.u32.holds color = true := by
    constructor
    · intro held
      have count := Layout.length_of_holds held
      rw [List.length_replicate] at count
      exact ⟨count, Layout.holds_of_mem_replicate held⟩
    · rintro ⟨count, each⟩
      rw [← count]
      exact Layout.holds_replicate each
  rw [fits, Bool.and_eq_true, beq_iff_eq]
  refine and_congr_right fun exact => ?_
  rw [layout, Layout.holds_append exact, Bool.and_eq_true, words exact, packed]

/-- The palette with the colors of an image, if there is one. -/
def recolored (palette : Palette) : Option Image → Palette
  | none => palette
  | some image => { palette with colors := image.pixels.map Pixel.toColor }

theorem withImage_eq_ok (wide : opened.width = imageSide) (high : opened.height = imageSide) :
    palette.withImage opened = .ok (palette.recolored (some opened)) :=
  if_pos ⟨wide, high⟩

theorem fits_recolored (fits : palette.fits = true) (count : opened.pixels.length = colorCount) :
    (palette.recolored (some opened)).fits = true := by
  obtain ⟨exact, words, _, _⟩ := fits_iff.mp fits
  refine fits_iff.mpr ⟨exact, words, (List.length_map _).trans count, ?_⟩
  intro color member
  obtain ⟨pixel, _, rfl⟩ := List.mem_map.mp member
  exact pixel.holds_toColor

/-- The image that a palette has if it fits. -/
def image (palette : Palette) : Image where
  mode := .rgba
  width := imageSide
  height := imageSide
  data := palette.colors.flatMap fun color => Width.u32.encode color

theorem toImage_eq_ok (fits : palette.fits = true) : palette.toImage = .ok palette.image := by
  obtain ⟨_, _, count, each⟩ := fits_iff.mp fits
  have held : palette.colors.all (Width.u32.holds ·) = true := List.all_eq_true.mpr each
  simp only [toImage, held, count, ne_eq, not_true, Bool.not_true, Bool.false_eq_true, if_false]
  rfl

theorem length_image (fits : palette.fits = true) :
    palette.image.data.length = 4 * imageSide * imageSide := by
  obtain ⟨_, _, count, _⟩ := fits_iff.mp fits
  exact (length_flatMap_encode palette.colors).trans (by rw [count]; rfl)

/-- The pixels of its image give a palette its colors back. -/
theorem recolored_image (fits : palette.fits = true)
    (same : opened.pixels = palette.image.pixels) : palette.recolored (some opened) = palette := by
  obtain ⟨_, _, _, each⟩ := fits_iff.mp fits
  have colors : opened.pixels.map Pixel.toColor = palette.colors := by
    rw [same, Image.pixels_eq_quads rfl (length_image fits)]
    exact map_toColor_quads each
  rw [recolored, colors]

/-- An image as palettes have them: a square of given size in color and with alpha. -/
structure IsPicture (image : Image) : Prop where
  mode : image.mode = .rgba
  width : image.width = imageSide
  height : image.height = imageSide
  whole : image.data.length = 4 * imageSide * imageSide

theorem isPicture_image (fits : palette.fits = true) : IsPicture palette.image :=
  ⟨rfl, rfl, rfl, length_image fits⟩

end Palette

/-- Files of images as they ought to be. An image that is opened has a pixel at every place, and the
picture of a palette is opened with the size and the pixels that it was written with. -/
structure ImageFiles.Lawful (files : ImageFiles) : Prop where
  whole : ∀ contents image, files.decode? contents = some image →
    image.pixels.length = image.width * image.height
  lossless : ∀ image, Palette.IsPicture image → ∃ same,
    files.decode? (files.encode image) = some same ∧ same.width = image.width ∧
      same.height = image.height ∧ same.pixels = image.pixels

end FighterData
