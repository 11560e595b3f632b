import FighterData.Image
import FighterData.Palette

/-! Palettes as images of sixteen by sixteen pixels. The four bytes of a packed color are taken as
red, green, blue and alpha in the order in which they are stored. -/
namespace FighterData

def Pixel.toColor (pixel : Pixel) : Int :=
  Bytes.toNat [pixel.red, pixel.green, pixel.blue, pixel.alpha]

theorem Pixel.holds_toColor (pixel : Pixel) : Width.u32.holds pixel.toColor = true := by
  have bound : Bytes.toNat [pixel.red, pixel.green, pixel.blue, pixel.alpha] < 0x100000000 :=
    Bytes.toNat_lt [pixel.red, pixel.green, pixel.blue, pixel.alpha]
  simp [Width.holds, Width.lowest, Width.isSigned, Width.span_eq, toColor]
  omega

namespace Palette

def imageSide : Nat := 16

/-- A color that is no 32-bit word is refused before the number of colors is looked at. -/
def toImage (palette : Palette) : Except Fault Image :=
  if !palette.colors.all (Width.u32.holds ·) then .error .colorRange
  else if palette.colors.length ≠ colorCount then .error .colorCount
  else .ok {
    mode := .rgba
    width := imageSide
    height := imageSide
    data := palette.colors.flatMap fun color => Width.u32.encode color }

/-- Takes the colors of the image and leaves the other words as they are. -/
def withImage (palette : Palette) (image : Image) : Except Fault Palette :=
  if image.width = imageSide ∧ image.height = imageSide then
    .ok { palette with colors := image.pixels.map Pixel.toColor }
  else .error (.imageSize image.width image.height)

theorem unknown_withImage {palette changed : Palette} {image : Image}
    (accepted : palette.withImage image = .ok changed) : changed.unknown = palette.unknown := by
  unfold withImage at accepted
  split at accepted
  · cases accepted
    rfl
  · cases accepted

end Palette

end FighterData
