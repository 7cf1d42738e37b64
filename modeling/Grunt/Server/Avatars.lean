import Grunt.Foundation.Bytes
import Grunt.Foundation.Rectangle

/-! # Avatars

An uploaded picture is decoded, cut down to a square, scaled and encoded. The
image packages are parameters.
-/

namespace Grunt.Server

open Foundation

/-- A picture: `Bounds` and `At` of `image.Image`. -/
structure Image (Color : Type) where
  bounds : Rectangle
  colorAt : Point → Color

/-- What is used of the packages `image` and `draw`. -/
structure ImagePackages (Color : Type) where
  decodePNG : ByteString → Except ByteString (Image Color)
  decodeJPEG : ByteString → Except ByteString (Image Color)
  decodeGIF : ByteString → Except ByteString (Image Color)
  newRGBA : Rectangle → Image Color
  /-- `draw.ApproxBiLinear.Scale` onto a rectangle, from a picture and a rectangle. -/
  scale : Image Color → Rectangle → Image Color → Rectangle → Image Color
  encodePNG : Image Color → Except ByteString ByteString

/-- Packages one can run by hand: the bytes of a picture are its one colour. -/
def ImagePackages.transparent : ImagePackages ByteString where
  decodePNG := fun data => .ok ⟨.ofCorners 0 0 1 1, fun _ => data⟩
  decodeJPEG := fun data => .ok ⟨.ofCorners 0 0 1 1, fun _ => data⟩
  decodeGIF := fun data => .ok ⟨.ofCorners 0 0 1 1, fun _ => data⟩
  newRGBA := fun rect => ⟨rect, fun _ => []⟩
  scale := fun dst _ source _ => { dst with colorAt := source.colorAt }
  encodePNG := fun image => .ok (image.colorAt image.bounds.min)

namespace Avatars

variable {Color : Type}

def avatarSize : Int := 64

def wrapped {Value : Type} (step : String) :
    Except ByteString Value → Except ByteString Value
  | .ok value => .ok value
  | .error error => .error (utf8 step ++ utf8 ": " ++ error)

def decodeImage (packages : ImagePackages Color) (data : ByteString) :
    Except ByteString (Image Color) :=
  match data with
  | [] => wrapped "read header" (.error (utf8 "EOF"))
  | first :: second :: third :: fourth :: _ =>
    if first = 0x89 ∧ second = 0x50 ∧ third = 0x4E ∧ fourth = 0x47 then
      wrapped "decode png" (packages.decodePNG data)
    else if first = 0xFF ∧ second = 0xD8 then
      wrapped "decode jpeg" (packages.decodeJPEG data)
    else if [first, second, third] = utf8 "GIF" then
      wrapped "decode gif" (packages.decodeGIF data)
    else .error (utf8 "unsupported format (supported: PNG, JPEG, GIF)")
  | _ => wrapped "read header" (.error (utf8 "unexpected EOF"))

def subImage (image : Image Color) (rect : Rectangle) : Image Color :=
  { image with bounds := rect }

def square (image : Image Color) : Image Color :=
  let w := image.bounds.dx
  let h := image.bounds.dy
  if w = h then image
  else if w > h then
    let offX := (w - h).tdiv 2
    subImage image (.ofCorners offX 0 (offX + h) h)
  else
    let offY := (h - w).tdiv 2
    subImage image (.ofCorners 0 offY w (offY + w))

def processAvatar (packages : ImagePackages Color) (data : ByteString) (maxBytes : Int) :
    Except ByteString ByteString := do
  let img ← wrapped "decode image" (decodeImage packages (data.take maxBytes.toNat))
  let source := square img
  let dst := packages.newRGBA (.ofCorners 0 0 avatarSize avatarSize)
  wrapped "encode png" (packages.encodePNG
    (packages.scale dst dst.bounds source source.bounds))

/-- Every picture that can come out of a decoder is cut down to its middle. -/
def CutsToTheMiddle (packages : ImagePackages Color) : Prop :=
  ∀ data image, decodeImage packages data = .ok image → image.bounds.empty = false →
    Rectangle.MiddleSquare (square image).bounds image.bounds

/-! ## Where the square lies -/

section Square

variable {image : Image Color}

theorem square_bounds_of_eq (same : image.bounds.dx = image.bounds.dy) :
    (square image).bounds = image.bounds := by
  rw [square, if_pos same]

/-- A picture that is wider than tall loses the same on both sides, as seen
from the origin. -/
theorem square_bounds_of_wide (tall : 0 < image.bounds.dy)
    (wide : image.bounds.dy < image.bounds.dx) :
    (square image).bounds =
      ⟨⟨(image.bounds.dx - image.bounds.dy) / 2, 0⟩,
        ⟨(image.bounds.dx - image.bounds.dy) / 2 + image.bounds.dy, image.bounds.dy⟩⟩ := by
  have half : (image.bounds.dx - image.bounds.dy).tdiv 2 =
      (image.bounds.dx - image.bounds.dy) / 2 := Int.tdiv_eq_ediv_of_nonneg (by omega)
  rw [square, if_neg (by omega), if_pos wide, subImage, half, Rectangle.ofCorners,
    min_eq_left (by omega), min_eq_left (by omega), max_eq_right (by omega),
    max_eq_right (by omega)]

theorem square_bounds_of_tall (wide : 0 < image.bounds.dx)
    (tall : image.bounds.dx < image.bounds.dy) :
    (square image).bounds =
      ⟨⟨0, (image.bounds.dy - image.bounds.dx) / 2⟩,
        ⟨image.bounds.dx, (image.bounds.dy - image.bounds.dx) / 2 + image.bounds.dx⟩⟩ := by
  have half : (image.bounds.dy - image.bounds.dx).tdiv 2 =
      (image.bounds.dy - image.bounds.dx) / 2 := Int.tdiv_eq_ediv_of_nonneg (by omega)
  rw [square, if_neg (by omega), if_neg (by omega), subImage, half, Rectangle.ofCorners,
    min_eq_left (by omega), min_eq_left (by omega), max_eq_right (by omega),
    max_eq_right (by omega)]

end Square

/-- Along the longer side, the offset was reckoned from the origin: the picture
begins there, or one before where an odd number is cut off. -/
def Begins (start left : Int) : Prop :=
  start = 0 ∨ (start = -1 ∧ left % 2 = 1)

theorem centres_half_iff {low high left side : Int} (cut : 0 < left)
    (length : high - low = side + left) :
    Centres low high (left / 2) side ↔ Begins low left := by
  rw [centres_iff (by omega), Begins]
  omega

theorem centres_whole_iff {low high side : Int} (length : high - low = side) :
    Centres low high 0 side ↔ low = 0 := by
  rw [centres_iff (by omega)]
  omega

/-- The square is the middle of the picture just when the picture is square, or
begins at the origin. -/
theorem square_middle_iff (image : Image Color) (nonempty : image.bounds.empty = false) :
    Rectangle.MiddleSquare (square image).bounds image.bounds ↔
      image.bounds.dx = image.bounds.dy ∨
        (image.bounds.dy < image.bounds.dx ∧ image.bounds.min.y = 0 ∧
          Begins image.bounds.min.x (image.bounds.dx - image.bounds.dy)) ∨
        (image.bounds.dx < image.bounds.dy ∧ image.bounds.min.x = 0 ∧
          Begins image.bounds.min.y (image.bounds.dy - image.bounds.dx)) := by
  rcases Rectangle.nonempty_iff.mp nonempty with ⟨wide, tall⟩
  have right : image.bounds.max.x - image.bounds.min.x = image.bounds.dx := rfl
  have bottom : image.bounds.max.y - image.bounds.min.y = image.bounds.dy := rfl
  rw [Rectangle.middleSquare_iff nonempty]
  rcases lt_trichotomy image.bounds.dx image.bounds.dy with taller | same | wider
  · have sides : (square image).bounds.dx = image.bounds.dx ∧
        (square image).bounds.dy = image.bounds.dx := by
      rw [square_bounds_of_tall wide taller]
      exact ⟨sub_zero _, add_sub_cancel_left _ _⟩
    rw [min_eq_left taller.le, and_iff_right sides, square_bounds_of_tall wide taller,
      centres_whole_iff right, centres_half_iff (by omega) (by omega)]
    simp only [taller.ne, taller.not_gt, taller, true_and, false_and, false_or]
  · rw [square_bounds_of_eq same, min_eq_left same.le, centres_iff (by omega),
      centres_iff (by omega)]
    omega
  · have sides : (square image).bounds.dx = image.bounds.dy ∧
        (square image).bounds.dy = image.bounds.dy := by
      rw [square_bounds_of_wide tall wider]
      exact ⟨add_sub_cancel_left _ _, sub_zero _⟩
    rw [min_eq_right wider.le, and_iff_right sides, square_bounds_of_wide tall wider,
      centres_whole_iff bottom, centres_half_iff (by omega) (by omega)]
    simp only [wider.ne', wider.not_gt, wider, true_and, false_and, false_or, or_false]
    exact and_comm

/-! ## A frame beside the origin -/

def littleEndian (data : ByteString) (start : Nat) : Int :=
  (data.getD start 0).toNat + 256 * (data.getD (start + 1) 0).toNat

/-- The rectangle of the first frame of a GIF without extensions: it stands in
the image descriptor, behind the screen descriptor and the colour table. -/
def firstFrame (data : ByteString) : Except ByteString Rectangle :=
  let flags := data.getD 10 0
  let table := if flags &&& 0x80 = 0 then 0 else 3 * 2 ^ ((flags &&& 7).toNat + 1)
  let start := 13 + table
  if data.take 6 ≠ utf8 "GIF87a" ∧ data.take 6 ≠ utf8 "GIF89a" then
    .error (utf8 "gif: can't recognize format")
  else if data.getD start 0 ≠ 0x2C then .error (utf8 "gif: unknown block type")
  else
    let left := littleEndian data (start + 1)
    let top := littleEndian data (start + 3)
    let right := left + littleEndian data (start + 5)
    let bottom := top + littleEndian data (start + 7)
    if right ≤ littleEndian data 6 ∧ bottom ≤ littleEndian data 8 then
      .ok (.ofCorners left top right bottom)
    else .error (utf8 "gif: frame bounds larger than image bounds")

/-- Packages that tell no colours apart and know GIF only. -/
def framedPackages : ImagePackages Unit where
  decodePNG := fun _ => .error (utf8 "png: invalid format: not a PNG file")
  decodeJPEG := fun _ => .error (utf8 "invalid JPEG format: missing SOI marker")
  decodeGIF := fun data => (firstFrame data).map fun rect => ⟨rect, fun _ => ()⟩
  newRGBA := fun rect => ⟨rect, fun _ => ()⟩
  scale := fun dst _ _ _ => dst
  encodePNG := fun _ => .ok []

/-- A GIF of 12 by 1 pixels in black and white, whose one frame is the two
pixels at its right end, both black. -/
def framedGIF : ByteString :=
  utf8 "GIF89a" ++ [12, 0, 1, 0, 0x80, 0, 0] ++ [0, 0, 0, 0xFF, 0xFF, 0xFF] ++
    [0x2C, 10, 0, 0, 0, 2, 0, 1, 0, 0] ++ [2, 2, 0x04, 0x0A, 0] ++ [0x3B]

/-- That frame is cut left of where it begins. -/
theorem framed_not_cutsToTheMiddle : ¬ CutsToTheMiddle framedPackages := by
  intro cuts
  have middle := cuts framedGIF ⟨⟨⟨10, 0⟩, ⟨12, 1⟩⟩, fun _ => ()⟩ rfl rfl
  have across := middle.across
  revert across
  decide

/-- A wide picture at the origin is cut to its middle. -/
theorem wide_middle :
    (⟨⟨0, 0⟩, ⟨300, 100⟩⟩ : Rectangle).empty = false ∧
      (Rectangle.MiddleSquare (square ⟨⟨⟨0, 0⟩, ⟨300, 100⟩⟩, fun _ => ()⟩).bounds
        ⟨⟨0, 0⟩, ⟨300, 100⟩⟩) :=
  ⟨rfl, (square_middle_iff ⟨⟨⟨0, 0⟩, ⟨300, 100⟩⟩, fun _ => ()⟩ rfl).mpr
    (.inr (.inl ⟨by decide, rfl, .inl rfl⟩))⟩

end Avatars

end Grunt.Server
