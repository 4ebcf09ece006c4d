import CryptoOpal.Lib.DutyCycle

/-!
# Copying a Rectangle of a Picture

A picture has a plane of brightness and two planes of colour of half its size. A rectangle of one
picture is copied into a rectangle of another one, plane by plane. When the rectangles are not of
one size it is scaled, or cropped and the rest filled.

Which of the three row functions is taken depends on the widths alone. With equal widths the one
that is taken copies as many rows as the source has, or as the destination has when it is cropped,
whichever of them has more. And what is filled above and below a centred picture has two rows for
each colour row, so that one row too many is filled when its height is odd.

The model lists what is touched, by the plane it is meant for.

## Main definitions

* `View`, `Area`: A rectangle of a picture, and of one of its planes.
* `growRows`, `shrinkRows`, `cropRows`: The row functions.
* `fillYUV420P`, `copyYUV420P`: The functions for a picture.
* `Safe`: The function ends, and touches nothing but the rectangles.

## Theorems

* `growRows_inside`, `shrinkRows_inside`, `cropRows_inside`: What the row functions touch.
* `fill_inside`: What is filled.
* `safe_iff`: When nothing else is touched.
-/

namespace CryptoOpal

namespace Codec

open Lib (dutyCycle Balance)

/-- The planes of a picture. -/
inductive Plane where
  | luma
  | cb
  | cr
  deriving DecidableEq

/-- A rectangle of a plane. -/
structure Area where
  base : Nat
  frameWidth : Nat
  x : Nat
  y : Nat
  width : Nat
  height : Nat
  deriving DecidableEq

/-- The first octet, with the product of unsigned ints. -/
def Area.start (a : Area) : Nat := a.base + a.y * a.frameWidth % 4294967296 + a.x

/-- Octets of the source, or of the destination, that are read or written. -/
inductive Touch where
  | source (plane : Plane) (off len : Nat)
  | destination (plane : Plane) (off len : Nat)
  deriving DecidableEq

section Rows

variable (p : Plane) (fuel : Nat)

/-- The pixels of a row in `GrowYUV420P`. -/
def growPixels (srcWidth dstWidth : Nat) : Nat → Nat → Nat → Nat → Option (List Touch)
  | 0, _, _, _ => some []
  | left + 1, srcPixel, dstPixel, repeatPixel =>
    match dutyCycle srcWidth dstWidth fuel repeatPixel with
    | none => none
    | some (times, repeatPixel') =>
      (growPixels srcWidth dstWidth left (srcPixel + 1) (dstPixel + times) repeatPixel').map fun l =>
        .source p srcPixel 1 :: .destination p dstPixel times :: l

/-- A row is copied to the rows behind it. -/
def repeatRows (dst : Area) (dstPtr times : Nat) : List Touch :=
  (List.range times).flatMap fun i =>
    [.destination p dstPtr dst.width,
      .destination p (dstPtr + (i + 1) * dst.frameWidth) dst.width]

/-- The rows of `GrowYUV420P`. -/
def growRows (src dst : Area) : Nat → Nat → Nat → Nat → Option (List Touch)
  | 0, _, _, _ => some []
  | left + 1, srcPtr, dstPtr, repeatRow =>
    match growPixels p fuel src.width dst.width src.width srcPtr dstPtr 0,
        dutyCycle src.height dst.height fuel repeatRow with
    | some pixels, some (times, repeatRow') =>
      (growRows src dst left (srcPtr + src.frameWidth) (dstPtr + times * dst.frameWidth)
        repeatRow').map fun l => pixels ++ repeatRows p dst dstPtr (times - 1) ++ l
    | _, _ => none

/-- The pixels of a row in `ShrinkYUV420P`. -/
def shrinkPixels (srcWidth dstWidth : Nat) : Nat → Nat → Nat → Nat → Option (List Touch)
  | 0, _, _, _ => some []
  | left + 1, srcPixel, dstPixel, repeatPixel =>
    match dutyCycle dstWidth srcWidth fuel repeatPixel with
    | none => none
    | some (times, repeatPixel') =>
      (shrinkPixels srcWidth dstWidth left (srcPixel + times) (dstPixel + 1)
        repeatPixel').map fun l => .source p srcPixel 1 :: .destination p dstPixel 1 :: l

/-- The rows of `ShrinkYUV420P`. -/
def shrinkRows (src dst : Area) : Nat → Nat → Nat → Nat → Option (List Touch)
  | 0, _, _, _ => some []
  | left + 1, srcPtr, dstPtr, repeatRow =>
    match shrinkPixels p fuel src.width dst.width dst.width srcPtr dstPtr 0,
        dutyCycle dst.height src.height fuel repeatRow with
    | some pixels, some (times, repeatRow') =>
      (shrinkRows src dst left (srcPtr + times * src.frameWidth) (dstPtr + dst.frameWidth)
        repeatRow').map fun l => pixels ++ l
    | _, _ => none

/-- `CropYUV420P`. -/
def cropRows (src dst : Area) : List Touch :=
  (List.range src.height).flatMap fun y =>
    [.source p (src.start + y * src.frameWidth) src.width,
      .destination p (dst.start + y * dst.frameWidth) src.width]

end Rows

/-- The row functions. -/
inductive RowFunction where
  | crop
  | grow
  | shrink
  deriving DecidableEq

/-- What a row function touches. -/
def RowFunction.apply (f : RowFunction) (p : Plane) (fuel : Nat) (src dst : Area) :
    Option (List Touch) :=
  match f with
  | .crop => some (cropRows p src dst)
  | .grow => growRows p fuel src dst src.height src.start dst.start 0
  | .shrink => shrinkRows p fuel src dst dst.height src.start dst.start 0

/-- A rectangle of a picture. -/
structure View where
  x : Nat
  y : Nat
  width : Nat
  height : Nat
  frameWidth : Nat
  frameHeight : Nat
  deriving DecidableEq

/-- The rectangle in one of the planes. -/
def View.area (v : View) : Plane → Area
  | .luma => ⟨0, v.frameWidth, v.x, v.y, v.width, v.height⟩
  | .cb => ⟨v.frameWidth * v.frameHeight, v.frameWidth / 2, v.x / 2, v.y / 2, v.width / 2,
      v.height / 2⟩
  | .cr => ⟨v.frameWidth * v.frameHeight + v.frameWidth / 2 * (v.frameHeight / 2),
      v.frameWidth / 2, v.x / 2, v.y / 2, v.width / 2, v.height / 2⟩

/-- `FillYUV420P`. -/
def fillYUV420P (x y width height : Nat) (dst : View) : List Touch :=
  if dst.frameWidth = 0 ∨ dst.frameHeight = 0 ∨ x + width > dst.frameWidth ∨
      y + height > dst.frameHeight then []
  else
    (List.range ((height + 1) / 2)).flatMap fun i =>
      [.destination .luma (y * dst.frameWidth + x / 2 * 2 + 2 * i * dst.frameWidth) width,
        .destination .luma (y * dst.frameWidth + x / 2 * 2 + (2 * i + 1) * dst.frameWidth) width,
        .destination .cb (dst.frameWidth * dst.frameHeight + (y * dst.frameWidth / 4 + x / 2) +
          i * (dst.frameWidth / 2)) (width / 2),
        .destination .cr (dst.frameWidth * dst.frameHeight +
          dst.frameWidth * dst.frameHeight / 4 + (y * dst.frameWidth / 4 + x / 2) +
          i * (dst.frameWidth / 2)) (width / 2)]

/-- The modes. -/
inductive ResizeMode where
  | scale
  | cropTopLeft
  | cropCentre
  deriving DecidableEq

/-- `ValidateDimensions`. -/
def validateDimensions (srcWidth srcHeight dstWidth dstHeight : Nat) : Bool :=
  if srcWidth = 0 ∨ dstWidth = 0 ∨ srcHeight = 0 ∨ dstHeight = 0 then false
  else if srcWidth % 2 = 1 ∨ dstWidth % 2 = 1 ∨ srcHeight % 2 = 1 ∨ dstHeight % 2 = 1 then false
  else decide (srcWidth ≤ dstWidth ∧ srcHeight ≤ dstHeight ∨
    srcWidth ≥ dstWidth ∧ srcHeight ≥ dstHeight)

/-- Both are the whole of pictures of one size. -/
def wholeFrames (src dst : View) : Bool :=
  decide (src.x = 0 ∧ src.y = 0 ∧ dst.x = 0 ∧ dst.y = 0 ∧ src.width = dst.width ∧
    src.height = dst.height ∧ src.frameWidth = dst.frameWidth ∧
    src.frameHeight = dst.frameHeight ∧ src.width = src.frameWidth ∧
    src.height = src.frameHeight)

/-- The other checks. -/
def accepts (src dst : View) : Bool :=
  validateDimensions src.width src.height dst.width dst.height &&
    decide (src.frameWidth ≠ 0 ∧ src.frameHeight ≠ 0 ∧ dst.frameWidth ≠ 0 ∧ dst.frameHeight ≠ 0 ∧
      src.x + src.width ≤ src.frameWidth ∧ src.y + src.height ≤ src.frameHeight ∧
      dst.x + dst.width ≤ dst.frameWidth ∧ dst.y + dst.height ≤ dst.frameHeight)

/-- The row function, the rectangles that it gets, and what is filled before. -/
structure Adjusted where
  rowFunction : RowFunction
  src : View
  dst : View
  filled : List Touch
  deriving DecidableEq

/-- The rectangle with this place and size. -/
def View.part (v : View) (x y width height : Nat) : View :=
  ⟨x, y, width, height, v.frameWidth, v.frameHeight⟩

/-- What is filled around a centred picture. -/
def fillAround (src dst : View) (deltaX deltaY : Nat) : List Touch :=
  fillYUV420P dst.x dst.y deltaX dst.height dst ++
    fillYUV420P (dst.x + deltaX + src.width) dst.y deltaX dst.height dst ++
    (if src.height < dst.height then
      fillYUV420P (dst.x + deltaX) dst.y src.width deltaY dst ++
        fillYUV420P (dst.x + deltaX) (dst.y + deltaY + src.height) src.width deltaY dst
    else [])

/-- What a mode makes of the rectangles. -/
def adjust (mode : ResizeMode) (src dst : View) : Adjusted :=
  match mode with
  | .scale =>
    if src.width > dst.width then ⟨.shrink, src, dst, []⟩
    else if src.width < dst.width then ⟨.grow, src, dst, []⟩
    else ⟨.crop, src, dst, []⟩
  | .cropTopLeft =>
    if src.width < dst.width then
      ⟨.crop, src, dst.part dst.x dst.y src.width src.height,
        fillYUV420P (dst.x + src.width) dst.y (dst.width - src.width) dst.height dst ++
          (if src.height < dst.height then
            fillYUV420P dst.x (dst.y + src.height) dst.width (dst.height - src.height) dst
          else [])⟩
    else ⟨.crop, src.part src.x src.y dst.width dst.height, dst, []⟩
  | .cropCentre =>
    if src.width < dst.width then
      ⟨.crop, src,
        dst.part (dst.x + (dst.width - src.width) / 2) (dst.y + (dst.height - src.height) / 2)
          src.width src.height,
        fillAround src dst ((dst.width - src.width) / 2) ((dst.height - src.height) / 2)⟩
    else
      -- the difference of the heights is one of unsigned ints
      ⟨.crop, src.part (src.x + (src.width - dst.width) / 2)
          ((src.y + (src.height + 4294967296 - dst.height) % 4294967296 / 2) % 4294967296)
          dst.width dst.height, dst, []⟩

/-- The row function on the three planes. -/
def copyPlanes (f : RowFunction) (fuel : Nat) (src dst : View) : Option (List Touch) :=
  match f.apply .luma fuel (src.area .luma) (dst.area .luma),
      f.apply .cb fuel (src.area .cb) (dst.area .cb),
      f.apply .cr fuel (src.area .cr) (dst.area .cr) with
  | some luma, some cb, some cr => some (luma ++ cb ++ cr)
  | _, _, _ => none

/-- A plane that is copied as a whole. -/
def wholePlane (p : Plane) (off len : Nat) : List Touch :=
  [.source p off len, .destination p off len]

/-- `CopyYUV420P`: what it returns, and what is touched. -/
def copyYUV420P (fuel : Nat) (mode : ResizeMode) (src dst : View) : Option (Bool × List Touch) :=
  if wholeFrames src dst then
    -- one `memcpy` for all planes
    some (true, wholePlane .luma 0 (src.frameWidth * src.frameHeight) ++
      wholePlane .cb (src.frameWidth * src.frameHeight)
        (src.frameWidth / 2 * (src.frameHeight / 2)) ++
      wholePlane .cr (src.frameWidth * src.frameHeight +
        src.frameWidth / 2 * (src.frameHeight / 2)) (src.frameWidth / 2 * (src.frameHeight / 2)))
  else if accepts src dst then
    (copyPlanes (adjust mode src dst).rowFunction fuel (adjust mode src dst).src
      (adjust mode src dst).dst).map fun l => (true, (adjust mode src dst).filled ++ l)
  else some (false, [])

/-- The octets are in this rectangle of the plane. -/
def Area.Covers (a : Area) (off len : Nat) : Prop :=
  ∀ o, off ≤ o → o < off + len → ∃ row < a.height, ∃ col < a.width,
    o = a.base + (a.y + row) * a.frameWidth + (a.x + col)

/-- What is touched is in the rectangle of the plane it is meant for. -/
def Touch.Inside (src dst : View) : Touch → Prop
  | .source p off len => (src.area p).Covers off len
  | .destination p off len => (dst.area p).Covers off len

/-- The function ends, and nothing but the rectangles is touched. -/
def Safe (mode : ResizeMode) (src dst : View) : Prop :=
  ∃ fuel result, copyYUV420P fuel mode src dst = some result ∧
    ∀ t ∈ result.2, t.Inside src dst

/-- The rectangle is in its plane, and its first octet is not beyond an int. -/
structure Area.Fits (a : Area) : Prop where
  inWidth : a.x + a.width ≤ a.frameWidth
  small : a.y * a.frameWidth < 4294967296

section Covering

variable {a b : Area} {row col len off len' : Nat}

theorem start_eq (h : a.Fits) : a.start = a.base + a.y * a.frameWidth + a.x := by
  rw [Area.start, Nat.mod_eq_of_lt h.small]

/-- Part of a row. -/
theorem covers_row (h : a.Fits) (hrow : row < a.height) (hcol : col + len ≤ a.width) :
    a.Covers (a.start + row * a.frameWidth + col) len := by
  intro o hlow hhigh
  rw [start_eq h] at hlow hhigh
  refine ⟨row, hrow, o - (a.base + a.y * a.frameWidth + a.x + row * a.frameWidth), by omega, ?_⟩
  rw [Nat.add_mul]
  omega

/-- Part of a row, by its place in the plane. -/
theorem covers_place (hrow : a.y ≤ row ∧ row < a.y + a.height)
    (hcol : a.x ≤ col ∧ col + len ≤ a.x + a.width) :
    a.Covers (a.base + row * a.frameWidth + col) len := by
  intro o hlow hhigh
  refine ⟨row - a.y, by omega, o - (a.base + row * a.frameWidth + a.x), by omega, ?_⟩
  rw [Nat.add_sub_cancel' hrow.1]
  omega

theorem covers_sub (h : a.Covers off len) {off' : Nat} (hlow : off ≤ off')
    (hhigh : off' + len' ≤ off + len) : a.Covers off' len' :=
  fun o ho ho' => h o (Nat.le_trans hlow ho) (by omega)

/-- The octets of a smaller rectangle are in a larger one. -/
theorem covers_mono (hbase : b.base = a.base) (hwidth : b.frameWidth = a.frameWidth)
    (hx : a.x ≤ b.x) (hx' : b.x + b.width ≤ a.x + a.width) (hy : a.y ≤ b.y)
    (hy' : b.y + b.height ≤ a.y + a.height) (h : b.Covers off len) : a.Covers off len := by
  intro o ho ho'
  obtain ⟨row, hrow, col, hcol, heq⟩ := h o ho ho'
  refine ⟨b.y - a.y + row, by omega, b.x - a.x + col, by omega, ?_⟩
  rw [heq, hbase, hwidth, show a.y + (b.y - a.y + row) = b.y + row by omega,
    show a.x + (b.x - a.x + col) = b.x + col by omega]

theorem row_unique {n r r' c c' : Nat} (hc : c < n) (hc' : c' < n)
    (h : r * n + c = r' * n + c') : r = r' := by
  have hn : 0 < n := Nat.zero_lt_of_lt hc
  have hr : (r * n + c) / n = r := by
    rw [Nat.add_comm, Nat.add_mul_div_right _ _ hn, Nat.div_eq_of_lt hc, Nat.zero_add]
  have hr' : (r' * n + c') / n = r' := by
    rw [Nat.add_comm, Nat.add_mul_div_right _ _ hn, Nat.div_eq_of_lt hc', Nat.zero_add]
  rw [← hr, h, hr']

/-- A row that is not one of the rectangle's is not covered. -/
theorem not_covers_row (h : a.Fits) (hcol : col < a.frameWidth)
    (hrow : row < a.y ∨ a.y + a.height ≤ row) (hlen : 0 < len) :
    ¬ a.Covers (a.base + row * a.frameWidth + col) len := by
  intro hcovers
  obtain ⟨row', hrow', col', hcol', heq⟩ := hcovers _ (Nat.le_refl _) (Nat.lt_add_of_pos_right hlen)
  have hin := h.inWidth
  have hunique := @row_unique a.frameWidth row (a.y + row') col (a.x + col') hcol (by omega)
    (by omega)
  omega

end Covering

section RowFunctions

variable {p : Plane} {fuel : Nat} {src dst : Area}

/-- What is touched for a row of each picture. -/
def InRow (p : Plane) (srcPtr srcWidth dstPtr dstWidth : Nat) (t : Touch) : Prop :=
  (∃ off len, t = .source p off len ∧ srcPtr ≤ off ∧ off + len ≤ srcPtr + srcWidth) ∨
    ∃ off len, t = .destination p off len ∧ dstPtr ≤ off ∧ off + len ≤ dstPtr + dstWidth

/-- What is touched is in one of the two rectangles of a plane. -/
def InAreas (p : Plane) (src dst : Area) (t : Touch) : Prop :=
  (∃ off len, t = .source p off len ∧ src.Covers off len) ∨
    ∃ off len, t = .destination p off len ∧ dst.Covers off len

theorem inAreas_of_inRow (hsrc : src.Fits) (hdst : dst.Fits) {row row' : Nat}
    (hrow : row < src.height) (hrow' : row' < dst.height) {t : Touch}
    (h : InRow p (src.start + row * src.frameWidth) src.width
      (dst.start + row' * dst.frameWidth) dst.width t) : InAreas p src dst t := by
  have hcovers := covers_row hsrc hrow (show 0 + src.width ≤ src.width by omega)
  have hcovers' := covers_row hdst hrow' (show 0 + dst.width ≤ dst.width by omega)
  rcases h with ⟨off, len, rfl, hlow, hhigh⟩ | ⟨off, len, rfl, hlow, hhigh⟩
  · exact .inl ⟨off, len, rfl, covers_sub hcovers hlow hhigh⟩
  · exact .inr ⟨off, len, rfl, covers_sub hcovers' hlow hhigh⟩

/-- The pixels of a row: each pixel of the source goes to the next places of the destination. -/
theorem growPixels_inRow {srcWidth dstWidth : Nat} (hle : srcWidth ≤ dstWidth)
    (hfuel : dstWidth ≤ fuel) (srcPtr dstPtr : Nat) {left n k acc : Nat}
    (hbalance : Balance srcWidth dstWidth n k acc) (hleft : n + left = srcWidth) :
    ∃ l, growPixels p fuel srcWidth dstWidth left (srcPtr + n) (dstPtr + k) acc = some l ∧
      ∀ t ∈ l, InRow p srcPtr srcWidth dstPtr dstWidth t := by
  induction left generalizing n k acc with
  | zero => exact ⟨[], rfl, fun t h => absurd h List.not_mem_nil⟩
  | succ left ih =>
      obtain ⟨times, acc', hcycle, -, hnext⟩ := Lib.balance_next hbalance hle hfuel
      obtain ⟨l, hl, hin⟩ := ih hnext (by omega)
      have hroom := Lib.balance_le hnext (by omega)
      rw [growPixels, hcycle]
      simp only
      rw [Nat.add_assoc, Nat.add_assoc, hl]
      refine ⟨_, rfl, fun t ht => ?_⟩
      rcases List.mem_cons.mp ht with rfl | ht
      · exact .inl ⟨_, _, rfl, Nat.le_add_right _ _, by omega⟩
      · rcases List.mem_cons.mp ht with rfl | ht
        · exact .inr ⟨_, _, rfl, Nat.le_add_right _ _, by omega⟩
        · exact hin t ht

theorem shrinkPixels_inRow {srcWidth dstWidth : Nat} (hle : dstWidth ≤ srcWidth)
    (hfuel : srcWidth ≤ fuel) (srcPtr dstPtr : Nat) {left n k acc : Nat}
    (hbalance : Balance dstWidth srcWidth n k acc) (hleft : n + left = dstWidth) :
    ∃ l, shrinkPixels p fuel srcWidth dstWidth left (srcPtr + k) (dstPtr + n) acc = some l ∧
      ∀ t ∈ l, InRow p srcPtr srcWidth dstPtr dstWidth t := by
  induction left generalizing n k acc with
  | zero => exact ⟨[], rfl, fun t h => absurd h List.not_mem_nil⟩
  | succ left ih =>
      obtain ⟨times, acc', hcycle, -, hnext⟩ := Lib.balance_next hbalance hle hfuel
      obtain ⟨l, hl, hin⟩ := ih hnext (by omega)
      have hroom := Lib.balance_lt hbalance (by omega) hle
      rw [shrinkPixels, hcycle]
      simp only
      rw [Nat.add_assoc, Nat.add_assoc, hl]
      refine ⟨_, rfl, fun t ht => ?_⟩
      rcases List.mem_cons.mp ht with rfl | ht
      · exact .inl ⟨_, _, rfl, Nat.le_add_right _ _, by omega⟩
      · rcases List.mem_cons.mp ht with rfl | ht
        · exact .inr ⟨_, _, rfl, Nat.le_add_right _ _, by omega⟩
        · exact hin t ht

/-- The rows of a picture that is made larger. -/
theorem growRows_inside (hsrc : src.Fits) (hdst : dst.Fits) (hwidth : 0 < src.width)
    (hwidth' : src.width ≤ dst.width) (hheight : src.height ≤ dst.height)
    (hfuel : dst.width ≤ fuel) (hfuel' : dst.height ≤ fuel) {left n k acc : Nat}
    (hbalance : Balance src.height dst.height n k acc) (hleft : n + left = src.height) :
    ∃ l, growRows p fuel src dst left (src.start + n * src.frameWidth)
        (dst.start + k * dst.frameWidth) acc = some l ∧ ∀ t ∈ l, InAreas p src dst t := by
  induction left generalizing n k acc with
  | zero => exact ⟨[], rfl, fun t h => absurd h List.not_mem_nil⟩
  | succ left ih =>
      obtain ⟨times, acc', hcycle, hpos, hnext⟩ := Lib.balance_next hbalance hheight hfuel'
      obtain ⟨l, hl, hin⟩ := ih hnext (by omega)
      have hroom := Lib.balance_le hnext (by omega)
      obtain ⟨pixels, hpixels, hinRow⟩ := @growPixels_inRow p fuel _ _ hwidth' hfuel
        (src.start + n * src.frameWidth) (dst.start + k * dst.frameWidth) _ _ _ _
        (Lib.balance_zero hwidth) (Nat.zero_add _)
      rw [Nat.add_zero, Nat.add_zero] at hpixels
      rw [Nat.succ_mul, Nat.add_mul, ← Nat.add_assoc, ← Nat.add_assoc] at hl
      rw [growRows, hpixels, hcycle]
      simp only
      rw [hl]
      refine ⟨_, rfl, fun t ht => ?_⟩
      rcases List.mem_append.mp ht with ht | ht
      · rcases List.mem_append.mp ht with ht | ht
        · exact inAreas_of_inRow hsrc hdst (by omega) (by omega) (hinRow t ht)
        · -- the row is copied to rows that are its own
          rcases List.mem_flatMap.mp ht with ⟨i, hi, ht⟩
          rw [List.mem_range] at hi
          have hrow (j : Nat) (hj : j < times) :
              dst.Covers (dst.start + k * dst.frameWidth + j * dst.frameWidth) dst.width := by
            have hcovers := covers_row hdst (show k + j < dst.height by omega)
              (show 0 + dst.width ≤ dst.width by omega)
            rwa [Nat.add_mul, ← Nat.add_assoc, Nat.add_zero] at hcovers
          rcases List.mem_cons.mp ht with rfl | ht
          · have hfirst := hrow 0 hpos
            rw [Nat.zero_mul, Nat.add_zero] at hfirst
            exact .inr ⟨_, _, rfl, hfirst⟩
          · rw [List.mem_singleton.mp ht]
            exact .inr ⟨_, _, rfl, hrow (i + 1) (by omega)⟩
      · exact hin t ht

/-- The rows of a picture that is made smaller. -/
theorem shrinkRows_inside (hsrc : src.Fits) (hdst : dst.Fits) (hwidth : 0 < dst.width)
    (hwidth' : dst.width ≤ src.width) (hheight : dst.height ≤ src.height)
    (hfuel : src.width ≤ fuel) (hfuel' : src.height ≤ fuel) {left n k acc : Nat}
    (hbalance : Balance dst.height src.height n k acc) (hleft : n + left = dst.height) :
    ∃ l, shrinkRows p fuel src dst left (src.start + k * src.frameWidth)
        (dst.start + n * dst.frameWidth) acc = some l ∧ ∀ t ∈ l, InAreas p src dst t := by
  induction left generalizing n k acc with
  | zero => exact ⟨[], rfl, fun t h => absurd h List.not_mem_nil⟩
  | succ left ih =>
      obtain ⟨times, acc', hcycle, -, hnext⟩ := Lib.balance_next hbalance hheight hfuel'
      obtain ⟨l, hl, hin⟩ := ih hnext (by omega)
      have hroom := Lib.balance_lt hbalance (by omega) hheight
      obtain ⟨pixels, hpixels, hinRow⟩ := @shrinkPixels_inRow p fuel _ _ hwidth' hfuel
        (src.start + k * src.frameWidth) (dst.start + n * dst.frameWidth) _ _ _ _
        (Lib.balance_zero hwidth) (Nat.zero_add _)
      rw [Nat.add_zero, Nat.add_zero] at hpixels
      rw [Nat.succ_mul, Nat.add_mul, ← Nat.add_assoc, ← Nat.add_assoc] at hl
      rw [shrinkRows, hpixels, hcycle]
      simp only
      rw [hl]
      refine ⟨_, rfl, fun t ht => ?_⟩
      rcases List.mem_append.mp ht with ht | ht
      · exact inAreas_of_inRow hsrc hdst (by omega) (by omega) (hinRow t ht)
      · exact hin t ht

/-- A picture that is cropped touches rectangles of the size of the source. -/
theorem cropRows_inside (hsrc : src.Fits) (hdst : dst.Fits) (hwidth : src.width ≤ dst.width)
    (hheight : src.height ≤ dst.height) : ∀ t ∈ cropRows p src dst, InAreas p src dst t := by
  intro t ht
  rcases List.mem_flatMap.mp ht with ⟨row, hrow, ht⟩
  rw [List.mem_range] at hrow
  refine inAreas_of_inRow hsrc hdst hrow (Nat.lt_of_lt_of_le hrow hheight) ?_
  rcases List.mem_cons.mp ht with rfl | ht
  · exact .inl ⟨_, _, rfl, Nat.le_refl _, Nat.le_refl _⟩
  · rw [List.mem_singleton.mp ht]
    exact .inr ⟨_, _, rfl, Nat.le_refl _, Nat.add_le_add_left hwidth _⟩

end RowFunctions

/-- A rectangle of even place and size in a picture of even size, below 2^15. -/
structure Window where
  view : View
  evenPlace : view.x % 2 = 0 ∧ view.y % 2 = 0
  evenSize : view.width % 2 = 0 ∧ view.height % 2 = 0
  evenFrame : view.frameWidth % 2 = 0 ∧ view.frameHeight % 2 = 0
  small : view.frameWidth < 32768 ∧ view.frameHeight < 32768

/-- The rectangle is in its picture. -/
structure View.InFrame (v : View) : Prop where
  inWidth : v.x + v.width ≤ v.frameWidth
  inHeight : v.y + v.height ≤ v.frameHeight
  smallWidth : v.frameWidth < 32768
  smallHeight : v.frameHeight < 32768

/-- A rectangle is part of one of even place. -/
structure View.Within (part whole : View) : Prop where
  frameWidth : part.frameWidth = whole.frameWidth
  frameHeight : part.frameHeight = whole.frameHeight
  left : whole.x ≤ part.x
  right : part.x + part.width ≤ whole.x + whole.width
  top : whole.y ≤ part.y
  bottom : part.y + part.height ≤ whole.y + whole.height
  even : whole.x % 2 = 0 ∧ whole.y % 2 = 0

section Views

variable {v whole src dst src' dst' : View} {p : Plane} {off len : Nat} {t : Touch}

theorem area_fits (h : v.InFrame) (p : Plane) : (v.area p).Fits := by
  have hx := h.inWidth
  have hy := h.inHeight
  have hwidth := h.smallWidth
  have hheight := h.smallHeight
  have hproduct : v.y * v.frameWidth ≤ 32767 * 32767 :=
    Nat.mul_le_mul (by omega) (by omega)
  have hhalf : v.y / 2 * (v.frameWidth / 2) ≤ 32767 * 32767 :=
    Nat.mul_le_mul (by omega) (by omega)
  cases p with
  | luma => exact ⟨hx, Nat.lt_of_le_of_lt hproduct (by omega)⟩
  | cb =>
      refine ⟨?_, Nat.lt_of_le_of_lt hhalf (by omega)⟩
      simp only [View.area]
      omega
  | cr =>
      refine ⟨?_, Nat.lt_of_le_of_lt hhalf (by omega)⟩
      simp only [View.area]
      omega

/-- In each plane the part is in the whole. -/
theorem covers_within (h : v.Within whole) (hcovers : (v.area p).Covers off len) :
    (whole.area p).Covers off len := by
  obtain ⟨hframe, hframe', hleft, hright, htop, hbottom, heven, heven'⟩ := h
  cases p with
  | luma => exact covers_mono (b := v.area .luma) rfl hframe hleft hright htop hbottom hcovers
  | cb =>
      refine covers_mono ?_ ?_ ?_ ?_ ?_ ?_ hcovers <;> simp only [View.area, hframe, hframe'] <;> omega
  | cr =>
      refine covers_mono ?_ ?_ ?_ ?_ ?_ ?_ hcovers <;> simp only [View.area, hframe, hframe'] <;> omega

theorem inside_of_inAreas (hsrc : src'.Within src) (hdst : dst'.Within dst)
    (h : InAreas p (src'.area p) (dst'.area p) t) : t.Inside src dst := by
  rcases h with ⟨off, len, rfl, hcovers⟩ | ⟨off, len, rfl, hcovers⟩
  · exact covers_within hsrc hcovers
  · exact covers_within hdst hcovers

/-- A row function that touches nothing but the rectangles of each plane. -/
theorem copyPlanes_inside {f : RowFunction} {fuel : Nat} (hsrc : src'.Within src)
    (hdst : dst'.Within dst)
    (h : ∀ p, ∃ l, f.apply p fuel (src'.area p) (dst'.area p) = some l ∧
      ∀ t ∈ l, InAreas p (src'.area p) (dst'.area p) t) :
    ∃ l, copyPlanes f fuel src' dst' = some l ∧ ∀ t ∈ l, t.Inside src dst := by
  obtain ⟨luma, hluma, hinLuma⟩ := h .luma
  obtain ⟨cb, hcb, hinCb⟩ := h .cb
  obtain ⟨cr, hcr, hinCr⟩ := h .cr
  rw [copyPlanes, hluma, hcb, hcr]
  refine ⟨_, rfl, fun t ht => ?_⟩
  rcases List.mem_append.mp ht with ht | ht
  · rcases List.mem_append.mp ht with ht | ht
    · exact inside_of_inAreas hsrc hdst (hinLuma t ht)
    · exact inside_of_inAreas hsrc hdst (hinCb t ht)
  · exact inside_of_inAreas hsrc hdst (hinCr t ht)

theorem area_le (hwidth : src.width ≤ dst.width) (hheight : src.height ≤ dst.height) (p : Plane) :
    (src.area p).width ≤ (dst.area p).width ∧ (src.area p).height ≤ (dst.area p).height := by
  cases p
  · exact ⟨hwidth, hheight⟩
  · exact ⟨Nat.div_le_div_right hwidth, Nat.div_le_div_right hheight⟩
  · exact ⟨Nat.div_le_div_right hwidth, Nat.div_le_div_right hheight⟩

theorem area_pos (hwidth : 2 ≤ v.width) (hheight : 2 ≤ v.height) (p : Plane) :
    0 < (v.area p).width ∧ 0 < (v.area p).height := by
  cases p
  · exact ⟨Nat.lt_of_lt_of_le Nat.zero_lt_two hwidth, Nat.lt_of_lt_of_le Nat.zero_lt_two hheight⟩
  · exact ⟨Nat.div_pos hwidth Nat.zero_lt_two, Nat.div_pos hheight Nat.zero_lt_two⟩
  · exact ⟨Nat.div_pos hwidth Nat.zero_lt_two, Nat.div_pos hheight Nat.zero_lt_two⟩

theorem area_small (h : v.InFrame) (p : Plane) :
    (v.area p).width ≤ 32768 ∧ (v.area p).height ≤ 32768 := by
  obtain ⟨hx, hy, hwidth, hheight⟩ := h
  cases p <;> simp only [View.area] <;> omega

theorem copyPlanes_crop (fuel : Nat) (hsrc : src'.Within src) (hdst : dst'.Within dst)
    (hin : src'.InFrame) (hin' : dst'.InFrame) (hwidth : src'.width ≤ dst'.width)
    (hheight : src'.height ≤ dst'.height) :
    ∃ l, copyPlanes .crop fuel src' dst' = some l ∧ ∀ t ∈ l, t.Inside src dst :=
  copyPlanes_inside hsrc hdst fun p => ⟨_, rfl, cropRows_inside (area_fits hin p)
    (area_fits hin' p) (area_le hwidth hheight p).1 (area_le hwidth hheight p).2⟩

theorem copyPlanes_grow (hsrc : src'.Within src) (hdst : dst'.Within dst) (hin : src'.InFrame)
    (hin' : dst'.InFrame) (hsize : 2 ≤ src'.width ∧ 2 ≤ src'.height)
    (hwidth : src'.width ≤ dst'.width) (hheight : src'.height ≤ dst'.height) :
    ∃ l, copyPlanes .grow 32768 src' dst' = some l ∧ ∀ t ∈ l, t.Inside src dst := by
  refine copyPlanes_inside hsrc hdst fun p => ?_
  have hpos := area_pos hsize.1 hsize.2 p
  have hle := area_le hwidth hheight p
  have hsmall := area_small hin' p
  obtain ⟨l, hl, hinside⟩ := @growRows_inside p 32768 _ _ (area_fits hin p) (area_fits hin' p)
    hpos.1 hle.1 hle.2 hsmall.1 hsmall.2 _ 0 0 0 (Lib.balance_zero hpos.2) (Nat.zero_add _)
  rw [Nat.zero_mul, Nat.zero_mul] at hl
  exact ⟨l, hl, hinside⟩

theorem copyPlanes_shrink (hsrc : src'.Within src) (hdst : dst'.Within dst) (hin : src'.InFrame)
    (hin' : dst'.InFrame) (hsize : 2 ≤ dst'.width ∧ 2 ≤ dst'.height)
    (hwidth : dst'.width ≤ src'.width) (hheight : dst'.height ≤ src'.height) :
    ∃ l, copyPlanes .shrink 32768 src' dst' = some l ∧ ∀ t ∈ l, t.Inside src dst := by
  refine copyPlanes_inside hsrc hdst fun p => ?_
  have hpos := area_pos hsize.1 hsize.2 p
  have hle := area_le hwidth hheight p
  have hsmall := area_small hin p
  obtain ⟨l, hl, hinside⟩ := @shrinkRows_inside p 32768 _ _ (area_fits hin p) (area_fits hin' p)
    hpos.1 hle.1 hle.2 hsmall.1 hsmall.2 _ 0 0 0 (Lib.balance_zero hpos.2) (Nat.zero_add _)
  rw [Nat.zero_mul, Nat.zero_mul] at hl
  exact ⟨l, hl, hinside⟩

end Views

section Filling

variable {src : View} {dst : Window} {x y width height : Nat}

theorem quarter_rows {y n : Nat} (hy : y % 2 = 0) (hn : n % 2 = 0) :
    y * n / 4 = y / 2 * (n / 2) := by
  rcases Nat.dvd_of_mod_eq_zero hy with ⟨m, rfl⟩
  rcases Nat.dvd_of_mod_eq_zero hn with ⟨k, rfl⟩
  rw [Nat.mul_mul_mul_comm, Nat.mul_div_cancel_left _ (Nat.succ_pos _),
    Nat.mul_div_cancel_left _ Nat.zero_lt_two, Nat.mul_div_cancel_left _ Nat.zero_lt_two]

/-- What is filled is in the rectangle, when it begins in an even row and has an even number of
them. -/
theorem fill_inside (hleft : dst.view.x ≤ x / 2 * 2)
    (hright : x / 2 * 2 + width ≤ dst.view.x + dst.view.width) (htop : dst.view.y ≤ y)
    (hbottom : y + height ≤ dst.view.y + dst.view.height) (hy : y % 2 = 0)
    (hheight : height % 2 = 0) :
    ∀ t ∈ fillYUV420P x y width height dst.view, t.Inside src dst.view := by
  intro t ht
  rw [fillYUV420P] at ht
  split at ht
  · exact absurd ht List.not_mem_nil
  rcases List.mem_flatMap.mp ht with ⟨i, hi, ht⟩
  rw [List.mem_range] at hi
  obtain ⟨hx0, hy0⟩ := dst.evenPlace
  obtain ⟨hw0, hh0⟩ := dst.evenSize
  have hquarter := quarter_rows hy dst.evenFrame.1
  have hquarter' := @quarter_rows dst.view.frameHeight _ dst.evenFrame.2 dst.evenFrame.1
  have hluma (row : Nat) (hrow : row < height) : (dst.view.area .luma).Covers
      (y * dst.view.frameWidth + x / 2 * 2 + row * dst.view.frameWidth) width := by
    have hcovers := @covers_place (dst.view.area .luma) (y + row) (x / 2 * 2) width
      (by simp only [View.area]; omega) (by simp only [View.area]; omega)
    simp only [View.area, Nat.zero_add] at hcovers ⊢
    rwa [Nat.add_mul, Nat.add_right_comm] at hcovers
  have hchroma (base : Nat) : (⟨base, dst.view.frameWidth / 2, dst.view.x / 2, dst.view.y / 2,
      dst.view.width / 2, dst.view.height / 2⟩ : Area).Covers
        (base + (y * dst.view.frameWidth / 4 + x / 2) + i * (dst.view.frameWidth / 2))
        (width / 2) := by
    have hcovers := @covers_place ⟨base, dst.view.frameWidth / 2, dst.view.x / 2, dst.view.y / 2,
      dst.view.width / 2, dst.view.height / 2⟩ (y / 2 + i) (x / 2) (width / 2)
      (by simp only; omega) (by simp only; omega)
    simp only at hcovers
    rw [hquarter]
    rwa [Nat.add_mul, ← Nat.add_assoc, Nat.add_right_comm, Nat.add_assoc base] at hcovers
  rcases List.mem_cons.mp ht with rfl | ht
  · exact hluma (2 * i) (by omega)
  rcases List.mem_cons.mp ht with rfl | ht
  · exact hluma (2 * i + 1) (by omega)
  rcases List.mem_cons.mp ht with rfl | ht
  · exact hchroma _
  · rw [List.mem_singleton.mp ht, Nat.mul_comm dst.view.frameWidth dst.view.frameHeight, hquarter',
      Nat.mul_comm (dst.view.frameHeight / 2)]
    have hcr := hchroma (dst.view.frameWidth * dst.view.frameHeight +
      dst.view.frameWidth / 2 * (dst.view.frameHeight / 2))
    rw [Nat.mul_comm dst.view.frameHeight dst.view.frameWidth]
    exact hcr

theorem mem_fill {dst : View} (hframe : 0 < dst.frameWidth ∧ 0 < dst.frameHeight)
    (hx : x + width ≤ dst.frameWidth) (hy : y + height ≤ dst.frameHeight) {i : Nat}
    (hi : i < (height + 1) / 2) :
    .destination .luma (y * dst.frameWidth + x / 2 * 2 + (2 * i + 1) * dst.frameWidth) width ∈
      fillYUV420P x y width height dst := by
  rw [fillYUV420P, if_neg (by omega)]
  exact List.mem_flatMap.mpr ⟨i, List.mem_range.mpr hi, List.mem_cons_of_mem _ List.mem_cons_self⟩

end Filling

section Copying

variable {mode : ResizeMode} {src dst : Window}

/-- The sizes of two rectangles that are accepted. -/
structure Sized (src dst : View) : Prop where
  source : 2 ≤ src.width ∧ 2 ≤ src.height
  destination : 2 ≤ dst.width ∧ 2 ≤ dst.height
  oneWay : src.width ≤ dst.width ∧ src.height ≤ dst.height ∨
    dst.width ≤ src.width ∧ dst.height ≤ src.height

theorem of_accepts (h : accepts src.view dst.view = true) :
    src.view.InFrame ∧ dst.view.InFrame ∧ Sized src.view dst.view := by
  rw [accepts, Bool.and_eq_true, decide_eq_true_iff, validateDimensions] at h
  obtain ⟨hsizes, -, -, -, -, hx, hy, hx', hy'⟩ := h
  split at hsizes
  next => exact absurd hsizes Bool.false_ne_true
  next hzero =>
    split at hsizes
    next => exact absurd hsizes Bool.false_ne_true
    next hodd =>
      have honeWay := of_decide_eq_true hsizes
      exact ⟨⟨hx, hy, src.small.1, src.small.2⟩, ⟨hx', hy', dst.small.1, dst.small.2⟩,
        ⟨by omega, by omega⟩, ⟨by omega, by omega⟩, honeWay⟩

theorem within_self (v : Window) : v.view.Within v.view :=
  ⟨rfl, rfl, Nat.le_refl _, Nat.le_refl _, Nat.le_refl _, Nat.le_refl _, v.evenPlace⟩

theorem within_part (v : Window) {x y width height : Nat} (hx : v.view.x ≤ x)
    (hx' : x + width ≤ v.view.x + v.view.width) (hy : v.view.y ≤ y)
    (hy' : y + height ≤ v.view.y + v.view.height) :
    (v.view.part x y width height).Within v.view :=
  ⟨rfl, rfl, hx, hx', hy, hy', v.evenPlace⟩

theorem inFrame_of_within {part whole : View} (h : part.Within whole) (hin : whole.InFrame) :
    part.InFrame := by
  refine ⟨?_, ?_, h.frameWidth ▸ hin.smallWidth, h.frameHeight ▸ hin.smallHeight⟩
  · rw [h.frameWidth]
    exact Nat.le_trans h.right hin.inWidth
  · rw [h.frameHeight]
    exact Nat.le_trans h.bottom hin.inHeight

/-- The heights go with the row function that the widths have chosen, and what is filled above and
below has an even height. -/
def HeightsFit (mode : ResizeMode) (src dst : View) : Prop :=
  match mode with
  | .scale => src.width = dst.width → src.height ≤ dst.height
  | .cropTopLeft => src.width = dst.width → dst.height ≤ src.height
  | .cropCentre => (src.width = dst.width → dst.height ≤ src.height) ∧
      (src.width < dst.width → src.height < dst.height → (dst.height - src.height) % 4 = 0)

/-- The row of a centred picture, when the source is not lower than the destination. -/
theorem centre_row {y a b : Nat} (hle : b ≤ a) (hsmall : y + a < 32768) :
    (y + (a + 4294967296 - b) % 4294967296 / 2) % 4294967296 = y + (a - b) / 2 := by
  omega

/-- The row when the source is lower. -/
theorem centre_row_wrapped {y a b : Nat} (hlt : a < b) (ha : a % 2 = 0) (hb : b % 2 = 0)
    (hb' : b < 32768) (hy : y < 32768) :
    (y + (a + 4294967296 - b) % 4294967296 / 2) % 4294967296 =
      y + 2147483648 - (b - a) / 2 := by
  omega

/-- The larger of two sizes with half of the difference in front. -/
theorem centre_le {x a b : Nat} (h : a ≤ b) :
    x ≤ x + (b - a) / 2 ∧ x + (b - a) / 2 + a ≤ x + b := by
  omega

/-- What a mode makes of the rectangles is copied inside them. -/
theorem copyPlanes_adjust (h : accepts src.view dst.view = true)
    (hfit : HeightsFit mode src.view dst.view) :
    ∃ l, copyPlanes (adjust mode src.view dst.view).rowFunction 32768
        (adjust mode src.view dst.view).src (adjust mode src.view dst.view).dst = some l ∧
      ∀ t ∈ l, t.Inside src.view dst.view := by
  obtain ⟨hin, hin', hsize, hsize', honeWay⟩ := of_accepts h
  have hself := within_self src
  have hself' := within_self dst
  cases mode with
  | scale =>
      rw [HeightsFit] at hfit
      rw [adjust]
      split
      next hmore =>
        have hheight : dst.view.height ≤ src.view.height := by omega
        exact copyPlanes_shrink hself hself' hin hin' hsize' (Nat.le_of_lt hmore) hheight
      next hmore =>
        split
        next hless =>
          have hheight : src.view.height ≤ dst.view.height := by omega
          exact copyPlanes_grow hself hself' hin hin' hsize (Nat.le_of_lt hless) hheight
        next hless =>
          have hequal : src.view.width = dst.view.width := by omega
          exact copyPlanes_crop _ hself hself' hin hin' (Nat.le_of_eq hequal) (hfit hequal)
  | cropTopLeft =>
      rw [HeightsFit] at hfit
      rw [adjust]
      split
      next hless =>
        have hheight : src.view.height ≤ dst.view.height := by omega
        have hpart := @within_part dst dst.view.x dst.view.y src.view.width src.view.height
          (Nat.le_refl _) (Nat.add_le_add_left (Nat.le_of_lt hless) _) (Nat.le_refl _)
          (Nat.add_le_add_left hheight _)
        exact copyPlanes_crop _ hself hpart hin (inFrame_of_within hpart hin') (Nat.le_refl _)
          (Nat.le_refl _)
      next hmore =>
        have hwidth : dst.view.width ≤ src.view.width := Nat.le_of_not_lt hmore
        have hheight : dst.view.height ≤ src.view.height := by omega
        have hpart := @within_part src src.view.x src.view.y dst.view.width dst.view.height
          (Nat.le_refl _) (Nat.add_le_add_left hwidth _) (Nat.le_refl _)
          (Nat.add_le_add_left hheight _)
        exact copyPlanes_crop _ hpart hself' (inFrame_of_within hpart hin) hin' (Nat.le_refl _)
          (Nat.le_refl _)
  | cropCentre =>
      obtain ⟨hequal, -⟩ := hfit
      rw [adjust]
      split
      next hless =>
        have hheight : src.view.height ≤ dst.view.height := by omega
        have hx := @centre_le dst.view.x _ _ (Nat.le_of_lt hless)
        have hy := @centre_le dst.view.y _ _ hheight
        have hpart := within_part dst hx.1 hx.2 hy.1 hy.2
        exact copyPlanes_crop _ hself hpart hin (inFrame_of_within hpart hin') (Nat.le_refl _)
          (Nat.le_refl _)
      next hmore =>
        have hwidth : dst.view.width ≤ src.view.width := Nat.le_of_not_lt hmore
        have hheight : dst.view.height ≤ src.view.height := by omega
        -- the difference of the heights does not wrap
        rw [centre_row hheight (Nat.lt_of_le_of_lt hin.inHeight hin.smallHeight)]
        have hx := @centre_le src.view.x _ _ hwidth
        have hy := @centre_le src.view.y _ _ hheight
        have hpart := within_part src hx.1 hx.2 hy.1 hy.2
        exact copyPlanes_crop _ hpart hself' (inFrame_of_within hpart hin) hin' (Nat.le_refl _)
          (Nat.le_refl _)

/-- What a mode fills is inside the destination. -/
theorem filled_inside (h : accepts src.view dst.view = true)
    (hfit : HeightsFit mode src.view dst.view) :
    ∀ t ∈ (adjust mode src.view dst.view).filled, t.Inside src.view dst.view := by
  have hheights := (of_accepts h).2.2.oneWay
  obtain ⟨hx, hy⟩ := dst.evenPlace
  obtain ⟨hwidth, hheight⟩ := dst.evenSize
  obtain ⟨hwidth', hheight'⟩ := src.evenSize
  cases mode with
  | scale =>
      rw [adjust]
      split
      next => exact fun t ht => absurd ht List.not_mem_nil
      next => split <;> exact fun t ht => absurd ht List.not_mem_nil
  | cropTopLeft =>
      rw [adjust]
      split
      next hless =>
        have hle : src.view.height ≤ dst.view.height := by omega
        clear hheights hfit
        intro t ht
        rcases List.mem_append.mp ht with ht | ht
        · exact fill_inside (by omega) (by omega) (Nat.le_refl _) (Nat.le_refl _) hy hheight t ht
        · split at ht
          next => exact fill_inside (by omega) (by omega) (by omega) (by omega) (by omega)
                    (by omega) t ht
          next => exact absurd ht List.not_mem_nil
      next => exact fun t ht => absurd ht List.not_mem_nil
  | cropCentre =>
      obtain ⟨-, hquarter⟩ := hfit
      rw [adjust]
      split
      next hless =>
        have hle : src.view.height ≤ dst.view.height := by omega
        clear hheights
        intro t ht
        rw [fillAround] at ht
        rcases List.mem_append.mp ht with ht | ht
        · rcases List.mem_append.mp ht with ht | ht
          · exact fill_inside (by omega) (by omega) (Nat.le_refl _) (Nat.le_refl _) hy hheight t ht
          · exact fill_inside (by omega) (by omega) (Nat.le_refl _) (Nat.le_refl _) hy hheight t ht
        · split at ht
          next hbelow =>
            have heven := hquarter hless hbelow
            clear hquarter
            rcases List.mem_append.mp ht with ht | ht
            · exact fill_inside (by omega) (by omega) (by omega) (by omega) (by omega) (by omega)
                t ht
            · exact fill_inside (by omega) (by omega) (by omega) (by omega) (by omega) (by omega)
                t ht
          next => exact absurd ht List.not_mem_nil
      next => exact fun t ht => absurd ht List.not_mem_nil

/-- A plane that is all of a rectangle. -/
theorem covers_all {a : Area} (hx : a.x = 0) (hy : a.y = 0) (hwidth : a.width = a.frameWidth) :
    a.Covers a.base (a.frameWidth * a.height) := by
  intro o hlow hhigh
  rcases Nat.eq_zero_or_pos a.frameWidth with hzero | hpos
  · rw [hzero, Nat.zero_mul] at hhigh
    omega
  · refine ⟨(o - a.base) / a.frameWidth, ?_, (o - a.base) % a.frameWidth, ?_, ?_⟩
    · rw [Nat.div_lt_iff_lt_mul hpos, Nat.mul_comm a.height]
      omega
    · rw [hwidth]
      exact Nat.mod_lt _ hpos
    · have hdiv := Nat.div_add_mod' (o - a.base) a.frameWidth
      rw [hx, hy, Nat.zero_add, Nat.zero_add]
      omega

theorem area_all {v : View} (hx : v.x = 0) (hy : v.y = 0) (hwidth : v.width = v.frameWidth)
    (p : Plane) :
    (v.area p).x = 0 ∧ (v.area p).y = 0 ∧ (v.area p).width = (v.area p).frameWidth := by
  cases p <;> simp only [View.area, hx, hy, hwidth, Nat.zero_div, and_self]

theorem wholePlane_inside {src dst : View} (h : wholeFrames src dst = true) (p : Plane) {off len : Nat}
    (hoff : off = (src.area p).base) (hlen : len = (src.area p).frameWidth * (src.area p).height) :
    ∀ t ∈ wholePlane p off len, t.Inside src dst := by
  rw [wholeFrames, decide_eq_true_iff] at h
  obtain ⟨hx, hy, hx', hy', hwidth, hheight, hframe, hframe', hall, -⟩ := h
  have hsame : (src.area p).base = (dst.area p).base ∧
      (src.area p).frameWidth = (dst.area p).frameWidth ∧
      (src.area p).height = (dst.area p).height := by
    cases p <;> simp only [View.area, hheight, hframe, hframe', and_self]
  obtain ⟨hsx, hsy, hsw⟩ := area_all hx hy hall p
  obtain ⟨hdx, hdy, hdw⟩ := area_all hx' hy' (by omega : dst.width = dst.frameWidth) p
  intro t ht
  rcases List.mem_cons.mp ht with rfl | ht
  · rw [Touch.Inside, hoff, hlen]
    exact covers_all hsx hsy hsw
  · rw [List.mem_singleton.mp ht, Touch.Inside, hoff, hlen, hsame.1, hsame.2.1, hsame.2.2]
    exact covers_all hdx hdy hdw

theorem copied_whole {src dst : View} (h : wholeFrames src dst = true) (mode : ResizeMode) :
    Safe mode src dst := by
  have hcopied := wholePlane_inside h
  have hall := of_decide_eq_true h
  refine ⟨0, _, by rw [copyYUV420P, if_pos h], fun t ht => ?_⟩
  rcases List.mem_append.mp ht with ht | ht
  · rcases List.mem_append.mp ht with ht | ht
    · exact hcopied .luma rfl (by simp only [View.area]; rw [hall.2.2.2.2.2.2.2.2.2]) t ht
    · exact hcopied .cb rfl (by simp only [View.area]; rw [hall.2.2.2.2.2.2.2.2.2]) t ht
  · exact hcopied .cr rfl (by simp only [View.area]; rw [hall.2.2.2.2.2.2.2.2.2]) t ht

/-- What is filled, and what is copied of the plane of brightness when the rectangles are cropped,
is touched. -/
theorem inside_of_safe (hnot : wholeFrames src.view dst.view = false)
    (h : accepts src.view dst.view = true)
    (hcrop : (adjust mode src.view dst.view).rowFunction = .crop) {t : Touch}
    (ht : t ∈ (adjust mode src.view dst.view).filled ∨
      t ∈ cropRows .luma ((adjust mode src.view dst.view).src.area .luma)
        ((adjust mode src.view dst.view).dst.area .luma))
    (hsafe : Safe mode src.view dst.view) : t.Inside src.view dst.view := by
  obtain ⟨fuel, result, hresult, hin⟩ := hsafe
  rw [copyYUV420P, hnot, if_neg Bool.false_ne_true, if_pos h, hcrop] at hresult
  rw [← Option.some.inj hresult] at hin
  refine hin t (List.mem_append.mpr (ht.imp id fun hrow => ?_))
  exact List.mem_append_left _ (List.mem_append_left _ hrow)

theorem mem_crop {p : Plane} {a b : Area} {row : Nat} (hrow : row < a.height) :
    .source p (a.start + row * a.frameWidth) a.width ∈ cropRows p a b ∧
      .destination p (b.start + row * b.frameWidth) a.width ∈ cropRows p a b :=
  ⟨List.mem_flatMap.mpr ⟨row, List.mem_range.mpr hrow, List.mem_cons_self⟩,
    List.mem_flatMap.mpr ⟨row, List.mem_range.mpr hrow,
      List.mem_cons_of_mem _ List.mem_cons_self⟩⟩

/-- The row behind a rectangle. -/
theorem not_covers_below {v : Window} (h : v.view.InFrame) (hwidth : 2 ≤ v.view.width) {len : Nat}
    (hlen : 0 < len) : ¬ (v.view.area .luma).Covers
      ((v.view.area .luma).start + v.view.height * v.view.frameWidth) len := by
  have hfits := area_fits h .luma
  have hx := h.inWidth
  have hnot := @not_covers_row _ (v.view.y + v.view.height) v.view.x len hfits
    (by simp only [View.area]; omega) (.inr (Nat.le_refl _)) hlen
  rw [start_eq hfits]
  simp only [View.area] at hnot ⊢
  rwa [Nat.add_mul, ← Nat.add_assoc, Nat.add_right_comm] at hnot

/-- An octet behind the plane. -/
theorem not_covers_far {a : Area} (h : a.Fits) {off len : Nat}
    (hoff : a.base + (a.y + a.height) * a.frameWidth ≤ off) (hlen : 0 < len) :
    ¬ a.Covers off len := by
  intro hcovers
  obtain ⟨row, hrow, col, hcol, heq⟩ := hcovers off (Nat.le_refl _) (Nat.lt_add_of_pos_right hlen)
  have hin := h.inWidth
  have hnext : (a.y + row + 1) * a.frameWidth ≤ (a.y + a.height) * a.frameWidth :=
    Nat.mul_le_mul_right _ (by omega)
  rw [Nat.succ_mul] at hnext
  omega

/-- Half of a negative number, as an unsigned int, is half of all numbers too large. In a picture of
even width that is a whole number of times around. -/
theorem start_wrap {m n : Nat} (hn : n % 2 = 0) (hsmall : m * n < 4294967296) :
    (2147483648 + m) * n % 4294967296 = m * n := by
  rcases Nat.dvd_of_mod_eq_zero hn with ⟨k, rfl⟩
  rw [Nat.add_mul, show 2147483648 * (2 * k) = 4294967296 * k by omega,
    Nat.mul_add_mod_self_left, Nat.mod_eq_of_lt hsmall]

theorem start_wrap_sub {m n : Nat} (hn : n % 2 = 0) (hpos : 0 < m * n)
    (hsmall : m * n < 4294967296) :
    (2147483648 - m) * n % 4294967296 = 4294967296 - m * n := by
  rcases Nat.dvd_of_mod_eq_zero hn with ⟨k, rfl⟩
  have hk : 0 < k := Nat.pos_of_ne_zero fun hzero => by
    rw [hzero, Nat.mul_zero] at hpos
    exact Nat.lt_irrefl 0 hpos
  have hsplit : (2147483648 - m) * (2 * k) =
      4294967296 - m * (2 * k) + 4294967296 * (k - 1) := by
    rw [Nat.sub_mul]
    omega
  rw [hsplit, Nat.add_mul_mod_self_left, Nat.mod_eq_of_lt (by omega)]

/-- Equal widths, and a source with more rows than the destination: they are all copied. -/
theorem not_safe_scale (hnot : wholeFrames src.view dst.view = false)
    (h : accepts src.view dst.view = true) (hwidth : src.view.width = dst.view.width)
    (hheight : dst.view.height < src.view.height) : ¬ Safe .scale src.view dst.view := by
  intro hsafe
  obtain ⟨-, hin', -, hsize', -⟩ := of_accepts h
  have hadjust : adjust .scale src.view dst.view = ⟨.crop, src.view, dst.view, []⟩ := by
    rw [adjust]
    simp only [if_neg (show ¬ src.view.width > dst.view.width by omega),
      if_neg (show ¬ src.view.width < dst.view.width by omega)]
  have hrow := (@mem_crop .luma (src.view.area .luma) (dst.view.area .luma) dst.view.height
    hheight).2
  have hinside := inside_of_safe hnot h (by rw [hadjust]) (.inr (by rw [hadjust]; exact hrow)) hsafe
  exact not_covers_below hin' hsize'.1 (show 0 < src.view.width by omega) hinside

/-- Equal widths, and a destination with more rows than the source: that many are copied. -/
theorem not_safe_cropTopLeft (hnot : wholeFrames src.view dst.view = false)
    (h : accepts src.view dst.view = true) (hwidth : src.view.width = dst.view.width)
    (hheight : src.view.height < dst.view.height) : ¬ Safe .cropTopLeft src.view dst.view := by
  intro hsafe
  obtain ⟨hin, -, hsize, hsize', -⟩ := of_accepts h
  have hadjust : adjust .cropTopLeft src.view dst.view = ⟨.crop, src.view.part src.view.x
      src.view.y dst.view.width dst.view.height, dst.view, []⟩ := by
    rw [adjust]
    simp only [if_neg (show ¬ src.view.width < dst.view.width by omega)]
  have hrow := (@mem_crop .luma ((src.view.part src.view.x src.view.y dst.view.width
    dst.view.height).area .luma) (dst.view.area .luma) src.view.height hheight).1
  have hinside := inside_of_safe hnot h (by rw [hadjust]) (.inr (by rw [hadjust]; exact hrow)) hsafe
  exact not_covers_below hin hsize.1 (show 0 < dst.view.width by omega) hinside

/-- Equal widths, and a destination with more rows than the source: the first row that is copied
is above the source, or far behind it. -/
theorem not_safe_cropCentre (hnot : wholeFrames src.view dst.view = false)
    (h : accepts src.view dst.view = true) (hwidth : src.view.width = dst.view.width)
    (hheight : src.view.height < dst.view.height) : ¬ Safe .cropCentre src.view dst.view := by
  intro hsafe
  obtain ⟨hin, hin', hsize, hsize', -⟩ := of_accepts h
  obtain ⟨-, heven⟩ := src.evenSize
  obtain ⟨-, heven'⟩ := dst.evenSize
  have hfits := area_fits hin .luma
  have hx := hin.inWidth
  have hy := hin.inHeight
  have hsmall := hin.smallHeight
  have hsmallWidth := hin.smallWidth
  have hdst := hin'.inHeight
  have hdstSmall := hin'.smallHeight
  have hwrap := @centre_row_wrapped src.view.y _ _ hheight heven heven' (by omega) (by omega)
  generalize hhalf : (dst.view.height - src.view.height) / 2 = half at hwrap
  have hadjust : adjust .cropCentre src.view dst.view = ⟨.crop, src.view.part src.view.x
      (src.view.y + 2147483648 - half) dst.view.width dst.view.height, dst.view, []⟩ := by
    rw [adjust, hwrap]
    simp only [if_neg (show ¬ src.view.width < dst.view.width by omega)]
    rw [show (src.view.width - dst.view.width) / 2 = 0 by omega, Nat.add_zero]
  have hrow := (@mem_crop .luma ((src.view.part src.view.x (src.view.y + 2147483648 - half)
    dst.view.width dst.view.height).area .luma) (dst.view.area .luma) 0
    (show 0 < dst.view.height by omega)).1
  have hinside := inside_of_safe hnot h (by rw [hadjust]) (.inr (by rw [hadjust]; exact hrow)) hsafe
  simp only [Touch.Inside, Area.start, View.area, View.part, Nat.zero_add, Nat.zero_mul,
    Nat.add_zero] at hinside
  have hplane : (src.view.y + src.view.height) * src.view.frameWidth ≤ 32767 * 32767 :=
    Nat.mul_le_mul (by omega) (by omega)
  rcases Nat.lt_or_ge src.view.y half with habove | hbelow
  · -- the row is before the picture, and comes out behind it
    have hproduct : (half - src.view.y) * src.view.frameWidth ≤ 32767 * 32767 :=
      Nat.mul_le_mul (by omega) (by omega)
    have hpos : 0 < (half - src.view.y) * src.view.frameWidth :=
      Nat.mul_pos (by omega) (by omega)
    rw [show src.view.y + 2147483648 - half = 2147483648 - (half - src.view.y) by omega,
      start_wrap_sub src.evenFrame.1 hpos (by omega)] at hinside
    refine not_covers_far hfits ?_ (show 0 < dst.view.width by omega) hinside
    simp only [View.area]
    omega
  · have hproduct : (src.view.y - half) * src.view.frameWidth ≤ 32767 * 32767 :=
      Nat.mul_le_mul (by omega) (by omega)
    rw [show src.view.y + 2147483648 - half = 2147483648 + (src.view.y - half) by omega,
      start_wrap src.evenFrame.1 (by omega)] at hinside
    have habove := @not_covers_row (src.view.area .luma) (src.view.y - half) src.view.x
      dst.view.width hfits (by simp only [View.area]; omega) (.inl (by simp only [View.area]; omega))
      (by omega)
    simp only [View.area, Nat.zero_add] at habove
    exact habove hinside

/-- What is filled below has an odd height: the row behind it is filled too. -/
theorem not_safe_fill (hnot : wholeFrames src.view dst.view = false)
    (h : accepts src.view dst.view = true) (hwidth : src.view.width < dst.view.width)
    (hheight : src.view.height < dst.view.height)
    (hodd : (dst.view.height - src.view.height) % 4 ≠ 0) :
    ¬ Safe .cropCentre src.view dst.view := by
  intro hsafe
  obtain ⟨hin, hin', hsize, hsize', -⟩ := of_accepts h
  obtain ⟨-, heven⟩ := src.evenSize
  obtain ⟨-, heven'⟩ := dst.evenSize
  have hx := hin'.inWidth
  have hy := hin'.inHeight
  generalize hdx : (dst.view.width - src.view.width) / 2 = deltaX
  generalize hdy : (dst.view.height - src.view.height) / 2 = deltaY
  have hadjust : adjust .cropCentre src.view dst.view = ⟨.crop, src.view,
      dst.view.part (dst.view.x + deltaX) (dst.view.y + deltaY) src.view.width src.view.height,
      fillAround src.view dst.view deltaX deltaY⟩ := by
    rw [adjust, hdx, hdy]
    simp only [if_pos hwidth]
  have hfill := @mem_fill (dst.view.x + deltaX) (dst.view.y + deltaY + src.view.height)
    src.view.width deltaY dst.view ⟨by omega, by omega⟩ (by omega) (by omega) (deltaY / 2)
    (by omega)
  have hinside := inside_of_safe hnot h (by rw [hadjust]) (.inl (by
    rw [hadjust, fillAround, if_pos hheight]
    exact List.mem_append_right _ (List.mem_append_right _ hfill))) hsafe
  have hbelow := @not_covers_row (dst.view.area .luma) (dst.view.y + dst.view.height)
    ((dst.view.x + deltaX) / 2 * 2) src.view.width (area_fits hin' .luma)
    (by simp only [View.area]; omega) (.inr (Nat.le_refl _)) (by omega)
  refine hbelow ?_
  have hrow : dst.view.y + dst.view.height =
      dst.view.y + deltaY + src.view.height + (2 * (deltaY / 2) + 1) := by omega
  simp only [Touch.Inside, View.area] at hinside ⊢
  rw [hrow, Nat.zero_add, Nat.add_mul (dst.view.y + deltaY + src.view.height), Nat.add_right_comm]
  exact hinside

/-- The checks of the function. -/
def accepted (src dst : View) : Bool := wholeFrames src dst || accepts src dst

theorem heightsFit_whole {src dst : View} (h : wholeFrames src dst = true) (mode : ResizeMode) :
    HeightsFit mode src dst := by
  have hheight := (of_decide_eq_true h).2.2.2.2.2.1
  cases mode with
  | scale => exact fun _ => Nat.le_of_eq hheight
  | cropTopLeft => exact fun _ => Nat.le_of_eq hheight.symm
  | cropCentre =>
      refine ⟨fun _ => Nat.le_of_eq hheight.symm, fun _ hless => ?_⟩
      exact absurd (hheight ▸ hless) (Nat.lt_irrefl _)

theorem heightsFit_of_safe (hnot : wholeFrames src.view dst.view = false)
    (h : accepts src.view dst.view = true) (hsafe : Safe mode src.view dst.view) :
    HeightsFit mode src.view dst.view := by
  cases mode with
  | scale => exact fun hwidth => Nat.le_of_not_lt fun hheight =>
      not_safe_scale hnot h hwidth hheight hsafe
  | cropTopLeft => exact fun hwidth => Nat.le_of_not_lt fun hheight =>
      not_safe_cropTopLeft hnot h hwidth hheight hsafe
  | cropCentre =>
      refine ⟨fun hwidth => Nat.le_of_not_lt fun hheight =>
        not_safe_cropCentre hnot h hwidth hheight hsafe, fun hwidth hheight => ?_⟩
      exact Decidable.byContradiction fun hodd => not_safe_fill hnot h hwidth hheight hodd hsafe

/-- The function ends and stays in the rectangles that it accepts exactly when the heights fit. -/
theorem safe_iff (mode : ResizeMode) (src dst : Window) :
    Safe mode src.view dst.view ↔
      (accepted src.view dst.view = true → HeightsFit mode src.view dst.view) := by
  rcases hwhole : wholeFrames src.view dst.view with _ | _
  · rcases hacc : accepts src.view dst.view with _ | _
    · rw [accepted, hwhole, hacc]
      refine ⟨fun _ hfalse => absurd hfalse Bool.false_ne_true, fun _ => ⟨0, (false, []), ?_, ?_⟩⟩
      · rw [copyYUV420P, hwhole, hacc]
        rfl
      · exact fun t ht => absurd ht List.not_mem_nil
    · rw [accepted, hwhole, hacc]
      refine ⟨fun hsafe _ => heightsFit_of_safe hwhole hacc hsafe, fun hfit => ?_⟩
      obtain ⟨l, hl, hin⟩ := copyPlanes_adjust hacc (hfit rfl)
      refine ⟨32768, (true, (adjust mode src.view dst.view).filled ++ l), ?_, fun t ht => ?_⟩
      · rw [copyYUV420P, hwhole, if_neg Bool.false_ne_true, if_pos hacc, hl]
        rfl
      · rcases List.mem_append.mp ht with ht | ht
        · exact filled_inside hacc (hfit rfl) t ht
        · exact hin t ht
  · exact ⟨fun _ _ => heightsFit_whole hwhole mode, fun _ => copied_whole hwhole mode⟩

/-- A source of eight rows in place of four. -/
theorem not_safe_eight : ¬ ∀ (mode : ResizeMode) (src dst : Window),
    accepted src.view dst.view = true → Safe mode src.view dst.view := by
  intro h
  exact @not_safe_scale ⟨⟨0, 0, 4, 8, 4, 8⟩, ⟨rfl, rfl⟩, ⟨rfl, rfl⟩, ⟨rfl, rfl⟩, by decide⟩
    ⟨⟨0, 0, 4, 4, 4, 4⟩, ⟨rfl, rfl⟩, ⟨rfl, rfl⟩, ⟨rfl, rfl⟩, by decide⟩ (by decide) (by decide) rfl
    (by decide) (h _ _ _ (by decide))

end Copying

end Codec

end CryptoOpal
