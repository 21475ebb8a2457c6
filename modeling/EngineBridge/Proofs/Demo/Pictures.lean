import EngineBridge.Demo.Picture
import EngineBridge.Number.Word
import EngineBridge.Proofs.Drawing.Bitmap
import EngineBridge.Proofs.Drawing.Painting
import EngineBridge.Proofs.Settings

/-! The pictures of the built-in engines, pixel by pixel. To append pixels row by row makes the same
image as to paint it. At the sizes and frame numbers that settings may ask for, no sum or product of
words goes over, and no byte loses bits. -/
namespace EngineBridge

namespace Pixel

variable (bytes : ByteArray)

theorem get!_push (v : UInt8) (j : Nat) :
    (bytes.push v).get! j = if j = bytes.size then v else bytes.get! j := by
  change (bytes.data.push v)[j]! = if j = bytes.data.size then v else bytes.data[j]!
  grind

variable (p : Pixel)

theorem get!_append (j : Nat) :
    (append bytes p).get! j =
      if j = bytes.size + 3 then p.alpha
      else if j = bytes.size + 2 then p.blue
      else if j = bytes.size + 1 then p.green
      else if j = bytes.size then p.red
      else bytes.get! j := by
  simp only [append, get!_push, ByteArray.size_push]

theorem read_append_self : read (append bytes p) bytes.size = p := by
  simp [read, get!_append]

theorem read_append_of_le {i : Nat} (hi : i + 4 ≤ bytes.size) :
    read (append bytes p) i = read bytes i := by
  have hsame (j : Nat) (hj : j < bytes.size) : (append bytes p).get! j = bytes.get! j := by
    rw [get!_append, if_neg (by omega), if_neg (by omega), if_neg (by omega), if_neg (by omega)]
  rw [read, read, hsame i (by omega), hsame (i + 1) (by omega), hsame (i + 2) (by omega),
    hsame (i + 3) (by omega)]

end Pixel

namespace Bitmap

def appendRow (color : Nat → Pixel) (bytes : ByteArray) (x : Nat) : Nat → ByteArray
  | 0 => bytes
  | count + 1 => appendRow color (Pixel.append bytes (color x)) (x + 1) count

def appendRows (color : Nat → Nat → Pixel) (width : Nat) (bytes : ByteArray) (y : Nat) :
    Nat → ByteArray
  | 0 => bytes
  | count + 1 => appendRows color width (appendRow (color y) bytes 0 width) (y + 1) count

/-- Whether the bytes are the first `count` pixels of an image, each at its own place. -/
structure IsFilled (color : Nat → Nat → Pixel) (width : Nat) (bytes : ByteArray) (count : Nat) :
    Prop where
  size : bytes.size = 4 * count
  read : ∀ x y, x < width → y * width + x < count →
    Pixel.read bytes (offset width x y) = color y x

variable {color : Nat → Nat → Pixel} {width y : Nat} {bytes : ByteArray}

theorem isFilled_empty : IsFilled color width .empty 0 :=
  ⟨rfl, fun _ _ _ h => absurd h (Nat.not_lt_zero _)⟩

theorem IsFilled.append {x : Nat} (h : IsFilled color width bytes (y * width + x))
    (hx : x < width) :
    IsFilled color width (Pixel.append bytes (color y x)) (y * width + (x + 1)) := by
  have hend : bytes.size = offset width x y := h.size
  constructor
  · rw [Pixel.size_append, h.size]
    omega
  · intro x' y' hx' hlt
    by_cases hp : (x', y') = (x, y)
    · obtain ⟨rfl, rfl⟩ := Prod.mk.inj hp
      rw [← hend, Pixel.read_append_self]
    -- Any other pixel up to here lies wholly before the new one.
    · have hbefore : offset width x' y' + 4 ≤ offset width x y := by
        rcases offset_disjoint hx' hx hp with hle | hle
        · exact hle
        · unfold offset at hle
          omega
      have hlt' : y' * width + x' < y * width + x := by
        unfold offset at hbefore
        omega
      rw [Pixel.read_append_of_le _ _ (hend ▸ hbefore), h.read x' y' hx' hlt']

theorem IsFilled.appendRow {x count : Nat} (h : IsFilled color width bytes (y * width + x))
    (hx : x + count ≤ width) :
    IsFilled color width (Bitmap.appendRow (color y) bytes x count)
      (y * width + (x + count)) := by
  induction count generalizing bytes x with
  | zero => exact h
  | succ count ih =>
    rw [Bitmap.appendRow, Nat.add_comm count, ← Nat.add_assoc x]
    exact ih (h.append (by omega)) (by omega)

theorem IsFilled.appendRows (h : IsFilled color width bytes (y * width)) (count : Nat) :
    IsFilled color width (Bitmap.appendRows color width bytes y count) ((y + count) * width) := by
  induction count generalizing bytes y with
  | zero => exact h
  | succ count ih =>
    have hrow : IsFilled color width (Bitmap.appendRow (color y) bytes 0 width)
        ((y + 1) * width) := by
      have hend := IsFilled.appendRow (x := 0) h (Nat.le_of_eq (Nat.zero_add width))
      rwa [Nat.zero_add, ← Nat.succ_mul] at hend
    rw [Bitmap.appendRows, ← Nat.add_assoc, Nat.add_right_comm]
    exact ih hrow

section Picture

variable (width height : UInt32) (color : Nat → Nat → Pixel)

theorem size_ofFn : (ofFn width height color).size = ⟨width, height⟩ := rfl

theorem pixel?_ofFn (x y : Nat) :
    (ofFn width height color).pixel? x y =
      if x < width.toNat ∧ y < height.toNat then some (color y x) else none := by
  have hcontains : (Region.within ⟨width, height⟩ 0 width.toNat 0 height.toNat).Contains x y ↔
      x < width.toNat ∧ y < height.toNat := by
    simp only [Region.within, Region.Contains]
    omega
  change (paint (solid width height .clear) 0 width.toNat 0 height.toNat color).pixel? x y = _
  rw [pixel?_paint]
  change (if (Region.within ⟨width, height⟩ 0 width.toNat 0 height.toNat).Contains x y then _
    else _) = _
  by_cases hon : x < width.toNat ∧ y < height.toNat
  · rw [if_pos (hcontains.mpr hon), if_pos hon]
  · rw [if_neg (mt hcontains.mp hon), if_neg hon]
    exact if_neg hon

variable {width height color}

theorem IsFilled.bytes_eq {bytes : ByteArray}
    (h : IsFilled color width.toNat bytes (height.toNat * width.toNat)) :
    bytes = (ofFn width height color).bytes := by
  have hsize : bytes.size = 4 * (width.toNat * height.toNat) := by
    rw [h.size, Nat.mul_comm height.toNat]
  have hsame : Bitmap.mk width height bytes hsize = ofFn width height color := by
    refine eq_of_pixel? (size_ofFn width height color).symm fun x y => ?_
    rw [pixel?_ofFn]
    change (if x < width.toNat ∧ y < height.toNat then some (Pixel.read bytes _) else none) = _
    by_cases hon : x < width.toNat ∧ y < height.toNat
    · have hplace : y * width.toNat + x < height.toNat * width.toNat := by
        have hrows := Nat.mul_le_mul_right width.toNat hon.2
        rw [Nat.succ_mul] at hrows
        omega
      rw [if_pos hon, if_pos hon, h.read x y hon.1 hplace]
    · rw [if_neg hon, if_neg hon]
  exact congrArg Bitmap.bytes hsame

theorem appendRows_eq :
    appendRows color width.toNat .empty 0 height.toNat = (ofFn width height color).bytes := by
  have hempty : IsFilled color width.toNat .empty (0 * width.toNat) := by
    rw [Nat.zero_mul]
    exact isFilled_empty
  have hfilled := hempty.appendRows height.toNat
  rw [Nat.zero_add] at hfilled
  exact hfilled.bytes_eq

end Picture

end Bitmap

namespace Word

def sum? (a b : UInt32) : Option UInt32 := unsigned? ((a.toNat + b.toNat : Nat) : Int)

def product? (a b : UInt32) : Option UInt32 := unsigned? ((a.toNat * b.toNat : Nat) : Int)

def byte? (n : UInt32) : Option UInt8 := if n.toNat < 256 then some n.toUInt8 else none

theorem unsigned?_natCast {n : Nat} (h : n < 0x100000000) :
    unsigned? (n : Int) = some (.ofNat n) := by
  unfold unsigned?
  rw [if_pos (by omega), Int.toNat_natCast]

variable {a b : UInt32}

theorem toNat_sum (h : a.toNat + b.toNat < 0x100000000) :
    (a + b).toNat = a.toNat + b.toNat := by
  rw [UInt32.toNat_add]
  exact Nat.mod_eq_of_lt h

theorem toNat_product (h : a.toNat * b.toNat < 0x100000000) :
    (a * b).toNat = a.toNat * b.toNat := by
  rw [UInt32.toNat_mul]
  exact Nat.mod_eq_of_lt h

theorem sum?_eq (h : a.toNat + b.toNat < 0x100000000) : sum? a b = some (a + b) := by
  rw [sum?, unsigned?_natCast h, UInt32.ofNat_add, UInt32.ofNat_toNat, UInt32.ofNat_toNat]

theorem product?_eq (h : a.toNat * b.toNat < 0x100000000) : product? a b = some (a * b) := by
  rw [product?, unsigned?_natCast h, UInt32.ofNat_mul, UInt32.ofNat_toNat, UInt32.ofNat_toNat]

theorem byte?_eq (h : a.toNat < 256) : byte? a = some a.toUInt8 := if_pos h

end Word

namespace DemoProgram

open Word

def checkerColor? (x y frame : UInt32) : Option Pixel := do
  let cells ← sum? ((← sum? x frame) / cell) (y / cell)
  return if cells % 2 = 0 then ⟨0x20, 0x24, 0x30, 0xFF⟩ else ⟨0xE0, 0xC8, 0x40, 0xFF⟩

def ramp (place length : UInt32) : UInt8 := (place * 255 / max length 1).toUInt8

def ramp? (place length : UInt32) : Option UInt8 := do
  byte? ((← product? place 255) / max length 1)

def gradientColor? (x y width height frame : UInt32) : Option Pixel := do
  return ⟨← ramp? x width, ← ramp? y height, ← byte? ((← product? frame 40) % 256), 0xFF⟩

def color? (program : DemoProgram) (x y width height frame : UInt32) : Option Pixel :=
  match program with
  | .hello => checkerColor? x y frame
  | .gradient => gradientColor? x y width height frame

section Ramp

variable {place length : UInt32} (hplace : place.toNat < length.toNat)
  (hlength : length.toNat ≤ 4096)

include hplace hlength

theorem place_mul_lt : place.toNat * (255 : UInt32).toNat < 0x100000000 := by
  change place.toNat * 255 < 0x100000000
  omega

theorem toNat_quotient :
    (place * 255 / max length 1).toNat = place.toNat * 255 / length.toNat := by
  have hproduct : (place * 255).toNat = place.toNat * 255 :=
    toNat_product (place_mul_lt hplace hlength)
  have hmax : max length 1 = length := by
    change (if length ≤ 1 then 1 else length) = length
    split
    · rename_i h
      have hle : length.toNat ≤ 1 := h
      apply UInt32.toNat_inj.mp
      change 1 = length.toNat
      omega
    · rfl
  rw [UInt32.toNat_div, hproduct, hmax]

omit hlength in
theorem quotient_lt : place.toNat * 255 / length.toNat < 256 := by
  apply Nat.div_lt_of_lt_mul
  omega

theorem ramp?_eq : ramp? place length = some (ramp place length) := by
  have hquotient := toNat_quotient hplace hlength
  have hbyte : (place * 255 / max length 1).toNat < 256 :=
    hquotient ▸ quotient_lt hplace
  unfold ramp?
  rw [product?_eq (place_mul_lt hplace hlength)]
  exact byte?_eq hbyte

theorem toNat_ramp : (ramp place length).toNat = place.toNat * 255 / length.toNat := by
  rw [ramp, UInt32.toNat_toUInt8, toNat_quotient hplace hlength]
  exact Nat.mod_eq_of_lt (quotient_lt hplace)

end Ramp

theorem ramp_mono {place place' length : UInt32} (hle : place ≤ place') (hplace : place' < length)
    (hlength : length.toNat ≤ 4096) : ramp place length ≤ ramp place' length := by
  have hplaces : place.toNat ≤ place'.toNat := hle
  have hlast : place'.toNat < length.toNat := hplace
  rw [UInt8.le_iff_toNat_le, toNat_ramp (Nat.lt_of_le_of_lt hplaces hlast) hlength,
    toNat_ramp hlast hlength]
  exact Nat.div_le_div_right (Nat.mul_le_mul_right 255 hplaces)

section Color

variable {x y width height frame : UInt32}

theorem checkerColor?_eq (hx : x.toNat < 4096) (hy : y.toNat < 4096) (hframe : frame.toNat < 600) :
    checkerColor? x y frame = some (checkerColor x y frame) := by
  have hcolumn : x.toNat + frame.toNat < 0x100000000 := by omega
  have hcells : ((x + frame) / cell).toNat + (y / cell).toNat < 0x100000000 := by
    have hcell : cell.toNat = 8 := rfl
    rw [UInt32.toNat_div, UInt32.toNat_div, toNat_sum hcolumn, hcell]
    omega
  unfold checkerColor?
  rw [sum?_eq hcolumn, Option.bind_eq_bind, Option.bind_some, sum?_eq hcells, Option.bind_some,
    checkerColor, Option.pure_def]

theorem gradientColor?_eq (hx : x.toNat < width.toNat) (hwidth : width.toNat ≤ 4096)
    (hy : y.toNat < height.toNat) (hheight : height.toNat ≤ 4096) (hframe : frame.toNat < 600) :
    gradientColor? x y width height frame = some (gradientColor x y width height frame) := by
  have hproduct : frame.toNat * (40 : UInt32).toNat < 0x100000000 := by
    change frame.toNat * 40 < 0x100000000
    omega
  have hblue : (frame * 40 % 256).toNat < 256 := by
    rw [UInt32.toNat_mod]
    exact Nat.mod_lt _ (by decide)
  unfold gradientColor?
  simp only [ramp?_eq hx hwidth, ramp?_eq hy hheight, product?_eq hproduct, byte?_eq hblue,
    Option.bind_eq_bind, Option.bind_some]
  rfl

/-- At any place of a picture no step of its color goes over. -/
theorem color?_eq (program : DemoProgram) (hx : x.toNat < width.toNat)
    (hwidth : width.toNat ≤ 4096) (hy : y.toNat < height.toNat) (hheight : height.toNat ≤ 4096)
    (hframe : frame.toNat < 600) :
    program.color? x y width height frame = some (program.color x y width height frame) := by
  cases program with
  | hello => exact checkerColor?_eq (by omega) (by omega) hframe
  | gradient => exact gradientColor?_eq hx hwidth hy hheight hframe

end Color

section Render

variable (program : DemoProgram) (width height frame : UInt32)

/-- The color of each place, the row first. -/
def colors (y x : Nat) : Pixel := program.color (.ofNat x) (.ofNat y) width height frame

theorem render_eq_ofBytes :
    program.render width height frame =
      Bitmap.ofBytes width height
        (Bitmap.appendRows (program.colors width height frame) width.toNat .empty 0
          height.toNat) := by
  have hpicture : program.render width height frame =
      (do
        PhysicalSize.checkLimit ⟨width, height⟩
        return Bitmap.ofFn width height (program.colors width height frame)) := rfl
  rw [hpicture, Bitmap.appendRows_eq]
  by_cases harea : PhysicalSize.area ⟨width, height⟩ ≤ PhysicalSize.maxArea
  · rw [PhysicalSize.checkLimit_eq_ok.mpr harea]
    have hsize : (Bitmap.ofFn width height (program.colors width height frame)).size =
        ⟨width, height⟩ := Bitmap.size_ofFn ..
    exact (Bitmap.ofBytes_of_le (hsize ▸ harea)).symm
  · rw [Bitmap.ofBytes_of_lt _ (Nat.not_le.mp harea), PhysicalSize.checkLimit,
      if_pos (Nat.not_le.mp harea)]
    rfl

variable {frames : UInt32}

/-- Where settings allow the size and the number of frames, a frame is rendered to an image of that
size that has at each place the color of the place. None of the steps to a color goes over, and the
colors of the gradient never decrease, the red ones to the right and the green ones downwards. -/
theorem render_eq_colors (hwidth : Validation.word Validation.width width = none)
    (hheight : Validation.word Validation.height height = none)
    (hframes : Validation.word Validation.frames frames = none) (hframe : frame < frames) :
    ∃ b, program.render width height frame = .ok b ∧
      b.width = width ∧ b.height = height ∧
      Bitmap.ofBytes width height
        (Bitmap.appendRows (program.colors width height frame) width.toNat .empty 0
          height.toNat) = .ok b ∧
      (∀ x y : UInt32, x < width → y < height →
        b.pixel? x.toNat y.toNat = some (program.color x y width height frame) ∧
          program.color? x y width height frame =
            some (program.color x y width height frame)) ∧
      ∀ x x' y y' : UInt32, x ≤ x' → x' < width → y ≤ y' → y' < height →
        (gradientColor x y width height frame).red ≤
            (gradientColor x' y' width height frame).red ∧
          (gradientColor x y width height frame).green ≤
            (gradientColor x' y' width height frame).green := by
  have hw : width.toNat ≤ 4096 := (Validation.word_eq_none.mp hwidth).2
  have hh : height.toNat ≤ 4096 := (Validation.word_eq_none.mp hheight).2
  have hf : frame.toNat < 600 :=
    Nat.lt_of_lt_of_le hframe (Validation.word_eq_none.mp hframes).2
  have harea : PhysicalSize.area ⟨width, height⟩ ≤ PhysicalSize.maxArea :=
    Nat.le_trans (Nat.mul_le_mul hw hh) (by decide)
  have hrender : program.render width height frame =
      .ok (.ofFn width height (program.colors width height frame)) := by
    unfold render
    rw [PhysicalSize.checkLimit_eq_ok.mpr harea]
    rfl
  refine ⟨_, hrender, rfl, rfl, (render_eq_ofBytes ..).symm.trans hrender,
    fun x y hx hy => ⟨?_, ?_⟩, fun x x' y y' hxx' hx' hyy' hy' => ⟨?_, ?_⟩⟩
  · rw [Bitmap.pixel?_ofFn, if_pos ⟨hx, hy⟩, colors, UInt32.ofNat_toNat, UInt32.ofNat_toNat]
  · exact color?_eq program hx hw hy hh hf
  · exact ramp_mono hxx' hx' hw
  · exact ramp_mono hyy' hy' hh

theorem render_eq_colors_five_by_three :
    Validation.word Validation.width 5 = none ∧ Validation.word Validation.height 3 = none ∧
      Validation.word Validation.frames 3 = none ∧ (2 : UInt32) < 3 ∧
      ∃ b, render .gradient 5 3 2 = .ok b ∧ b.pixel? 4 2 = some ⟨204, 170, 80, 0xFF⟩ := by
  have hframes : Validation.word Validation.frames 3 = none := by decide
  have hframe : (2 : UInt32) < 3 := by decide
  obtain ⟨b, hrender, -, -, -, hpixel, -⟩ :=
    render_eq_colors .gradient 5 3 2 (by decide) (by decide) hframes hframe
  refine ⟨by decide, by decide, hframes, hframe, b, hrender, ?_⟩
  exact (hpixel 4 2 (by decide) (by decide)).1

end Render

end DemoProgram

end EngineBridge
