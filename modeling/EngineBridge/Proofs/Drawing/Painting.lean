import EngineBridge.Proofs.Drawing.Canvas
import Mathlib.Data.List.Nodup

/-! Painting as writes of single pixels. What is drawn goes to a rectangle of the surface that its
pixels have no part in, so that a second drawing over the same pixels leaves nothing of a first. -/
namespace EngineBridge

namespace Pixel

variable {bytes : ByteArray} {i : Nat}

theorem get!_set! (hi : i < bytes.size) (v : UInt8) (j : Nat) :
    (bytes.set! i v).get! j = if i = j then v else bytes.get! j := by
  have hi' : i < bytes.data.size := hi
  simp only [ByteArray.set!, ByteArray.get!]
  grind

section Slots

variable (hi : i + 4 ≤ bytes.size) (p : Pixel)

include hi

theorem get!_write (j : Nat) :
    (write bytes i p).get! j =
      if i + 3 = j then p.alpha
      else if i + 2 = j then p.blue
      else if i + 1 = j then p.green
      else if i = j then p.red
      else bytes.get! j := by
  unfold write
  rw [get!_set! (by simp; omega), get!_set! (by simp; omega), get!_set! (by simp; omega),
    get!_set! (by omega)]

theorem read_write_self : read (write bytes i p) i = p := by
  simp [read, get!_write hi]

theorem read_write_of_disjoint {j : Nat} (hj : j + 4 ≤ i ∨ i + 4 ≤ j) :
    read (write bytes i p) j = read bytes j := by
  have hsame (k : Nat) (hk : j ≤ k ∧ k < j + 4) : (write bytes i p).get! k = bytes.get! k := by
    rw [get!_write hi, if_neg (by omega), if_neg (by omega), if_neg (by omega), if_neg (by omega)]
  rw [read, read, hsame j (by omega), hsame (j + 1) (by omega), hsame (j + 2) (by omega),
    hsame (j + 3) (by omega)]

end Slots

end Pixel

/-- A rectangle of pixels, which `right` and `bottom` are the first to be outside of. -/
structure Region where
  left : Nat
  right : Nat
  top : Nat
  bottom : Nat
  deriving DecidableEq, Repr

namespace Region

def Contains (r : Region) (x y : Nat) : Prop :=
  (r.left ≤ x ∧ x < r.right) ∧ r.top ≤ y ∧ y < r.bottom

instance (r : Region) (x y : Nat) : Decidable (r.Contains x y) :=
  inferInstanceAs (Decidable (_ ∧ _))

def empty : Region := ⟨0, 0, 0, 0⟩

def within (size : PhysicalSize) (left right top bottom : Nat) : Region :=
  ⟨left, min right size.width.toNat, top, min bottom size.height.toNat⟩

def places (r : Region) : List (Nat × Nat) :=
  (List.range' r.top (r.bottom - r.top)).flatMap fun y =>
    (List.range' r.left (r.right - r.left)).map fun x => (x, y)

theorem mem_places {r : Region} {x y : Nat} : (x, y) ∈ r.places ↔ r.Contains x y := by
  simp only [places, List.mem_flatMap, List.mem_map, List.mem_range'_1, Prod.mk.injEq, Contains]
  constructor
  · rintro ⟨_, hy, _, hx, rfl, rfl⟩
    omega
  · intro h
    exact ⟨y, by omega, x, by omega, rfl, rfl⟩

theorem nodup_places (r : Region) : r.places.Nodup := by
  unfold places
  rw [List.nodup_flatMap]
  constructor
  · intro y _
    apply List.Nodup.map _ List.nodup_range'
    intro x x' h
    exact (Prod.mk.inj h).1
  · apply List.Nodup.pairwise_of_forall_ne List.nodup_range'
    intro y _ y' _ hne
    simp only [Function.onFun, List.disjoint_left, List.mem_map]
    rintro _ ⟨x, _, rfl⟩ ⟨x', _, h⟩
    exact hne (Prod.mk.inj h).2.symm

theorem not_contains_empty (x y : Nat) : ¬empty.Contains x y := by
  simp [Contains, empty]

end Region

namespace Bitmap

theorem offset_disjoint {width x y x' y' : Nat} (hx : x < width) (hx' : x' < width)
    (hne : (x, y) ≠ (x', y')) :
    offset width x y + 4 ≤ offset width x' y' ∨ offset width x' y' + 4 ≤ offset width x y := by
  unfold offset
  rcases Nat.lt_trichotomy y y' with hy | rfl | hy
  · have hrows : (y + 1) * width ≤ y' * width := Nat.mul_le_mul_right width hy
    rw [Nat.add_mul] at hrows
    omega
  · have hcolumn : x ≠ x' := fun h => hne (h ▸ rfl)
    omega
  · have hrows : (y' + 1) * width ≤ y * width := Nat.mul_le_mul_right width hy
    rw [Nat.add_mul] at hrows
    omega

def writeAll (color : Nat → Nat → Pixel) (width : Nat) (bytes : ByteArray)
    (places : List (Nat × Nat)) : ByteArray :=
  places.foldl (fun bytes p => Pixel.write bytes (offset width p.1 p.2) (color p.2 p.1)) bytes

variable (color : Nat → Nat → Pixel) (width : Nat)

theorem writeAll_append (bytes : ByteArray) (places others : List (Nat × Nat)) :
    writeAll color width bytes (places ++ others) =
      writeAll color width (writeAll color width bytes places) others :=
  List.foldl_append

theorem paintRow_eq_writeAll (y : Nat) (bytes : ByteArray) (x count : Nat) :
    paintRow (color y) width y bytes x count =
      writeAll color width bytes ((List.range' x count).map fun x => (x, y)) := by
  induction count generalizing bytes x with
  | zero => rfl
  | succ count ih =>
    rw [paintRow, ih, List.range'_succ]
    rfl

theorem paintRows_eq_writeAll (x columns : Nat) (bytes : ByteArray) (y count : Nat) :
    paintRows color width x columns bytes y count =
      writeAll color width bytes ((List.range' y count).flatMap fun y =>
        (List.range' x columns).map fun x => (x, y)) := by
  induction count generalizing bytes y with
  | zero => rfl
  | succ count ih =>
    rw [paintRows, ih, paintRow_eq_writeAll, List.range'_succ, List.flatMap_cons, writeAll_append]

theorem read_writeAll {height : Nat} {bytes : ByteArray} {places : List (Nat × Nat)}
    (hsize : bytes.size = 4 * (width * height))
    (hplaces : ∀ p ∈ places, p.1 < width ∧ p.2 < height) {x y : Nat} (hx : x < width) :
    Pixel.read (writeAll color width bytes places) (offset width x y) =
      if (x, y) ∈ places then color y x else Pixel.read bytes (offset width x y) := by
  induction places generalizing bytes with
  | nil => rfl
  | cons p places ih =>
    obtain ⟨px, py⟩ := p
    obtain ⟨hpx, hpy⟩ := hplaces (px, py) List.mem_cons_self
    have hfits : offset width px py + 4 ≤ bytes.size := hsize ▸ offset_add_le hpx hpy
    have hsize' : (Pixel.write bytes (offset width px py) (color py px)).size =
        4 * (width * height) := by
      rw [Pixel.size_write, hsize]
    change Pixel.read (writeAll color width (Pixel.write bytes (offset width px py) (color py px))
      places) (offset width x y) = _
    rw [ih hsize' fun q hq => hplaces q (List.mem_cons_of_mem _ hq)]
    -- A later write at the same place would write the same, so only its absence has to be told.
    by_cases hmem : (x, y) ∈ places
    · rw [if_pos hmem, if_pos (List.mem_cons_of_mem _ hmem)]
    · rw [if_neg hmem]
      by_cases hp : (x, y) = (px, py)
      · obtain ⟨rfl, rfl⟩ := Prod.mk.inj hp
        rw [if_pos List.mem_cons_self, Pixel.read_write_self hfits]
      · rw [if_neg (by simp [hp, hmem]), Pixel.read_write_of_disjoint hfits]
        exact offset_disjoint hx hpx hp

variable {b : Bitmap} {left right top bottom : Nat}

theorem bytes_paint :
    (b.paint left right top bottom color).bytes =
      writeAll color b.width.toNat b.bytes (Region.within b.size left right top bottom).places := by
  unfold paint
  dsimp only
  rw [paintRows_eq_writeAll]
  split
  -- The loop over the rows is left out where no column is painted, which leaves no place either.
  · rename_i hnone
    have hplaces : (Region.within b.size left right top bottom).places = [] := by
      apply List.eq_nil_iff_forall_not_mem.mpr
      rintro ⟨x, y⟩ h
      have hx := (Region.mem_places.mp h).1
      simp only [Region.within, size] at hx
      omega
    rw [hplaces]
    rfl
  · rfl

theorem pixel?_paint (x y : Nat) :
    (b.paint left right top bottom color).pixel? x y =
      if (Region.within b.size left right top bottom).Contains x y then some (color y x)
      else b.pixel? x y := by
  have hplaces : ∀ p ∈ (Region.within b.size left right top bottom).places,
      p.1 < b.width.toNat ∧ p.2 < b.height.toNat := by
    rintro ⟨px, py⟩ hp
    obtain ⟨hpx, hpy⟩ := Region.mem_places.mp hp
    simp only [Region.within, size] at hpx hpy
    omega
  change (if x < b.width.toNat ∧ y < b.height.toNat then
    some (Pixel.read (b.paint left right top bottom color).bytes (offset b.width.toNat x y))
    else none) = _
  unfold pixel?
  by_cases hon : x < b.width.toNat ∧ y < b.height.toNat
  · rw [if_pos hon, if_pos hon, bytes_paint, read_writeAll color _ b.size_bytes hplaces hon.1]
    simp only [Region.mem_places]
    split <;> rfl
  · have hout : ¬(Region.within b.size left right top bottom).Contains x y := fun h =>
      hon (hplaces _ (Region.mem_places.mpr h))
    rw [if_neg hon, if_neg hon, if_neg hout]

theorem isEmpty_bytes (b : Bitmap) : b.bytes.isEmpty = decide (b.size.area = 0) := by
  rw [ByteArray.isEmpty, Bool.eq_iff_iff, beq_iff_eq, decide_eq_true_iff, b.size_bytes]
  change 4 * (b.width.toNat * b.height.toNat) = 0 ↔ b.width.toNat * b.height.toNat = 0
  omega

theorem get!_eq_of_read {bytes bytes' : ByteArray} {i : Nat}
    (h : Pixel.read bytes i = Pixel.read bytes' i) {k : Nat} (hk : k < 4) :
    bytes.get! (i + k) = bytes'.get! (i + k) := by
  simp only [Pixel.read, Pixel.mk.injEq] at h
  obtain ⟨hred, hgreen, hblue, halpha⟩ := h
  match k, hk with
  | 0, _ => exact hred
  | 1, _ => exact hgreen
  | 2, _ => exact hblue
  | 3, _ => exact halpha

theorem eq_of_pixel? {b b' : Bitmap} (hsize : b.size = b'.size)
    (h : ∀ x y, b.pixel? x y = b'.pixel? x y) : b = b' := by
  obtain ⟨width, height, bytes, hbytes⟩ := b
  obtain ⟨width', height', bytes', hbytes'⟩ := b'
  obtain ⟨rfl, rfl⟩ : width = width' ∧ height = height' := PhysicalSize.mk.inj hsize
  have hread (i : Nat) (hi : i < width.toNat * height.toNat) :
      Pixel.read bytes (4 * i) = Pixel.read bytes' (4 * i) := by
    have hwidth : 0 < width.toNat := Nat.pos_of_mul_pos_right (Nat.zero_lt_of_lt hi)
    have hx : i % width.toNat < width.toNat := Nat.mod_lt i hwidth
    have hy : i / width.toNat < height.toNat := Nat.div_lt_of_lt_mul hi
    have hplace : offset width.toNat (i % width.toNat) (i / width.toNat) = 4 * i := by
      rw [offset, Nat.mul_comm (i / _), Nat.div_add_mod]
    have hpixel := h (i % width.toNat) (i / width.toNat)
    simp only [pixel?, if_pos (And.intro hx hy), hplace, Option.some.injEq] at hpixel
    exact hpixel
  have heq : bytes = bytes' := by
    apply ByteArray.ext_getElem (hbytes.trans hbytes'.symm)
    intro i hi hi'
    have hdiv : 4 * (i / 4) + i % 4 = i := Nat.div_add_mod i 4
    have hget := get!_eq_of_read (hread (i / 4) (by omega)) (Nat.mod_lt i (by decide : 0 < 4))
    rw [hdiv] at hget
    simpa [ByteArray.get!, ByteArray.getElem_eq_getElem_data, getElem!_pos, ByteArray.size_data, hi,
      hi'] using hget
  subst heq
  rfl

end Bitmap

namespace Canvas

open Bitmap

variable {α : Type}

theorem isEmpty_bytes_surface (c : Canvas α) :
    c.surface.bytes.isEmpty = decide (c.size.area = 0) :=
  c.surface.isEmpty_bytes

theorem eq_of_pixel? {c c' : Canvas α} (hsize : c.size = c'.size)
    (hcontext : c.context = c'.context) (hstyle : c.styleSize = c'.styleSize)
    (h : ∀ px py, c.surface.pixel? px py = c'.surface.pixel? px py) : c = c' := by
  have hsurface : c.surface = c'.surface := Bitmap.eq_of_pixel? hsize h
  obtain ⟨surface, styleSize, context⟩ := c
  obtain ⟨surface', styleSize', context'⟩ := c'
  cases hsurface
  cases hcontext
  cases hstyle
  rfl

variable [Scalar α]

/-- The pixels that a drawing writes. They depend on the size of a canvas and on its drawing state,
and not on what is on it. -/
def written (size : PhysicalSize) (context : DrawContext α) (b : Bitmap) (x y : α) : Region :=
  let t := context.transform
  if b.bytes.isEmpty || size.area = 0 || t.scaleX ≤ Scalar.ofNat 0 || t.scaleY ≤ Scalar.ofNat 0 then
    .empty
  else
    let spot := placement t b x y
    let (left, right) := Scalar.covered spot.left spot.right size.width.toNat
    let (top, bottom) := Scalar.covered spot.top spot.bottom size.height.toNat
    .within size left right top bottom

/-- The pixel that a drawing writes at a place, the row first. -/
def ink (context : DrawContext α) (b : Bitmap) (x y : α) : Nat → Nat → Pixel :=
  shown b context.smoothing (placement context.transform b x y)

variable (c : Canvas α) (b : Bitmap) (x y : α)

theorem draw_cases :
    c.draw b x y = c ∧ written c.size c.context b x y = .empty ∨
      ∃ left right top bottom,
        c.draw b x y =
          { c with surface := c.surface.paint left right top bottom (ink c.context b x y) } ∧
        written c.size c.context b x y = Region.within c.size left right top bottom := by
  unfold draw written
  dsimp only
  rw [isEmpty_bytes_surface]
  split
  · exact .inl ⟨rfl, rfl⟩
  · exact .inr ⟨_, _, _, _, rfl, rfl⟩

theorem bytes_draw :
    (c.draw b x y).surface.bytes =
      writeAll (ink c.context b x y) c.size.width.toNat c.surface.bytes
        (written c.size c.context b x y).places := by
  rcases draw_cases c b x y with ⟨hdraw, hwritten⟩ | ⟨left, right, top, bottom, hdraw, hwritten⟩
  · rw [hdraw, hwritten]
    rfl
  · rw [hdraw, hwritten]
    exact bytes_paint _

theorem pixel?_draw (px py : Nat) :
    (c.draw b x y).surface.pixel? px py =
      if (written c.size c.context b x y).Contains px py then some (ink c.context b x y py px)
      else c.surface.pixel? px py := by
  rcases draw_cases c b x y with ⟨hdraw, hwritten⟩ | ⟨left, right, top, bottom, hdraw, hwritten⟩
  · rw [hdraw, hwritten, if_neg (Region.not_contains_empty px py)]
  · rw [hdraw, hwritten]
    exact pixel?_paint _ px py

@[simp] theorem size_draw : (c.draw b x y).size = c.size := by
  obtain ⟨surface, hsize, hdraw⟩ := c.exists_draw_eq b x y
  rw [hdraw]
  exact hsize

@[simp] theorem context_draw : (c.draw b x y).context = c.context := by
  obtain ⟨surface, -, hdraw⟩ := c.exists_draw_eq b x y
  rw [hdraw]

@[simp] theorem styleSize_draw : (c.draw b x y).styleSize = c.styleSize := by
  obtain ⟨surface, -, hdraw⟩ := c.exists_draw_eq b x y
  rw [hdraw]

theorem written_within (size : PhysicalSize) (context : DrawContext α) :
    (written size context b x y).right ≤ size.width.toNat ∧
      (written size context b x y).bottom ≤ size.height.toNat := by
  unfold written
  dsimp only
  split
  · exact ⟨Nat.zero_le _, Nat.zero_le _⟩
  · exact ⟨Nat.min_le_right _ _, Nat.min_le_right _ _⟩

/-- A drawing leaves nothing of another one where it writes. -/
theorem draw_draw_of_covers {a : Bitmap} {ax ay : α}
    (h : ∀ px py, (written c.size c.context a ax ay).Contains px py →
      (written c.size c.context b x y).Contains px py) :
    (c.draw a ax ay).draw b x y = c.draw b x y := by
  apply eq_of_pixel?
  · simp
  · simp
  · simp
  · intro px py
    rw [pixel?_draw, size_draw, context_draw, pixel?_draw c a, pixel?_draw c b]
    split
    · rfl
    · rename_i hout
      rw [if_neg fun hin => hout (h px py hin)]

/-- Two canvases of one size and drawing state are written alike. The pixels that a drawing writes
are a rectangle of the surface, each is written once and with the same value on both, and all others
stay as they were. So a drawing made twice is that drawing, and nothing is left of one whose pixels
another writes after it. -/
theorem draw_writes_alike (size : PhysicalSize) (context : DrawContext α) :
    let r := written size context b x y
    r.right ≤ size.width.toNat ∧ r.bottom ≤ size.height.toNat ∧ r.places.Nodup ∧
      ∀ c : Canvas α, c.size = size → c.context = context →
        (c.draw b x y).surface.bytes =
          writeAll (ink context b x y) size.width.toNat c.surface.bytes r.places ∧
        (∀ px py, (c.draw b x y).surface.pixel? px py =
          if r.Contains px py then some (ink context b x y py px) else c.surface.pixel? px py) ∧
        (c.draw b x y).draw b x y = c.draw b x y ∧
        ∀ (a : Bitmap) (ax ay : α),
          (∀ px py, (written size context a ax ay).Contains px py → r.Contains px py) →
            (c.draw a ax ay).draw b x y = c.draw b x y := by
  refine ⟨(written_within b x y size context).1, (written_within b x y size context).2,
    Region.nodup_places _, ?_⟩
  rintro c rfl rfl
  refine ⟨c.bytes_draw b x y, c.pixel?_draw b x y, ?_, ?_⟩
  · apply draw_draw_of_covers
    intro px py hin
    exact hin
  · intro a ax ay hcovers
    exact c.draw_draw_of_covers b x y hcovers

theorem draw_writes_alike_blended :
    let size : PhysicalSize := ⟨4, 2⟩
    let context : DrawContext Float := ⟨⟨1.5, 1, -0.5, 0⟩, true⟩
    let c : Canvas Float := ⟨.solid 4 2 ⟨9, 8, 7, 255⟩, {}, context⟩
    let a : Bitmap := .solid 1 1 ⟨255, 0, 0, 255⟩
    let b : Bitmap := .solid 2 2 ⟨0, 255, 0, 128⟩
    c.size = size ∧ c.context = context ∧
      (∀ px py, (written size context a 1 0).Contains px py →
        (written size context b 0 0).Contains px py) ∧
      (c.draw a 1 0).draw b 0 0 = c.draw b 0 0 ∧
      (c.draw b 0 0).surface.pixel? 3 0 = c.surface.pixel? 3 0 := by
  intro size context c a b
  have ha : written size context a 1 0 = ⟨1, 2, 0, 1⟩ := by decide +kernel
  have hb : written size context b 0 0 = ⟨0, 2, 0, 2⟩ := by decide +kernel
  have hcovers : ∀ px py, (written size context a 1 0).Contains px py →
      (written size context b 0 0).Contains px py := by
    intro px py
    rw [ha, hb]
    simp only [Region.Contains]
    omega
  obtain ⟨-, -, -, hall⟩ := draw_writes_alike b 0 0 size context
  obtain ⟨-, hpixels, -, hdraws⟩ := hall c rfl rfl
  refine ⟨rfl, rfl, hcovers, hdraws a 1 0 hcovers, ?_⟩
  rw [hpixels, hb, if_neg (by decide)]

end Canvas

end EngineBridge
