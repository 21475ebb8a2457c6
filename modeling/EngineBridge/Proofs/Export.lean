import EngineBridge.Export
import EngineBridge.Proofs.Desktop.Geometry
import EngineBridge.Proofs.Desktop.Separation
import EngineBridge.Proofs.FileTree
import EngineBridge.Proofs.Image.Png

/-! The files that are made of the windows of a desktop: one for each window that has any pixels,
with all of them in it. -/
namespace EngineBridge

structure Window.HasPixels {α : Type} (w : Window α) : Prop where
  width : w.canvas.surface.width ≠ 0
  height : w.canvas.surface.height ≠ 0

instance {α : Type} (w : Window α) : Decidable w.HasPixels :=
  decidable_of_iff (w.canvas.surface.width ≠ 0 ∧ w.canvas.surface.height ≠ 0)
    ⟨fun h => ⟨h.1, h.2⟩, fun h => ⟨h.width, h.height⟩⟩

namespace Export

variable {α : Type}

theorem fileName_injective {handle other : UInt32} (h : fileName handle = fileName other) :
    handle = other := by
  have hrepr : handle.toNat.repr = other.toNat.repr := by
    unfold fileName at h
    exact (String.append_right_inj _).mp ((String.append_left_inj _).mp h)
  have hdigits : Nat.toDigits 10 handle.toNat = Nat.toDigits 10 other.toNat := by
    rw [← Nat.toList_repr, hrepr, Nat.toList_repr]
  apply UInt32.toNat.inj
  calc handle.toNat = Nat.ofDigitChars 10 (Nat.toDigits 10 handle.toNat) 0 :=
        Nat.ofDigitChars_ten_toDigits.symm
    _ = other.toNat := by rw [hdigits, Nat.ofDigitChars_ten_toDigits]

theorem isPlain_fileName (handle : UInt32) : FileTree.IsPlain (fileName handle) := by
  have hhead : ∃ rest, (fileName handle).toList = 'w' :: rest := ⟨_, by simp [fileName]; rfl⟩
  obtain ⟨rest, hrest⟩ := hhead
  refine ⟨?_, ?_, ?_⟩ <;> intro heq <;> simp [heq] at hrest

def ofWindow (w : Window α) : Export := ⟨w.handle, w.canvas.surface⟩

theorem ofWindow?_eq (w : Window α) :
    ofWindow? w = if w.HasPixels then some (ofWindow w) else none := by
  unfold ofWindow?
  by_cases hwidth : w.canvas.surface.width = 0
  · have hnone : ¬w.HasPixels := fun h => h.width hwidth
    simp [hwidth, hnone]
  · by_cases hheight : w.canvas.surface.height = 0
    · have hnone : ¬w.HasPixels := fun h => h.height hheight
      simp [hheight, hnone]
    · have hpixels : w.HasPixels := ⟨hwidth, hheight⟩
      simp [hwidth, hheight, hpixels, ofWindow]

theorem filterMap_ofWindow? (ws : List (Window α)) :
    ws.filterMap ofWindow? = (ws.filter (·.HasPixels)).map ofWindow := by
  induction ws with
  | nil => rfl
  | cons w rest ih =>
    rw [List.filterMap_cons, ofWindow?_eq]
    by_cases h : w.HasPixels <;> simp [h, ih]

def handles (d : Desktop α) : List UInt32 := (d.windows.filter (·.HasPixels)).map (·.handle)

section Desktop

variable {d : Desktop α} (h : d.IsSorted)

include h

theorem mem_handles {handle : UInt32} :
    handle ∈ handles d ↔ ∃ w, d.get? handle = some w ∧ w.HasPixels := by
  unfold handles
  rw [List.mem_map]
  constructor
  · rintro ⟨w, hw, rfl⟩
    obtain ⟨hmem, hpixels⟩ := List.mem_filter.mp hw
    exact ⟨w, Desktop.get?_of_mem h hmem, of_decide_eq_true hpixels⟩
  · rintro ⟨w, hget, hpixels⟩
    obtain ⟨hmem, hhandle⟩ := Desktop.get?_eq_some hget
    exact ⟨w, List.mem_filter.mpr ⟨hmem, decide_eq_true hpixels⟩, hhandle⟩

theorem pairwise_handles : (handles d).Pairwise (· < ·) :=
  List.Pairwise.sublist (List.filter_sublist.map _) h

theorem nodup_handles : (handles d).Nodup := (pairwise_handles h).imp UInt32.ne_of_lt

theorem ofDesktop_eq : ofDesktop d = (d.windows.filter (·.HasPixels)).map ofWindow := by
  have hwindows : d.handles.filterMap d.get? = d.windows := by
    unfold Desktop.handles
    rw [List.filterMap_map]
    conv_rhs => rw [← List.filterMap_some (l := d.windows)]
    exact List.filterMap_congr fun w hw => Desktop.get?_of_mem h hw
  unfold ofDesktop
  rw [hwindows, filterMap_ofWindow?]

theorem map_handle_ofDesktop : (ofDesktop d).map (·.handle) = handles d := by
  rw [ofDesktop_eq h, List.map_map]
  rfl

theorem mem_ofDesktop {e : Export} :
    e ∈ ofDesktop d ↔ ∃ w ∈ d.windows, w.HasPixels ∧ ofWindow w = e := by
  rw [ofDesktop_eq h, List.mem_map]
  simp [and_assoc]

end Desktop

/-- What becomes of the images of some windows: they are in files of a directory, and nothing else
has changed. -/
structure IsPut (store : Bitmap → Except String FileContent) (names : List String)
    (exports : List Export) (before after : FileTree) : Prop where
  written : ∀ e ∈ exports, ∃ content, store e.image = .ok content ∧
    after.find? (names ++ [e.name]) = some (.file content)
  unchanged : ∀ other, (∀ e ∈ exports, other ≠ names ++ [e.name]) →
    after.find? other = before.find? other

variable {store : Bitmap → Except String FileContent} {directory : String} {names : List String}
  {t : FileTree}

theorem put_eq_ok {e : Export} {content : FileContent} (hstore : store e.image = .ok content)
    (hadmits : t.Admits directory names e.name) :
    put store directory names t e = .ok (t.set (names ++ [e.name]) (.file content)) := by
  unfold put path
  rw [hstore]
  simp [hadmits.check, hadmits.enter, FileTree.write_of_ne_directory content hadmits.notDirectory,
    Except.mapError]

theorem IsPut.cons {e : Export} {exports : List Export} {content : FileContent}
    {after : FileTree} (hnew : ∀ f ∈ exports, f.name ≠ e.name)
    (hstore : store e.image = .ok content)
    (h : IsPut store names exports (t.set (names ++ [e.name]) (.file content)) after) :
    IsPut store names (e :: exports) t after := by
  have hset (other : List String) : (t.set (names ++ [e.name]) (.file content)).find? other =
      if other = names ++ [e.name] then some (.file content) else t.find? other :=
    FileTree.find?_set _ (by simp)
  constructor
  · rintro f (_ | ⟨_, hf⟩)
    · refine ⟨content, hstore, ?_⟩
      rw [h.unchanged _ fun f hf => by simpa using (hnew f hf).symm, hset, if_pos rfl]
    · exact h.written f hf
  · intro other hother
    rw [h.unchanged other fun f hf => hother f (List.mem_cons_of_mem _ hf), hset,
      if_neg (hother e List.mem_cons_self)]

/-- Images of different windows, that can all be stored, are written one after the other without a
failure, and none takes the place of another. -/
theorem exists_each_put {exports : List Export} (hnodup : (exports.map (·.handle)).Nodup)
    (hstore : ∀ e ∈ exports, ∃ content, store e.image = .ok content)
    (hadmits : ∀ e ∈ exports, t.Admits directory names e.name) :
    ∃ after, t.each (put store directory names) exports = (after, .ok ()) ∧
      IsPut store names exports t after := by
  induction exports generalizing t with
  | nil => exact ⟨t, rfl, ⟨by simp, fun _ _ => rfl⟩⟩
  | cons e rest ih =>
    rw [List.map_cons, List.nodup_cons] at hnodup
    obtain ⟨content, hcontent⟩ := hstore e List.mem_cons_self
    obtain ⟨after, hputs, hput⟩ := ih hnodup.2
      (fun f hf => hstore f (List.mem_cons_of_mem _ hf))
      (fun f hf => (hadmits f (List.mem_cons_of_mem _ hf)).set content)
    have hnew : ∀ f ∈ rest, f.name ≠ e.name := fun f hf hname =>
      hnodup.1 (fileName_injective hname ▸ List.mem_map_of_mem hf)
    refine ⟨after, ?_, hput.cons hnew hcontent⟩
    rw [FileTree.each, put_eq_ok hcontent (hadmits e List.mem_cons_self)]
    exact hputs

theorem exists_writeAll_ofDesktop {d : Desktop α} (h : d.IsSorted) {place : List String}
    {made : FileTree} (hmade : t.makeDirectories place directory = (made, .ok names))
    (hstore : ∀ w ∈ d.windows, w.HasPixels → ∃ content, store w.canvas.surface = .ok content)
    (hwritable : ∀ w ∈ d.windows, w.HasPixels →
      t.CanHold place directory (fileName w.handle)) :
    ∃ after, writeAll store (ofDesktop d) place directory t =
        (after, .ok ((handles d).map fun handle => FileTree.join directory (fileName handle))) ∧
      IsPut store names (ofDesktop d) made after := by
  have hstores : ∀ e ∈ ofDesktop d, ∃ content, store e.image = .ok content := by
    intro e he
    obtain ⟨w, hw, hpixels, rfl⟩ := (mem_ofDesktop h).mp he
    exact hstore w hw hpixels
  have hadmits : ∀ e ∈ ofDesktop d, made.Admits directory names e.name := by
    intro e he
    obtain ⟨w, hw, hpixels, rfl⟩ := (mem_ofDesktop h).mp he
    exact (hwritable w hw hpixels).admits (isPlain_fileName w.handle) hmade
  have hnodup : ((ofDesktop d).map (·.handle)).Nodup := map_handle_ofDesktop h ▸ nodup_handles h
  have hpaths : (ofDesktop d).map (path directory) =
      (handles d).map fun handle => FileTree.join directory (fileName handle) := by
    rw [← map_handle_ofDesktop h, List.map_map]
    rfl
  obtain ⟨after, hputs, hput⟩ := exists_each_put hnodup hstores hadmits
  refine ⟨after, ?_, hput⟩
  unfold writeAll
  simp only [hmade, hputs, ← hpaths]
  rfl

theorem write_ofDesktop {d : Desktop α} {place : List String} {handle : UInt32}
    (hd : d.handles = [handle]) (h : t.CanHold place directory (fileName handle)) :
    (write (ofDesktop d) place directory t).2 = .ok () := by
  have hsorted : d.IsSorted := by
    unfold Desktop.IsSorted
    rw [hd]
    exact List.pairwise_singleton _ _
  have hwritable : ∀ w ∈ d.windows, w.HasPixels →
      t.CanHold place directory (fileName w.handle) := by
    intro w hw _
    have hmem : w.handle ∈ d.handles := List.mem_map_of_mem hw
    rw [hd, List.mem_singleton] at hmem
    rwa [hmem]
  have hkept : ∀ w ∈ d.windows, w.HasPixels → ∃ content, keep w.canvas.surface = .ok content :=
    fun _ _ _ => ⟨_, rfl⟩
  obtain ⟨made, names, target, hmade, -⟩ := id h
  obtain ⟨after, hwrites, -⟩ := exists_writeAll_ofDesktop hsorted hmade hkept hwritable
  unfold write
  rw [hwrites]
  rfl

end Export

def ImageFormat.store (format : ImageFormat) (b : Bitmap) : Except String FileContent :=
  (format.encode b.width b.height b.bytes).map .bytes

theorem ImageFormat.exists_store (format : ImageFormat) {b : Bitmap} (hwidth : b.width ≠ 0)
    (hheight : b.height ≠ 0) (harea : b.size.area ≤ PhysicalSize.maxArea) :
    ∃ file, format.store b = .ok (.bytes file) ∧
      format.decode? file = some (b.width, b.height, b.bytes) := by
  obtain ⟨file, hencode, hdecode⟩ := format.exists_encode hwidth hheight b.size_bytes harea
  exact ⟨file, by rw [store, hencode]; rfl, hdecode⟩

namespace Desktop

open Export

variable {α : Type} [Scalar α]

theorem area_le_of_mem_run (scale : α) (ops : List (WindowOp α)) :
    ∀ w ∈ (run { displayScale := scale } ops).windows,
      w.canvas.size.area ≤ PhysicalSize.maxArea := by
  intro w hw
  rcases hasShape_of_mem_run scale ops w hw with ⟨-, hunsized⟩ | ⟨_, _, -, hsized⟩
  · rw [hunsized.physical]
    exact Nat.zero_le _
  · exact hsized.area_le

/-- After any operations, on a display that may have reported anything, an export succeeds where the
files can be written. It gives one path for each live window that has any pixels, by ascending
handle; no two have the same name. Each file holds the size of its window and all its pixels, and
nothing but these files is touched. -/
theorem writeDesktop_complete (format : ImageFormat) {scale : α} {ops : List (WindowOp α)}
    {d : Desktop α} (hrun : run { displayScale := scale } ops = d) {t made : FileTree}
    {place names : List String} {directory : String}
    (hmade : t.makeDirectories place directory = (made, .ok names))
    (hwritable : ∀ w ∈ d.windows, w.HasPixels →
      t.CanHold place directory (fileName w.handle)) :
    ∃ (after : FileTree) (handles : List UInt32),
      writeDesktop format.store d place directory t =
        (after, .ok (handles.map fun handle => FileTree.join directory (fileName handle))) ∧
      handles.Pairwise (· < ·) ∧ (handles.map fileName).Nodup ∧
      (∀ handle, handle ∈ handles ↔ ∃ w, d.get? handle = some w ∧ w.HasPixels) ∧
      (∀ handle w, d.get? handle = some w → w.HasPixels →
        ∃ file, after.find? (names ++ [fileName handle]) = some (.file (.bytes file)) ∧
          format.decode? file =
            some (w.canvas.size.width, w.canvas.size.height, w.canvas.surface.bytes)) ∧
      ∀ other, (∀ handle ∈ handles, other ≠ names ++ [fileName handle]) →
        after.find? other = made.find? other := by
  have hsorted : d.IsSorted := by
    rw [← hrun]
    exact isSorted_run (d := { displayScale := scale }) .nil ops
  -- a surface has its number of bytes by its type, and its limit by how the desktop came about
  have hstored (w : Window α) (hw : w ∈ d.windows) (hpixels : w.HasPixels) :=
    format.exists_store hpixels.width hpixels.height (area_le_of_mem_run scale ops w (hrun ▸ hw))
  have hstore : ∀ w ∈ d.windows, w.HasPixels →
      ∃ content, format.store w.canvas.surface = .ok content := fun w hw hpixels =>
    (hstored w hw hpixels).imp' _ fun _ => And.left
  obtain ⟨after, hwrites, hput⟩ := exists_writeAll_ofDesktop hsorted hmade hstore hwritable
  refine ⟨after, Export.handles d, hwrites, pairwise_handles hsorted,
    (nodup_handles hsorted).map fun _ _ => fileName_injective, fun _ => Export.mem_handles hsorted,
    fun handle w hget hpixels => ?_, fun other hother => ?_⟩
  · obtain ⟨hw, rfl⟩ := get?_eq_some hget
    obtain ⟨content, hcontent, hfound⟩ :=
      hput.written (ofWindow w) ((mem_ofDesktop hsorted).mpr ⟨w, hw, hpixels, rfl⟩)
    obtain ⟨file, hstore, hdecode⟩ := hstored w hw hpixels
    obtain rfl := Except.ok.inj (hcontent.symm.trans hstore)
    exact ⟨file, hfound, hdecode⟩
  · refine hput.unchanged other fun e he => ?_
    obtain ⟨w, hw, hpixels, rfl⟩ := (mem_ofDesktop hsorted).mp he
    exact hother w.handle ((Export.mem_handles hsorted).mpr ⟨w, get?_of_mem hsorted hw, hpixels⟩)

/-- A window without a single row of pixels has no file. -/
theorem writeDesktop_complete_beside_empty :
    let d := run { displayScale := (3 / 2 : Rat) } [.create 12, .setSize 12 ⟨1, 1⟩, .create 3,
      .setSize 3 ⟨2, 0⟩, .create 7, .setSize 7 ⟨2, 1⟩, .show 7 (.solid 2 1 ⟨10, 20, 30, 255⟩)]
    FileTree.makeDirectories {} [] "" = ({}, .ok []) ∧
      (∀ w ∈ d.windows, w.HasPixels → FileTree.CanHold {} [] "" (fileName w.handle)) ∧
      ∃ (after : FileTree) (handles : List UInt32),
        writeDesktop Png.format.store d [] "" {} =
          (after, .ok (handles.map fun handle => FileTree.join "" (fileName handle))) ∧
        handles.Pairwise (· < ·) ∧ 3 ∉ handles ∧ 7 ∈ handles ∧ 12 ∈ handles ∧
        ∃ file, after.find? ["window-7.png"] = some (.file (.bytes file)) ∧
          (Png.decode? file).map (fun image => (image.1, image.2.1, image.2.2.data)) =
            some (3, 1, #[10, 20, 30, 255, 10, 20, 30, 255, 10, 20, 30, 255]) := by
  intro d
  have hhandles : d.handles = [3, 7, 12] := by decide +kernel
  have hempty : (d.get? 3).map (decide ·.HasPixels) = some false := by decide +kernel
  have hclear : (d.get? 12).map (decide ·.HasPixels) = some true := by decide +kernel
  have hshown : (d.get? 7).map
      (fun w => (decide w.HasPixels, w.canvas.size, w.canvas.surface.bytes.data)) =
      some (true, ⟨3, 1⟩, #[10, 20, 30, 255, 10, 20, 30, 255, 10, 20, 30, 255]) := by
    decide +kernel
  have hwritable : ∀ w ∈ d.windows, w.HasPixels →
      FileTree.CanHold {} [] "" (fileName w.handle) := by
    intro w hw _
    have hmem : w.handle ∈ d.handles := List.mem_map_of_mem hw
    rw [hhandles] at hmem
    simp only [List.mem_cons, List.not_mem_nil, or_false] at hmem
    rcases hmem with h | h | h <;> rw [h]
    all_goals
      refine ⟨{}, [], _, rfl, ?_, rfl, by decide⟩
      rw [FileTree.check, String.contains_char_eq]
      rfl
  obtain ⟨after, handles, hwrites, hsorted, -, hmem, hdecode, -⟩ :=
    writeDesktop_complete Png.format rfl rfl hwritable
  obtain ⟨u, hu, hupixels⟩ := Option.map_eq_some_iff.mp hempty
  obtain ⟨v, hv, hvpixels⟩ := Option.map_eq_some_iff.mp hclear
  obtain ⟨w, hw, hwimage⟩ := Option.map_eq_some_iff.mp hshown
  obtain ⟨hwpixels, hwimage⟩ := Prod.mk.inj hwimage
  obtain ⟨hwsize, hwbytes⟩ := Prod.mk.inj hwimage
  refine ⟨rfl, hwritable, after, handles, hwrites, hsorted, ?_, ?_, ?_, ?_⟩
  · rw [hmem]
    rintro ⟨other, hother, hpixels⟩
    obtain rfl := Option.some.inj (hu.symm.trans hother)
    exact of_decide_eq_false hupixels hpixels
  · exact (hmem 7).mpr ⟨w, hw, of_decide_eq_true hwpixels⟩
  · exact (hmem 12).mpr ⟨v, hv, of_decide_eq_true hvpixels⟩
  · obtain ⟨file, hfound, hfile⟩ := hdecode 7 w hw (of_decide_eq_true hwpixels)
    refine ⟨file, hfound, ?_⟩
    change Png.decode? file = _ at hfile
    rw [hfile, hwsize]
    simp [hwbytes]

end Desktop

end EngineBridge
