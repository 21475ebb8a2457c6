import EngineBridge.Call.Engine
import EngineBridge.Proofs.Call.Message
import EngineBridge.Proofs.Drawing.Bitmap
import EngineBridge.Proofs.Except
import EngineBridge.Proofs.Text.Base64

/-! What an engine calls is what its host reads, for every call: the text of its frame carries the
method and each argument without loss. -/
namespace EngineBridge

@[simp] theorem LogLevel.ofOrdinal_ordinal (level : LogLevel) :
    LogLevel.ofOrdinal level.ordinal = .ok level := by
  cases level <;> rfl

namespace EngineMethod

theorem mem_all (m : EngineMethod) : m ∈ all := by
  cases m <;> decide

theorem ofName?_name (m : EngineMethod) : ofName? m.name = some m := by
  cases m <;> decide

end EngineMethod

namespace Argument

variable (place : Argument)

@[simp] theorem int_of_isLong {n : Int} (h : Word.isLong n) : place.int (.int n) = .ok n := by
  simp [int, h]

@[simp] theorem unsigned_ofUInt32 (w : UInt32) : place.unsigned (.ofUInt32 w) = .ok w := by
  have hw := w.toNat_lt
  have hlong : Word.isLong w.toNat := decide_eq_true (by omega)
  rw [Json.ofUInt32, unsigned, int_of_isLong place hlong, ok_bind, Word.unsigned?_toNat]
  rfl

@[simp] theorem signed_toInt (w : Int32) : place.signed (.int w.toInt) = .ok w := by
  have hlow := w.le_toInt
  have hhigh := w.toInt_lt
  have hlong : Word.isLong w.toInt := decide_eq_true (by omega)
  rw [signed, int_of_isLong place hlong, ok_bind, Word.signed?_toInt]
  rfl

@[simp] theorem text_text (s : String) : place.text (.text s) = .ok s := rfl

@[simp] theorem level_ordinal (level : LogLevel) :
    place.level (.int level.ordinal) = .ok level := by
  cases level <;> rfl

@[simp] theorem decoded_encode (b : ByteArray) : place.decoded (Base64.encode b) = .ok b := by
  simp [decoded, Base64.decode_encode]

@[simp] theorem bytes_ofBytes (b : ByteArray) : place.bytes (.ofBytes b) = .ok b :=
  place.decoded_encode b

theorem dimension_of_field? {name : String} {v : Json} {w : UInt32}
    (h : v.field? name = some (.ofUInt32 w)) : place.dimension name v = .ok w := by
  have hint : (Json.ofUInt32 w).asInt? = some (w.toNat : Int) := rfl
  unfold dimension
  rw [h, Option.bind_some, hint, Option.bind_some, Word.unsigned?_toNat]

theorem bitmap_ofBitmap (b : Bitmap) :
    place.bitmap (.ofBitmap b) = Bitmap.ofBytes b.width b.height b.bytes := by
  have hwidth : place.dimension "width" (.ofBitmap b) = .ok b.width :=
    place.dimension_of_field? (by simp [Json.ofBitmap, Json.field?, List.lookup_cons])
  have hheight : place.dimension "height" (.ofBitmap b) = .ok b.height :=
    place.dimension_of_field? (by simp [Json.ofBitmap, Json.field?, List.lookup_cons])
  have hdata : ((Json.ofBitmap b).field? "data").bind Json.asText? =
      some (Base64.encode b.bytes) := by
    simp [Json.ofBitmap, Json.field?, Json.ofBytes, Json.asText?]
  obtain ⟨fields, hfields⟩ : ∃ fields, Json.ofBitmap b = .object fields := ⟨_, rfl⟩
  rw [hfields] at hwidth hheight hdata ⊢
  simp only [bitmap]
  rw [hwidth, ok_bind, hheight, ok_bind, hdata]
  simp only [decoded_encode, ok_bind]

end Argument

namespace EngineCall

/-- Whether the image that a call shows, if it shows any, can be made from bytes. -/
def HasValidImage : EngineCall → Prop
  | .windowShow _ b => ∃ width height bytes, Bitmap.ofBytes width height bytes = .ok b
  | _ => True

theorem decode_encode {call : EngineCall} (h : call.HasValidImage) :
    decode call.encode = .ok call := by
  unfold decode encode
  rw [EngineMethod.ofName?_name]
  cases call with
  | windowShow handle b =>
    obtain ⟨width, height, bytes, hmade⟩ := h
    have hb : Bitmap.ofBytes b.width b.height b.bytes = .ok b :=
      Bitmap.ofBytes_eq_ok.mpr ⟨(Bitmap.ofBytes_eq_ok.mp hmade).1, rfl, rfl, rfl⟩
    simp [ofArgs, args, method, Argument.bitmap_ofBitmap, hb]
  | _ => simp [ofArgs, args, method]

theorem isExact_ofUInt32 (w : UInt32) : (Json.ofUInt32 w).IsExact := by
  have hw := w.toNat_lt
  rw [Json.ofUInt32, Json.IsExact]
  omega

theorem areExact_args (call : EngineCall) : Json.AreExact call.args := by
  cases call with
  | log level message => cases level <;> simp [args, Json.AreExact, Json.IsExact, LogLevel.ordinal]
  | exit code =>
    have hlow := code.le_toInt
    have hhigh := code.toInt_lt
    simp only [args, Json.AreExact, Json.IsExact, and_true]
    omega
  | _ =>
    simp [args, Json.AreExact, isExact_ofUInt32, Json.ofBytes, Json.ofBitmap, Json.IsExact,
      Json.FieldsExact]

theorem isOrdered_ofBitmap (b : Bitmap) : (Json.ofBitmap b).IsOrdered := by
  have hnames : ["data", "height", "width"].Pairwise (· < ·) := by decide
  exact ⟨hnames, trivial, trivial, trivial, trivial⟩

theorem areOrdered_args (call : EngineCall) : Json.AreOrdered call.args := by
  cases call with
  | windowShow handle b => exact ⟨trivial, isOrdered_ofBitmap b, trivial⟩
  | _ => simp [args, Json.AreOrdered, Json.IsOrdered, Json.ofUInt32, Json.ofBytes]

theorem itemsDepth_args_le (call : EngineCall) : Json.itemsDepth call.args ≤ 1 := by
  cases call <;>
    simp [args, Json.itemsDepth, Json.depth, Json.ofUInt32, Json.ofBytes, Json.ofBitmap,
      Json.fieldsDepth]

theorem parse_frame_eq (call : EngineCall) : Message.parse call.frame = .ok call.encode :=
  Message.parse_render call.areExact_args call.areOrdered_args
    (Nat.le_trans call.itemsDepth_args_le (by decide))

/-- Every call arrives as it was made. -/
theorem parse_frame (call : EngineCall) (h : call.HasValidImage) :
    ∃ m, Message.parse call.frame = .ok m ∧ decode m = .ok call ∧ m.method = call.method.name ∧
      m.method ∈ EngineMethod.all.map EngineMethod.name :=
  ⟨call.encode, call.parse_frame_eq, decode_encode h, rfl,
    List.mem_map_of_mem call.method.mem_all⟩

theorem parse_frame_show :
    (windowShow 7 (.solid 1 1 ⟨1, 2, 3, 4⟩)).HasValidImage ∧
      ∃ m, Message.parse (windowShow 7 (.solid 1 1 ⟨1, 2, 3, 4⟩)).frame = .ok m ∧
        decode m = .ok (windowShow 7 (.solid 1 1 ⟨1, 2, 3, 4⟩)) ∧ m.method = "window_show" ∧
        m.method ∈ EngineMethod.all.map EngineMethod.name :=
  have h : (windowShow 7 (.solid 1 1 ⟨1, 2, 3, 4⟩)).HasValidImage :=
    ⟨_, _, _, Bitmap.ofBytes_eq_ok.mpr ⟨by decide, rfl, rfl, rfl⟩⟩
  ⟨h, parse_frame _ h⟩

end EngineCall

end EngineBridge
