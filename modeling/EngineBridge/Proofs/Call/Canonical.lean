import EngineBridge.Proofs.Call.Engine
import EngineBridge.Proofs.Text.Base64Canonical

/-! The messages of calls are canonical: what is read as a call is the message that the call is
sent as. Only a bitmap may carry more, in fields that nothing reads. -/
namespace EngineBridge

def Json.bitmapNames : List String := ["data", "height", "width"]

/-- A value without the fields that no reader of arguments looks at. -/
def Json.trimmed : Json → Json
  | .object fields => .object (fields.filter (·.1 ∈ bitmapNames))
  | v => v

def Message.trimmed (m : Message) : Message := { m with args := m.args.map Json.trimmed }

theorem LogLevel.ofOrdinal_eq_ok {n : Int} {level : LogLevel} :
    ofOrdinal n = .ok level ↔ n = level.ordinal := by
  constructor
  · intro h
    unfold ofOrdinal at h
    split at h
    · rename_i found hfound
      cases h
      have hordinal := List.find?_some hfound
      exact (of_decide_eq_true hordinal).symm
    · cases h
  · rintro rfl
    exact ofOrdinal_ordinal level

namespace Argument

variable {place : Argument} {v : Json}

theorem int_eq_ok {n : Int} : place.int v = .ok n ↔ v = .int n ∧ Word.isLong n := by
  cases v with
  | int i =>
    by_cases hlong : Word.isLong i
    · rw [place.int_of_isLong hlong, Except.ok.injEq, Json.int.injEq, iff_self_and]
      rintro rfl
      exact hlong
    · simp only [int, if_neg hlong, fault, reduceCtorEq, Json.int.injEq, false_iff, not_and]
      rintro rfl
      exact hlong
  | _ => simp [int, fault]

theorem unsigned_eq_ok {w : UInt32} : place.unsigned v = .ok w ↔ v = .ofUInt32 w := by
  constructor
  · intro h
    obtain ⟨n, hn, hword⟩ := bind_eq_ok.mp h
    obtain ⟨rfl, -⟩ := int_eq_ok.mp hn
    split at hword
    · rename_i hw
      cases hword
      rw [Word.unsigned?_eq_some hw, Json.ofUInt32]
    · cases hword
  · rintro rfl
    exact unsigned_ofUInt32 place w

theorem signed_eq_ok {w : Int32} : place.signed v = .ok w ↔ v = .int w.toInt := by
  constructor
  · intro h
    obtain ⟨n, hn, hword⟩ := bind_eq_ok.mp h
    obtain ⟨rfl, -⟩ := int_eq_ok.mp hn
    split at hword
    · rename_i hw
      cases hword
      rw [Word.signed?_eq_some hw]
    · cases hword
  · rintro rfl
    exact signed_toInt place w

theorem text_eq_ok {s : String} : place.text v = .ok s ↔ v = .text s := by
  cases v <;> simp [text, fault]

theorem level_eq_ok {level : LogLevel} : place.level v = .ok level ↔ v = .int level.ordinal := by
  constructor
  · intro h
    obtain ⟨n, hn, hlevel⟩ := bind_eq_ok.mp h
    obtain ⟨rfl, -⟩ := int_eq_ok.mp hn
    rw [LogLevel.ofOrdinal_eq_ok.mp hlevel]
  · rintro rfl
    exact level_ordinal place level

theorem decoded_eq_ok {s : String} {b : ByteArray} :
    place.decoded s = .ok b ↔ s = Base64.encode b := by
  rw [← Base64.decode_eq_ok]
  unfold decoded
  cases Base64.decode s <;> simp [fault]

theorem bytes_eq_ok {b : ByteArray} : place.bytes v = .ok b ↔ v = .ofBytes b := by
  cases v with
  | text s => simp [bytes, decoded_eq_ok, Json.ofBytes]
  | _ => simp [bytes, fault, Json.ofBytes]

theorem dimension_eq_ok {name : String} {w : UInt32} :
    place.dimension name v = .ok w ↔ v.field? name = some (.ofUInt32 w) := by
  constructor
  · intro h
    unfold dimension at h
    split at h
    · rename_i found hfound
      cases h
      obtain ⟨n, hn, hw⟩ := Option.bind_eq_some_iff.mp hfound
      obtain ⟨u, hu, hn⟩ := Option.bind_eq_some_iff.mp hn
      cases u <;> cases hn
      rw [hu, Word.unsigned?_eq_some hw, Json.ofUInt32]
    · cases h
  · exact dimension_of_field? place

theorem of_bitmap_eq_ok {b : Bitmap} (h : place.bitmap v = .ok b) :
    b.size.area ≤ PhysicalSize.maxArea ∧ v.field? "data" = some (.ofBytes b.bytes) ∧
      v.field? "height" = some (.ofUInt32 b.height) ∧
      v.field? "width" = some (.ofUInt32 b.width) := by
  unfold bitmap at h
  split at h
  · obtain ⟨width, hwidth, h⟩ := bind_eq_ok.mp h
    obtain ⟨height, hheight, h⟩ := bind_eq_ok.mp h
    split at h
    · cases h
    · rename_i data hdata
      obtain ⟨bytes, hbytes, h⟩ := bind_eq_ok.mp h
      obtain ⟨harea, rfl, rfl, rfl⟩ := Bitmap.ofBytes_eq_ok.mp h
      obtain ⟨u, hu, htext⟩ := Option.bind_eq_some_iff.mp hdata
      cases u <;> cases htext
      refine ⟨harea, ?_, dimension_eq_ok.mp hheight, dimension_eq_ok.mp hwidth⟩
      rw [hu, decoded_eq_ok.mp hbytes, Json.ofBytes]
  · cases h

end Argument

namespace Json

theorem field?_trimmed {name : String} (h : name ∈ bitmapNames) (v : Json) :
    v.trimmed.field? name = v.field? name := by
  cases v with
  | object fields =>
    simp only [trimmed, field?]
    induction fields with
    | nil => rfl
    | cons p rest ih =>
      rw [List.filter_cons]
      split
      · rw [List.lookup_cons, List.lookup_cons, ih]
      · rename_i hp
        have hne : (name == p.1) = false := beq_false_of_ne fun heq => hp (heq ▸ decide_eq_true h)
        rw [ih, List.lookup_cons, hne]
  | _ => rfl

theorem trimmed_eq_ofBitmap {v : Json} {b : Bitmap} (h : v.IsOrdered)
    (hdata : v.field? "data" = some (.ofBytes b.bytes))
    (hheight : v.field? "height" = some (.ofUInt32 b.height))
    (hwidth : v.field? "width" = some (.ofUInt32 b.width)) : v.trimmed = .ofBitmap b := by
  cases v with
  | object fields =>
    rw [field?] at hdata hheight hwidth
    refine congrArg object (eq_of_mem_iff ?_ (EngineCall.isOrdered_ofBitmap b).1 fun p => ?_)
    · exact h.1.sublist (List.filter_sublist.map Prod.fst)
    obtain ⟨name, x⟩ := p
    rw [List.mem_filter, ← lookup_eq_some h.1]
    constructor
    · rintro ⟨hx, hname⟩
      simp only [bitmapNames, List.mem_cons, List.not_mem_nil, or_false, decide_eq_true_eq] at hname
      rcases hname with rfl | rfl | rfl
      · rw [hdata] at hx
        cases hx
        exact .head _
      · rw [hheight] at hx
        cases hx
        exact .tail _ (.head _)
      · rw [hwidth] at hx
        cases hx
        exact .tail _ (.tail _ (.head _))
    · intro hmem
      simp only [List.mem_cons, Prod.mk.injEq, List.not_mem_nil, or_false] at hmem
      rcases hmem with ⟨rfl, rfl⟩ | ⟨rfl, rfl⟩ | ⟨rfl, rfl⟩
      · exact ⟨hdata, rfl⟩
      · exact ⟨hheight, rfl⟩
      · exact ⟨hwidth, rfl⟩
  | _ => cases hdata

end Json

namespace Argument

variable (place : Argument) (v : Json)

theorem unsigned_trimmed : place.unsigned v.trimmed = place.unsigned v := by
  cases v <;> rfl

theorem signed_trimmed : place.signed v.trimmed = place.signed v := by
  cases v <;> rfl

theorem text_trimmed : place.text v.trimmed = place.text v := by
  cases v <;> rfl

theorem level_trimmed : place.level v.trimmed = place.level v := by
  cases v <;> rfl

theorem bytes_trimmed : place.bytes v.trimmed = place.bytes v := by
  cases v <;> rfl

theorem bitmap_trimmed : place.bitmap v.trimmed = place.bitmap v := by
  have hdimension (name : String) (h : name ∈ Json.bitmapNames) :
      place.dimension name v.trimmed = place.dimension name v := by
    unfold dimension
    rw [Json.field?_trimmed h]
  have hdata := Json.field?_trimmed (show "data" ∈ Json.bitmapNames by decide) v
  have hwidth := hdimension "width" (by decide)
  have hheight := hdimension "height" (by decide)
  cases v with
  | object fields =>
    rw [Json.trimmed] at hdata hwidth hheight ⊢
    simp only [bitmap]
    rw [hdata, hwidth, hheight]
  | _ => rfl

end Argument

namespace EngineCall

theorem ofArgs_trimmed (method : EngineMethod) (args : List Json) :
    ofArgs method (args.map Json.trimmed) = ofArgs method args := by
  cases method <;>
    match args with
    | [] | [_] | [_, _] | [_, _, _] | _ :: _ :: _ :: _ :: _ =>
      simp [ofArgs, Argument.unsigned_trimmed, Argument.signed_trimmed, Argument.text_trimmed,
        Argument.level_trimmed, Argument.bytes_trimmed, Argument.bitmap_trimmed]

theorem of_ofArgs_eq_ok {method : EngineMethod} {args : List Json} {call : EngineCall}
    (ho : Json.AreOrdered args) (h : ofArgs method args = .ok call) :
    call.HasValidImage ∧ call.method = method ∧ call.args = args.map Json.trimmed := by
  unfold ofArgs at h
  dsimp only at h
  -- what is read is what is sent again, but for bitmaps, which may have had other fields
  split at h <;>
    simp only [bind_eq_ok, pure_eq_ok, Except.ok.injEq, Argument.unsigned_eq_ok,
      Argument.signed_eq_ok, Argument.text_eq_ok, Argument.level_eq_ok, Argument.bytes_eq_ok,
      reduceCtorEq] at h
  case h_1 handle =>
    obtain ⟨_, rfl, rfl⟩ := h
    exact ⟨trivial, rfl, rfl⟩
  case h_2 handle title =>
    obtain ⟨_, rfl, _, rfl, rfl⟩ := h
    exact ⟨trivial, rfl, rfl⟩
  case h_3 handle width height =>
    obtain ⟨_, rfl, _, rfl, _, rfl, rfl⟩ := h
    exact ⟨trivial, rfl, rfl⟩
  case h_4 handle bitmap =>
    obtain ⟨_, rfl, b, hb, rfl⟩ := h
    obtain ⟨harea, hdata, hheight, hwidth⟩ := Argument.of_bitmap_eq_ok hb
    refine ⟨⟨_, _, _, Bitmap.ofBytes_eq_ok.mpr ⟨harea, rfl, rfl, rfl⟩⟩, rfl, ?_⟩
    rw [List.map_cons, List.map_cons, Json.trimmed_eq_ofBitmap ho.2.1 hdata hheight hwidth]
    rfl
  case h_5 handle =>
    obtain ⟨_, rfl, rfl⟩ := h
    exact ⟨trivial, rfl, rfl⟩
  case h_6 level message =>
    obtain ⟨_, rfl, _, rfl, rfl⟩ := h
    exact ⟨trivial, rfl, rfl⟩
  case h_7 bytes =>
    obtain ⟨_, rfl, rfl⟩ := h
    exact ⟨trivial, rfl, rfl⟩
  case h_8 code =>
    obtain ⟨_, rfl, rfl⟩ := h
    exact ⟨trivial, rfl, rfl⟩

theorem name_of_ofName? {name : String} {method : EngineMethod}
    (h : EngineMethod.ofName? name = some method) : method.name = name := by
  have hfound := List.find?_some h
  exact of_decide_eq_true hfound

theorem decode_trimmed (m : Message) : decode m.trimmed = decode m := by
  unfold decode Message.trimmed
  cases EngineMethod.ofName? m.method with
  | none => rfl
  | some method => exact ofArgs_trimmed method m.args

/-- A message is read as a call if it is, but for extra fields, the one that is sent for it. -/
theorem decode_eq_ok {m : Message} {call : EngineCall} (ho : Json.AreOrdered m.args) :
    decode m = .ok call ↔ call.HasValidImage ∧ call.encode = m.trimmed := by
  constructor
  · intro h
    unfold decode at h
    split at h
    · rename_i method hmethod
      obtain ⟨himage, rfl, hargs⟩ := of_ofArgs_eq_ok ho h
      refine ⟨himage, ?_⟩
      rw [encode, Message.trimmed, name_of_ofName? hmethod, hargs]
    · cases h
  · rintro ⟨himage, hencode⟩
    rw [← decode_trimmed, ← hencode]
    exact decode_encode himage

theorem encode_of_ofFrame {frame : String} {call : EngineCall} (h : ofFrame frame = .ok call) :
    ∃ m, Message.parse frame = .ok m ∧ call.encode = m.trimmed := by
  obtain ⟨m, hm, hcall⟩ := bind_eq_ok.mp h
  exact ⟨m, hm, ((decode_eq_ok (Message.areOrdered_of_parse hm)).mp hcall).2⟩

end EngineCall

/-- Whether each argument has a single form in which it is read. -/
structure Argument.ReadsOneForm (place : Argument) : Prop where
  unsigned : ∀ v w, place.unsigned v = .ok w ↔ v = .int w.toNat
  signed : ∀ v w, place.signed v = .ok w ↔ v = .int w.toInt
  level : ∀ v level, place.level v = .ok level ↔ v = .int level.ordinal
  dimension : ∀ name v w, place.dimension name v = .ok w ↔ v.field? name = some (.int w.toNat)
  bytes : ∀ v bytes, place.bytes v = .ok bytes ↔ v = .text (Base64.encode bytes)

theorem Argument.readsOneForm (place : Argument) : place.ReadsOneForm where
  unsigned _ _ := unsigned_eq_ok
  signed _ _ := signed_eq_ok
  level _ _ := level_eq_ok
  dimension _ _ _ := dimension_eq_ok
  bytes _ _ := bytes_eq_ok

namespace EngineCall

/-- What is read as a call is what is sent for it, if extra fields of bitmaps are left out. So no
two messages without such fields are read as one call, and neither numbers nor base64 leave a
choice. Fields must be in order for two messages to be the same, and in frames they are. -/
theorem decode_canonical :
    (∀ m call, Json.AreOrdered m.args →
      (decode m = .ok call ↔ call.HasValidImage ∧ call.encode = m.trimmed)) ∧
    (∀ frame call, ofFrame frame = .ok call →
      ∃ m, Message.parse frame = .ok m ∧ call.encode = m.trimmed) ∧
    (∀ m other call, Json.AreOrdered m.args → Json.AreOrdered other.args → m.trimmed = m →
      other.trimmed = other → decode m = .ok call → decode other = .ok call → m = other) ∧
    (∀ place : Argument, place.ReadsOneForm) ∧
    ∀ text bytes, Base64.decode text = .ok bytes ↔ text = Base64.encode bytes := by
  refine ⟨fun m call ho => decode_eq_ok ho, fun frame call h => encode_of_ofFrame h, ?_,
    Argument.readsOneForm, fun text bytes => Base64.decode_eq_ok⟩
  intro m other call hm hother htrimmed hotherTrimmed hcall hotherCall
  rw [← htrimmed, ← hotherTrimmed, ← ((decode_eq_ok hm).mp hcall).2,
    ← ((decode_eq_ok hother).mp hotherCall).2]

theorem decode_canonical_show :
    let call := windowShow 7 (.solid 1 1 ⟨1, 2, 3, 4⟩)
    let m : Message := ⟨"window_show", [.int 7, .object [("alt", .text "a pixel"),
      ("data", .text "AQIDBA=="), ("height", .int 1), ("width", .int 1)]]⟩
    Json.AreOrdered m.args ∧ decode m = .ok call ∧ call.encode = m.trimmed := by
  intro call m
  have hordered : Json.AreOrdered m.args := by
    have hnames : ["alt", "data", "height", "width"].Pairwise (· < ·) := by decide
    exact ⟨trivial, ⟨hnames, trivial, trivial, trivial, trivial, trivial⟩, trivial⟩
  have hdecode : decode m = .ok call := by rfl
  exact ⟨hordered, hdecode, ((decode_canonical.1 m call hordered).mp hdecode).2⟩

end EngineCall

end EngineBridge
