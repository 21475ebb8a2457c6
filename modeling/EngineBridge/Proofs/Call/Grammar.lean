import EngineBridge.Proofs.Call.Canonical

/-! The grammar of calls. Each method has its places for arguments, and each place its own form.
Messages of that form are read as calls, and for every other one the fault that is reported is the
leftmost. -/
namespace EngineBridge

inductive ArgumentKind where
  | word
  | text
  | level
  | code
  | bytes
  | bitmap
  deriving DecidableEq, Repr

inductive ArgumentValue where
  | word (w : UInt32)
  | text (s : String)
  | level (level : LogLevel)
  | code (code : Int32)
  | bytes (bytes : ByteArray)
  | bitmap (bitmap : Bitmap)

/-- Whether a value has the fields of a bitmap, each of its own type. The number of bytes may be
wrong for the size, and the size too large. -/
structure Json.Describes (v : Json) (width height : UInt32) (bytes : ByteArray) : Prop where
  width : v.field? "width" = some (.int width.toNat)
  height : v.field? "height" = some (.int height.toNat)
  data : v.field? "data" = some (.text (Base64.encode bytes))

namespace ArgumentKind

/-- Which values are well formed for a place of each kind, and what they stand for. -/
inductive Denotes : ArgumentKind → Json → ArgumentValue → Prop
  | word (w : UInt32) : Denotes .word (.int w.toNat) (.word w)
  | text (s : String) : Denotes .text (.text s) (.text s)
  | level (level : LogLevel) : Denotes .level (.int level.ordinal) (.level level)
  | code (code : Int32) : Denotes .code (.int code.toInt) (.code code)
  | bytes (bytes : ByteArray) : Denotes .bytes (.text (Base64.encode bytes)) (.bytes bytes)
  | bitmap {v : Json} {b : Bitmap} (h : v.Describes b.width b.height b.bytes)
      (harea : b.size.area ≤ PhysicalSize.maxArea) : Denotes .bitmap v (.bitmap b)

def IsWellFormed (kind : ArgumentKind) (v : Json) : Prop := ∃ value, kind.Denotes v value

/-- Whether the type of a value is right for the place. Levels are integers of 64 signed bits. -/
def IsWellTyped : ArgumentKind → Json → Prop
  | .level, v => ∃ n, v = .int n ∧ Word.isLong n
  | .bitmap, v => ∃ width height bytes, v.Describes width height bytes
  | kind, v => kind.IsWellFormed v

/-- Which fault is reported of a value that is not well formed. Only levels and bitmaps can have
the right type without being well formed. -/
inductive Faults (place : Argument) : ArgumentKind → Json → Violation → Prop
  | badArgument {kind : ArgumentKind} {v : Json} (h : ¬kind.IsWellTyped v) (reason : ArgumentFault) :
    Faults place kind v (.badArgument place.method place.index reason)
  | unknownLevel {n : Int} (hlong : Word.isLong n) (h : n < 1 ∨ 5 < n) :
    Faults place .level (.int n) (.unknownLevel n)
  | surfaceTooLarge {v : Json} {width height : UInt32} {bytes : ByteArray}
      (h : v.Describes width height bytes)
      (harea : PhysicalSize.maxArea < width.toNat * height.toNat) :
    Faults place .bitmap v (.surfaceTooLarge width height PhysicalSize.maxArea)
  | bitmapSize {v : Json} {width height : UInt32} {bytes : ByteArray}
      (h : v.Describes width height bytes)
      (harea : width.toNat * height.toNat ≤ PhysicalSize.maxArea)
      (hsize : bytes.size ≠ 4 * (width.toNat * height.toNat)) :
    Faults place .bitmap v
      (.bitmapSize width height (4 * (width.toNat * height.toNat)) bytes.size)

end ArgumentKind

def EngineMethod.kinds : EngineMethod → List ArgumentKind
  | .windowCreate => [.word]
  | .windowSetTitle => [.word, .text]
  | .windowSetSize => [.word, .word, .word]
  | .windowShow => [.word, .bitmap]
  | .windowDestroy => [.word]
  | .log => [.level, .text]
  | .write => [.bytes]
  | .exit => [.code]

def EngineCall.values : EngineCall → List ArgumentValue
  | .windowCreate handle => [.word handle]
  | .windowSetTitle handle title => [.word handle, .text title]
  | .windowSetSize handle size => [.word handle, .word size.width, .word size.height]
  | .windowShow handle bitmap => [.word handle, .bitmap bitmap]
  | .windowDestroy handle => [.word handle]
  | .log level message => [.level level, .text message]
  | .write bytes => [.bytes bytes]
  | .exit code => [.code code]

theorem EngineCall.eq_of_values {call other : EngineCall} (hmethod : call.method = other.method)
    (hvalues : call.values = other.values) : call = other := by
  cases call <;> cases other <;> cases hmethod
  case windowSetSize.windowSetSize.refl handle size other otherSize =>
    cases size
    cases otherSize
    simp_all [values]
  all_goals simp_all [values]

theorem LogLevel.of_ofOrdinal_eq_error {n : Int} {e : Violation} (h : ofOrdinal n = .error e) :
    e = .unknownLevel n ∧ (n < 1 ∨ 5 < n) := by
  unfold ofOrdinal at h
  split at h
  · cases h
  · rename_i hnone
    cases h
    have hother (level : LogLevel) : level.ordinal ≠ n := by
      have hlevel := List.find?_eq_none.mp hnone level (by cases level <;> decide)
      simpa using hlevel
    have hnot : ¬(n = 1 ∨ n = 2 ∨ n = 3 ∨ n = 4 ∨ n = 5) := by
      rintro (rfl | rfl | rfl | rfl | rfl)
      exacts [hother .debug rfl, hother .log rfl, hother .info rfl, hother .warn rfl,
        hother .error rfl]
    exact ⟨rfl, by omega⟩

theorem Bitmap.of_ofBytes_eq_error {width height : UInt32} {bytes : ByteArray} {e : Violation}
    (h : ofBytes width height bytes = .error e) :
    (e = .surfaceTooLarge width height PhysicalSize.maxArea ∧
        PhysicalSize.maxArea < width.toNat * height.toNat) ∨
      (e = .bitmapSize width height (4 * (width.toNat * height.toNat)) bytes.size ∧
        width.toNat * height.toNat ≤ PhysicalSize.maxArea ∧
        bytes.size ≠ 4 * (width.toNat * height.toNat)) := by
  unfold ofBytes PhysicalSize.checkLimit at h
  split at h
  · rename_i harea
    cases h
    exact .inl ⟨rfl, harea⟩
  · rename_i harea
    rw [ok_bind] at h
    split at h
    · cases h
    · rename_i hsize
      cases h
      exact .inr ⟨rfl, Nat.not_lt.mp harea, hsize⟩

namespace Argument

def Blames {α : Type} (place : Argument) (x : Except Violation α) : Prop :=
  ∀ e, x = .error e → ∃ reason, e = .badArgument place.method place.index reason

variable {place : Argument} {v : Json} {α β : Type}

theorem blames_ok (a : α) : place.Blames (.ok a) := nofun

theorem blames_fault (reason : ArgumentFault) : place.Blames (place.fault reason : Except _ α) := by
  rintro e ⟨⟩
  exact ⟨reason, rfl⟩

theorem Blames.bind {x : Except Violation α} {f : α → Except Violation β} (hx : place.Blames x)
    (hf : ∀ a, x = .ok a → place.Blames (f a)) : place.Blames (x >>= f) := by
  cases x with
  | error e => exact fun _ h => hx _ (by cases h; rfl)
  | ok a => exact hf a rfl

theorem blames_int : place.Blames (place.int v) := by
  unfold int
  split
  · split
    · exact blames_ok _
    · exact blames_fault _
  · exact blames_fault _

theorem blames_unsigned : place.Blames (place.unsigned v) :=
  blames_int.bind fun n _ => by
    split
    · exact blames_ok _
    · exact blames_fault _

theorem blames_signed : place.Blames (place.signed v) :=
  blames_int.bind fun n _ => by
    split
    · exact blames_ok _
    · exact blames_fault _

theorem blames_text : place.Blames (place.text v) := by
  unfold text
  split
  · exact blames_ok _
  · exact blames_fault _

theorem blames_decoded {s : String} : place.Blames (place.decoded s) := by
  unfold decoded
  split
  · exact blames_ok _
  · exact blames_fault _

theorem blames_bytes : place.Blames (place.bytes v) := by
  unfold bytes
  split
  · exact blames_decoded
  · exact blames_fault _

theorem blames_dimension {name : String} : place.Blames (place.dimension name v) := by
  unfold dimension
  split
  · exact blames_ok _
  · exact blames_fault _

theorem bitmap_of_describes {width height : UInt32} {bytes : ByteArray}
    (h : v.Describes width height bytes) :
    place.bitmap v = Bitmap.ofBytes width height bytes := by
  have hdata : (v.field? "data").bind Json.asText? = some (Base64.encode bytes) := by
    rw [h.data]
    rfl
  cases v with
  | object fields =>
    simp only [bitmap]
    rw [place.dimension_of_field? h.width, ok_bind, place.dimension_of_field? h.height, ok_bind,
      hdata]
    simp only [decoded_encode, ok_bind]
  | _ => cases h.width

theorem blames_bitmap (h : ∀ width height bytes, ¬v.Describes width height bytes) :
    place.Blames (place.bitmap v) := by
  unfold bitmap
  split
  · refine blames_dimension.bind fun width hwidth => blames_dimension.bind fun height hheight => ?_
    split
    · exact blames_fault _
    · rename_i data hdata
      refine blames_decoded.bind fun bytes hbytes => absurd ?_ (h width height bytes)
      obtain ⟨u, hu, htext⟩ := Option.bind_eq_some_iff.mp hdata
      cases u <;> cases htext
      refine ⟨dimension_eq_ok.mp hwidth, dimension_eq_ok.mp hheight, ?_⟩
      rw [hu, decoded_eq_ok.mp hbytes]
  · exact blames_fault _

theorem bitmap_eq_ok {b : Bitmap} :
    place.bitmap v = .ok b ↔
      v.Describes b.width b.height b.bytes ∧ b.size.area ≤ PhysicalSize.maxArea := by
  constructor
  · intro h
    obtain ⟨harea, hdata, hheight, hwidth⟩ := of_bitmap_eq_ok h
    exact ⟨⟨hwidth, hheight, hdata⟩, harea⟩
  · rintro ⟨hfields, harea⟩
    rw [bitmap_of_describes hfields]
    exact Bitmap.ofBytes_eq_ok.mpr ⟨harea, rfl, rfl, rfl⟩

end Argument

namespace ArgumentKind

def read (place : Argument) : ArgumentKind → Json → Except Violation ArgumentValue
  | .word, v => return .word (← place.unsigned v)
  | .text, v => return .text (← place.text v)
  | .level, v => return .level (← place.level v)
  | .code, v => return .code (← place.signed v)
  | .bytes, v => return .bytes (← place.bytes v)
  | .bitmap, v => return .bitmap (← place.bitmap v)

variable {place : Argument} {kind : ArgumentKind} {v : Json}

theorem read_eq_ok {value : ArgumentValue} :
    kind.read place v = .ok value ↔ kind.Denotes v value := by
  cases kind <;>
    simp only [read, bind_eq_ok, pure_eq_ok, Except.ok.injEq, Argument.unsigned_eq_ok,
      Argument.text_eq_ok, Argument.level_eq_ok, Argument.signed_eq_ok, Argument.bytes_eq_ok,
      Argument.bitmap_eq_ok]
  case bitmap =>
    constructor
    · rintro ⟨b, ⟨h, harea⟩, rfl⟩
      exact .bitmap h harea
    · rintro ⟨⟩
      exact ⟨_, ⟨‹_›, ‹_›⟩, rfl⟩
  all_goals
    constructor
    · rintro ⟨_, rfl, rfl⟩
      constructor
    · rintro ⟨⟩
      exact ⟨_, rfl, rfl⟩

theorem exists_read_eq_ok : (∃ value, kind.read place v = .ok value) ↔ kind.IsWellFormed v := by
  simp only [read_eq_ok, IsWellFormed]

theorem not_isWellFormed_of_read_eq_error {e : Violation} (h : kind.read place v = .error e) :
    ¬kind.IsWellFormed v := by
  have hnone : ¬∃ value, kind.read place v = .ok value := by
    rw [h]
    exact nofun
  exact fun hwell => hnone (exists_read_eq_ok.mpr hwell)

theorem of_bind_pure_eq_error {α : Type} {x : Except Violation α} {f : α → ArgumentValue}
    {e : Violation} (h : (do return f (← x)) = Except.error e) : x = .error e := by
  cases x with
  | error => cases h; rfl
  | ok a => cases h

/-- Where the type of a value decides, the reader names the place. -/
theorem faults_of_blames {α : Type} {x : Except Violation α} {e : Violation}
    (h : ¬kind.IsWellTyped v) (hblames : place.Blames x) (he : x = .error e) :
    kind.Faults place v e := by
  obtain ⟨reason, rfl⟩ := hblames e he
  exact .badArgument h reason

theorem faults_of_read_eq_error {e : Violation} (h : kind.read place v = .error e) :
    Faults place kind v e := by
  have hnot := not_isWellFormed_of_read_eq_error h
  cases kind with
  | word => exact faults_of_blames hnot Argument.blames_unsigned (of_bind_pure_eq_error h)
  | text => exact faults_of_blames hnot Argument.blames_text (of_bind_pure_eq_error h)
  | code => exact faults_of_blames hnot Argument.blames_signed (of_bind_pure_eq_error h)
  | bytes => exact faults_of_blames hnot Argument.blames_bytes (of_bind_pure_eq_error h)
  | level =>
    have hlevel : place.level v = .error e := of_bind_pure_eq_error h
    by_cases htyped : ∃ n, v = .int n ∧ Word.isLong n
    · obtain ⟨n, rfl, hlong⟩ := htyped
      rw [Argument.level, place.int_of_isLong hlong, ok_bind] at hlevel
      obtain ⟨rfl, hrange⟩ := LogLevel.of_ofOrdinal_eq_error hlevel
      exact .unknownLevel hlong hrange
    · refine faults_of_blames htyped (Argument.blames_int.bind fun n hn => ?_) hlevel
      exact absurd ⟨n, Argument.int_eq_ok.mp hn⟩ htyped
  | bitmap =>
    have hbitmap : place.bitmap v = .error e := of_bind_pure_eq_error h
    by_cases htyped : ∃ width height bytes, v.Describes width height bytes
    · obtain ⟨width, height, bytes, hfields⟩ := htyped
      rw [Argument.bitmap_of_describes hfields] at hbitmap
      obtain ⟨rfl, harea⟩ | ⟨rfl, harea, hsize⟩ := Bitmap.of_ofBytes_eq_error hbitmap
      · exact .surfaceTooLarge hfields harea
      · exact .bitmapSize hfields harea hsize
    · refine faults_of_blames htyped (Argument.blames_bitmap fun width height bytes hfields => ?_)
        hbitmap
      exact htyped ⟨width, height, bytes, hfields⟩

end ArgumentKind

namespace ArgumentKind

def readAll (method : String) (index : Nat) :
    List (ArgumentKind × Json) → Except Violation (List ArgumentValue)
  | [] => return []
  | (kind, v) :: rest => do
    let value ← kind.read ⟨method, index⟩ v
    return value :: (← readAll method (index + 1) rest)

variable {method : String} {index : Nat} {positions : List (ArgumentKind × Json)}

theorem readAll_eq_ok {values : List ArgumentValue} :
    readAll method index positions = .ok values ↔
      List.Forall₂ (fun p value => p.1.Denotes p.2 value) positions values := by
  induction positions generalizing index values with
  | nil =>
    simp [readAll, eq_comm]
  | cons p rest ih =>
    simp only [readAll, bind_eq_ok, read_eq_ok, ih, pure_eq_ok, Except.ok.injEq]
    constructor
    · rintro ⟨value, hvalue, others, hothers, rfl⟩
      exact .cons hvalue hothers
    · rintro (_ | ⟨hvalue, hothers⟩)
      exact ⟨_, hvalue, _, hothers, rfl⟩

/-- The leftmost of the values that are not well formed, and what is reported of it. -/
def FaultsFirst (method : String) (index : Nat) (positions : List (ArgumentKind × Json))
    (e : Violation) : Prop :=
  ∃ front kind v rest, positions = front ++ (kind, v) :: rest ∧
    (∀ p ∈ front, p.1.IsWellFormed p.2) ∧ ¬kind.IsWellFormed v ∧
    Faults ⟨method, index + front.length⟩ kind v e

theorem faultsFirst_of_readAll_eq_error {e : Violation}
    (h : readAll method index positions = .error e) : FaultsFirst method index positions e := by
  induction positions generalizing index with
  | nil => cases h
  | cons p rest ih =>
    obtain ⟨kind, v⟩ := p
    rw [readAll] at h
    cases hread : kind.read ⟨method, index⟩ v with
    | error other =>
      rw [hread] at h
      cases h
      exact ⟨[], kind, v, rest, rfl, nofun, not_isWellFormed_of_read_eq_error hread,
        faults_of_read_eq_error hread⟩
    | ok value =>
      rw [hread, ok_bind] at h
      cases hrest : readAll method (index + 1) rest with
      | ok values =>
        rw [hrest] at h
        cases h
      | error other =>
        rw [hrest] at h
        cases h
        obtain ⟨front, kind', v', rest', rfl, hfront, hnot, hfaults⟩ := ih hrest
        refine ⟨(kind, v) :: front, kind', v', rest', rfl, ?_, hnot, ?_⟩
        · rintro p (_ | hp)
          · exact exists_read_eq_ok.mp ⟨value, hread⟩
          · exact hfront p ‹_›
        · rw [List.length_cons]
          rw [Nat.add_right_comm] at hfaults
          exact hfaults

theorem exists_readAll_eq_ok :
    (∃ values, readAll method index positions = .ok values) ↔
      ∀ p ∈ positions, p.1.IsWellFormed p.2 := by
  constructor
  · rintro ⟨values, hvalues⟩
    have hboth := (readAll_eq_ok.mp hvalues).imp fun p value h =>
      (⟨⟨value, h⟩, h⟩ : p.1.IsWellFormed p.2 ∧ p.1.Denotes p.2 value)
    exact ((List.forall₂_and_left positions values).mp hboth).1
  · intro h
    cases hread : readAll method index positions with
    | ok values => exact ⟨values, rfl⟩
    | error e =>
      obtain ⟨front, kind, v, rest, rfl, -, hnot, -⟩ := faultsFirst_of_readAll_eq_error hread
      exact absurd (h (kind, v) (by simp)) hnot

theorem Faults.ne_arity {place : Argument} {kind : ArgumentKind} {v : Json} {e : Violation}
    (h : kind.Faults place v e) (name : String) (expected got : Nat) :
    e ≠ .arity name expected got := by
  cases h <;> exact nofun

theorem Faults.ne_unknownMethod {place : Argument} {kind : ArgumentKind} {v : Json} {e : Violation}
    (h : kind.Faults place v e) (name : String) : e ≠ .unknownMethod name := by
  cases h <;> exact nofun

end ArgumentKind

namespace EngineCall

variable {method : EngineMethod} {args : List Json} {call : EngineCall}

theorem ofArgs_of_length_ne (h : args.length ≠ method.arity) :
    ofArgs method args = .error (.arity method.name method.arity args.length) := by
  unfold ofArgs
  dsimp only
  split
  case h_9 => rfl
  all_goals exact absurd rfl h

theorem method_of_ofArgs_eq_ok (h : ofArgs method args = .ok call) : call.method = method := by
  unfold ofArgs at h
  dsimp only at h
  split at h <;> simp only [bind_eq_ok, pure_eq_ok, Except.ok.injEq, reduceCtorEq] at h
  case h_2 | h_4 | h_6 =>
    obtain ⟨_, -, _, -, rfl⟩ := h
    rfl
  case h_3 =>
    obtain ⟨_, -, _, -, _, -, rfl⟩ := h
    rfl
  all_goals
    obtain ⟨_, -, rfl⟩ := h
    rfl

theorem map_values_ofArgs (h : args.length = method.arity) :
    values <$> ofArgs method args = ArgumentKind.readAll method.name 0 (method.kinds.zip args) := by
  cases method with
  | windowCreate | windowDestroy | write | exit =>
    obtain ⟨v, rfl⟩ := List.length_eq_one_iff.mp h
    simp [ofArgs, ArgumentKind.readAll, ArgumentKind.read, EngineMethod.kinds, values]
  | windowSetTitle | windowShow | log =>
    obtain ⟨v, w, rfl⟩ := List.length_eq_two.mp h
    simp [ofArgs, ArgumentKind.readAll, ArgumentKind.read, EngineMethod.kinds, values]
  | windowSetSize =>
    obtain ⟨u, v, w, rfl⟩ := List.length_eq_three.mp h
    simp [ofArgs, ArgumentKind.readAll, ArgumentKind.read, EngineMethod.kinds, values]

theorem ofArgs_eq_ok (h : args.length = method.arity) :
    ofArgs method args = .ok call ↔
      call.method = method ∧
        List.Forall₂ (fun p value => p.1.Denotes p.2 value) (method.kinds.zip args) call.values := by
  have hvalues : values <$> ofArgs method args = .ok call.values ↔
      List.Forall₂ (fun p value => p.1.Denotes p.2 value) (method.kinds.zip args) call.values := by
    rw [map_values_ofArgs h]
    exact ArgumentKind.readAll_eq_ok
  rw [← hvalues]
  cases hread : ofArgs method args with
  | error e => simp
  | ok found =>
    have hmethod := method_of_ofArgs_eq_ok hread
    simp only [Except.ok.injEq, Except.map_ok]
    constructor
    · rintro rfl
      exact ⟨hmethod, rfl⟩
    · rintro ⟨hcall, hvalues⟩
      exact eq_of_values (hmethod.trans hcall.symm) hvalues

theorem faultsFirst_of_ofArgs_eq_error {e : Violation} (h : args.length = method.arity)
    (he : ofArgs method args = .error e) :
    ArgumentKind.FaultsFirst method.name 0 (method.kinds.zip args) e := by
  apply ArgumentKind.faultsFirst_of_readAll_eq_error
  rw [← map_values_ofArgs h, he]
  rfl

theorem exists_ofArgs_eq_ok (h : args.length = method.arity) :
    (∃ call, ofArgs method args = .ok call) ↔
      ∀ p ∈ method.kinds.zip args, p.1.IsWellFormed p.2 := by
  have hall : (∃ found, values <$> ofArgs method args = .ok found) ↔
      ∀ p ∈ method.kinds.zip args, p.1.IsWellFormed p.2 := by
    rw [map_values_ofArgs h]
    exact ArgumentKind.exists_readAll_eq_ok
  rw [← hall]
  cases ofArgs method args <;> simp

theorem ofArgs_eq_arity {expected got : Nat} {name : String} :
    ofArgs method args = .error (.arity name expected got) ↔
      args.length ≠ method.arity ∧ name = method.name ∧ expected = method.arity ∧
        got = args.length := by
  by_cases h : args.length = method.arity
  · simp only [h, ne_eq, not_true_eq_false, false_and, iff_false]
    intro he
    obtain ⟨front, kind, v, rest, -, -, -, hfaults⟩ := faultsFirst_of_ofArgs_eq_error h he
    exact hfaults.ne_arity _ _ _ rfl
  · rw [ofArgs_of_length_ne h]
    grind

theorem ofArgs_ne_unknownMethod (name : String) :
    ofArgs method args ≠ .error (.unknownMethod name) := by
  intro he
  by_cases h : args.length = method.arity
  · obtain ⟨front, kind, v, rest, -, -, -, hfaults⟩ := faultsFirst_of_ofArgs_eq_error h he
    exact hfaults.ne_unknownMethod _ rfl
  · rw [ofArgs_of_length_ne h] at he
    cases he

variable {m : Message}

theorem decode_of_name (h : method.name = m.method) : decode m = ofArgs method m.args := by
  unfold decode
  rw [← h, EngineMethod.ofName?_name]

theorem decode_eq_unknownMethod {name : String} :
    decode m = .error (.unknownMethod name) ↔
      m.method ∉ EngineMethod.all.map EngineMethod.name ∧ name = m.method := by
  unfold decode
  cases hmethod : EngineMethod.ofName? m.method with
  | none =>
    have hnone : m.method ∉ EngineMethod.all.map EngineMethod.name := by
      rintro hmem
      obtain ⟨method, -, hname⟩ := List.mem_map.mp hmem
      rw [← hname, EngineMethod.ofName?_name] at hmethod
      cases hmethod
    simp [hnone, eq_comm]
  | some method =>
    have hmem := List.mem_map_of_mem (f := EngineMethod.name) method.mem_all
    rw [name_of_ofName? hmethod] at hmem
    simp [hmem, ofArgs_ne_unknownMethod]

end EngineCall

end EngineBridge
