import EngineBridge.Proofs.Application
import EngineBridge.Proofs.Demo.Pieces
import EngineBridge.Proofs.Desktop.Geometry
import EngineBridge.Proofs.Routing

/-! What the built-in engine leaves behind once its host has made all its calls. -/
namespace EngineBridge

namespace Demo

variable (e : EngineSettings)

def frameCalls (i : Nat) : List EngineCall :=
  .windowShow window (image e (.ofNat i)) ::
    (pieces (line e.program (i + 1))).map EngineCall.write ++
      [.log .debug s!"presented frame {i + 1}"]

def closingCalls : List EngineCall :=
  [.log .info s!"{e.frames} frames rendered", .exit 0]

theorem calls_append (front back : List Action) :
    calls e (front ++ back) = calls e front ++ calls e back :=
  List.filterMap_append

theorem calls_map_send (sent : List EngineCall) : calls e (sent.map Action.send) = sent := by
  unfold calls
  rw [List.filterMap_map]
  exact List.filterMap_some

theorem calls_frameActions (i : Nat) : calls e (frameActions e i) = frameCalls e i := by
  rw [frameActions_eq, List.cons_append, writes_eq, ← List.singleton_append, calls_append,
    calls_append, calls_map_send]
  rfl

def lines : List String := (List.range e.frames.toNat).map fun i => line e.program (i + 1)

end Demo

open Demo

theorem Application.calls_body (s : Settings) : calls s.engine (body s.engine) =
    openingCalls s ++ (List.range s.engine.frames.toNat).flatMap (frameCalls s.engine) ++
      closingCalls s.engine := by
  have hbody : body s.engine = (openingCalls s).map Action.send ++
      (List.range s.engine.frames.toNat).flatMap (frameActions s.engine) ++
        (closingCalls s.engine).map Action.send := rfl
  have hframes : calls s.engine
      ((List.range s.engine.frames.toNat).flatMap (frameActions s.engine)) =
      (List.range s.engine.frames.toNat).flatMap (frameCalls s.engine) := by
    unfold calls
    rw [List.filterMap_flatMap]
    exact congrArg (List.flatMap · _) (funext (calls_frameActions s.engine))
  rw [hbody, calls_append, calls_append, calls_map_send, calls_map_send, hframes]

theorem Demo.exists_writes (s : Settings) {i : Nat} (hi : i < s.engine.frames.toNat) :
    ∃ first second, first ++ second = (line s.engine.program (i + 1)).toUTF8 ∧
      Utf8.EndsInsideCharacter first.data.toList ∧ 0 < second.size ∧
        [.write first, .write second] <:+: calls s.engine (body s.engine) := by
  obtain ⟨first, second, hpieces, hinside, hsize⟩ := pieces_line s.engine.program (i + 1)
  have hjoin := join_pieces (line s.engine.program (i + 1))
  rw [hpieces, List.foldl_cons, List.foldl_cons, List.foldl_nil, ByteArray.empty_append] at hjoin
  have hframe : [.write first, .write second] <:+: frameCalls s.engine i := by
    rw [frameCalls, hpieces]
    exact ⟨[_], [_], rfl⟩
  have hframes : frameCalls s.engine i <:+:
      (List.range s.engine.frames.toNat).flatMap (frameCalls s.engine) := by
    rw [List.flatMap_def]
    exact List.infix_of_mem_flatten (List.mem_map_of_mem (List.mem_range.mpr hi))
  refine ⟨first, second, hjoin, hinside, hsize, ?_⟩
  rw [Application.calls_body]
  exact (hframe.trans hframes).trans ⟨_, _, rfl⟩

namespace Session

open Update

theorem Routes.performed {scale : Float} {calls : List EngineCall}
    (h : ∀ taken call later, taken ++ call :: later = calls →
      ((Session.perform call).apply ((new scale).performed taken)).2 = .ok ()) :
    Routes ((new scale).performed calls) calls := by
  suffices hfirst : ∀ taken later, taken ++ later = calls →
      Routes ((new scale).performed taken) taken from hfirst calls [] (List.append_nil calls)
  intro taken
  induction taken using List.reverseRecOn with
  | nil => exact fun _ _ => routes_new scale
  | append_singleton taken call ih =>
    intro later hcalls
    rw [List.append_assoc] at hcalls
    have hroutes := (ih _ hcalls).perform (run_of_snd_apply (h taken call later hcalls))
    rwa [Session.performed, List.foldl_append]

end Session

theorem Desktop.infos_of_step_show {d d' : Desktop Float} (hsorted : d.IsSorted) {handle : UInt32}
    {bitmap : Bitmap} (h : Step d (.show handle bitmap) d') : d'.infos = d.infos := by
  cases h with
  | @«show» _ w hget =>
    have hw : w ∈ d.windows := List.mem_of_find?_eq_some hget
    have hsame := w.sameGeometry_present bitmap
    have hinfo : (w.present bitmap).info = w.info := by
      simp only [Window.info, hsame.handle, hsame.styleSize, hsame.size, hsame.scaleFactor]
      rfl
    unfold infos replace
    rw [List.map_map]
    refine List.map_congr_left fun v hv => ?_
    dsimp only [Function.comp]
    split
    · rename_i hhandle
      have hnodup : d.handles.Nodup := hsorted.imp fun hlt => UInt32.ne_of_lt hlt
      rw [List.inj_on_of_nodup_map hnodup hv hw (hhandle.trans hsame.handle)]
      exact hinfo
    · rfl

namespace Session

open Update

theorem infos_of_run_perform {s s' : Session} (hsorted : s.desktop.IsSorted) {call : EngineCall}
    (hcall : call.changesWindows = false) (hrun : (perform call).run s = .ok () s') :
    s'.desktop.infos = s.desktop.infos := by
  cases call with
  | windowCreate | windowSetTitle | windowSetSize | windowDestroy => cases hcall
  | windowShow handle bitmap =>
    change (onDesktop (.show handle bitmap)).run s = _ at hrun
    unfold onDesktop at hrun
    rw [run_onPart] at hrun
    split at hrun
    · rename_i d hd
      cases hrun
      exact Desktop.infos_of_step_show hsorted (Desktop.step_of_run_perform hd)
    · cases hrun
  | log level message =>
    cases hrun
    unfold log
    split <;> rfl
  | write bytes =>
    cases hrun
    exact congrArg Desktop.infos (desktop_tellOutput _ _)
  | exit code =>
    cases hrun
    exact congrArg Desktop.infos (desktop_tellOutput _ _)

variable {s : Settings}

/-- The engine's window, as its first three calls leave it. -/
def presented (s : Settings) : Window.Info Float where
  handle := window
  title := title s.engine.program
  logical := ⟨s.engine.width, s.engine.height⟩
  physical := .ofLogical ⟨s.engine.width, s.engine.height⟩ s.display.scaleFactor
  scaleFactor := s.display.scaleFactor

theorem infos_openingCalls (hrange : s.InRange) (hfits : s.Fits) :
    ((new s.display.scaleFactor).performed (Application.openingCalls s)).desktop.infos =
      [presented s] := by
  let setTitle : Update (Desktop Float) Unit :=
    Desktop.perform (.setTitle window (title s.engine.program))
  let setSize : Update (Desktop Float) Unit :=
    Desktop.perform (.setSize window ⟨s.engine.width, s.engine.height⟩)
  let created : Desktop Float :=
    (Desktop.perform (.create window)).after (new s.display.scaleFactor).desktop
  let titled : Desktop Float := {
    windows := [{ Window.new window with title := title s.engine.program }]
    displayScale := s.display.scaleFactor
    changes := 2 }
  have hdesktop : ((new s.display.scaleFactor).performed (Application.openingCalls s)).desktop =
      setSize.after (setTitle.after created) := by
    simp only [performed, Application.openingCalls, List.foldl_cons, List.foldl_nil]
    exact (desktop_after_onDesktop _ _).trans
      (congrArg setSize.after ((desktop_after_onDesktop _ _).trans
        (congrArg setTitle.after (desktop_after_onDesktop _ _))))
  have htitled : setTitle.after created = titled := rfl
  have hfactor : titled.scaleFactor = s.display.scaleFactor :=
    Desktop.scaleFactor_of_inRange hrange rfl
  have hlimit : (PhysicalSize.ofLogical ⟨s.engine.width, s.engine.height⟩
    s.display.scaleFactor).checkLimit = .ok () := hfits
  have hsized : setSize.run titled = .ok () { titled with
      windows := [(Window.new window).resized ⟨s.engine.width, s.engine.height⟩
        s.display.scaleFactor |> fun w => { w with title := title s.engine.program }]
      changes := 3 } := by
    change (Desktop.setSize _ _).run titled = _
    rw [Desktop.run_setSize, hfactor, hlimit]
    rfl
  rw [hdesktop, htitled, after_of_run_ok hsized]
  rfl

theorem infos_performed {session : Session} (hsorted : session.desktop.IsSorted)
    {calls : List EngineCall} (hcalls : ∀ call ∈ calls, call.changesWindows = false)
    (h : ∀ taken call later, taken ++ call :: later = calls →
      ((perform call).apply (session.performed taken)).2 = .ok ()) :
    (session.performed calls).desktop.infos = session.desktop.infos := by
  induction calls generalizing session with
  | nil => rfl
  | cons call rest ih =>
    rw [List.forall_mem_cons] at hcalls
    have haccepted := h [] call rest rfl
    have hsorted' : ((perform call).after session).desktop.IsSorted :=
      keeps_isSorted_perform call session hsorted
    refine (ih hsorted' hcalls.2 fun taken next later hrest => ?_).trans
      (infos_of_run_perform hsorted hcalls.1 (run_of_snd_apply haccepted))
    exact h (call :: taken) next later (by rw [← hrest, List.cons_append])

end Session

namespace Demo

variable (s : Settings)

def beforeExit : List EngineCall :=
  Application.openingCalls s ++ (List.range s.engine.frames.toNat).flatMap (frameCalls s.engine) ++
      [.log .info s!"{s.engine.frames} frames rendered"]

theorem calls_eq_beforeExit : calls s.engine (body s.engine) = beforeExit s ++ [.exit 0] := by
  rw [Application.calls_body, beforeExit, closingCalls]
  simp

variable (e : EngineSettings) (i : Nat)

theorem written_frameCalls :
    (frameCalls e i).filterMap EngineCall.written? = pieces (line e.program (i + 1)) := by
  have hwrites (bytes : List ByteArray) :
      (bytes.map EngineCall.write).filterMap EngineCall.written? = bytes := by
    rw [List.filterMap_map]
    exact List.filterMap_some
  rw [frameCalls, List.cons_append, List.filterMap_cons_none rfl, List.filterMap_append, hwrites]
  exact List.append_nil _

theorem records_frameCalls :
    (frameCalls e i).filterMap EngineCall.record? = [(.debug, s!"presented frame {i + 1}")] := by
  have hwrites (bytes : List ByteArray) :
      (bytes.map EngineCall.write).filterMap EngineCall.record? = [] := by
    rw [List.filterMap_map]
    exact List.filterMap_eq_nil_iff.mpr fun _ _ => rfl
  rw [frameCalls, List.cons_append, List.filterMap_cons_none rfl, List.filterMap_append, hwrites]
  rfl

theorem frameCalls_quiet : ∀ call ∈ frameCalls e i,
    call.exitCode? = none ∧ call.changesWindows = false := by
  rw [frameCalls, List.forall_mem_append, List.forall_mem_cons, List.forall_mem_map]
  exact ⟨⟨⟨rfl, rfl⟩, fun _ _ => ⟨rfl, rfl⟩⟩, List.forall_mem_singleton.mpr ⟨rfl, rfl⟩⟩

theorem foldl_flatMap_pieces (lines : List String) :
    (lines.flatMap pieces).foldl (· ++ ·) .empty = (String.join lines).toUTF8 := by
  induction lines with
  | nil => rfl
  | cons line rest ih =>
    have hassoc : Std.Associative (α := ByteArray) (· ++ ·) := ⟨fun _ _ _ => ByteArray.append_assoc⟩
    rw [List.flatMap_cons, List.foldl_append, join_pieces, ← ByteArray.append_empty (b := line.toUTF8),
      List.foldl_assoc, ih, String.join_cons]
    exact String.toByteArray_append.symm

theorem exitCode?_beforeExit : ∀ call ∈ beforeExit s, call.exitCode? = none := by
  rw [beforeExit, List.forall_mem_append, List.forall_mem_append, List.forall_mem_flatMap,
    List.forall_mem_singleton]
  refine ⟨⟨?_, fun i _ call hcall => (frameCalls_quiet _ i call hcall).1⟩, rfl⟩
  simp [Application.openingCalls, EngineCall.exitCode?]

theorem writtenSinceExit_beforeExit :
    writtenSinceExit (beforeExit s) = (String.join (lines s.engine)).toUTF8 := by
  have hwritten : (beforeExit s).filterMap EngineCall.written? = (lines s.engine).flatMap pieces := by
    rw [beforeExit, List.filterMap_append, List.filterMap_append, List.filterMap_flatMap, lines,
      List.flatMap_map]
    simp only [written_frameCalls]
    exact List.append_nil _
  rw [writtenSinceExit_eq (exitCode?_beforeExit s), hwritten, foldl_flatMap_pieces]

theorem records_calls : (calls s.engine (body s.engine)).filterMap EngineCall.record? =
    (List.range s.engine.frames.toNat).map (fun i => (.debug, s!"presented frame {i + 1}")) ++
      [(.info, s!"{s.engine.frames} frames rendered")] := by
  rw [calls_eq_beforeExit, beforeExit, List.filterMap_append, List.filterMap_append,
    List.filterMap_append, List.filterMap_flatMap]
  simp only [records_frameCalls, ← List.map_eq_flatMap]
  exact List.append_nil _

theorem countP_changesWindows_calls :
    (calls s.engine (body s.engine)).countP EngineCall.changesWindows = 3 := by
  have hframes : ((List.range s.engine.frames.toNat).flatMap (frameCalls s.engine)).countP
      EngineCall.changesWindows = 0 := by
    rw [List.countP_eq_zero, List.forall_mem_flatMap]
    intro i _ call hcall
    rw [(frameCalls_quiet _ i call hcall).2]
    exact nofun
  rw [Application.calls_body, List.countP_append, List.countP_append, hframes]
  rfl

theorem replacement_notMem_line (program : DemoProgram) (frame : Nat) :
    '\uFFFD' ∉ (line program frame).toList := by
  have htext (text : String) : toString text = text := rfl
  have hdigits : '\uFFFD' ∉ Nat.toDigits 10 frame := fun h =>
    absurd (Nat.isDigit_of_mem_toDigits (by decide) (by decide) h) (by decide)
  have htitle : '\uFFFD' ∉ (title program).toList := by cases program <;> decide
  simp [line, htext, hdigits, htitle]

end Demo

/-- What is left of the built-in engine at the end. -/
structure Session.HasPresented (s : Settings) (session : Session) : Prop where
  windows : session.desktop.infos = [presented s]
  changes : session.events.toList.count .windowsChanged = 3
  stdout : String.join (session.events.toList.filterMap HostEvent.stdout?) =
    String.join (lines s.engine)
  noReplacement : '\uFFFD' ∉ (String.join (lines s.engine)).toList
  records : session.records.toList =
    (List.range s.engine.frames.toNat).map (fun i => (.debug, s!"presented frame {i + 1}")) ++
      [(.info, s!"{s.engine.frames} frames rendered")]
  errors : session.events.toList.filterMap HostEvent.error? = []
  exitCode : session.exitCode = some 0

namespace Session

variable {s : Settings} (hrange : s.InRange) (hfits : s.Fits)

include hrange hfits

theorem infos_performed_calls : ((new s.display.scaleFactor).performed
    (calls s.engine (body s.engine))).desktop.infos = [presented s] := by
  let later := (List.range s.engine.frames.toNat).flatMap (frameCalls s.engine) ++
    closingCalls s.engine
  have hcalls : calls s.engine (body s.engine) = Application.openingCalls s ++ later := by
    rw [Application.calls_body, List.append_assoc]
  have hquiet : ∀ call ∈ later, call.changesWindows = false := by
    rw [List.forall_mem_append, List.forall_mem_flatMap]
    exact ⟨fun i _ call hcall => (frameCalls_quiet _ i call hcall).2, by
      simp [closingCalls, EngineCall.changesWindows]⟩
  have hopen : (new s.display.scaleFactor).performed (Application.openingCalls s) |>.IsOpen s :=
    (isOpen_performed hrange hfits hcalls.symm (List.cons_ne_nil _ _)).1
  rw [hcalls, performed, List.foldl_append, ← infos_openingCalls hrange hfits]
  refine infos_performed hopen.isSorted hquiet fun taken call rest hrest => ?_
  have hsplit : Application.openingCalls s ++ taken ++ call :: rest =
      calls s.engine (body s.engine) := by
    rw [hcalls, ← hrest, List.append_assoc]
  have haccepted := snd_apply_perform hrange hfits hsplit
  rwa [performed, List.foldl_append] at haccepted

theorem hasPresented : ((new s.display.scaleFactor).performed
    (calls s.engine (body s.engine))).HasPresented s := by
  have hroutes := Routes.performed fun taken call later hcalls =>
    snd_apply_perform hrange hfits hcalls
  have hwindows := infos_performed_calls hrange hfits
  have hcode := (performed_calls hrange hfits).2
  generalize (new s.display.scaleFactor).performed (calls s.engine (body s.engine)) = session
    at hroutes hwindows hcode ⊢
  have haccounts := hroutes.accounts
  rw [calls_eq_beforeExit] at haccounts
  obtain ⟨before, told, hevents, hbefore, hexit⟩ := haccounts.of_concat
  have hstdout := hbefore.join_stdout (exitCode?_beforeExit s)
  rw [writtenSinceExit_beforeExit, Utf8.settled_toUTF8] at hstdout
  rw [writtenSinceExit_beforeExit] at hexit
  -- the last line ends with a whole character, so that the exit has nothing to flush
  have htold : told = [.exited 0] := by
    cases hexit with
    | exit => rfl
    | exitInside hinside => exact absurd hinside (Utf8.not_endsInsideCharacter_toUTF8 _)
  have herrors := hroutes.accounts.errors_eq
  rw [records_calls] at herrors
  exact {
    windows := hwindows
    changes := hroutes.accounts.count_windowsChanged.trans (countP_changesWindows_calls s)
    stdout := by
      rw [hevents, htold, List.filterMap_append, String.join_append, hstdout]
      exact String.append_empty
    noReplacement := by
      rw [String.toList_join, lines, List.flatMap_map, List.mem_flatMap]
      rintro ⟨i, -, h⟩
      exact replacement_notMem_line _ _ h
    records := hroutes.records_eq.trans (records_calls s)
    errors := by
      rw [herrors]
      simp
    exitCode := hcode }

end Session

end EngineBridge
