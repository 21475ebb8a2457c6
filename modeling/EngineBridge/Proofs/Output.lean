import EngineBridge.Proofs.Journal
import EngineBridge.Proofs.Session
import EngineBridge.Proofs.Text.Settling

/-! Output over whole runs. An engine's exits cut what it writes into segments, and what its
application is told into as many. No output is lost, made up or carried over from one segment to
the next, whatever else happens between the writes. -/
namespace EngineBridge

def Stimulus.call? : Stimulus → Option EngineCall
  | .frame text => (EngineCall.ofFrame text).toOption
  | .call c => some c
  | .display _ => none

/-- A stream that is cut where an engine exits. -/
structure Segments (β : Type) where
  closed : List (β × Int32) := []
  current : β

namespace Segments

def add {β : Type} [Append β] (piece : β) (r : Segments β) : Segments β :=
  { r with current := r.current ++ piece }

def close {β : Type} (code : Int32) (next : β) (r : Segments β) : Segments β where
  closed := r.closed ++ [(r.current, code)]
  current := next

def afterCall (r : Segments ByteArray) : EngineCall → Segments ByteArray
  | .write bytes => r.add bytes
  | .exit code => r.close code .empty
  | .windowCreate _ | .windowSetTitle _ _ | .windowSetSize _ _ | .windowShow _ _
  | .windowDestroy _ | .log _ _ => r

def afterEvent (r : Segments String) : HostEvent → Segments String
  | .stdout text => r.add text
  | .exited code => r.close code ""
  | .windowsChanged | .error _ => r

/-- The text of each closed segment, had its bytes been there in one piece. -/
def decodeClosed (r : Segments ByteArray) : List (String × Int32) :=
  r.closed.map fun (bytes, code) => (Utf8.decodeAll bytes, code)

end Segments

namespace Session

open Update Utf8

/-- What was written by the calls that went through. -/
def written (done : List (Entry Session Stimulus)) : Segments ByteArray :=
  (done.filterMap (·.input.call?)).foldl Segments.afterCall { current := .empty }

/-- What the application was told of the output. -/
def told (s : Session) : Segments String :=
  s.events.toList.foldl Segments.afterEvent { current := "" }

theorem written_concat (done : List (Entry Session Stimulus)) (e : Entry Session Stimulus) :
    written (done ++ [e]) = e.input.call?.elim (written done) (written done).afterCall := by
  unfold written
  rw [List.filterMap_append, List.foldl_append]
  cases h : e.input.call? <;> simp [h]

theorem told_tell (s : Session) (event : HostEvent) :
    (s.tell event).told = s.told.afterEvent event := by
  simp [told, tell]

theorem told_tellOutput (s : Session) (text : String) :
    (s.tellOutput text).told = s.told.add text := by
  unfold tellOutput
  split
  · rename_i h
    rw [String.isEmpty_iff.mp h, Segments.add, String.append_empty]
  · exact told_tell s (.stdout text)

theorem output_tellOutput (s : Session) (text : String) :
    (s.tellOutput text).output = s.output := by
  unfold tellOutput
  split <;> rfl

theorem write_eq (s : Session) (bytes : ByteArray) :
    s.write bytes =
      { s with output := (s.output.decode bytes).1 }.tellOutput (s.output.decode bytes).2 := rfl

theorem exit_eq (s : Session) (code : Int32) :
    s.exit code = ({ s with output := {}, exitCode := some code }.tellOutput
      s.output.finish.2).tell (.exited code) := rfl

structure SameOutput (s s' : Session) : Prop where
  output_eq : s'.output = s.output
  told_eq : s'.told = s.told
  mem_events : ∀ text, .stdout text ∈ s'.events → .stdout text ∈ s.events

theorem sameOutput_withDesktop (desktop : Desktop Float) (s : Session) :
    SameOutput s (s.withDesktop desktop) where
  output_eq := rfl
  told_eq := by
    unfold told withDesktop
    rw [Array.toList_append, List.foldl_append, Array.toList_replicate]
    induction desktop.changes - s.desktop.changes with
    | zero => rfl
    | succ n ih => rwa [List.replicate_succ, List.foldl_cons]
  mem_events text h := by
    simpa [withDesktop] using h

theorem sameOutput_of_run_onDesktop {s s' : Session} {op : WindowOp Float}
    (h : (onDesktop op).run s = .ok () s') : SameOutput s s' := by
  unfold onDesktop at h
  rw [run_onPart] at h
  split at h
  · cases h
    exact sameOutput_withDesktop _ s
  · cases h

theorem sameOutput_log (s : Session) (level : LogLevel) (message : String) :
    SameOutput s (s.log level message) := by
  unfold log
  split
  · exact ⟨rfl, told_tell _ _, fun text h => by simpa [tell] using h⟩
  · exact ⟨rfl, rfl, fun _ h => h⟩

structure HasTold (s : Session) (written : Segments ByteArray) : Prop where
  closed_eq : s.told.closed = written.decodeClosed
  hasRead : Decoder.HasRead written.current.data.toList s.output s.told.current
  held_suffix : s.output.held <:+ written.current.data.toList
  no_empty : .stdout "" ∉ s.events

variable {s s' : Session} {r : Segments ByteArray}

theorem hasTold_new (scale : Float) : HasTold (new scale) { current := .empty } where
  closed_eq := rfl
  hasRead := Decoder.hasRead_nil
  held_suffix := List.nil_suffix
  no_empty := by simp [new]

theorem HasTold.of_sameOutput (h : HasTold s r) (hsame : SameOutput s s') : HasTold s' r where
  closed_eq := by rw [hsame.told_eq, h.closed_eq]
  hasRead := by
    rw [hsame.output_eq, hsame.told_eq]
    exact h.hasRead
  held_suffix := by
    rw [hsame.output_eq]
    exact h.held_suffix
  no_empty hmem := h.no_empty (hsame.mem_events "" hmem)

theorem stdout_empty_mem_tellOutput {text : String} :
    .stdout "" ∈ (s.tellOutput text).events ↔ .stdout "" ∈ s.events := by
  unfold tellOutput
  split
  · rfl
  · rename_i htext
    have hne : "" ≠ text := fun heq => htext (String.isEmpty_iff.mpr heq.symm)
    simp [tell, hne]

theorem HasTold.write (h : HasTold s r) (bytes : ByteArray) :
    HasTold (s.write bytes) (r.add bytes) where
  closed_eq := by
    rw [write_eq, told_tellOutput]
    exact h.closed_eq
  hasRead := by
    rw [write_eq, told_tellOutput, output_tellOutput, Segments.add, ByteArray.toList_data_append]
    exact h.hasRead.decode bytes
  held_suffix := by
    rw [write_eq, output_tellOutput, Segments.add, ByteArray.toList_data_append]
    obtain ⟨front, hfront⟩ := h.held_suffix
    refine (Decoder.held_decode_suffix s.output bytes).trans ⟨front, ?_⟩
    rw [← List.append_assoc, hfront]
  no_empty := by
    rw [write_eq, stdout_empty_mem_tellOutput]
    exact h.no_empty

theorem HasTold.exit (h : HasTold s r) (code : Int32) :
    HasTold (s.exit code) (r.close code .empty) where
  closed_eq := by
    rw [exit_eq, told_tell, told_tellOutput]
    have hflushed : s.told.current ++ s.output.finish.2 = decodeAll r.current := h.hasRead.finish
    change s.told.closed ++ [(s.told.current ++ s.output.finish.2, code)] = _
    rw [hflushed, h.closed_eq, Segments.decodeClosed, Segments.decodeClosed, Segments.close,
      List.map_append]
    rfl
  hasRead := by
    have houtput : (s.exit code).output = {} := output_tellOutput _ _
    rw [houtput, exit_eq, told_tell]
    exact Decoder.hasRead_nil
  held_suffix := by
    have houtput : (s.exit code).output = {} := output_tellOutput _ _
    rw [houtput]
    exact List.nil_suffix
  no_empty := by
    rw [exit_eq, tell, Array.mem_push, stdout_empty_mem_tellOutput]
    simpa using h.no_empty

theorem HasTold.perform {call : EngineCall} (h : HasTold s r)
    (hrun : (perform call).run s = .ok () s') : HasTold s' (r.afterCall call) := by
  cases call with
  | windowCreate handle => exact h.of_sameOutput (sameOutput_of_run_onDesktop hrun)
  | windowSetTitle handle title => exact h.of_sameOutput (sameOutput_of_run_onDesktop hrun)
  | windowSetSize handle size => exact h.of_sameOutput (sameOutput_of_run_onDesktop hrun)
  | windowShow handle bitmap => exact h.of_sameOutput (sameOutput_of_run_onDesktop hrun)
  | windowDestroy handle => exact h.of_sameOutput (sameOutput_of_run_onDesktop hrun)
  | log level message =>
    cases hrun
    exact h.of_sameOutput (sameOutput_log s level message)
  | write bytes =>
    cases hrun
    exact h.write bytes
  | exit code =>
    cases hrun
    exact h.exit code

theorem HasTold.undergo {stimulus : Stimulus} (h : HasTold s r)
    (hrun : (undergo stimulus).run s = .ok () s') :
    HasTold s' (stimulus.call?.elim r r.afterCall) := by
  cases stimulus with
  | frame text =>
    change (handle text).run s = _ at hrun
    unfold handle at hrun
    cases hcall : EngineCall.ofFrame text with
    | ok c =>
      rw [hcall] at hrun
      rw [Stimulus.call?, hcall]
      exact h.perform hrun
    | error v =>
      rw [hcall] at hrun
      cases hrun
  | call c => exact h.perform hrun
  | display scale => exact h.of_sameOutput (sameOutput_of_run_onDesktop hrun)

theorem isAtomicAt_undergo (h : s.desktop.IsSorted) (stimulus : Stimulus) :
    IsAtomicAt s (Session.undergo stimulus) := by
  cases stimulus with
  | frame text => exact isAtomicAt_handle h text
  | call c => exact isAtomicAt_perform h c
  | display scale => exact isAtomicAt_onDesktop h _

theorem hasTold_run (scale : Float) (stimuli : List Stimulus) :
    HasTold (runAll Session.undergo (new scale) stimuli)
      (written (journal Session.undergo (new scale) stimuli)) := by
  refine (journal_induction_of_isAtomicAt (I := fun s => s.desktop.IsSorted)
    (P := fun s done => HasTold s (written done)) keeps_isSorted_undergo
    (fun _ hsorted stimulus => isAtomicAt_undergo hsorted stimulus) .nil (hasTold_new scale) ?_
    stimuli).2
  intro s done stimulus s' h hrun
  rw [written_concat]
  exact h.undergo hrun

theorem events_write_of_completes {bytes : ByteArray} {c : Char} {later : List UInt8}
    (h : s.output.held ++ bytes.data.toList = String.utf8EncodeChar c ++ later) :
    ∃ text, (s.write bytes).events = s.events.push (.stdout (c.toString ++ text)) := by
  obtain ⟨text, htext⟩ := Decoder.exists_decode_of_completes h
  have hne : ¬(c.toString ++ text).isEmpty := by
    simp
  refine ⟨text, ?_⟩
  rw [write_eq, htext, tellOutput, if_neg hne]
  rfl

/-- In every segment that an exit closes, the application is told the text of exactly the bytes
that were written in it, and so it is in the open one as soon as that is flushed. Nothing that is
told is empty, what is held back was written since the last exit, and a character is told whole
with the write that completes it. -/
theorem told_run (scale : Float) (stimuli : List Stimulus) :
    let s := runAll Session.undergo (new scale) stimuli
    let written := written (journal Session.undergo (new scale) stimuli)
    s.told.closed = written.decodeClosed ∧
      s.told.current ++ s.output.finish.2 = decodeAll written.current ∧
      .stdout "" ∉ s.events ∧
      s.output.held <:+ written.current.data.toList ∧
      ∀ bytes c later, s.output.held ++ bytes.data.toList = String.utf8EncodeChar c ++ later →
        ∃ text, ((Session.perform (.write bytes)).after s).events =
          s.events.push (.stdout (c.toString ++ text)) := by
  intro s written
  have h : HasTold s written := hasTold_run scale stimuli
  exact ⟨h.closed_eq, h.hasRead.finish, h.no_empty, h.held_suffix,
    fun _ _ _ hcompletes => events_write_of_completes hcompletes⟩

/-- A character that is cut by a write stays cut over a call that fails, and the one that an exit
had cut before is not completed with it. -/
theorem told_run_cut :
    let stimuli : List Stimulus := [.call (.write ⟨#[0xE2]⟩), .call (.exit 3),
      .call (.write ⟨#[0xC3]⟩), .call (.windowDestroy 7)]
    let s := runAll Session.undergo (new 2) stimuli
    s.output.held ++ [0xA9, 0x21] = String.utf8EncodeChar 'é' ++ [0x21] ∧
      ∃ text, ((Session.perform (.write ⟨#[0xA9, 0x21]⟩)).after s).events =
        s.events.push (.stdout ('é'.toString ++ text)) := by
  intro stimuli s
  have hcompletes : s.output.held ++ [0xA9, 0x21] = String.utf8EncodeChar 'é' ++ [0x21] := by
    decide +kernel
  exact ⟨hcompletes, (told_run 2 stimuli).2.2.2.2 _ _ _ hcompletes⟩

end Session

end EngineBridge
