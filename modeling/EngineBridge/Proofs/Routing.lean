import EngineBridge.Proofs.Output
import EngineBridge.Proofs.Desktop.Liveness
import EngineBridge.Proofs.Text.Streaming

/-! Which call is told to whom. The application, the record of messages and the exit code are, after
any run, what the calls that went through make of them, in their order. -/
namespace EngineBridge

def EngineCall.record? : EngineCall → Option (LogLevel × String)
  | .log level message => some (level, message)
  | _ => none

def EngineCall.exitCode? : EngineCall → Option Int32
  | .exit code => some code
  | _ => none

def EngineCall.written? : EngineCall → Option ByteArray
  | .write bytes => some bytes
  | _ => none

def EngineCall.changesWindows : EngineCall → Bool
  | .windowCreate _ | .windowSetTitle _ _ | .windowSetSize _ _ | .windowDestroy _ => true
  | .windowShow _ _ | .log _ _ | .write _ | .exit _ => false

def HostEvent.error? : HostEvent → Option String
  | .error message => some message
  | _ => none

def HostEvent.stdout? : HostEvent → Option String
  | .stdout text => some text
  | _ => none

def writtenSinceExit (calls : List EngineCall) : ByteArray :=
  (calls.foldl Segments.afterCall { current := .empty }).current

/-- What the application is told by a call, of which only output depends on what was written
before. -/
inductive Contributes (written : ByteArray) : EngineCall → List HostEvent → Prop
  | windowCreate (handle : UInt32) : Contributes written (.windowCreate handle) [.windowsChanged]
  | windowSetTitle (handle : UInt32) (title : String) :
    Contributes written (.windowSetTitle handle title) [.windowsChanged]
  | windowSetSize (handle : UInt32) (size : LogicalSize) :
    Contributes written (.windowSetSize handle size) [.windowsChanged]
  | windowShow (handle : UInt32) (bitmap : Bitmap) : Contributes written (.windowShow handle bitmap) []
  | windowDestroy (handle : UInt32) : Contributes written (.windowDestroy handle) [.windowsChanged]
  | error (message : String) : Contributes written (.log .error message) [.error message]
  | log {level : LogLevel} (h : level ≠ .error) (message : String) :
    Contributes written (.log level message) []
  | hold {bytes : ByteArray} (h : Utf8.settled (written ++ bytes) = Utf8.settled written) :
    Contributes written (.write bytes) []
  | write {bytes : ByteArray} {text : String}
      (h : Utf8.settled (written ++ bytes) = Utf8.settled written ++ text) (hne : text ≠ "") :
    Contributes written (.write bytes) [.stdout text]
  | exit (h : ¬Utf8.EndsInsideCharacter written.data.toList) (code : Int32) :
    Contributes written (.exit code) [.exited code]
  | exitInside (h : Utf8.EndsInsideCharacter written.data.toList) (code : Int32) :
    Contributes written (.exit code) [.stdout "\uFFFD", .exited code]

/-- Whether the events are what the calls contribute, in order and with nothing between. -/
inductive Accounts : List EngineCall → List HostEvent → Prop
  | nil : Accounts [] []
  | concat {calls : List EngineCall} {events told : List HostEvent} {call : EngineCall}
      (h : Accounts calls events) (hcall : Contributes (writtenSinceExit calls) call told) :
    Accounts (calls ++ [call]) (events ++ told)

theorem writtenSinceExit_concat (calls : List EngineCall) (call : EngineCall) :
    writtenSinceExit (calls ++ [call]) =
      match call with
      | .write bytes => writtenSinceExit calls ++ bytes
      | .exit _ => .empty
      | _ => writtenSinceExit calls := by
  rw [writtenSinceExit, List.foldl_append]
  cases call <;> rfl

theorem writtenSinceExit_eq {calls : List EngineCall}
    (h : ∀ call ∈ calls, call.exitCode? = none) :
    writtenSinceExit calls = (calls.filterMap EngineCall.written?).foldl (· ++ ·) .empty := by
  induction calls using List.reverseRecOn with
  | nil => rfl
  | append_singleton calls call ih =>
    rw [List.forall_mem_append, List.forall_mem_singleton] at h
    rw [writtenSinceExit_concat, List.filterMap_append, List.foldl_append, ← ih h.1]
    cases call with
    | exit => cases h.2
    | _ => rfl

section Accounts

variable {calls : List EngineCall} {events : List HostEvent}

theorem Accounts.of_concat {call : EngineCall} (h : Accounts (calls ++ [call]) events) :
    ∃ before told, events = before ++ told ∧ Accounts calls before ∧
      Contributes (writtenSinceExit calls) call told := by
  generalize hall : calls ++ [call] = all at h
  cases h with
  | nil => simp at hall
  | concat h hcall =>
    obtain ⟨rfl, rfl⟩ := List.append_singleton_inj.mp hall
    exact ⟨_, _, rfl, h, hcall⟩

theorem Accounts.count_windowsChanged (h : Accounts calls events) :
    events.count .windowsChanged = calls.countP EngineCall.changesWindows := by
  induction h with
  | nil => rfl
  | concat _ hcall ih =>
    rw [List.count_append, List.countP_append, ih]
    congr 1
    cases hcall <;> simp [EngineCall.changesWindows]

theorem Accounts.join_stdout (h : Accounts calls events)
    (hexit : ∀ call ∈ calls, call.exitCode? = none) :
    String.join (events.filterMap HostEvent.stdout?) = Utf8.settled (writtenSinceExit calls) := by
  induction h with
  | nil => exact (Utf8.settled_toUTF8 "").symm
  | @concat calls events told call _ hcall ih =>
    rw [List.forall_mem_append, List.forall_mem_singleton] at hexit
    rw [List.filterMap_append, String.join_append, ih hexit.1, writtenSinceExit_concat]
    cases hcall with
    | hold h => exact (String.append_empty).trans h.symm
    | write h hne => simpa [HostEvent.stdout?] using h.symm
    | exit => cases hexit.2
    | exitInside => cases hexit.2
    | _ => exact String.append_empty

theorem Accounts.errors_eq (h : Accounts calls events) :
    events.filterMap HostEvent.error? =
      ((calls.filterMap EngineCall.record?).filter (·.1 = .error)).map Prod.snd := by
  induction h with
  | nil => rfl
  | concat _ hcall ih =>
    rw [List.filterMap_append, List.filterMap_append, List.filter_append, List.map_append, ih]
    congr 1
    cases hcall
    case log level hlevel message =>
      simp [EngineCall.record?, hlevel]
    all_goals rfl

end Accounts

namespace Session

open Update

variable {s s' : Session} {calls : List EngineCall} {call : EngineCall}

structure OnlyTells (s s' : Session) (told : List HostEvent) : Prop where
  output_eq : s'.output = s.output
  events_eq : s'.events.toList = s.events.toList ++ told
  records_eq : s'.records = s.records
  exitCode_eq : s'.exitCode = s.exitCode

theorem onlyTells_of_run_onDesktop {op : WindowOp Float}
    (h : (onDesktop op).run s = .ok () s') :
    OnlyTells s s' (if op.isChange then [.windowsChanged] else []) := by
  unfold onDesktop at h
  rw [run_onPart] at h
  split at h
  · rename_i d hrun
    cases h
    refine ⟨rfl, ?_, rfl, rfl⟩
    have hchanges := (Desktop.step_of_run_perform hrun).changes_eq
    unfold withDesktop
    rw [hchanges, Nat.add_sub_cancel_left]
    split <;> simp
  · cases h

theorem events_tellOutput (s : Session) (text : String) :
    (s.tellOutput text).events.toList =
      s.events.toList ++ if text = "" then [] else [.stdout text] := by
  unfold tellOutput
  by_cases h : text = ""
  · simp [h]
  · simp [h, tell]

theorem records_tellOutput (s : Session) (text : String) :
    (s.tellOutput text).records = s.records := by
  unfold tellOutput
  split <;> rfl

/-- Whether every part of a session that calls can reach through is what they made of it. -/
structure Routes (s : Session) (calls : List EngineCall) : Prop where
  output_eq : s.output = .after (writtenSinceExit calls)
  accounts : Accounts calls s.events.toList
  records_eq : s.records.toList = calls.filterMap EngineCall.record?
  exitCode_eq : s.exitCode = (calls.filterMap EngineCall.exitCode?).getLast?

theorem routes_new (scale : Float) : Routes (new scale) [] where
  output_eq := Utf8.Decoder.after_empty.symm
  accounts := .nil
  records_eq := rfl
  exitCode_eq := rfl

theorem Routes.of_onlyTells (h : Routes s calls) (hsame : OnlyTells s s' []) : Routes s' calls where
  output_eq := hsame.output_eq.trans h.output_eq
  accounts := by
    rw [hsame.events_eq, List.append_nil]
    exact h.accounts
  records_eq := by rw [hsame.records_eq, h.records_eq]
  exitCode_eq := by rw [hsame.exitCode_eq, h.exitCode_eq]

theorem Routes.windowCall (h : Routes s calls) {told : List HostEvent}
    (hsame : OnlyTells s s' told) (hcall : Contributes (writtenSinceExit calls) call told)
    (hrecord : call.record? = none) (hexit : call.exitCode? = none)
    (hwritten : writtenSinceExit (calls ++ [call]) = writtenSinceExit calls) :
    Routes s' (calls ++ [call]) where
  output_eq := by rw [hsame.output_eq, h.output_eq, hwritten]
  accounts := by
    rw [hsame.events_eq]
    exact h.accounts.concat hcall
  records_eq := by
    rw [hsame.records_eq, h.records_eq, List.filterMap_append]
    simp [hrecord]
  exitCode_eq := by
    rw [hsame.exitCode_eq, h.exitCode_eq, List.filterMap_append]
    simp [hexit]

theorem Routes.log (h : Routes s calls) (level : LogLevel) (message : String) :
    Routes (s.log level message) (calls ++ [.log level message]) := by
  have hcall : Contributes (writtenSinceExit calls) (.log level message)
      (if level = .error then [.error message] else []) := by
    split
    · rename_i hlevel
      exact hlevel ▸ .error message
    · rename_i hlevel
      exact .log hlevel message
  have hevents : (s.log level message).events.toList =
      s.events.toList ++ if level = .error then [.error message] else [] := by
    unfold Session.log
    split <;> simp [tell]
  refine ⟨?_, ?_, ?_, ?_⟩
  · rw [writtenSinceExit_concat, ← h.output_eq]
    exact (sameOutput_log s level message).output_eq
  · rw [hevents]
    exact h.accounts.concat hcall
  · rw [List.filterMap_append, ← h.records_eq]
    unfold Session.log
    split <;> simp [tell, EngineCall.record?]
  · rw [List.filterMap_append]
    simp only [List.filterMap_cons, EngineCall.exitCode?, List.filterMap_nil, List.append_nil]
    rw [← h.exitCode_eq]
    unfold Session.log
    split <;> rfl

theorem Routes.write (h : Routes s calls) (bytes : ByteArray) :
    Routes (s.write bytes) (calls ++ [.write bytes]) := by
  have hsettled := Utf8.Decoder.settled_append (writtenSinceExit calls) bytes
  rw [← h.output_eq] at hsettled
  refine ⟨?_, ?_, ?_, ?_⟩
  · rw [write_eq, output_tellOutput, writtenSinceExit_concat, h.output_eq,
      Utf8.Decoder.decode_after]
  · rw [write_eq, events_tellOutput]
    refine h.accounts.concat ?_
    split
    · rename_i htext
      rw [htext, String.append_empty] at hsettled
      exact .hold hsettled
    · rename_i htext
      exact .write hsettled htext
  · rw [write_eq, records_tellOutput, List.filterMap_append, h.records_eq]
    simp [EngineCall.record?]
  · rw [write_eq, exitCode_tellOutput, List.filterMap_append, h.exitCode_eq]
    simp [EngineCall.exitCode?]

theorem Routes.exit (h : Routes s calls) (code : Int32) :
    Routes (s.exit code) (calls ++ [.exit code]) := by
  have hfinish := Utf8.Decoder.finish_after (writtenSinceExit calls)
  rw [← h.output_eq] at hfinish
  have hevents : (s.exit code).events.toList =
      (s.events.toList ++ if s.output.finish.2 = "" then [] else [.stdout s.output.finish.2]) ++
        [.exited code] := by
    rw [exit_eq, tell, Array.toList_push, events_tellOutput]
  refine ⟨?_, ?_, ?_, ?_⟩
  · rw [writtenSinceExit_concat, Utf8.Decoder.after_empty]
    exact output_tellOutput _ _
  · rw [hevents, List.append_assoc]
    refine h.accounts.concat ?_
    by_cases hinside : Utf8.EndsInsideCharacter (writtenSinceExit calls).data.toList
    · rw [hfinish.1 hinside]
      exact .exitInside hinside code
    · rw [hfinish.2 hinside]
      exact .exit hinside code
  · rw [exit_eq, List.filterMap_append, ← h.records_eq]
    simp [EngineCall.record?, tell, records_tellOutput]
  · rw [exit_eq]
    simp [EngineCall.exitCode?, tell, exitCode_tellOutput]

theorem Routes.perform (h : Routes s calls) (hrun : (perform call).run s = .ok () s') :
    Routes s' (calls ++ [call]) := by
  cases call with
  | windowCreate handle =>
    exact h.windowCall (onlyTells_of_run_onDesktop hrun) (.windowCreate handle) rfl rfl
      (writtenSinceExit_concat _ _)
  | windowSetTitle handle title =>
    exact h.windowCall (onlyTells_of_run_onDesktop hrun) (.windowSetTitle handle title) rfl rfl
      (writtenSinceExit_concat _ _)
  | windowSetSize handle size =>
    exact h.windowCall (onlyTells_of_run_onDesktop hrun) (.windowSetSize handle size) rfl rfl
      (writtenSinceExit_concat _ _)
  | windowShow handle bitmap =>
    exact h.windowCall (onlyTells_of_run_onDesktop hrun) (.windowShow handle bitmap) rfl rfl
      (writtenSinceExit_concat _ _)
  | windowDestroy handle =>
    exact h.windowCall (onlyTells_of_run_onDesktop hrun) (.windowDestroy handle) rfl rfl
      (writtenSinceExit_concat _ _)
  | log level message =>
    cases hrun
    exact h.log level message
  | write bytes =>
    cases hrun
    exact h.write bytes
  | exit code =>
    cases hrun
    exact h.exit code

theorem Routes.undergo (h : Routes s calls) {stimulus : Stimulus}
    (hrun : (undergo stimulus).run s = .ok () s') : Routes s' (calls ++ stimulus.call?.toList) := by
  cases stimulus with
  | frame text =>
    change (handle text).run s = _ at hrun
    unfold handle at hrun
    cases hcall : EngineCall.ofFrame text with
    | ok call =>
      rw [hcall] at hrun
      rw [Stimulus.call?, hcall]
      exact h.perform hrun
    | error v =>
      rw [hcall] at hrun
      cases hrun
  | call call => exact h.perform hrun
  | display scale =>
    rw [Stimulus.call?, Option.toList_none, List.append_nil]
    exact h.of_onlyTells (onlyTells_of_run_onDesktop hrun)

def performedCalls (done : List (Entry Session Stimulus)) : List EngineCall :=
  done.filterMap (·.input.call?)

theorem routes_run (scale : Float) (stimuli : List Stimulus) :
    Routes (runAll Session.undergo (new scale) stimuli)
      (performedCalls (journal Session.undergo (new scale) stimuli)) := by
  refine (journal_induction_of_isAtomicAt (I := fun s => s.desktop.IsSorted)
    (P := fun s done => Routes s (performedCalls done)) keeps_isSorted_undergo
    (fun _ hsorted stimulus => isAtomicAt_undergo hsorted stimulus) .nil (routes_new scale) ?_
    stimuli).2
  intro s done stimulus s' h hrun
  have happend : performedCalls (done ++ [⟨s, stimulus⟩]) =
      performedCalls done ++ stimulus.call?.toList := by
    rw [performedCalls, List.filterMap_append]
    cases hcall : stimulus.call? <;> simp [performedCalls, hcall]
  rw [happend]
  exact h.undergo hrun

/-- The application is told what the calls that went through contribute, one after the other, and
nothing else, so nothing of what is refused. The record has their messages at every level, and the
errors among them are the ones told. The exit code is that of the last exit, after which calls are
taken as before it. -/
theorem events_run (scale : Float) (stimuli : List Stimulus) :
    let s := runAll Session.undergo (new scale) stimuli
    let calls := performedCalls (journal Session.undergo (new scale) stimuli)
    Accounts calls s.events.toList ∧
      s.records.toList = calls.filterMap EngineCall.record? ∧
      s.events.toList.filterMap HostEvent.error? =
        (s.records.toList.filter (·.1 = .error)).map Prod.snd ∧
      s.exitCode = (calls.filterMap EngineCall.exitCode?).getLast? := by
  intro s calls
  have h : Routes s calls := routes_run scale stimuli
  refine ⟨h.accounts, h.records_eq, ?_, h.exitCode_eq⟩
  rw [h.accounts.errors_eq, h.records_eq]

end Session

end EngineBridge
