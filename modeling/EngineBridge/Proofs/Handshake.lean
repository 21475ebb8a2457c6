import EngineBridge.Application
import EngineBridge.Proofs.Except
import EngineBridge.Proofs.Exchange

/-! How a host comes by its engine. The engine is given its end of a fresh link and may post there
before there is a host at all. Its first frame, whatever it says, only ends the host's wait; all
that is behind it, the end of the link included, is handed over as it is. -/
namespace EngineBridge

def Received.outcome? {α : Type} : Received α → Option (Except Failure α)
  | .item a => some (.ok a)
  | .pending => none
  | .closed => some (.error .linkClosed)

namespace Link

/-- A fresh link once an engine has posted frames there, and then has kept its end or dropped it. -/
def launched (frames : List String) (portDropped : Bool) : Except Failure Link := do
  let l ← frames.foldlM post {}
  return if portDropped then l.dropEngine else l

def holding (frames : List String) (portDropped : Bool) : Link :=
  if portDropped then { ({} : Link).dropEngine with toHost := { queue := frames, senders := 0 } }
  else { toHost := { queue := frames } }

variable {frames : List String} {portDropped : Bool}

theorem foldlM_post (earlier frames : List String) :
    frames.foldlM post (holding earlier false) = .ok (holding (earlier ++ frames) false) := by
  induction frames generalizing earlier with
  | nil => simp
  | cons frame rest ih =>
    have hpost : (holding earlier false).post frame =
        .ok (holding (earlier ++ [frame]) false) := rfl
    rw [List.foldlM_cons, hpost, ok_bind, ih, List.append_assoc]
    rfl

theorem launched_eq : launched frames portDropped = .ok (holding frames portDropped) := by
  have hposts : frames.foldlM post {} = .ok (holding frames false) := foldlM_post [] frames
  unfold launched
  rw [hposts]
  cases portDropped <;> rfl

theorem outcome?_awaitReady_cons (ready : String) :
    (holding (ready :: frames) portDropped).awaitReady.outcome? =
      some (.ok (holding frames portDropped)) := by
  cases portDropped <;> rfl

theorem outcome?_awaitReady_nil :
    (holding [] portDropped).awaitReady.outcome? =
      if portDropped then some (.error .linkClosed) else none := by
  cases portDropped <;> rfl

end Link

namespace Application

def afterWait (a : Application) : Option (Except Failure Link) → Application
  | none => a
  | some (.ok link) => { a with host := .starting, bridge := { a.bridge with link := link } }
  | some (.error failure) => a.hostEnds (.error failure)

theorem moveHost_of_awaitingEngine {a : Application} (h : a.host = .awaitingEngine) :
    a.moveHost = a.afterWait a.bridge.link.awaitReady.outcome? := by
  unfold moveHost
  rw [h]
  cases a.bridge.link.awaitReady <;> rfl

end Application

namespace Exchange

def onLink (link : Link) (displayScale : Float) : Exchange where
  bridge := { link := link, session := .new displayScale }
  accepted := link.toHost.queue

def launch (frames : List String) (portDropped : Bool) : List Move :=
  frames.map Move.post ++ if portDropped then [.dropPort] else []

variable {frames : List String} {portDropped : Bool} {displayScale : Float}

theorem play_post (earlier frames : List String) :
    (onLink (.holding earlier false) displayScale).play (frames.map Move.post) =
      onLink (.holding (earlier ++ frames) false) displayScale := by
  induction frames generalizing earlier with
  | nil => simp [play]
  | cons frame rest ih =>
    have hpost : (onLink (.holding earlier false) displayScale).move (.post frame) =
        onLink (.holding (earlier ++ [frame]) false) displayScale := rfl
    have hrest := ih (earlier ++ [frame])
    unfold play at hrest ⊢
    rw [List.map_cons, List.foldl_cons, hpost, hrest, List.append_assoc]
    rfl

theorem play_launch :
    (initial displayScale).play (launch frames portDropped) =
      onLink (.holding frames portDropped) displayScale := by
  have hposts : (initial displayScale).play (frames.map Move.post) =
      onLink (.holding frames false) displayScale := play_post [] frames
  unfold play launch at *
  rw [List.foldl_append, hposts]
  cases portDropped <;> rfl

/-- A host gets its engine if and only if that has posted anything, and fails if nothing will ever
come. What it gets is, in all that engine and host may go on to do, a fresh link on which only the
frames behind the first have been posted: no move and no loop tells the two apart. -/
theorem play_onLink_awaitReady (frames : List String) (portDropped : Bool) :
    ∃ link, Link.launched frames portDropped = .ok link ∧
      ((∃ worker, link.awaitReady.outcome? = some (.ok worker)) ↔ 1 ≤ frames.length) ∧
      (link.awaitReady.outcome? = some (.error .linkClosed) ↔ frames = [] ∧ portDropped) ∧
      (link.awaitReady.outcome? = none ↔ frames = [] ∧ !portDropped) ∧
      (∀ a : Application, a.host = .awaitingEngine → a.bridge.link = link →
        a.moveHost = a.afterWait link.awaitReady.outcome?) ∧
      ∀ worker, link.awaitReady.outcome? = some (.ok worker) → ∀ displayScale,
        (∀ moves, (onLink worker displayScale).play moves =
          (initial displayScale).play (launch frames.tail portDropped ++ moves)) ∧
        ∀ loop, (onLink worker displayScale).bridge.follow loop =
          ((initial displayScale).play (launch frames.tail portDropped)).bridge.follow loop := by
  refine ⟨_, Link.launched_eq, ?_⟩
  have hmove (a : Application) (h : a.host = .awaitingEngine) {link : Link}
      (hlink : a.bridge.link = link) : a.moveHost = a.afterWait link.awaitReady.outcome? :=
    hlink ▸ Application.moveHost_of_awaitingEngine h
  cases frames with
  | nil =>
    have hwait : (Link.holding [] portDropped).awaitReady.outcome? =
        if portDropped then some (.error .linkClosed) else none := Link.outcome?_awaitReady_nil
    refine ⟨?_, ?_, ?_, fun a h => hmove a h, ?_⟩
    all_goals cases portDropped <;> simp [hwait]
  | cons ready rest =>
    have hwait : (Link.holding (ready :: rest) portDropped).awaitReady.outcome? =
        some (.ok (.holding rest portDropped)) := Link.outcome?_awaitReady_cons ready
    refine ⟨by simp [hwait], by simp [hwait], by simp [hwait], fun a h => hmove a h, ?_⟩
    intro worker hworker displayScale
    rw [hwait] at hworker
    obtain rfl := Except.ok.inj (Option.some.inj hworker)
    have hlaunch : (initial displayScale).play (launch rest portDropped) =
        onLink (.holding rest portDropped) displayScale := play_launch
    refine ⟨fun moves => ?_, fun loop => by rw [List.tail_cons, hlaunch]⟩
    unfold play at hlaunch ⊢
    rw [List.tail_cons, List.foldl_append, hlaunch]

end Exchange

end EngineBridge
