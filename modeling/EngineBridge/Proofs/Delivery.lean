import EngineBridge.Link.Basic
import EngineBridge.Proofs.Call.Frame
import EngineBridge.Proofs.Except

/-! The calls of a host on their way to its engine. Either side may go away between any two calls.
Whatever a call names and carries, the engine is told what the call decodes to, once and in its
turn; only the engine's own end of the link loses what is on its way. -/
namespace EngineBridge

namespace Message

/-- Whether the numbers of a message are integers of 64 bits, and its arguments nest no deeper than
a frame allows. -/
structure IsCarried (m : Message) : Prop where
  exact : Json.AreExact m.args
  fits : ∀ v ∈ m.args, v.depth ≤ 125

theorem parse_render_of_isCarried {m : Message} (h : m.IsCarried) :
    parse m.render = .ok ⟨m.method, m.args.map Json.ordered⟩ := by
  let frame := Json.object [("method", .text m.method), ("args", .list m.args)]
  have hexact : frame.IsExact := ⟨trivial, h.exact, trivial⟩
  have hframe : IsFrame frame ⟨m.method, m.args.map Json.ordered⟩ :=
    .fieldsWithArgs (by simp) (by simp) h.fits
  rw [parse_eq_ok, ofText?, render, Json.ofText?_render hexact]
  exact (ofTree?_tree hexact).mpr hframe

end Message

namespace HostCall

theorem ofFrame_render {m : Message} (h : m.IsCarried) : ofFrame m.render = decode m := by
  unfold ofFrame
  rw [Message.parse_render_of_isCarried h, ok_bind]
  simp [decode]

variable {m : Message}

theorem decode_eq (m : Message) :
    decode m =
      if m.method = "start" then
        if m.args = [] then .ok .start else .error (.arity "start" 0 m.args.length)
      else .error (.unknownMethod m.method) := by
  simp only [decode, List.isEmpty_iff]

theorem decode_eq_start : decode m = .ok .start ↔ m.method = "start" ∧ m.args = [] := by
  rw [decode_eq]
  split <;> [split; skip] <;> simp [*]

theorem decode_eq_arity :
    decode m = .error (.arity "start" 0 m.args.length) ↔ m.method = "start" ∧ m.args ≠ [] := by
  rw [decode_eq]
  split <;> [split; skip] <;> simp [*]

theorem decode_eq_unknownMethod :
    decode m = .error (.unknownMethod m.method) ↔ m.method ≠ "start" := by
  rw [decode_eq]
  split <;> [split; skip] <;> simp [*]

end HostCall

inductive HostMove where
  | call (m : Message)
  | receive
  | dropPort
  | dropHost

namespace HostMove

def call? : HostMove → Option Message
  | .call m => some m
  | _ => none

def dropsPort : HostMove → Bool
  | .dropPort => true
  | _ => false

def dropsHost : HostMove → Bool
  | .dropHost => true
  | _ => false

/-- The calls that are made while both sides are there. -/
def made (moves : List HostMove) : List Message :=
  (moves.takeWhile fun move => !(move.dropsHost || move.dropsPort)).filterMap call?

theorem made_cons (move : HostMove) (rest : List HostMove) :
    made (move :: rest) =
      move.call?.toList ++ if move.dropsHost || move.dropsPort then [] else made rest := by
  unfold made
  rw [List.takeWhile_cons]
  cases move <;> rfl

end HostMove

/-- A link, the calls that it has taken, and what the engine has been told. -/
structure Delivery where
  link : Link
  taken : List Message := []
  received : List (Except Violation HostCall) := []

namespace Delivery

def initial (toHost : Pipe) : Delivery := { link := { toHost := toHost } }

def portDropped (d : Delivery) : Bool := !d.link.toEngine.hasReceiver

def hostDropped (d : Delivery) : Bool := d.link.toEngine.senders = 0

def move (d : Delivery) : HostMove → Delivery
  | .call m =>
    if d.hostDropped then d
    else
      match d.link.call m with
      | .ok link => { d with link := link, taken := d.taken ++ [m] }
      | .error _ => d
  | .receive =>
    if d.portDropped then d
    else
      match d.link.nextHostCall with
      | (.item result, link) => { d with link := link, received := d.received ++ [result] }
      | (_, link) => { d with link := link }
  | .dropPort => if d.portDropped then d else { d with link := d.link.dropEngine }
  | .dropHost => if d.hostDropped then d else { d with link := d.link.dropHost }

def play (d : Delivery) (moves : List HostMove) : Delivery := moves.foldl move d

def pending (d : Delivery) : List Message := d.taken.drop d.received.length

/-- What every move keeps: what is queued is what has been taken and not received, or nothing once
the engine's end is gone. -/
structure IsSound (d : Delivery) : Prop where
  senders_le : d.link.toEngine.senders ≤ 1
  carried : ∀ m ∈ d.taken, m.IsCarried
  received_eq : d.received = (d.taken.take d.received.length).map HostCall.decode
  queue_eq : d.link.toEngine.queue = if d.portDropped then [] else d.pending.map Message.render

theorem isSound_initial (toHost : Pipe) : (initial toHost).IsSound where
  senders_le := Nat.le_refl 1
  carried := nofun
  received_eq := rfl
  queue_eq := rfl

variable {d : Delivery}

theorem IsSound.length_received_le (h : d.IsSound) : d.received.length ≤ d.taken.length := by
  have hlength := congrArg List.length h.received_eq
  rw [List.length_map, List.length_take] at hlength
  omega

def calling (d : Delivery) (m : Message) : Delivery where
  link := { d.link with
    toEngine := { d.link.toEngine with queue := d.link.toEngine.queue ++ [m.render] } }
  taken := d.taken ++ [m]
  received := d.received

theorem call_eq (m : Message) :
    d.link.call m = if d.portDropped then .error .linkClosed else .ok (d.calling m).link := by
  unfold Link.call Pipe.send portDropped
  by_cases hreceiver : d.link.toEngine.hasReceiver
  · rw [if_pos hreceiver, if_neg (by simp [hreceiver])]
    rfl
  · rw [if_neg hreceiver, if_pos (by simp [hreceiver])]
    rfl

theorem move_call (m : Message) :
    d.move (.call m) = if d.hostDropped || d.portDropped then d else d.calling m := by
  simp only [move, call_eq]
  cases d.hostDropped <;> cases d.portDropped <;> rfl

theorem IsSound.calling (h : d.IsSound) (hport : d.portDropped = false) {m : Message}
    (hm : m.IsCarried) : (d.calling m).IsSound where
  senders_le := h.senders_le
  carried := List.forall_mem_append.mpr ⟨h.carried, List.forall_mem_singleton.mpr hm⟩
  received_eq := by
    change d.received = ((d.taken ++ [m]).take d.received.length).map HostCall.decode
    rw [List.take_append_of_le_length h.length_received_le]
    exact h.received_eq
  queue_eq := by
    have hqueue := h.queue_eq
    change d.link.toEngine.queue ++ [m.render] =
      if d.portDropped then [] else ((d.taken ++ [m]).drop d.received.length).map Message.render
    rw [hqueue, hport, List.drop_append_of_le_length h.length_received_le, List.map_append]
    rfl

theorem IsSound.dropHost (h : d.IsSound) : IsSound { d with link := d.link.dropHost } :=
  { h with senders_le := Nat.le_trans (Nat.sub_le _ _) h.senders_le }

def telling (d : Delivery) (m : Message) (rest : List Message) : Delivery where
  link := { d.link with
    toEngine := { d.link.toEngine with queue := rest.map Message.render } }
  taken := d.taken
  received := d.received ++ [HostCall.decode m]

theorem nextHostCall_of_pending_cons (h : d.IsSound) (hport : d.portDropped = false) {m : Message}
    {rest : List Message} (hpending : d.pending = m :: rest) :
    d.link.nextHostCall = (.item (HostCall.decode m), (d.telling m rest).link) := by
  have hm : m.IsCarried := h.carried m (List.mem_of_mem_drop (hpending ▸ List.mem_cons_self))
  have hqueue := h.queue_eq
  rw [hport, hpending] at hqueue
  rw [← HostCall.ofFrame_render hm]
  unfold Link.nextHostCall Pipe.receive
  rw [hqueue]
  rfl

theorem nextHostCall_of_pending_nil (h : d.IsSound) (hport : d.portDropped = false)
    (hpending : d.pending = []) :
    d.link.nextHostCall = (if d.hostDropped then .closed else .pending, d.link) := by
  have hqueue := h.queue_eq
  rw [hport, hpending] at hqueue
  unfold Link.nextHostCall Pipe.receive hostDropped
  rw [hqueue]
  by_cases hsenders : d.link.toEngine.senders = 0 <;> simp [hsenders]

theorem move_receive_of_pending_cons (h : d.IsSound) (hport : d.portDropped = false) {m : Message}
    {rest : List Message} (hpending : d.pending = m :: rest) :
    d.move .receive = d.telling m rest := by
  simp only [move, hport, nextHostCall_of_pending_cons h hport hpending]
  rfl

theorem move_receive_of_pending_nil (h : d.IsSound) (hport : d.portDropped = false)
    (hpending : d.pending = []) : d.move .receive = d := by
  simp only [move, hport, nextHostCall_of_pending_nil h hport hpending]
  cases d.hostDropped <;> rfl

theorem IsSound.telling (h : d.IsSound) (hport : d.portDropped = false) {m : Message}
    {rest : List Message} (hpending : d.pending = m :: rest) : (d.telling m rest).IsSound where
  senders_le := h.senders_le
  carried := h.carried
  received_eq := by
    have hnext : d.taken[d.received.length]? = some m := by
      rw [← List.head?_drop]
      exact congrArg List.head? hpending
    change d.received ++ [HostCall.decode m] =
      (d.taken.take (d.received ++ [HostCall.decode m]).length).map HostCall.decode
    rw [List.length_append, List.length_singleton, List.take_add_one, hnext, List.map_append,
      ← h.received_eq]
    rfl
  queue_eq := by
    have hrest : d.taken.drop (d.received ++ [HostCall.decode m]).length = rest := by
      rw [List.length_append, List.length_singleton, ← List.tail_drop]
      exact congrArg List.tail hpending
    change rest.map Message.render = if d.portDropped then [] else
      (d.taken.drop (d.received ++ [HostCall.decode m]).length).map Message.render
    rw [hport, hrest]
    rfl

theorem IsSound.dropPort (h : d.IsSound) : IsSound { d with link := d.link.dropEngine } where
  senders_le := h.senders_le
  carried := h.carried
  received_eq := h.received_eq
  queue_eq := rfl

theorem IsSound.receive_cases (h : d.IsSound) :
    d.move .receive = d ∨ d.portDropped = false ∧
      ∃ m rest, d.pending = m :: rest ∧ d.move .receive = d.telling m rest := by
  cases hport : d.portDropped with
  | true => exact .inl (by simp only [move, hport, if_true])
  | false =>
    cases hpending : d.pending with
    | nil => exact .inl (move_receive_of_pending_nil h hport hpending)
    | cons m rest =>
      exact .inr ⟨rfl, m, rest, rfl, move_receive_of_pending_cons h hport hpending⟩

theorem IsSound.move (h : d.IsSound) {move : HostMove}
    (hmove : ∀ m ∈ move.call?, m.IsCarried) : (d.move move).IsSound := by
  cases move with
  | call m =>
    rw [move_call]
    split
    · exact h
    · rename_i hopen
      simp only [Bool.or_eq_true, not_or, Bool.not_eq_true] at hopen
      exact h.calling hopen.2 (hmove m rfl)
  | receive =>
    rcases h.receive_cases with heq | ⟨hport, m, rest, hpending, heq⟩
    · rwa [heq]
    · rw [heq]
      exact h.telling hport hpending
  | dropPort =>
    simp only [Delivery.move]
    split
    · exact h
    · exact h.dropPort
  | dropHost =>
    simp only [Delivery.move]
    split
    · exact h
    · exact h.dropHost

theorem IsSound.play (h : d.IsSound) {moves : List HostMove}
    (hmoves : ∀ move ∈ moves, ∀ m ∈ move.call?, m.IsCarried) : (d.play moves).IsSound := by
  induction moves generalizing d with
  | nil => exact h
  | cons move rest ih =>
    obtain ⟨hmove, hrest⟩ := List.forall_mem_cons.mp hmoves
    exact ih (h.move hmove) hrest

theorem IsSound.portDropped_move (h : d.IsSound) (move : HostMove) :
    (d.move move).portDropped = (d.portDropped || move.dropsPort) := by
  cases move with
  | call m =>
    change _ = (d.portDropped || false)
    rw [move_call, Bool.or_false]
    split <;> rfl
  | receive =>
    change _ = (d.portDropped || false)
    rw [Bool.or_false]
    rcases h.receive_cases with heq | ⟨-, m, rest, -, heq⟩
    · exact congrArg portDropped heq
    · exact (congrArg portDropped heq).trans rfl
  | dropPort =>
    change _ = (d.portDropped || true)
    rw [Delivery.move, Bool.or_true]
    split
    · assumption
    · rfl
  | dropHost =>
    change _ = (d.portDropped || false)
    rw [Delivery.move, Bool.or_false]
    split <;> rfl

theorem IsSound.hostDropped_move (h : d.IsSound) (move : HostMove) :
    (d.move move).hostDropped = (d.hostDropped || move.dropsHost) := by
  cases move with
  | call m =>
    change _ = (d.hostDropped || false)
    rw [move_call, Bool.or_false]
    split <;> rfl
  | receive =>
    change _ = (d.hostDropped || false)
    rw [Bool.or_false]
    rcases h.receive_cases with heq | ⟨-, m, rest, -, heq⟩
    · exact congrArg hostDropped heq
    · exact (congrArg hostDropped heq).trans rfl
  | dropPort =>
    change _ = (d.hostDropped || false)
    rw [Delivery.move, Bool.or_false]
    split <;> rfl
  | dropHost =>
    have hsenders := h.senders_le
    change _ = (d.hostDropped || true)
    rw [Delivery.move, Bool.or_true]
    split
    · assumption
    · exact decide_eq_true (Nat.sub_eq_zero_of_le hsenders)

theorem IsSound.taken_move (h : d.IsSound) (move : HostMove) :
    (d.move move).taken =
      d.taken ++ if d.hostDropped || d.portDropped then [] else move.call?.toList := by
  cases move with
  | call m =>
    rw [move_call]
    split <;> simp [Delivery.calling, HostMove.call?]
  | receive =>
    rcases h.receive_cases with heq | ⟨hport, m, rest, hpending, heq⟩
    all_goals simp [heq, HostMove.call?, Delivery.telling]
  | dropPort | dropHost =>
    simp only [Delivery.move]
    split <;> simp [HostMove.call?]

theorem IsSound.portDropped_play (h : d.IsSound) {moves : List HostMove}
    (hmoves : ∀ move ∈ moves, ∀ m ∈ move.call?, m.IsCarried) :
    (d.play moves).portDropped = (d.portDropped || moves.any HostMove.dropsPort) := by
  induction moves generalizing d with
  | nil => exact (Bool.or_false _).symm
  | cons move rest ih =>
    obtain ⟨hmove, hrest⟩ := List.forall_mem_cons.mp hmoves
    change ((d.move move).play rest).portDropped = _
    rw [ih (h.move hmove) hrest, h.portDropped_move, List.any_cons, Bool.or_assoc]

theorem IsSound.hostDropped_play (h : d.IsSound) {moves : List HostMove}
    (hmoves : ∀ move ∈ moves, ∀ m ∈ move.call?, m.IsCarried) :
    (d.play moves).hostDropped = (d.hostDropped || moves.any HostMove.dropsHost) := by
  induction moves generalizing d with
  | nil => exact (Bool.or_false _).symm
  | cons move rest ih =>
    obtain ⟨hmove, hrest⟩ := List.forall_mem_cons.mp hmoves
    change ((d.move move).play rest).hostDropped = _
    rw [ih (h.move hmove) hrest, h.hostDropped_move, List.any_cons, Bool.or_assoc]

theorem IsSound.taken_play (h : d.IsSound) {moves : List HostMove}
    (hmoves : ∀ move ∈ moves, ∀ m ∈ move.call?, m.IsCarried) :
    (d.play moves).taken =
      d.taken ++ if d.hostDropped || d.portDropped then [] else HostMove.made moves := by
  induction moves generalizing d with
  | nil =>
    change d.taken = d.taken ++ if _ then [] else []
    rw [ite_self, List.append_nil]
  | cons move rest ih =>
    obtain ⟨hmove, hrest⟩ := List.forall_mem_cons.mp hmoves
    change ((d.move move).play rest).taken = _
    rw [ih (h.move hmove) hrest, h.taken_move, h.portDropped_move, h.hostDropped_move,
      HostMove.made_cons]
    cases d.hostDropped <;> cases d.portDropped <;> simp

theorem IsSound.received_play (h : d.IsSound) (hport : d.portDropped = false) (n : Nat) :
    (d.play (List.replicate n .receive)).received =
      (d.taken.take (d.received.length + n)).map HostCall.decode := by
  induction n generalizing d with
  | zero => exact h.received_eq
  | succ n ih =>
    change ((d.move .receive).play (List.replicate n .receive)).received = _
    cases hpending : d.pending with
    | nil =>
      have hall : d.taken.length ≤ d.received.length := List.drop_eq_nil_iff.mp hpending
      rw [move_receive_of_pending_nil h hport hpending, ih h hport,
        List.take_of_length_le (Nat.le_trans hall (Nat.le_add_right _ _)),
        List.take_of_length_le (Nat.le_trans hall (Nat.le_add_right _ _))]
    | cons m rest =>
      have hlength : (d.telling m rest).received.length + n = d.received.length + (n + 1) := by
        change (d.received ++ [HostCall.decode m]).length + n = _
        rw [List.length_append, List.length_singleton]
        omega
      rw [move_receive_of_pending_cons h hport hpending, ih (h.telling hport hpending) hport,
        hlength]
      rfl

/-- Whatever is called before either side goes away arrives, once and in order, as what it decodes
to. -/
theorem received_of_calls (toHost : Pipe) {moves : List HostMove}
    (hmoves : ∀ m, .call m ∈ moves → m.IsCarried) :
    let d := (initial toHost).play moves
    (d.portDropped ↔ moves.any HostMove.dropsPort) ∧
    (d.hostDropped ↔ moves.any HostMove.dropsHost) ∧
    d.taken = HostMove.made moves ∧
    d.received <+: d.taken.map HostCall.decode ∧
    (d.portDropped = false →
      (∀ m, ∃ link, d.link.call m = .ok link) ∧
      (∀ n, (d.play (List.replicate n .receive)).received =
        (d.taken.take (d.received.length + n)).map HostCall.decode) ∧
      d.link.nextHostCall.1 =
        match d.taken.drop d.received.length with
        | m :: _ => .item (HostCall.decode m)
        | [] => if d.hostDropped then .closed else .pending) ∧
    (d.portDropped = true →
      (∀ m, d.link.call m = .error .linkClosed) ∧ d.link.toEngine.queue = []) ∧
    ∀ m,
      (HostCall.decode m = .ok .start ↔ m.method = "start" ∧ m.args = []) ∧
      (HostCall.decode m = .error (.arity "start" 0 m.args.length) ↔
        m.method = "start" ∧ m.args ≠ []) ∧
      (HostCall.decode m = .error (.unknownMethod m.method) ↔ m.method ≠ "start") := by
  intro d
  have hcalls : ∀ move ∈ moves, ∀ m ∈ move.call?, m.IsCarried := by
    intro move hmove m hm
    cases move with
    | call m' => exact Option.some.inj hm ▸ hmoves m' hmove
    | receive | dropPort | dropHost => cases hm
  have hinitial := isSound_initial toHost
  have hsound : d.IsSound := hinitial.play hcalls
  refine ⟨?_, ?_, hinitial.taken_play hcalls, ?_, fun hport => ⟨fun m => ?_,
    hsound.received_play hport, ?_⟩, fun hport => ⟨fun m => ?_, ?_⟩, fun m =>
    ⟨HostCall.decode_eq_start, HostCall.decode_eq_arity, HostCall.decode_eq_unknownMethod⟩⟩
  · exact Bool.eq_iff_iff.mp (hinitial.portDropped_play hcalls)
  · exact Bool.eq_iff_iff.mp (hinitial.hostDropped_play hcalls)
  · rw [hsound.received_eq]
    exact (List.take_prefix _ _).map _
  · exact ⟨_, (call_eq m).trans (by rw [hport]; rfl)⟩
  · cases hpending : d.pending with
    | nil =>
      rw [nextHostCall_of_pending_nil hsound hport hpending]
      unfold pending at hpending
      rw [hpending]
    | cons m rest =>
      rw [nextHostCall_of_pending_cons hsound hport hpending]
      unfold pending at hpending
      rw [hpending]
  · rw [call_eq, hport]
    rfl
  · rw [hsound.queue_eq, hport]
    rfl

/-- A host that goes away right after its calls. The engine is told of all three, and then that
there will be no more. -/
theorem received_of_calls_before_drop :
    let odd : Message := ⟨"\"\\\x01😀", [.list [.int (-1)]]⟩
    let moves : List HostMove :=
      [.call odd, .call ⟨"start", []⟩, .call ⟨"start", [.null]⟩, .dropHost]
    let d := (initial {}).play (moves ++ List.replicate 3 .receive)
    (∀ m, .call m ∈ moves → m.IsCarried) ∧
      d.received = [.error (.unknownMethod "\"\\\x01😀"), .ok .start,
        .error (.arity "start" 0 1)] ∧
      d.link.nextHostCall.1 = .closed := by
  intro odd moves d
  have hodd : odd.IsCarried := by
    refine ⟨?_, ?_⟩ <;> simp [odd, Json.AreExact, Json.IsExact, Json.depth, Json.itemsDepth]
  have hstart : Message.IsCarried ⟨"start", []⟩ := ⟨trivial, by simp⟩
  have hextra : Message.IsCarried ⟨"start", [.null]⟩ :=
    ⟨⟨trivial, trivial⟩, by simp [Json.depth]⟩
  have hcarried : ∀ m, .call m ∈ moves → m.IsCarried := by
    simp [moves, hodd, hstart, hextra]
  have hplay : d = ((initial {}).play moves).play (List.replicate 3 .receive) := by
    simp only [d, play, List.foldl_append]
  obtain ⟨-, -, htaken, -, hopen, -⟩ := received_of_calls {} hcarried
  have hreceived : d.received = [.error (.unknownMethod odd.method), .ok .start,
      .error (.arity "start" 0 1)] := by
    rw [hplay, (hopen rfl).2.1 3, htaken]
    rfl
  have hcarriedAll : ∀ m, .call m ∈ moves ++ List.replicate 3 .receive → m.IsCarried := by
    simpa using hcarried
  obtain ⟨hport, hhost, htakenAll, -, hopenAll, -⟩ := received_of_calls {} hcarriedAll
  have hnone : d.taken.drop d.received.length = [] := by
    rw [hreceived, htakenAll]
    rfl
  have hleft : d.hostDropped = true := hhost.mpr rfl
  have hstays : d.portDropped = false :=
    Bool.eq_false_iff.mpr fun h => Bool.false_ne_true (hport.mp h)
  have hnext := (hopenAll hstays).2.2
  change d.link.nextHostCall.1 = _ at hnext
  refine ⟨hcarried, hreceived, ?_⟩
  rw [hnext, hnone]
  exact if_pos hleft

end Delivery

end EngineBridge
