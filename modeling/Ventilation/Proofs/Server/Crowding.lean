import Ventilation.Proofs.Bus.Lone
import Ventilation.Proofs.Server.Coherence

namespace Ventilation
namespace Server

/-!
# When the fanout and a newcomer stand still

A session listens before it asks for its snapshot, and takes nothing until it
has handed its request over.  So the fanout can wait for room in the queue of a
newcomer while the newcomer waits for room in the queue of the fanout.  Nothing
that happens around the two ends this.  It takes as many newcomers as fill the
one queue, and as many states as fill the other, and one more of each; and from
that on it can come about.
-/

open Bus (Hub Topic View)
open Bus.Topic (Attended boxOf idle lone)
open Client (Session Sink)

namespace Floor

variable {capacity : Nat} {x y : Floor} {client : Nat}

/-- The fanout waits for room in the queue of a session, which itself waits for
room in a queue of the fanout. -/
def Standstill (x : Floor) (client : Nat) : Prop :=
  ∃ seat ticket request, x.seats client = some seat ∧
    (x.fanout.phase = .sending (.broadcast ticket) ∧
      x.hub.broadcasts.WaitsAt ticket seat.session.broadcasts) ∧
    seat.session.phase = .asking (.snapshot request) ∧
      x.hub.snapshots.WaitsAt request x.fanout.snapshots

/-! ## A standstill lasts -/

theorem Standstill.keep (standstill : x.Standstill client)
    (seats : y.seats client = x.seats client) (fanout : y.fanout = x.fanout)
    (broadcasts : ∀ seat ticket, x.seats client = some seat →
      x.hub.broadcasts.WaitsAt ticket seat.session.broadcasts →
        y.hub.broadcasts.WaitsAt ticket seat.session.broadcasts)
    (snapshots : ∀ request, x.hub.snapshots.WaitsAt request x.fanout.snapshots →
      y.hub.snapshots.WaitsAt request x.fanout.snapshots) : y.Standstill client := by
  rcases standstill with ⟨seat, ticket, request, sits, ⟨sending, full⟩, asking, stuck⟩
  refine ⟨seat, ticket, request, seats.trans sits, ⟨?_, broadcasts seat ticket sits full⟩, asking,
    ?_⟩
  · rw [fanout]
    exact sending
  · rw [fanout]
    exact snapshots request stuck

/-- Whatever happens, the two go on waiting for each other. -/
theorem Standstill.move (standstill : x.Standstill client) (coherent : Coherent capacity x)
    (move : x.Move y) : y.Standstill client := by
  have broadcasts := coherent.sending.attended.orderly.toListed
  have requests := coherent.asking.listed
  have ⟨seat, ticket, request, sits, ⟨sending, full⟩, asking, stuck⟩ := standstill
  cases move with
  | announces state => exact standstill.keep rfl rfl (fun _ _ _ => id) (fun _ => id)
  | goesOn other => exact standstill.keep rfl rfl (fun _ _ _ => id) (fun _ => id)
  | listens elsewhere => exact standstill.keep rfl rfl (fun _ _ _ => id) (fun _ => id)
  | @stirs hub spares =>
    have sameTexts : hub.broadcasts = x.hub.broadcasts := congrArg View.broadcasts spares
    have sameRequests : hub.snapshots = x.hub.snapshots := congrArg View.snapshots spares
    refine standstill.keep rfl rfl ?_ ?_
    · exact fun _ _ _ waits => sameTexts ▸ waits
    · exact fun _ waits => sameRequests ▸ waits
  | step step =>
    cases step with
    | passes after => exact standstill.keep rfl rfl (fun _ _ _ => id) (fun _ => id)
    | @joins other vacant =>
      have apart : client ≠ other := by
        rintro rfl
        rw [sits] at vacant
        cases vacant
      exact standstill.keep (Function.update_of_ne apart _ _) rfl (fun _ _ _ => id) (fun _ => id)
    | fanoutTurns waiting turned =>
      rw [sending] at waiting
      cases waiting
    | fanoutGoesOn _ stepped =>
      have blocked : x.hub.canProceed (.broadcast ticket) = false :=
        full.not_canResume broadcasts.sound
      simp [Fanout.step?, sending, blocked] at stepped
    | @sessionGoesOn other another sink session hub deeds sitting stepped =>
      by_cases own : client = other
      · -- The session cannot go on.
        subst own
        rcases Option.some.inj (sits.symm.trans sitting) with rfl
        have blocked : x.hub.canProceed (.snapshot request) = false :=
          stuck.not_canResume requests.sound
        simp [Session.step?, asking, blocked] at stepped
      · have does := does_of_step (coherent.sits other another sitting).asks stepped
        have affects := does.affects
        refine standstill.keep (Function.update_of_ne own _ _) rfl ?_ ?_
        · intro found _ there waits
          rcases Option.some.inj (sits.symm.trans there) with rfl
          refine waits.beside broadcasts (affects.beside broadcasts _ ?_)
          exact coherent.fresh_or_apart sits sitting own
        · intro _ waits
          change hub.view.snapshots.WaitsAt _ _
          rcases affects.snapshots with same | ⟨asks, -⟩ | ⟨ended, goes⟩
          · rw [same]
            exact waits
          · rw [asks]
            exact waits.publish requests.sound _
          · rw [goes]
            exact waits.resume requests.sound _

/-- There is no way out of a standstill. -/
theorem newcomer_standstill_lasts (reached : Reachable capacity x)
    (standstill : x.Standstill client) (later : Relation.ReflTransGen Move x y) :
    y.Standstill client := by
  induction later with
  | refl => exact standstill
  | tail earlier move inductionHypothesis =>
    exact inductionHypothesis.move (coherent_of_reachable (reached.later earlier)) move

/-! ## What it takes -/

/-- In a standstill more sessions have asked than the queue of the fanout holds,
and more states have been announced than the queue of a session holds. -/
theorem asked_of_standstill (reached : Reachable capacity x) (standstill : x.Standstill client) :
    max capacity 1 + 1 ≤ x.hub.snapshots.nextTicket ∧
      max capacity 1 + 1 ≤ x.hub.states.nextTicket := by
  have coherent := coherent_of_reachable reached
  rcases standstill with ⟨seat, ticket, request, sits, ⟨sending, full⟩, asking, stuck⟩
  constructor
  · have crowded := stuck.capacity_lt_coming coherent.asking.listed
    have asked := coherent.asking.asked
    have room := coherent.asking.room
    omega
  · have crowded := full.capacity_lt_coming coherent.sending.attended.orderly.toListed
    have written := (coherent.sits client seat sits).stage.coming_length_lt (by rw [asking]; rfl)
    have announced := coherent.hearing.announced
    have room := coherent.sending.room
    simp only [ahead] at written
    omega

/-! ## A run that comes to a standstill -/

section Run

variable {seat : Seat} {asked sent : Nat}

theorem comes (vacant : x.seats client = none) :
    ∃ y seat, Relation.ReflTransGen Move x y ∧
      y.seats = Function.update x.seats client (some seat) ∧ y.fanout = x.fanout ∧
      seat.session.phase = begun client x.hub ∧
      seat.session.broadcasts = x.hub.broadcasts.nextId ∧
      y.hub.view = { x.hub.view with
        broadcasts := x.hub.broadcasts.subscribe.2
        snapshots := (x.hub.snapshots.publish client).2.2 } := by
  let opened := x.hub.openMailbox client
  let joined : Floor := { x with
    hub := opened
    seats := Function.update x.seats client (some (.create client)) }
  have joins : x.Move joined := .step (.joins vacant)
  have sits : joined.seats client = some (.create client) := Function.update_self _ _ _
  have begins := Move.step (.sessionGoesOn .good sits rfl)
  have does : Does (Seat.create client).session opened
      (Session.begin (.create client) x.now opened).1
      (Session.begin (.create client) x.now opened).2.view [] [] := does_of_begin rfl
  rcases does.of_fresh rfl with ⟨phase, outlook⟩
  refine ⟨_, _, (Relation.ReflTransGen.single joins).tail begins, Function.update_idem _ _ _, rfl,
    phase, does.session_eq.2.2, outlook.trans ?_⟩
  rw [Hub.view_openMailbox]
  rfl

/-- A session that has nothing to read pings its client or leaves. -/
theorem pings_or_leaves {session after : Session} {hub : Hub} {view : View} {taken : List Item}
    {said : List Client.Message} (does : Does session hub after view taken said)
    (waits : session.phase = .open []) (unanswered : hub.view.mail session.client = none)
    (unread : hub.broadcasts.receive? session.broadcasts = none)
    (untold : hub.view.replies session.client = []) :
    (view = hub.view ∧ after.phase = .open [.ping] ∧ after.broadcasts = session.broadcasts) ∨
      view = { hub.view with broadcasts := hub.broadcasts.unsubscribe session.broadcasts } := by
  cases does with
  | pings => exact .inl ⟨rfl, rfl, rfl⟩
  | closes => exact .inr rfl
  | takesSnapshot _ ready => cases unanswered.symm.trans ready
  | takesBroadcast _ _ received => cases unread.symm.trans received
  | takesReply _ ready => cases untold.symm.trans ready
  | begins elsewise | goesOn elsewise | writes elsewise | quits elsewise =>
    cases waits.symm.trans elsewise
  | wrote busy | fails busy =>
    rcases busy with busy | ⟨fate, busy⟩
    · cases waits.symm.trans busy
    · cases waits.symm.trans busy

/-- A session leaves when what it has to write does not reach its client. -/
theorem Reachable.breaks (reached : Reachable capacity x) (sits : x.seats client = some seat)
    {message : Client.Message} {pending : List Client.Message}
    (busy : seat.session.phase = .open (message :: pending)) :
    ∃ y after, Reachable capacity y ∧ y.seats = Function.update x.seats client (some after) ∧
      y.fanout = x.fanout ∧ y.hub.view = { x.hub.view with
        broadcasts := x.hub.broadcasts.unsubscribe seat.session.broadcasts } := by
  have stepped : seat.session.step? x.now .closed x.hub =
      some (seat.session.fail x.hub .closed) := by
    simp [Session.step?, busy, Session.finish]
  exact ⟨_, _, reached.move (.step (.sessionGoesOn .closed sits stepped)), rfl, rfl,
    view_quit _ _⟩

/-- A session that has nothing to read or to write leaves when a ping does not
reach its client. -/
theorem Reachable.leaves (reached : Reachable capacity x) (sits : x.seats client = some seat)
    (waits : seat.session.phase = .open []) (unanswered : x.hub.view.mail client = none)
    (unread : x.hub.broadcasts.receive? seat.session.broadcasts = none)
    (untold : x.hub.view.replies client = []) :
    ∃ y after, Reachable capacity y ∧ y.seats = Function.update x.seats client (some after) ∧
      y.fanout = x.fanout ∧ y.hub.view = { x.hub.view with
        broadcasts := x.hub.broadcasts.unsubscribe seat.session.broadcasts } := by
  have fits := (coherent_of_reachable reached).sits client seat sits
  have turns : (seat.session.step? (max x.now seat.session.pingDue) .closed x.hub).isSome := by
    have due := Nat.le_max_right x.now seat.session.pingDue
    simp only [Session.step?, waits, Option.isSome_map, List.findSome?_isSome_iff]
    exact ⟨.ping, by simp [Session.Branch.all], by simp [Session.turn?, due]⟩
  rcases Option.isSome_iff_exists.mp turns with ⟨⟨session, hub, deeds⟩, stepped⟩
  have passed := reached.move (.step (.passes (Nat.le_max_left x.now seat.session.pingDue)))
  have turned := passed.move (.step (.sessionGoesOn .closed sits stepped))
  rcases pings_or_leaves (does_of_step fits.asks stepped) waits (fits.named ▸ unanswered) unread
    (fits.named ▸ untold) with ⟨outlook, phase, same⟩ | outlook
  · rcases turned.breaks (Function.update_self _ _ _) phase
      with ⟨y, after, gone, seats, fanout, left⟩
    refine ⟨y, after, gone, seats.trans (Function.update_idem _ _ _), fanout, left.trans ?_⟩
    change { hub.view with broadcasts := hub.view.broadcasts.unsubscribe session.broadcasts } = _
    rw [outlook, same]
    rfl
  · exact ⟨_, _, turned, rfl, rfl, outlook⟩

/-- So many clients have come and gone, and the fanout has attended to none of
them; nothing has been announced. -/
structure Deserted (capacity asked : Nat) (x : Floor) : Prop where
  waiting : x.fanout.phase = .waiting
  states : x.hub.states = lone x.fanout.states capacity 0 []
  snapshots : ∃ queue : List Nat, queue.length = asked ∧
    x.hub.snapshots = lone x.fanout.snapshots capacity asked queue
  broadcasts : x.hub.broadcasts = idle (asked + 1) capacity 0
  untold : ∀ client, x.hub.view.replies client = []
  vacant : ∀ client, asked ≤ client → x.seats client = none

theorem deserted_start (capacity : Nat) : Deserted capacity 0 (start capacity 0) :=
  ⟨rfl, rfl, ⟨[], rfl, rfl⟩, rfl, fun _ => rfl, fun _ _ => rfl⟩

/-- As long as there is room for its request, one more client comes and goes. -/
theorem Deserted.more (deserted : Deserted capacity asked x) (reached : Reachable capacity x)
    (room : asked < max capacity 1) :
    ∃ y, Reachable capacity y ∧ Deserted capacity (asked + 1) y := by
  rcases deserted.snapshots with ⟨queue, length, snapshots⟩
  have vacant := deserted.vacant asked (Nat.le_refl _)
  have published : x.hub.snapshots.publish asked =
      (asked, some 1, lone x.fanout.snapshots capacity (asked + 1) (queue ++ [asked])) := by
    rw [snapshots]
    exact Topic.lone_publish (length.symm ▸ room) asked
  rcases comes vacant with ⟨y, seat, later, seats, fanout, phase, id, outlook⟩
  have came := reached.later later
  have waits : seat.session.phase = .open [] := by
    rw [phase, begun, published]
    rfl
  rw [deserted.broadcasts] at id outlook
  rw [published] at outlook
  have sits : y.seats asked = some seat := by
    rw [seats]
    exact Function.update_self _ _ _
  have unanswered : y.hub.view.mail asked = none := by
    rw [outlook]
    exact ((coherent_of_reachable reached).vacant asked vacant).1
  have broadcasts : y.hub.broadcasts = lone (asked + 1) capacity 0 [] :=
    congrArg View.broadcasts outlook
  have unread : y.hub.broadcasts.receive? seat.session.broadcasts = none := by
    rw [broadcasts, id]
    exact Topic.lone_receive_nil _ _ _
  have untold : ∀ client, y.hub.view.replies client = [] := by
    rw [outlook]
    exact deserted.untold
  rcases came.leaves sits waits unanswered unread (untold asked) with
    ⟨z, after, left, seatsToo, fanoutToo, outlookToo⟩
  have same : z.fanout = x.fanout := fanoutToo.trans fanout
  have states : z.hub.states = x.hub.states :=
    (congrArg View.states outlookToo).trans (congrArg View.states outlook)
  have requests : z.hub.snapshots = y.hub.snapshots := congrArg View.snapshots outlookToo
  refine ⟨z, left, ?_, ?_, ⟨queue ++ [asked], ?_, ?_⟩, ?_, ?_, ?_⟩
  · rw [same]
    exact deserted.waiting
  · rw [states, same]
    exact deserted.states
  · rw [List.length_append, length, List.length_singleton]
  · rw [requests, same]
    exact congrArg View.snapshots outlook
  · have gone : z.hub.broadcasts = y.hub.broadcasts.unsubscribe seat.session.broadcasts :=
      congrArg View.broadcasts outlookToo
    rw [gone, broadcasts, id]
    exact Topic.lone_unsubscribe _ _ _ _
  · rw [outlookToo]
    exact untold
  · intro client later
    have apart : client ≠ asked := by omega
    rw [seatsToo, seats, Function.update_of_ne apart, Function.update_of_ne apart]
    exact deserted.vacant client (by omega)

theorem exists_deserted (capacity asked : Nat) (room : asked ≤ max capacity 1) :
    ∃ x, Reachable capacity x ∧ Deserted capacity asked x := by
  induction asked with
  | zero => exact ⟨_, .start 0, deserted_start capacity⟩
  | succ asked inductionHypothesis =>
    rcases inductionHypothesis (Nat.le_of_succ_le room) with ⟨x, reached, deserted⟩
    exact deserted.more reached room

/-- The queue of the fanout is full and a client waits at it, with so many texts
in its own queue. -/
structure Cornered (capacity sent client : Nat) (x : Floor) : Prop where
  waiting : x.fanout.phase = .waiting
  states : x.hub.states = lone x.fanout.states capacity sent []
  asked : x.hub.snapshots.nextTicket = max capacity 1 + 1
  stuck : ∃ seat request, x.seats client = some seat ∧
    seat.session.phase = .asking (.snapshot request) ∧
    x.hub.snapshots.WaitsAt request x.fanout.snapshots ∧
    ∃ queue : List Bus.Broadcast, queue.length = sent ∧
      x.hub.broadcasts = lone seat.session.broadcasts capacity sent queue

/-- When the queue of the fanout is full, the next client waits. -/
theorem Deserted.corners (deserted : Deserted capacity (max capacity 1) x)
    (reached : Reachable capacity x) :
    ∃ y, Reachable capacity y ∧ Cornered capacity 0 (max capacity 1) y := by
  rcases deserted.snapshots with ⟨queue, full, snapshots⟩
  have vacant := deserted.vacant _ (Nat.le_refl _)
  rcases comes vacant with ⟨y, seat, later, seats, fanout, phase, id, outlook⟩
  have came := reached.later later
  have published := @Topic.lone_publish_full _ x.fanout.snapshots capacity (max capacity 1) queue
    full (max capacity 1)
  rw [← snapshots] at published
  rcases published with ⟨-, noRoom, more, waits⟩
  have requests : y.hub.snapshots = (x.hub.snapshots.publish (max capacity 1)).2.2 :=
    congrArg View.snapshots outlook
  refine ⟨y, came, ?_, ?_, requests ▸ more,
    ⟨seat, max capacity 1, ?_, ?_, ?_, [], rfl, ?_⟩⟩
  · rw [fanout]
    exact deserted.waiting
  · have states : y.hub.states = x.hub.states := congrArg View.states outlook
    rw [states, fanout]
    exact deserted.states
  · rw [seats]
    exact Function.update_self _ _ _
  · rw [phase, begun, noRoom, snapshots]
    rfl
  · rw [requests, fanout]
    exact waits
  · have broadcasts : y.hub.broadcasts = x.hub.broadcasts.subscribe.2 :=
      congrArg View.broadcasts outlook
    rw [broadcasts, id, deserted.broadcasts]
    rfl

/-- A state is announced, and the fanout sends its text. -/
theorem Reachable.sends (reached : Reachable capacity x) (waiting : x.fanout.phase = .waiting)
    (states : x.hub.states = lone x.fanout.states capacity sent []) :
    ∃ y shown, Reachable capacity y ∧ y.seats = x.seats ∧ y.hub.snapshots = x.hub.snapshots ∧
      y.fanout.states = x.fanout.states ∧ y.fanout.snapshots = x.fanout.snapshots ∧
      y.hub.states = lone x.fanout.states capacity (sent + 1) [] ∧
      y.hub.broadcasts = (x.hub.broadcasts.publish shown).2.2 ∧
      y.fanout.phase = (if (x.hub.broadcasts.publish shown).2.1.isSome then .waiting
        else .sending (.broadcast x.hub.broadcasts.nextTicket)) := by
  have room : ([] : List State).length < max capacity 1 :=
    Topic.max_one_pos capacity
  have published : x.hub.publishState .shut =
      (none, { x.hub with states := lone x.fanout.states capacity (sent + 1) [.shut] }) := by
    simp only [Hub.publishState, states, Topic.lone_publish room]
    rfl
  have announced := reached.move (.announces .shut)
  rw [published] at announced
  have turns : (x.fanout.turn?
      { x.hub with states := lone x.fanout.states capacity (sent + 1) [.shut] } .state).isSome := by
    simp only [Fanout.turn?, Topic.lone_receive, Option.bind_eq_bind, Option.bind_some]
    split <;> rfl
  rcases Option.isSome_iff_exists.mp turns with ⟨⟨fanout, hub⟩, turned⟩
  have served := announced.move (.step (.fanoutTurns waiting turned))
  have serves := serves_of_turn turned
  generalize outlook : hub.view = view at serves
  cases serves with
  | sends received =>
    rw [Topic.lone_receive] at received
    rcases Prod.mk.inj (Option.some.inj received) with ⟨rfl, rfl⟩
    have snapshots : hub.snapshots = x.hub.snapshots := congrArg View.snapshots outlook
    have left : hub.states = _ := congrArg View.states outlook
    have broadcasts : hub.broadcasts = _ := congrArg View.broadcasts outlook
    exact ⟨_, _, served, rfl, snapshots, rfl, rfl, left, broadcasts, by rw [← waiting]⟩

/-- As long as there is room for its text, the fanout sends one state more. -/
theorem Cornered.more (cornered : Cornered capacity sent client x)
    (reached : Reachable capacity x) (room : sent < max capacity 1) :
    ∃ y, Reachable capacity y ∧ Cornered capacity (sent + 1) client y := by
  rcases cornered.stuck with ⟨seat, request, sits, asking, waits, queue, length, broadcasts⟩
  rcases reached.sends cornered.waiting cornered.states with
    ⟨y, shown, served, seats, snapshots, heard, asked, states, sends, phase⟩
  have published := @Topic.lone_publish _ seat.session.broadcasts capacity sent queue
    (length.symm ▸ room) shown
  rw [← broadcasts] at published
  rw [published] at sends phase
  refine ⟨y, served, phase, heard ▸ states, snapshots ▸ cornered.asked, seat, request,
    seats ▸ sits, asking, ?_, queue ++ [shown], ?_, sends⟩
  · rw [snapshots, asked]
    exact waits
  · rw [List.length_append, length, List.length_singleton]

/-- When the queue of the client is full too, the fanout waits as well. -/
theorem Cornered.standsStill (cornered : Cornered capacity (max capacity 1) client x)
    (reached : Reachable capacity x) :
    ∃ y, Reachable capacity y ∧ y.Standstill client ∧
      y.hub.snapshots.nextTicket = max capacity 1 + 1 ∧
        y.hub.states.nextTicket = max capacity 1 + 1 := by
  rcases cornered.stuck with ⟨seat, request, sits, asking, waits, queue, full, broadcasts⟩
  rcases reached.sends cornered.waiting cornered.states with
    ⟨y, shown, served, seats, snapshots, heard, asked, states, sends, phase⟩
  have published := @Topic.lone_publish_full _ seat.session.broadcasts capacity (max capacity 1)
    queue full shown
  rw [← broadcasts] at published
  rcases published with ⟨-, noRoom, -, blocked⟩
  refine ⟨y, served, ⟨seat, max capacity 1, request, seats ▸ sits, ⟨?_, ?_⟩, asking, ?_⟩,
    snapshots ▸ cornered.asked, ?_⟩
  · rw [phase, noRoom, broadcasts]
    rfl
  · rw [sends]
    exact blocked
  · rw [snapshots, asked]
    exact waits
  · rw [states]
    rfl

/-- The shortest run to a standstill: as many clients come and go as fill the
queue of the fanout, and one more comes; and as many states are announced as
fill the queue of that one, and one more. -/
theorem exists_standstill_at_newcomer (capacity : Nat) :
    ∃ x client, Reachable capacity x ∧ x.Standstill client ∧
      x.hub.snapshots.nextTicket = max capacity 1 + 1 ∧
        x.hub.states.nextTicket = max capacity 1 + 1 := by
  have filled : ∀ sent ≤ max capacity 1,
      ∃ x, Reachable capacity x ∧ Cornered capacity sent (max capacity 1) x := by
    intro sent room
    induction sent with
    | zero =>
      rcases exists_deserted capacity _ (Nat.le_refl _) with ⟨x, reached, deserted⟩
      exact deserted.corners reached
    | succ sent inductionHypothesis =>
      rcases inductionHypothesis (Nat.le_of_succ_le room) with ⟨x, reached, cornered⟩
      exact cornered.more reached room
  rcases filled _ (Nat.le_refl _) with ⟨x, reached, cornered⟩
  rcases cornered.standsStill reached with ⟨y, stands, standstill, asked, announced⟩
  exact ⟨y, _, stands, standstill, asked, announced⟩

end Run

theorem exists_vacant (reached : Reachable capacity x) : ∃ client, x.seats client = none := by
  have bounded : ∃ bound, ∀ client, bound ≤ client → x.seats client = none := by
    induction reached with
    | start others => exact ⟨0, fun _ _ => rfl⟩
    | @move x y _ move inductionHypothesis =>
      rcases inductionHypothesis with ⟨bound, vacant⟩
      have updated : ∀ client (seat : Seat), ∃ bound, ∀ other, bound ≤ other →
          Function.update x.seats client (some seat) other = none := by
        intro client seat
        refine ⟨max bound (client + 1), fun other beyond => ?_⟩
        rw [Function.update_of_ne (by omega)]
        exact vacant other (by omega)
      cases move with
      | announces | goesOn | listens | stirs => exact ⟨bound, vacant⟩
      | step step =>
        cases step with
        | passes | fanoutTurns | fanoutGoesOn => exact ⟨bound, vacant⟩
        | joins => exact updated _ _
        | sessionGoesOn => exact updated _ _
  rcases bounded with ⟨bound, vacant⟩
  exact ⟨bound, vacant bound (Nat.le_refl _)⟩

/-- From how much on the fanout and a session can come to a standstill: so many
sessions have to ask for a snapshot that the queue of the fanout is full and one
has to wait, and so many states have to be announced that the queue of that one
is full and the fanout has to wait. -/
theorem newcomer_standstill_reachable_iff (capacity asked announced : Nat) :
    (∃ x client, Reachable capacity x ∧ x.Standstill client ∧
        x.hub.snapshots.nextTicket = asked ∧ x.hub.states.nextTicket = announced) ↔
      max capacity 1 + 1 ≤ asked ∧ max capacity 1 + 1 ≤ announced := by
  constructor
  · rintro ⟨x, client, reached, standstill, rfl, rfl⟩
    exact asked_of_standstill reached standstill
  · rintro ⟨askers, states⟩
    have crowd : ∃ x client, Reachable capacity x ∧ x.Standstill client ∧
        x.hub.snapshots.nextTicket = asked ∧
          x.hub.states.nextTicket = max capacity 1 + 1 := by
      induction asked, askers using Nat.le_induction with
      | base => exact exists_standstill_at_newcomer capacity
      | succ asked _ inductionHypothesis =>
        rcases inductionHypothesis with ⟨x, client, reached, standstill, rfl, announced⟩
        rcases exists_vacant reached with ⟨other, vacant⟩
        rcases comes vacant with ⟨y, seat, later, -, -, -, -, outlook⟩
        have asks : y.hub.snapshots = (x.hub.snapshots.publish other).2.2 :=
          congrArg View.snapshots outlook
        have same : y.hub.states = x.hub.states := congrArg View.states outlook
        refine ⟨y, client, reached.later later, newcomer_standstill_lasts reached standstill later,
          ?_, same ▸ announced⟩
        rw [asks, (Topic.publish_frame _ _).2.2]
    induction announced, states using Nat.le_induction with
    | base => exact crowd
    | succ announced _ inductionHypothesis =>
      rcases inductionHypothesis with ⟨x, client, reached, standstill, asks, rfl⟩
      have announces : x.Move { x with hub := (x.hub.publishState .shut).2 } := .announces .shut
      exact ⟨_, client, reached.move announces,
        standstill.move (coherent_of_reachable reached) announces, asks,
        (Topic.publish_frame x.hub.states .shut).2.2⟩

end Floor
end Server
end Ventilation
