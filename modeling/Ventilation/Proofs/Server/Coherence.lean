import Ventilation.Proofs.Server.Feed

namespace Ventilation
namespace Server

/-!
# Coherence of the floor

What the fanout sends, what lies in the topics and what the sessions have had
fit together in every floor that can be reached.  A step of a session changes
nothing for another session; a step of the fanout sends the same to all that
listen, or answers one that has asked.
-/

open Bus (Broadcast Hub Topic View)
open Bus.Topic (Attended Beside boxOf)
open Client (Session SessionPhase)

/-! ## What fits together -/

def awaited : FanoutPhase → Option Nat
  | .sending (.broadcast ticket) => some ticket
  | _ => none

namespace Floor

/-- What is on its way to the session of a client. -/
def ahead (x : Floor) (client : Nat) (seat : Seat) : Ahead where
  coming := x.hub.broadcasts.coming seat.session.broadcasts
  requests := (x.hub.snapshots.coming x.fanout.snapshots).count client
  mail := x.hub.view.mail client
  calm := x.hub.broadcasts.publishings = []

end Floor

/-- What fits together between the floor and one seat. -/
structure Sits (x : Floor) (client : Nat) (seat : Seat) : Prop where
  named : seat.session.client = client
  said : seat.said = seat.written.map Item.message
  holds : seat.Holds
  old : seat.session.broadcasts < x.hub.broadcasts.nextId
  unnamed : seat.session.broadcasts = 0 ↔ seat.session.phase = .fresh
  present : listens seat.session.phase = true →
    ∃ box, boxOf x.hub.broadcasts.boxes seat.session.broadcasts = some box
  asks : ∀ wait, seat.session.phase = .asking wait → ∃ ticket, wait = .snapshot ticket
  stage : Stage x.texts seat (x.ahead client seat)

/-- The fanout is the only one that sends, and waits for what it sends. -/
structure Sending (capacity : Nat) (phase : FanoutPhase) (topic : Topic Broadcast) : Prop where
  attended : topic.Attended (awaited phase)
  sends : ∀ wait, phase = .sending wait → ∃ ticket, wait = .broadcast ticket
  room : topic.capacity = capacity
  born : 0 < topic.nextId

/-- The fanout has not written down more states than have been announced. -/
structure Hearing (id written : Nat) (topic : Topic State) : Prop where
  listed : topic.Listed
  attends : id < topic.nextId
  announced : written + (topic.coming id).length ≤ topic.nextTicket + 1

/-- The fanout is not asked for more snapshots than sessions have asked for. -/
structure Asking (capacity id : Nat) (topic : Topic Nat) : Prop where
  listed : topic.Listed
  room : topic.capacity = capacity
  asked : (topic.coming id).length ≤ topic.nextTicket

/-- What fits together on a floor whose queues are so long. -/
structure Coherent (capacity : Nat) (x : Floor) : Prop where
  sending : Sending capacity x.fanout.phase x.hub.broadcasts
  hearing : Hearing x.fanout.states x.texts.length x.hub.states
  asking : Asking capacity x.fanout.snapshots x.hub.snapshots
  newest : x.texts.getLast? = some x.fanout.last
  numbered : Numbered x.texts
  vacant : ∀ client, x.seats client = none → x.hub.view.mail client = none ∧
    (x.hub.snapshots.coming x.fanout.snapshots).count client = 0
  apart : ∀ client other seat another, x.seats client = some seat →
    x.seats other = some another → client ≠ other →
      seat.session.broadcasts = another.session.broadcasts → seat.session.phase = .fresh
  sits : ∀ client seat, x.seats client = some seat → Sits x client seat

/-! ## The parts, each by itself -/

theorem awaited_ite (through : Prop) [Decidable through] (ticket : Nat) :
    awaited (if through then .waiting else .sending (.broadcast ticket)) =
      if through then none else some ticket := by
  split
  · rfl
  · rfl

namespace Sending

variable {capacity ticket : Nat} {topic next : Topic Broadcast}

/-- The fanout waits for what it sends as long as that is not through. -/
theorem of_attended {through : Prop} [Decidable through]
    (attended : next.Attended (if through then none else some ticket))
    (room : next.capacity = capacity) (born : 0 < next.nextId) :
    Sending capacity (if through then .waiting else .sending (.broadcast ticket)) next where
  attended := (awaited_ite through ticket).symm ▸ attended
  sends wait waits := by
    split at waits
    · cases waits
    · cases waits
      exact ⟨ticket, rfl⟩
  room := room
  born := born

theorem publish (sending : Sending capacity .waiting topic) (text : Broadcast) :
    Sending capacity (if (topic.publish text).2.1.isSome then .waiting
      else .sending (.broadcast topic.nextTicket)) (topic.publish text).2.2 := by
  rcases Attended.publish sending.attended text with ⟨attends, nextId, -⟩
  exact .of_attended attends ((topic.publish_frame text).1.trans sending.room)
    (nextId ▸ sending.born)

theorem resume (sending : Sending capacity (.sending (.broadcast ticket)) topic) :
    Sending capacity (if ((topic.resume ticket).2.publishing? ticket).isNone then .waiting
      else .sending (.broadcast ticket)) (topic.resume ticket).2 := by
  rcases Attended.resume sending.attended with ⟨attends, onward⟩
  exact .of_attended attends ((topic.resume_frame ticket).1.trans sending.room)
    (onward.nextId_eq ▸ sending.born)

end Sending

namespace Hearing

variable {id written : Nat} {topic next : Topic State}

theorem publish (hearing : Hearing id written topic) (state : State) :
    Hearing id written (topic.publish state).2.2 := by
  rcases hearing.listed.publish state with ⟨listed, coming⟩
  rcases topic.publish_frame state with ⟨-, nextId, nextTicket⟩
  have more := (coming id).length_le
  have bound := hearing.announced
  rw [List.length_append, List.length_singleton] at more
  exact ⟨listed, nextId ▸ hearing.attends, by omega⟩

theorem resume (hearing : Hearing id written topic) (ticket : Nat) :
    Hearing id written (topic.resume ticket).2 := by
  rcases hearing.listed.resume ticket with ⟨listed, coming⟩
  rcases topic.resume_frame ticket with ⟨-, nextId, nextTicket⟩
  have fewer := (coming id).length_le
  have bound := hearing.announced
  exact ⟨listed, nextId ▸ hearing.attends, by omega⟩

theorem elsewhere (hearing : Hearing id written topic)
    (elsewhere : Topic.Elsewhere id topic next) : Hearing id written next := by
  have beside := Beside.of_elsewhere elsewhere hearing.listed
  refine ⟨hearing.listed.elsewhere elsewhere,
    Nat.lt_of_lt_of_le hearing.attends beside.nextId_le, ?_⟩
  rw [beside.coming_eq hearing.attends, beside.nextTicket_eq]
  exact hearing.announced

/-- What the fanout takes it writes down. -/
theorem receive? (hearing : Hearing id written topic) {state : State}
    (received : topic.receive? id = some (state, next)) : Hearing id (written + 1) next := by
  have frame := Topic.receive?_frame received
  have bound := hearing.announced
  rw [Topic.coming_receive received, List.length_cons] at bound
  exact ⟨hearing.listed.receive? received, frame.2.1.symm ▸ hearing.attends, by omega⟩

theorem unsubscribe (hearing : Hearing id written topic) :
    Hearing id written (topic.unsubscribe id) := by
  have unheard := (topic.coming_unsubscribe_sublist id id).length_le
  exact ⟨hearing.listed.unsubscribe _, hearing.attends,
    Nat.le_trans (Nat.add_le_add_left unheard _) hearing.announced⟩

end Hearing

namespace Asking

variable {capacity id : Nat} {topic next : Topic Nat}

theorem receive? (asking : Asking capacity id topic) {client : Nat}
    (received : topic.receive? id = some (client, next)) : Asking capacity id next := by
  have frame := Topic.receive?_frame received
  have bound := asking.asked
  rw [Topic.coming_receive received, List.length_cons] at bound
  exact ⟨asking.listed.receive? received, frame.1.trans asking.room, by omega⟩

theorem unsubscribe (asking : Asking capacity id topic) :
    Asking capacity id (topic.unsubscribe id) :=
  ⟨asking.listed.unsubscribe _, asking.room,
    Nat.le_trans (topic.coming_unsubscribe_sublist id id).length_le asking.asked⟩

end Asking

/-! ## A seat that is left alone -/

/-- A seat to which nothing happens but what happens to all. -/
theorem Sits.carry {x y : Floor} {client : Nat} {seat : Seat} (sits : Sits x client seat)
    (news : List Broadcast) (texts : y.texts = x.texts ++ news)
    (nextId : x.hub.broadcasts.nextId ≤ y.hub.broadcasts.nextId)
    (live : (boxOf y.hub.broadcasts.boxes seat.session.broadcasts).isSome =
      (boxOf x.hub.broadcasts.boxes seat.session.broadcasts).isSome)
    (coming : ∀ box, boxOf x.hub.broadcasts.boxes seat.session.broadcasts = some box →
      y.hub.broadcasts.coming seat.session.broadcasts =
        x.hub.broadcasts.coming seat.session.broadcasts ++ news)
    (requests : (y.ahead client seat).requests ≤ (x.ahead client seat).requests)
    (mail : y.hub.view.mail client = x.hub.view.mail client)
    (calm : x.hub.broadcasts.publishings = [] → y.hub.broadcasts.publishings = [] ∨ news ≠ []) :
    Sits y client seat where
  named := sits.named
  said := sits.said
  holds := sits.holds
  old := Nat.lt_of_lt_of_le sits.old nextId
  unnamed := sits.unnamed
  present listening := by
    rcases sits.present listening with ⟨box, here⟩
    rw [← Option.isSome_iff_exists, live, here]
    rfl
  asks := sits.asks
  stage := by
    rw [texts]
    refine sits.stage.carry news (fun listening => ?_) requests mail calm
    rcases sits.present listening with ⟨box, here⟩
    exact coming box here

/-- A seat beside which something happens at the topic of the broadcasts. -/
theorem Sits.beside {x y : Floor} {client : Nat} {seat : Seat} (sits : Sits x client seat)
    (texts : y.texts = x.texts)
    (beside : Beside seat.session.broadcasts x.hub.broadcasts y.hub.broadcasts)
    (requests : (y.ahead client seat).requests ≤ (x.ahead client seat).requests)
    (mail : y.hub.view.mail client = x.hub.view.mail client) : Sits y client seat := by
  refine sits.carry [] (by rw [texts, List.append_nil]) beside.nextId_le
    (congrArg Option.isSome (beside.box_eq sits.old)) ?_ requests mail ?_
  · intro box here
    rw [List.append_nil]
    exact beside.coming_eq sits.old
  · exact fun calm => .inl (beside.publishings_eq.trans calm)

namespace Coherent

variable {capacity : Nat} {x y : Floor}

/-- The last text has the last number. -/
theorem mark_last (coherent : Coherent capacity x) : x.fanout.last.mark + 1 = x.texts.length := by
  have newest := coherent.newest
  rw [List.getLast?_eq_getElem?] at newest
  have mark := coherent.numbered _ _ newest
  have within := (List.getElem?_eq_some_iff.mp newest).1
  omega

/-! ## What happens around the fanout and the sessions -/

/-- The fanout and the sessions stay as they are, and at most the announced
states change. -/
theorem around (coherent : Coherent capacity x)
    (same : y.fanout = x.fanout ∧ y.texts = x.texts ∧ y.seats = x.seats)
    (broadcasts : y.hub.broadcasts = x.hub.broadcasts)
    (snapshots : y.hub.snapshots = x.hub.snapshots)
    (mail : y.hub.view.mail = x.hub.view.mail)
    (hearing : Hearing x.fanout.states x.texts.length y.hub.states) : Coherent capacity y := by
  rcases same with ⟨fanout, texts, seats⟩
  refine ⟨?_, ?_, ?_, ?_, ?_, ?_, ?_, ?_⟩
  · rw [broadcasts, fanout]
    exact coherent.sending
  · rw [fanout, texts]
    exact hearing
  · rw [snapshots, fanout]
    exact coherent.asking
  · rw [texts, fanout]
    exact coherent.newest
  · rw [texts]
    exact coherent.numbered
  · rw [seats, mail, snapshots, fanout]
    exact coherent.vacant
  · rw [seats]
    exact coherent.apart
  · intro client seat sitting
    rw [seats] at sitting
    refine (coherent.sits client seat sitting).beside texts ?_ (Nat.le_of_eq ?_) (by rw [mail])
    · rw [broadcasts]
      exact .refl _ _
    · simp only [Floor.ahead, snapshots, fanout]

theorem announces (coherent : Coherent capacity x) (state : State) :
    Coherent capacity { x with hub := (x.hub.publishState state).2 } :=
  coherent.around ⟨rfl, rfl, rfl⟩ rfl rfl rfl (coherent.hearing.publish state)

theorem goesOn (coherent : Coherent capacity x) (ticket : Nat) :
    Coherent capacity { x with hub := (x.hub.proceed (.state ticket)).2 } :=
  coherent.around ⟨rfl, rfl, rfl⟩ rfl rfl rfl (coherent.hearing.resume ticket)

theorem listens (coherent : Coherent capacity x) {states : Topic State}
    (elsewhere : Topic.Elsewhere x.fanout.states x.hub.states states) :
    Coherent capacity { x with hub := { x.hub with states := states } } :=
  coherent.around ⟨rfl, rfl, rfl⟩ rfl rfl rfl (coherent.hearing.elsewhere elsewhere)

theorem stirs (coherent : Coherent capacity x) {hub : Hub} (spares : Spares x.hub hub) :
    Coherent capacity { x with hub := hub } := by
  have states : hub.states = x.hub.states := congrArg View.states spares
  have broadcasts : hub.broadcasts = x.hub.broadcasts := congrArg View.broadcasts spares
  have snapshots : hub.snapshots = x.hub.snapshots := congrArg View.snapshots spares
  have mail := congrArg View.mail spares
  exact coherent.around ⟨rfl, rfl, rfl⟩ broadcasts snapshots mail (states ▸ coherent.hearing)

theorem passes (coherent : Coherent capacity x) (later : Instant) :
    Coherent capacity { x with now := later } :=
  coherent.around ⟨rfl, rfl, rfl⟩ rfl rfl rfl coherent.hearing

/-! ## Sessions -/

theorem joins (coherent : Coherent capacity x) {client : Nat} (vacant : x.seats client = none) :
    Coherent capacity { x with
      hub := x.hub.openMailbox client
      seats := Function.update x.seats client (some (.create client)) } := by
  have opened : Coherent capacity { x with hub := x.hub.openMailbox client } :=
    coherent.stirs (by rw [Spares, Hub.view_openMailbox])
  rcases opened.vacant client vacant with ⟨unanswered, unasked⟩
  refine { opened with vacant := ?_, apart := ?_, sits := ?_ }
  · intro other empty
    simp only [Function.update_apply] at empty
    split at empty
    · cases empty
    · exact opened.vacant other empty
  · intro first second seat another sits sitsToo differ same
    simp only [Function.update_apply] at sits sitsToo
    split at sits
    · rw [← Option.some.inj sits]
      rfl
    · split at sitsToo
      · rw [← Option.some.inj sitsToo] at same
        exact (opened.sits first seat sits).unnamed.mp same
      · exact opened.apart first second seat another sits sitsToo differ same
  · intro other seat sits
    simp only [Function.update_apply] at sits
    split at sits
    · next own =>
      rw [own, ← Option.some.inj sits]
      exact ⟨rfl, rfl, rfl, opened.sending.born, ⟨fun _ => rfl, fun _ => rfl⟩, nofun, nofun,
        .fresh rfl ⟨rfl, rfl⟩ unasked unanswered⟩
    · exact (opened.sits other seat sits).beside rfl (.refl _ _) (Nat.le_refl _) rfl

/-- A session that has begun listens under a number of its own. -/
theorem fresh_or_apart (coherent : Coherent capacity x) {client other : Nat}
    {seat another : Seat} (sits : x.seats client = some seat)
    (sitsToo : x.seats other = some another) (differ : client ≠ other) :
    another.session.phase = .fresh ∨ seat.session.broadcasts ≠ another.session.broadcasts := by
  by_cases fresh : another.session.phase = .fresh
  · exact .inl fresh
  · refine .inr fun equal => fresh ?_
    have unnamed := (coherent.sits client seat sits).unnamed
    have begins := coherent.apart client other seat another sits sitsToo differ equal
    exact (coherent.sits other another sitsToo).unnamed.mp
      (equal.symm.trans (unnamed.mpr begins))

/-- A step of a session is a step of its own seat and nothing for the others. -/
theorem session (coherent : Coherent capacity x) {client : Nat} {seat after : Seat} {next : Hub}
    (sitting : x.seats client = some seat) (affects : Affects seat.session x.hub.view next.view)
    (same : seat.session.phase ≠ .fresh → after.session.broadcasts = seat.session.broadcasts)
    (new : seat.session.phase = .fresh → after.session.broadcasts = x.hub.broadcasts.nextId)
    (own : Sits { x with hub := next, seats := Function.update x.seats client (some after) }
      client after) :
    Coherent capacity
      { x with hub := next, seats := Function.update x.seats client (some after) } := by
  have sits := coherent.sits client seat sitting
  have listed := coherent.asking.listed
  have fewer : ∀ other, other ≠ client →
      (next.snapshots.coming x.fanout.snapshots).count other ≤
        (x.hub.snapshots.coming x.fanout.snapshots).count other := fun other differ =>
    affects.count_le listed _ (sits.named.symm ▸ differ)
  have mail : ∀ other, other ≠ client → next.view.mail other = x.hub.view.mail other :=
    fun other differ => affects.mail other (sits.named.symm ▸ differ)
  have states : next.states = x.hub.states := affects.states_eq
  refine ⟨?_, ?_, ?_, coherent.newest, coherent.numbered, ?_, ?_, ?_⟩
  · exact ⟨affects.attended _ coherent.sending.attended, coherent.sending.sends,
      affects.capacity_eq.1.trans coherent.sending.room,
      Nat.lt_of_lt_of_le coherent.sending.born affects.nextId_le⟩
  · exact states ▸ coherent.hearing
  · exact ⟨affects.listed_after listed, affects.capacity_eq.2.trans coherent.asking.room,
      affects.asked listed coherent.asking.asked⟩
  · intro other empty
    simp only [Function.update_apply] at empty
    split at empty
    · cases empty
    · next differ =>
      rcases coherent.vacant other empty with ⟨unanswered, unasked⟩
      have none_asked := fewer other differ
      exact ⟨(mail other differ).trans unanswered, by simp only; omega⟩
  · -- The number of a session that has just begun is larger than all others.
    intro first second one two sitsOne sitsTwo differ equal
    simp only [Function.update_apply] at sitsOne sitsTwo
    split at sitsOne
    · next own =>
      rw [own] at differ
      rw [if_neg differ.symm] at sitsTwo
      rcases Option.some.inj sitsOne with rfl
      by_cases fresh : seat.session.phase = .fresh
      · have older := (coherent.sits second two sitsTwo).old
        rw [← equal, new fresh] at older
        exact absurd older (Nat.lt_irrefl _)
      · rw [same fresh] at equal
        exact absurd (coherent.apart client second seat two sitting sitsTwo differ equal) fresh
    · split at sitsTwo
      · next away own =>
        rcases Option.some.inj sitsTwo with rfl
        by_cases fresh : seat.session.phase = .fresh
        · have older := (coherent.sits first one sitsOne).old
          rw [equal, new fresh] at older
          exact absurd older (Nat.lt_irrefl _)
        · rw [same fresh] at equal
          exact coherent.apart first client one seat sitsOne sitting (own ▸ differ) equal
      · exact coherent.apart first second one two sitsOne sitsTwo differ equal
  · intro other one sitsOne
    simp only [Function.update_apply] at sitsOne
    split at sitsOne
    · next same =>
      rw [same, ← Option.some.inj sitsOne]
      exact own
    · next differ =>
      have fits := coherent.sits other one sitsOne
      exact fits.beside rfl (affects.beside coherent.sending.attended.orderly.toListed _
        (coherent.fresh_or_apart sitsOne sitting differ)) (fewer other differ) (mail other differ)

end Coherent

/-! ## The seat of the session that takes a step -/

section Own

variable {capacity : Nat} {x y : Floor} {client : Nat} {seat : Seat} {session : Session}
  {view : View} {taken : List Item} {said : List Client.Message}

/-- With the snapshot the session takes what is newer from its queue. -/
theorem grip_snapshot {hub : Hub} {snapshot : Broadcast} {box : Bus.Box Broadcast}
    (ready : hub.view.mail session.client = some snapshot)
    (here : boxOf hub.broadcasts.boxes session.broadcasts = some box) :
    grip session hub .snapshot =
      .snapshot snapshot :: (Session.newer snapshot box.queue).map .broadcast := by
  simp only [grip, ready, Topic.receiveAll_eq here, Option.elim_some]

theorem filter_grip_snapshot (session : Session) (hub : Hub) :
    (grip session hub .snapshot).filter Item.fromFanout = grip session hub .snapshot := by
  refine List.filter_eq_self.mpr fun item member => ?_
  simp only [grip] at member
  cases ready : hub.view.mail session.client with
  | none =>
    rw [ready] at member
    cases member
  | some snapshot =>
    rw [ready] at member
    rcases List.mem_cons.mp member with rfl | later
    · rfl
    · rcases List.mem_map.mp later with ⟨shown, -, rfl⟩
      rfl

/-- The course of the feed after a step of the session. -/
theorem Stage.does (coherent : Coherent capacity x) (sits : Sits x client seat)
    (same : y.texts = x.texts ∧ y.fanout = x.fanout) (outlook : y.hub.view = view)
    (does : Does seat.session x.hub session view taken said) :
    Stage x.texts (seat.after x.fanout.last.mark session taken said)
      (y.ahead client (seat.after x.fanout.last.mark session taken said)) := by
  have stage := sits.stage
  have got := seat.got_after x.fanout.last.mark session taken said
  have affects := does.affects
  have broadcasts : y.hub.broadcasts = view.broadcasts := congrArg View.broadcasts outlook
  have snapshots : y.hub.snapshots = view.snapshots := congrArg View.snapshots outlook
  have mail : y.hub.view.mail = view.mail := congrArg View.mail outlook
  have calm : x.hub.broadcasts.publishings = [] → y.hub.broadcasts.publishings = [] :=
    fun calm => by rw [broadcasts]; exact affects.publishings_eq.trans calm
  have requests : (y.hub.snapshots.coming y.fanout.snapshots).count client ≤
      (x.ahead client seat).requests + if seat.session.phase = .fresh then 1 else 0 := by
    have fewer := affects.count_own_le coherent.asking.listed x.fanout.snapshots
    rw [sits.named] at fewer
    rw [snapshots, same.2]
    exact fewer
  -- A step that takes nothing from the fanout leaves the feed as it is.
  have works : listens seat.session.phase = true → listens session.phase = true →
      session.broadcasts = seat.session.broadcasts → taken.filter Item.fromFanout = [] →
      view.broadcasts = x.hub.broadcasts → view.mail client = x.hub.view.mail client →
      Stage x.texts (seat.after x.fanout.last.mark session taken said)
        (y.ahead client (seat.after x.fanout.last.mark session taken said)) := by
    intro live lives id nothing still unmoved
    have begun := not_fresh_of_listens live
    rw [nothing, List.append_nil] at got
    rw [if_neg begun] at requests
    refine (stage.works live lives (if_neg begun) got).keep ?_ requests ?_ calm
    · change y.hub.broadcasts.coming session.broadcasts = _
      rw [broadcasts, still, id]
      rfl
    · exact (congrFun mail client).trans unmoved
  have leaves : seat.session.phase ≠ .fresh → listens session.phase = false →
      session.phase ≠ .fresh → taken = [] → said = [] →
      Stage x.texts (seat.after x.fanout.last.mark session taken said)
        (y.ahead client (seat.after x.fanout.last.mark session taken said)) := by
    rintro begun gone past rfl rfl
    exact stage.leaves coherent.numbered begun ⟨gone, past⟩ (if_neg begun) (List.append_nil _)
  cases does with
  | begins fresh =>
    refine stage.begins fresh ?_ (got.trans (List.append_nil _)) ?_ ?_ ?_ (congrFun mail client)
    · rcases begun_cases seat.session.client x.hub with phase | phase <;>
        rw [Seat.after, phase] <;> rfl
    · simp only [Seat.after, if_pos fresh]
      exact coherent.mark_last
    · change y.hub.broadcasts.coming x.hub.broadcasts.nextId = []
      rw [broadcasts]
      exact coherent.sending.attended.orderly.coming_subscribe_new
    · rw [if_pos fresh] at requests
      exact requests
  | goesOn asking ready gone =>
    refine works (by rw [asking]; rfl) ?_ rfl rfl rfl rfl
    rcases gone with rfl | rfl <;> rfl
  | @takesSnapshot snapshot waits ready =>
    have live : listens seat.session.phase = true := by rw [waits]; rfl
    rcases sits.present live with ⟨box, here⟩
    have held := grip_snapshot ready here
    rw [filter_grip_snapshot, held] at got
    rw [held]
    have coming : (x.ahead client seat).coming = box.queue ++
        (Topic.owing x.hub.broadcasts.publishings seat.session.broadcasts).map (·.value) := by
      simp only [Floor.ahead, Topic.coming, here, Option.elim_some]
    refine stage.takesSnapshot coherent.numbered live rfl (if_neg (not_fresh_of_listens live))
      (sits.named ▸ ready) got coming ?_ ?_ ?_ ?_ ?_
    · change y.hub.broadcasts.coming seat.session.broadcasts = _
      rw [broadcasts, Topic.receiveAll_eq here, Topic.coming_requeued here, if_pos rfl,
        List.nil_append]
    · rw [List.length_map]
      exact coherent.sending.attended.owing_length_le_one _
    · intro calmly
      have empty : x.hub.broadcasts.publishings = [] := calmly
      rw [empty]
      rfl
    · simp only [Floor.ahead, snapshots, same.2]
      rfl
    · refine (congrFun mail client).trans ?_
      rw [sits.named]
      exact Function.update_self client none x.hub.view.mail
  | @takesBroadcast shown topic waits unready received =>
    have live : listens seat.session.phase = true := by rw [waits]; rfl
    refine stage.takesBroadcast live rfl (if_neg (not_fresh_of_listens live)) got ?_
      (sits.named ▸ unready) ?_ (congrFun mail client)
    · have coming := Topic.coming_receive received
      simp only [Floor.ahead, broadcasts]
      exact coming
    · simp only [Floor.ahead, snapshots, same.2]
      rfl
  | takesReply waits ready | pings waits => exact works (by rw [waits]; rfl) rfl rfl rfl rfl rfl
  | closes waits =>
    exact leaves (not_fresh_of_listens (by rw [waits]; rfl)) rfl (by simp) rfl rfl
  | writes busy => exact works (by rw [busy]; rfl) rfl rfl rfl rfl rfl
  | wrote busy =>
    refine works ?_ rfl rfl rfl rfl rfl
    rcases busy with busy | ⟨fate, busy⟩ <;> rw [busy] <;> rfl
  | fails busy =>
    have live : listens seat.session.phase = true := by
      rcases busy with busy | ⟨fate, busy⟩ <;> rw [busy] <;> rfl
    exact leaves (not_fresh_of_listens live) rfl (by simp) rfl rfl
  | quits closing => exact leaves (by simp [closing]) rfl (by simp) rfl rfl

/-- After every step of its session a seat fits. -/
theorem Sits.does (coherent : Coherent capacity x) (sits : Sits x client seat)
    (same : y.texts = x.texts ∧ y.fanout = x.fanout) (outlook : y.hub.view = view)
    (does : Does seat.session x.hub session view taken said) :
    Sits y client (seat.after x.fanout.last.mark session taken said) := by
  have listed := coherent.sending.attended.orderly.toListed
  have broadcasts : y.hub.broadcasts = view.broadcasts := congrArg View.broadcasts outlook
  rcases does.session_eq with ⟨named, begun, id⟩
  have empty : seat.session.phase = .fresh → seat.hand = [] := fun fresh => by
    have holds := sits.holds
    unfold Seat.Holds at holds
    rw [fresh] at holds
    exact holds
  refine ⟨named.trans sits.named, seat.said_after sits.said (does.said_eq sits.holds),
    does.holds sits.holds empty _, ?_, ?_, ?_, fun wait asking => does.asks asking, ?_⟩
  · change session.broadcasts < y.hub.broadcasts.nextId
    rw [id, broadcasts]
    split
    · next fresh =>
      rw [(does.of_fresh fresh).2]
      exact Nat.lt_succ_self _
    · exact Nat.lt_of_lt_of_le sits.old does.affects.nextId_le
  · refine iff_of_false ?_ begun
    change session.broadcasts ≠ 0
    rw [id]
    split
    · exact Nat.pos_iff_ne_zero.mp coherent.sending.born
    · next older => exact fun zero => older (sits.unnamed.mp zero)
  · intro live
    change ∃ box, boxOf y.hub.broadcasts.boxes session.broadcasts = some box
    rw [broadcasts]
    exact does.present listed live sits.present
  · rw [same.1]
    exact Stage.does coherent sits same outlook does

end Own

/-! ## The fanout -/

namespace Coherent

variable {capacity : Nat} {x y : Floor}

theorem sendsText (coherent : Coherent capacity x) (waiting : x.fanout.phase = .waiting)
    {state : State} {states : Topic State}
    (received : x.hub.states.receive? x.fanout.states = some (state, states))
    (fanout : y.fanout = { x.fanout with
      last := x.fanout.next state
      phase := if (x.hub.broadcasts.publish (x.fanout.next state)).2.1.isSome then x.fanout.phase
        else .sending (.broadcast x.hub.broadcasts.nextTicket) })
    (outlook : y.hub.view = { x.hub.view with
      states := states
      broadcasts := (x.hub.broadcasts.publish (x.fanout.next state)).2.2 })
    (texts : y.texts = x.texts ++ [x.fanout.next state]) (seats : y.seats = x.seats) :
    Coherent capacity y := by
  have broadcasts : y.hub.broadcasts =
      (x.hub.broadcasts.publish (x.fanout.next state)).2.2 := congrArg View.broadcasts outlook
  have snapshots : y.hub.snapshots = x.hub.snapshots := congrArg View.snapshots outlook
  have mail : y.hub.view.mail = x.hub.view.mail := by rw [outlook]
  have listened : y.hub.states = states := congrArg View.states outlook
  have sending := coherent.sending
  rw [waiting] at sending
  rcases Attended.publish sending.attended (x.fanout.next state) with ⟨-, nextId, live, coming⟩
  refine ⟨?_, ?_, ?_, ?_, ?_, ?_, ?_, ?_⟩
  · rw [broadcasts, fanout]
    simp only [waiting]
    exact sending.publish _
  · rw [listened, fanout, texts, List.length_append]
    exact coherent.hearing.receive? received
  · rw [snapshots, fanout]
    exact coherent.asking
  · rw [texts, fanout, List.getLast?_concat]
  · rw [texts]
    exact coherent.numbered.append coherent.mark_last
  · rw [seats, mail, snapshots, fanout]
    exact coherent.vacant
  · rw [seats]
    exact coherent.apart
  · intro client seat sitting
    rw [seats] at sitting
    have requests : (y.ahead client seat).requests = (x.ahead client seat).requests := by
      simp only [Floor.ahead, snapshots, fanout]
    refine (coherent.sits client seat sitting).carry [x.fanout.next state] texts ?_ ?_ ?_
      (Nat.le_of_eq requests) (by rw [mail]) (fun _ => .inr (List.cons_ne_nil _ _))
    · rw [broadcasts, nextId]
    · rw [broadcasts]
      exact live _
    · rw [broadcasts]
      exact coming _

theorem answers (coherent : Coherent capacity x) (waiting : x.fanout.phase = .waiting)
    {client : Nat} {snapshots : Topic Nat} {mail : Nat → Option Broadcast}
    (received : x.hub.snapshots.receive? x.fanout.snapshots = some (client, snapshots))
    (answered : mail = x.hub.view.mail ∨ (x.hub.view.mail client = none ∧
      mail = Function.update x.hub.view.mail client (some x.fanout.last)))
    (outlook : y.hub.view = { x.hub.view with snapshots := snapshots, mail := mail })
    (same : y.fanout = x.fanout ∧ y.texts = x.texts ∧ y.seats = x.seats) :
    Coherent capacity y := by
  rcases same with ⟨fanout, texts, seats⟩
  have broadcasts : y.hub.broadcasts = x.hub.broadcasts := congrArg View.broadcasts outlook
  have states : y.hub.states = x.hub.states := congrArg View.states outlook
  have left : y.hub.snapshots = snapshots := congrArg View.snapshots outlook
  have mails : y.hub.view.mail = mail := congrArg View.mail outlook
  have coming := Topic.coming_receive received
  have calm : x.hub.broadcasts.publishings = [] := by
    have attended := coherent.sending.attended
    rw [waiting] at attended
    exact attended.publishings_eq_nil
  have fewer : ∀ other, (snapshots.coming x.fanout.snapshots).count other ≤
      (x.hub.snapshots.coming x.fanout.snapshots).count other := by
    intro other
    rw [coming]
    exact List.count_le_count_cons
  have unmoved : ∀ other, other ≠ client → mail other = x.hub.view.mail other := by
    intro other differ
    rcases answered with rfl | ⟨-, rfl⟩
    · rfl
    · exact Function.update_of_ne differ _ _
  have asked : (x.hub.snapshots.coming x.fanout.snapshots).count client =
      (snapshots.coming x.fanout.snapshots).count client + 1 := by
    rw [coming, List.count_cons_self]
  refine ⟨?_, ?_, ?_, ?_, ?_, ?_, ?_, ?_⟩
  · rw [broadcasts, fanout]
    exact coherent.sending
  · rw [states, texts, fanout]
    exact coherent.hearing
  · rw [left, fanout]
    exact coherent.asking.receive? received
  · rw [texts, fanout]
    exact coherent.newest
  · rw [texts]
    exact coherent.numbered
  · intro other empty
    rw [seats] at empty
    rcases coherent.vacant other empty with ⟨unanswered, unasked⟩
    have differ : other ≠ client := by
      intro same
      rw [same] at unasked
      omega
    have none_left := fewer other
    rw [mails, left, fanout]
    exact ⟨(unmoved other differ).trans unanswered, by omega⟩
  · rw [seats]
    exact coherent.apart
  · intro other seat sitting
    rw [seats] at sitting
    have sits := coherent.sits other seat sitting
    by_cases own : other = client
    · subst own
      refine { sits with old := ?_, present := ?_, stage := ?_ }
      · rw [broadcasts]
        exact sits.old
      · rw [broadcasts]
        exact sits.present
      · rw [texts]
        refine sits.stage.answers coherent.numbered coherent.newest ?_ ?_ ?_ ?_
        · simp only [Floor.ahead, left, fanout]
          omega
        · simp only [Floor.ahead, broadcasts]
        · simp only [Floor.ahead, broadcasts]
          exact calm
        · simp only [Floor.ahead, mails]
          rcases answered with rfl | ⟨-, rfl⟩
          · exact .inl rfl
          · exact .inr (Function.update_self _ _ _)
    · refine sits.beside texts (by rw [broadcasts]; exact .refl _ _) ?_ ?_
      · simp only [Floor.ahead, left, fanout]
        exact fewer other
      · rw [mails, unmoved other own]

theorem ends (coherent : Coherent capacity x) (waiting : x.fanout.phase = .waiting)
    (fanout : y.fanout = { x.fanout with phase := .ended })
    (outlook : y.hub.view = { x.hub.view with
      states := x.hub.states.unsubscribe x.fanout.states
      snapshots := x.hub.snapshots.unsubscribe x.fanout.snapshots })
    (same : y.texts = x.texts ∧ y.seats = x.seats) : Coherent capacity y := by
  rcases same with ⟨texts, seats⟩
  have broadcasts : y.hub.broadcasts = x.hub.broadcasts := congrArg View.broadcasts outlook
  have states : y.hub.states = x.hub.states.unsubscribe x.fanout.states :=
    congrArg View.states outlook
  have snapshots : y.hub.snapshots = x.hub.snapshots.unsubscribe x.fanout.snapshots :=
    congrArg View.snapshots outlook
  have mail : y.hub.view.mail = x.hub.view.mail := by rw [outlook]
  have fewer := x.hub.snapshots.coming_unsubscribe_sublist x.fanout.snapshots x.fanout.snapshots
  refine ⟨?_, ?_, ?_, ?_, ?_, ?_, ?_, ?_⟩
  · have sending := coherent.sending
    rw [waiting] at sending
    rw [broadcasts, fanout]
    exact ⟨sending.attended, nofun, sending.room, sending.born⟩
  · rw [states, texts, fanout]
    exact coherent.hearing.unsubscribe
  · rw [snapshots, fanout]
    exact coherent.asking.unsubscribe
  · rw [texts, fanout]
    exact coherent.newest
  · rw [texts]
    exact coherent.numbered
  · intro client empty
    rw [seats] at empty
    rcases coherent.vacant client empty with ⟨unanswered, unasked⟩
    rw [mail, snapshots, fanout]
    exact ⟨unanswered, Nat.le_zero.mp (unasked ▸ fewer.count_le client)⟩
  · rw [seats]
    exact coherent.apart
  · intro client seat sitting
    rw [seats] at sitting
    refine (coherent.sits client seat sitting).beside texts
      (by rw [broadcasts]; exact .refl _ _) ?_ (by rw [mail])
    simp only [Floor.ahead, snapshots, fanout]
    exact fewer.count_le client

theorem fanoutGoesOn (coherent : Coherent capacity x) {ticket : Nat}
    (sending : x.fanout.phase = .sending (.broadcast ticket))
    (fanout : y.fanout = { x.fanout with
      phase := if ((x.hub.broadcasts.resume ticket).2.publishing? ticket).isNone then .waiting
        else .sending (.broadcast ticket) })
    (hub : y.hub = { x.hub with broadcasts := (x.hub.broadcasts.resume ticket).2 })
    (same : y.texts = x.texts ∧ y.seats = x.seats) : Coherent capacity y := by
  rcases same with ⟨texts, seats⟩
  have waits := coherent.sending
  rw [sending] at waits
  rcases Attended.resume waits.attended with ⟨-, onward⟩
  have broadcasts : y.hub.broadcasts = (x.hub.broadcasts.resume ticket).2 := by rw [hub]
  have states : y.hub.states = x.hub.states := by rw [hub]
  have snapshots : y.hub.snapshots = x.hub.snapshots := by rw [hub]
  have mail : y.hub.view.mail = x.hub.view.mail := by rw [hub]; rfl
  refine ⟨?_, ?_, ?_, ?_, ?_, ?_, ?_, ?_⟩
  · rw [broadcasts, fanout]
    exact waits.resume
  · rw [states, texts, fanout]
    exact coherent.hearing
  · rw [snapshots, fanout]
    exact coherent.asking
  · rw [texts, fanout]
    exact coherent.newest
  · rw [texts]
    exact coherent.numbered
  · rw [seats, mail, snapshots, fanout]
    exact coherent.vacant
  · rw [seats]
    exact coherent.apart
  · intro client seat sitting
    rw [seats] at sitting
    have requests : (y.ahead client seat).requests = (x.ahead client seat).requests := by
      simp only [Floor.ahead, snapshots, fanout]
    refine (coherent.sits client seat sitting).carry [] (by rw [texts, List.append_nil]) ?_ ?_ ?_
      (Nat.le_of_eq requests) (by rw [mail]) ?_
    · rw [broadcasts, onward.nextId_eq]
    · rw [broadcasts]
      exact onward.live_iff _
    · intro box here
      rw [broadcasts, List.append_nil]
      exact onward.coming_eq _ box here
    · intro calm
      rw [broadcasts, Topic.resume_of_publishings_eq_nil calm]
      exact .inl calm

/-! ## Every move -/

theorem step (coherent : Coherent capacity x) (step : x.Step y) : Coherent capacity y := by
  cases step with
  | passes after => exact coherent.passes _
  | joins vacant => exact coherent.joins vacant
  | @fanoutTurns branch fanout hub waiting turned =>
    have serves := serves_of_turn turned
    generalize outlook : hub.view = view at serves
    cases serves with
    | ends => exact coherent.ends waiting rfl outlook ⟨rfl, rfl⟩
    | sends received => exact coherent.sendsText waiting received rfl outlook rfl rfl
    | answers received answered =>
      exact coherent.answers waiting received answered outlook ⟨rfl, rfl, rfl⟩
  | fanoutGoesOn sending stepped =>
    rcases coherent.sending.sends _ sending with ⟨ticket, rfl⟩
    rcases fanout_goesOn sending stepped with ⟨hub, fanout⟩
    exact coherent.fanoutGoesOn sending fanout hub ⟨rfl, rfl⟩
  | @sessionGoesOn client seat sink session hub deeds sitting stepped =>
    have sits := coherent.sits client seat sitting
    have does := does_of_step sits.asks stepped
    rcases does.session_eq with ⟨-, begun, id⟩
    refine coherent.session sitting does.affects ?_ ?_ (Sits.does coherent sits ⟨rfl, rfl⟩ rfl does)
    · exact fun older => id.trans (if_neg older)
    · exact fun fresh => id.trans (if_pos fresh)

theorem move (coherent : Coherent capacity x) (move : x.Move y) : Coherent capacity y := by
  cases move with
  | step step => exact coherent.step step
  | announces state => exact coherent.announces state
  | goesOn ticket => exact coherent.goesOn ticket
  | listens elsewhere => exact coherent.listens elsewhere
  | stirs spares => exact coherent.stirs spares

end Coherent

/-! ## Everything that can be reached -/

/-- Nobody has announced anything to those who listen from the start. -/
theorem attended_crowd (capacity others : Nat) :
    let crowd := (fun topic : Topic State => topic.subscribe.2)^[others] (.empty capacity)
    crowd.Attended none ∧ crowd.nextTicket = 0 := by
  induction others with
  | zero => exact ⟨⟨Topic.orderly_empty capacity, nofun⟩, rfl⟩
  | succ others inductionHypothesis =>
    simp only [Function.iterate_succ_apply'] at inductionHypothesis ⊢
    exact ⟨inductionHypothesis.1.subscribe, inductionHypothesis.2⟩

theorem coherent_start (capacity others : Nat) :
    Coherent (max capacity 1) (Floor.start capacity others) := by
  rcases attended_crowd capacity others with ⟨attended, unannounced⟩
  have listed := attended.orderly.toListed
  have requests : (Topic.empty capacity : Topic Nat).Listed :=
    (Topic.orderly_empty capacity).toListed
  have unasked : (Topic.empty capacity : Topic Nat).subscribe.2.coming
      (Topic.empty capacity : Topic Nat).nextId = [] := requests.coming_subscribe_new
  refine ⟨⟨⟨Topic.orderly_empty capacity, nofun⟩, nofun, rfl, Nat.one_pos⟩,
    ⟨listed.subscribe, Nat.lt_succ_self _, ?_⟩, ⟨requests.subscribe, rfl, ?_⟩, rfl, ?_, ?_, nofun,
    nofun⟩
  · have unheard := congrArg List.length listed.coming_subscribe_new
    exact Nat.le_of_eq ((congrArg (1 + ·) unheard).trans (congrArg (· + 1) unannounced.symm))
  · exact Nat.le_of_eq (congrArg List.length unasked)
  · intro number shown here
    rcases List.getElem?_eq_some_iff.mp here with ⟨within, rfl⟩
    obtain rfl : number = 0 := Nat.lt_one_iff.mp within
    rfl
  · intro client vacant
    exact ⟨rfl, congrArg (List.count client) unasked⟩

theorem coherent_of_reachable {capacity : Nat} {x : Floor} (reached : Floor.Reachable capacity x) :
    Coherent (max capacity 1) x := by
  induction reached with
  | start others => exact coherent_start capacity others
  | move reached move inductionHypothesis => exact inductionHypothesis.move move

end Server
end Ventilation
