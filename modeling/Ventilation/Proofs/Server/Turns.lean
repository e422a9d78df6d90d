import Ventilation.Proofs.Server.Floor

namespace Ventilation
namespace Server

/-!
# What a step comes to

Every step of a session is one of a few: it begins, takes something from the hub
in hand, writes what it has in hand, or leaves.  So is every turn of the fanout:
it sends a text, answers a session or ends.  All that is proved about the floor
rests on these lists and not on how the steps are computed.
-/

open Bus (Broadcast Hub Topic View)
open Bus.Topic (Attended Beside boxOf)
open Client (Message Session SessionDeed SessionPhase Sink)

/-! ## What a step of a session comes to -/

/-- What a session does after it has begun: it waits for the snapshot, or for
room for its request. -/
def begun (client : Nat) (hub : Hub) : SessionPhase :=
  if (hub.snapshots.publish client).2.1.isSome then .open []
  else .asking (.snapshot hub.snapshots.nextTicket)

theorem begun_cases (client : Nat) (hub : Hub) :
    begun client hub = .open [] ∨
      begun client hub = .asking (.snapshot hub.snapshots.nextTicket) := by
  unfold begun
  split
  · exact .inl rfl
  · exact .inr rfl

/-- What a session does with a step: what becomes of it and of the hub, what it
takes in hand, and what reaches the client. -/
inductive Does (session : Session) (hub : Hub) :
    Session → View → List Item → List Message → Prop
  | begins {pingDue : Instant} {shutdown : Nat} (fresh : session.phase = .fresh) :
      Does session hub
        ⟨session.client, hub.broadcasts.nextId, shutdown, pingDue, begun session.client hub⟩
        { hub.view with
          broadcasts := hub.broadcasts.subscribe.2
          snapshots := (hub.snapshots.publish session.client).2.2 } [] []
  | goesOn {ticket : Nat} {pingDue : Instant} {phase : SessionPhase}
      (asking : session.phase = .asking (.snapshot ticket))
      (ready : hub.canProceed (.snapshot ticket) = true)
      (gone : phase = .open [] ∨ phase = .asking (.snapshot ticket)) :
      Does session hub { session with pingDue := pingDue, phase := phase }
        { hub.view with snapshots := (hub.snapshots.resume ticket).2 } [] []
  | takesSnapshot {snapshot : Broadcast} (waits : session.phase = .open [])
      (ready : hub.view.mail session.client = some snapshot) :
      Does session hub
        { session with phase := .open ((grip session hub .snapshot).map Item.message) }
        { hub.view with
          broadcasts := (hub.broadcasts.receiveAll session.broadcasts).2
          mail := Function.update hub.view.mail session.client none }
        (grip session hub .snapshot) []
  | takesBroadcast {broadcast : Broadcast} {broadcasts : Topic Broadcast}
      (waits : session.phase = .open []) (none_ready : hub.view.mail session.client = none)
      (received : hub.broadcasts.receive? session.broadcasts = some (broadcast, broadcasts)) :
      Does session hub { session with phase := .open [.text broadcast.text] }
        { hub.view with broadcasts := broadcasts } [.broadcast broadcast] []
  | takesReply {reply : Client.Reply} {rest : List Client.Reply}
      (waits : session.phase = .open [])
      (ready : hub.view.replies session.client = reply :: rest) :
      Does session hub { session with phase := .open [.text reply.text] }
        { hub.view with replies := Function.update hub.view.replies session.client rest }
        [.reply reply] []
  | pings {pingDue : Instant} (waits : session.phase = .open []) :
      Does session hub { session with pingDue := pingDue, phase := .open [.ping] } hub.view
        [.ping] []
  | closes {finish : Instant} {heard : Bool} (waits : session.phase = .open []) :
      Does session hub { session with phase := .closing finish heard }
        { hub.view with broadcasts := hub.broadcasts.unsubscribe session.broadcasts } [] []
  | writes {message : Message} {fate : Client.WriteFate} {pending : List Message}
      (busy : session.phase = .open (message :: pending)) :
      Does session hub { session with phase := .writing message fate pending } hub.view [] []
  | wrote {message : Message} {pending : List Message}
      (busy : session.phase = .open (message :: pending) ∨
        ∃ fate, session.phase = .writing message fate pending) :
      Does session hub { session with phase := .open pending } hub.view [] [message]
  | fails {message : Message} {pending : List Message}
      (busy : session.phase = .open (message :: pending) ∨
        ∃ fate, session.phase = .writing message fate pending) :
      Does session hub { session with phase := .ended }
        { hub.view with broadcasts := hub.broadcasts.unsubscribe session.broadcasts } [] []
  | quits {finish : Instant} {heard : Bool} (closing : session.phase = .closing finish heard) :
      Does session hub { session with phase := .ended } hub.view [] []

section Does

variable {session after : Session} {hub next : Hub} {now : Instant} {sink : Sink}
  {deeds : List SessionDeed}

theorem view_quit (session : Session) (hub : Hub) : (session.quit hub).2.view = hub.view := by
  have kept := hub.view_setMailbox_of_kept session.client
    (fun mailbox => { mailbox with listening := false, awaiting := false })
    fun _ => ⟨rfl, rfl, rfl⟩
  exact kept

theorem does_of_begin (fresh : session.phase = .fresh) :
    Does session hub (session.begin now hub).1 (session.begin now hub).2.view [] [] := by
  let listening : Hub := { hub.awaitShutdown.2 with broadcasts := hub.broadcasts.subscribe.2 }
  let awaiting := listening.setMailbox session.client
    fun mailbox => { mailbox with awaiting := true }
  have outlook : ({ awaiting with snapshots := (hub.snapshots.publish session.client).2.2 }
      : Hub).view = { hub.view with
        broadcasts := hub.broadcasts.subscribe.2
        snapshots := (hub.snapshots.publish session.client).2.2 } := by
    have kept := listening.view_setMailbox_of_kept session.client
      (fun mailbox => { mailbox with awaiting := true }) fun _ => ⟨rfl, rfl, rfl⟩
    exact congrArg (fun view : View =>
      { view with snapshots := (hub.snapshots.publish session.client).2.2 }) kept
  have published : awaiting.publishSnapshotRequest session.client =
      (Hub.waitOf .snapshot hub.snapshots.nextTicket (hub.snapshots.publish session.client).2.1,
        { awaiting with snapshots := (hub.snapshots.publish session.client).2.2 }) := rfl
  have phase : begun session.client hub =
      match Hub.waitOf .snapshot hub.snapshots.nextTicket
        (hub.snapshots.publish session.client).2.1 with
      | none => .open []
      | some wait => .asking wait := by
    unfold begun Hub.waitOf
    cases (hub.snapshots.publish session.client).2.1 <;> rfl
  have begins := @Does.begins session hub
  rw [phase] at begins
  unfold Session.begin
  dsimp only
  split
  · next asked =>
    rcases Prod.mk.inj (asked.symm.trans published) with ⟨waits, rfl⟩
    rw [← waits] at begins
    rw [outlook]
    exact begins fresh
  · next asked =>
    rcases Prod.mk.inj (asked.symm.trans published) with ⟨waits, rfl⟩
    rw [← waits] at begins
    rw [outlook]
    exact begins fresh

theorem view_unsubscribe (session : Session) (hub : Hub) :
    (session.unsubscribe hub).view = { hub.view with
      broadcasts := hub.view.broadcasts.unsubscribe session.broadcasts } := rfl

/-- A snapshot that lies ready is preferred to a broadcast. -/
theorem mail_eq_none_of_broadcast
    (first : Session.Branch.all.find? (fun branch => (session.turn? now sink hub branch).isSome) =
      some .broadcast) : hub.view.mail session.client = none := by
  by_contra ready
  rcases Option.ne_none_iff_exists'.mp ready with ⟨snapshot, ready⟩
  rcases Option.bind_eq_some_iff.mp ready with ⟨mailbox, here, found⟩
  have some_ready : (session.turn? now sink hub .snapshot).isSome = true := by
    simp [Session.turn?, here, found]
  cases shut : (session.turn? now sink hub .shutdown).isSome <;>
    simp [Session.Branch.all, shut, some_ready] at first

/-- To turn to the first branch with something in it is to take that in hand. -/
theorem does_of_turn {branch : Session.Branch} (waits : session.phase = .open [])
    (first : Session.Branch.all.find? (fun branch => (session.turn? now sink hub branch).isSome) =
      some branch)
    (turned : session.turn? now sink hub branch = some (after, next)) :
    Does session hub after next.view (grip session hub branch) [] := by
  have closes : ∀ {closed : Hub} {finish heard}, closed.view = hub.view →
      Does session hub { session with phase := .closing finish heard }
        (session.unsubscribe closed).view [] [] := by
    intro closed finish heard quiet
    rw [view_unsubscribe, quiet]
    exact .closes waits
  cases branch with
  | shutdown =>
    simp only [Session.turn?, Option.bind_eq_bind, Option.bind_eq_some_iff, Option.pure_def,
      Option.some.injEq] at turned
    rcases turned with ⟨closed, taken, same⟩
    rcases Prod.mk.inj same with ⟨rfl, rfl⟩
    exact closes (Hub.view_takeShutdown? taken)
  | snapshot =>
    simp only [Session.turn?, Option.bind_eq_bind, Option.bind_eq_some_iff, Option.pure_def,
      Option.some.injEq, Prod.mk.injEq] at turned
    rcases turned with ⟨mailbox, here, snapshot, found, rfl, rfl⟩
    have ready : hub.view.mail session.client = some snapshot :=
      Option.bind_eq_some_iff.mpr ⟨mailbox, here, found⟩
    have emptied : Hub.mailbox? { hub with
        broadcasts := (hub.broadcasts.receiveAll session.broadcasts).2 } session.client =
          some mailbox := here
    have texts : (grip session hub .snapshot).map Item.message =
        (snapshot :: Session.newer snapshot
          (hub.broadcasts.receiveAll session.broadcasts).1).map fun shown => .text shown.text := by
      simp [grip, ready, Item.message, Function.comp_def]
    rw [← texts, Hub.view_takeSnapshot emptied none]
    exact .takesSnapshot waits ready
  | broadcast =>
    simp only [Session.turn?, Option.bind_eq_bind, Option.bind_eq_some_iff, Option.pure_def,
      Option.some.injEq, Prod.mk.injEq] at turned
    rcases turned with ⟨⟨broadcast, broadcasts⟩, received, rfl, rfl⟩
    have held : grip session hub .broadcast = [.broadcast broadcast] := by
      simp [grip, received]
    rw [held]
    exact .takesBroadcast waits (mail_eq_none_of_broadcast first) received
  | reply =>
    simp only [Session.turn?, Option.bind_eq_bind, Option.bind_eq_some_iff] at turned
    rcases turned with ⟨mailbox, here, turned⟩
    have lies : hub.view.replies session.client = mailbox.replies := by simp [Hub.view, here]
    split at turned
    · next reply rest content =>
      simp only [Option.pure_def, Option.some.injEq, Prod.mk.injEq] at turned
      rcases turned with ⟨rfl, rfl⟩
      have ready := lies.trans content
      have held : grip session hub .reply = [.reply reply] := by simp [grip, ready]
      rw [held, Hub.view_setReplies here rest]
      exact .takesReply waits ready
    · next content =>
      have held : grip session hub .reply = [] := by simp [grip, lies, content]
      rw [held]
      split at turned
      · cases turned
      · rcases Prod.mk.inj (Option.some.inj turned) with ⟨rfl, rfl⟩
        exact closes rfl
  | ping =>
    simp only [Session.turn?, Option.ite_none_right_eq_some, Option.some.injEq,
      Prod.mk.injEq] at turned
    rcases turned with ⟨-, rfl, rfl⟩
    exact .pings waits

/-- A session that has nothing in hand turns to what is ready first. -/
theorem does_of_choice (waits : session.phase = .open [])
    (chosen : Session.Branch.all.findSome? (session.turn? now sink hub) = some (after, next)) :
    Does session hub after next.view (taking session now sink hub) [] := by
  rcases List.findSome?_eq_some_iff.mp chosen with ⟨before, branch, later, all, found, none⟩
  have first : Session.Branch.all.find? (fun branch =>
      (session.turn? now sink hub branch).isSome) = some branch :=
    List.find?_eq_some_iff_append.mpr ⟨by rw [found]; rfl, before, later, all,
      fun other member => by rw [none other member]; rfl⟩
  rw [taking, if_pos waits, first]
  exact does_of_turn waits first found

section Writing

variable {message : Message} {pending : List Message}
  (busy : session.phase = .open (message :: pending) ∨
    ∃ fate, session.phase = .writing message fate pending)
include busy

theorem does_of_fail {failure : Client.SessionError}
    (failed : session.fail hub failure = (after, next, deeds)) :
    Does session hub after next.view [] (sent deeds) := by
  simp only [Session.fail, Prod.mk.injEq] at failed
  rcases failed with ⟨rfl, rfl, rfl⟩
  rw [view_quit, view_unsubscribe]
  exact .fails busy

/-- A message that is out has been written or has failed. -/
theorem does_of_finish {failure : Option Client.SessionError}
    (finished : session.finish hub message failure pending = (after, next, deeds)) :
    Does session hub after next.view [] (sent deeds) := by
  cases failure with
  | none =>
    simp only [Session.finish, Prod.mk.injEq] at finished
    rcases finished with ⟨rfl, rfl, rfl⟩
    exact .wrote busy
  | some failure => exact does_of_fail busy finished

end Writing

theorem does_of_step
    (asks : ∀ wait, session.phase = .asking wait → ∃ ticket, wait = .snapshot ticket)
    (stepped : session.step? now sink hub = some (after, next, deeds)) :
    Does session hub after next.view (taking session now sink hub) (sent deeds) := by
  cases phase : session.phase with
  | fresh =>
    simp only [Session.step?, phase, Option.some.injEq, Prod.mk.injEq] at stepped
    rcases stepped with ⟨rfl, rfl, rfl⟩
    rw [taking, if_neg (by rw [phase]; nofun)]
    exact does_of_begin phase
  | asking wait =>
    rw [taking, if_neg (by rw [phase]; nofun)]
    rcases asks wait phase with ⟨ticket, rfl⟩
    simp only [Session.step?, phase, Option.ite_none_right_eq_some] at stepped
    rcases stepped with ⟨ready, stepped⟩
    have outlook : (hub.proceed (.snapshot ticket)).2.view =
        { hub.view with snapshots := (hub.snapshots.resume ticket).2 } := rfl
    split at stepped
    · next proceeded =>
      simp only [Option.some.injEq, Prod.mk.injEq] at stepped
      rcases stepped with ⟨rfl, rfl, rfl⟩
      rw [proceeded] at outlook
      rw [outlook]
      exact .goesOn phase ready (.inl rfl)
    · next proceeded =>
      simp only [Option.some.injEq, Prod.mk.injEq] at stepped
      rcases stepped with ⟨rfl, rfl, rfl⟩
      rw [proceeded] at outlook
      rw [outlook]
      have waits := @Does.goesOn session hub ticket session.pingDue session.phase phase ready
        (.inr phase)
      exact waits
  | «open» pending =>
    rcases pending with - | ⟨message, pending⟩
    · simp only [Session.step?, phase, Option.map_eq_some_iff] at stepped
      rcases stepped with ⟨⟨turned, left⟩, chosen, same⟩
      simp only [Prod.mk.injEq] at same
      rcases same with ⟨rfl, rfl, rfl⟩
      exact does_of_choice phase chosen
    · rw [taking, if_neg (by rw [phase]; nofun)]
      simp only [Session.step?, phase] at stepped
      split at stepped
      · exact does_of_finish (.inl phase) (Option.some.inj stepped)
      · simp only [Option.some.injEq, Prod.mk.injEq] at stepped
        rcases stepped with ⟨rfl, rfl, rfl⟩
        exact .writes phase
  | writing message fate pending =>
    rw [taking, if_neg (by rw [phase]; nofun)]
    simp only [Session.step?, phase, Option.ite_none_right_eq_some] at stepped
    exact does_of_finish (.inr ⟨fate, phase⟩) (Option.some.inj stepped.2)
  | closing finish heard =>
    rw [taking, if_neg (by rw [phase]; nofun)]
    simp only [Session.step?, phase, Option.ite_none_right_eq_some, Option.some.injEq,
      Prod.mk.injEq] at stepped
    rcases stepped with ⟨-, rfl, rfl, rfl⟩
    have silent : sent ((if heard then [SessionDeed.farewell] else []) ++ [.ended none]) = [] := by
      cases heard <;> rfl
    rw [silent, view_quit]
    exact .quits phase
  | ended => simp [Session.step?, phase] at stepped

end Does

/-! ## What a session has in hand -/

def listens : SessionPhase → Bool
  | .asking _ => true
  | .open _ => true
  | .writing _ _ _ => true
  | _ => false

theorem not_fresh_of_listens {phase : SessionPhase} (live : listens phase = true) :
    phase ≠ .fresh := by
  intro fresh
  rw [fresh] at live
  cases live

/-- What a seat has had from the fanout. -/
def Seat.got (seat : Seat) : List Item := (seat.written ++ seat.hand).filter Item.fromFanout

/-- What a session has in hand is what it is going to write. -/
def Seat.Holds (seat : Seat) : Prop :=
  match seat.session.phase with
  | .open pending => pending = seat.hand.map Item.message
  | .writing message _ pending => message :: pending = seat.hand.map Item.message
  | .ended => True
  | _ => seat.hand = []

section Books

variable {seat : Seat} {hub : Hub} {view : View} {session : Session} {taken : List Item}
  {said : List Message}

/-- What a session says is the first that it has in hand. -/
theorem Does.said_eq (does : Does seat.session hub session view taken said) (holds : seat.Holds) :
    said = (seat.hand.take said.length).map Item.message := by
  unfold Seat.Holds at holds
  cases does with
  | @wrote message pending busy =>
    have held : message :: pending = seat.hand.map Item.message := by
      rcases busy with busy | ⟨fate, busy⟩
      · rw [busy] at holds
        exact holds
      · rw [busy] at holds
        exact holds
    rw [List.map_take, ← held]
    rfl
  | _ => rfl

theorem Does.holds (does : Does seat.session hub session view taken said) (holds : seat.Holds)
    (empty : seat.session.phase = .fresh → seat.hand = []) (latest : Nat) :
    (seat.after latest session taken said).Holds := by
  unfold Seat.Holds at holds
  have waiting : seat.session.phase = .open [] → seat.hand = [] := by
    intro waits
    rw [waits] at holds
    exact List.map_eq_nil_iff.mp holds.symm
  cases does with
  | begins fresh =>
    rcases begun_cases seat.session.client hub with phase | phase
    · simp [Seat.Holds, Seat.after, phase, empty fresh]
    · simp [Seat.Holds, Seat.after, phase, empty fresh]
  | goesOn asking ready gone =>
    rw [asking] at holds
    rcases gone with rfl | rfl
    · simp [Seat.Holds, Seat.after, holds]
    · simp [Seat.Holds, Seat.after, holds]
  | takesSnapshot waits ready => simp [Seat.Holds, Seat.after, waiting waits]
  | takesBroadcast waits unready received =>
    simp [Seat.Holds, Seat.after, waiting waits, Item.message]
  | takesReply waits ready => simp [Seat.Holds, Seat.after, waiting waits, Item.message]
  | pings waits => simp [Seat.Holds, Seat.after, waiting waits, Item.message]
  | closes waits => simp [Seat.Holds, Seat.after, waiting waits]
  | writes busy =>
    rw [busy] at holds
    simpa [Seat.Holds, Seat.after] using holds
  | wrote busy =>
    have rest : ∀ {message pending}, message :: pending = seat.hand.map Item.message →
        pending = (seat.hand.drop 1).map Item.message := by
      intro message pending held
      rw [List.map_drop, ← held]
      rfl
    rcases busy with busy | ⟨fate, busy⟩
    · rw [busy] at holds
      simpa [Seat.Holds, Seat.after] using rest holds
    · rw [busy] at holds
      simpa [Seat.Holds, Seat.after] using rest holds
  | fails | quits => trivial

/-- What a client has got are the items that its session has written. -/
theorem Seat.said_after (seat : Seat) {latest : Nat} {session : Session} {taken : List Item}
    {said : List Message} (spoken : seat.said = seat.written.map Item.message)
    (spoke : said = (seat.hand.take said.length).map Item.message) :
    (seat.after latest session taken said).said =
      (seat.after latest session taken said).written.map Item.message := by
  simp only [Seat.after]
  rw [List.map_append, ← spoke, spoken]

/-- What a session has had changes only by what it takes in hand. -/
theorem Seat.got_after (seat : Seat) (latest : Nat) (session : Session) (taken : List Item)
    (said : List Client.Message) :
    (seat.after latest session taken said).got = seat.got ++ taken.filter Item.fromFanout := by
  unfold Seat.got Seat.after
  rw [← List.filter_append]
  congr 1
  rw [List.append_assoc, ← List.append_assoc (seat.hand.take _), List.take_append_drop,
    List.append_assoc]

theorem Does.session_eq (does : Does seat.session hub session view taken said) :
    session.client = seat.session.client ∧ session.phase ≠ .fresh ∧
      (session.broadcasts = if seat.session.phase = .fresh then hub.broadcasts.nextId
        else seat.session.broadcasts) := by
  cases does with
  | begins fresh =>
    refine ⟨rfl, ?_, (if_pos fresh).symm⟩
    rcases begun_cases seat.session.client hub with phase | phase <;> rw [phase] <;> nofun
  | goesOn asking ready gone =>
    rw [asking]
    refine ⟨rfl, ?_, rfl⟩
    rcases gone with rfl | rfl <;> nofun
  | takesSnapshot waits | takesBroadcast waits | takesReply waits | pings waits | closes waits =>
    rw [waits]
    exact ⟨rfl, nofun, rfl⟩
  | writes busy =>
    rw [busy]
    exact ⟨rfl, nofun, rfl⟩
  | wrote busy | fails busy =>
    rcases busy with busy | ⟨fate, busy⟩
    · rw [busy]
      exact ⟨rfl, nofun, rfl⟩
    · rw [busy]
      exact ⟨rfl, nofun, rfl⟩
  | quits closing =>
    rw [closing]
    exact ⟨rfl, nofun, rfl⟩

/-- A session that begins listens, asks for a snapshot and does nothing else. -/
theorem Does.of_fresh (does : Does seat.session hub session view taken said)
    (fresh : seat.session.phase = .fresh) :
    session.phase = begun seat.session.client hub ∧
      view = { hub.view with
        broadcasts := hub.broadcasts.subscribe.2
        snapshots := (hub.snapshots.publish seat.session.client).2.2 } := by
  cases does with
  | begins => exact ⟨rfl, rfl⟩
  | goesOn asking =>
    rw [fresh] at asking
    cases asking
  | takesSnapshot waits | takesBroadcast waits | takesReply waits | pings waits | closes waits =>
    rw [fresh] at waits
    cases waits
  | writes busy =>
    rw [fresh] at busy
    cases busy
  | wrote busy | fails busy =>
    rw [fresh] at busy
    rcases busy with busy | ⟨fate, busy⟩ <;> cases busy
  | quits closing =>
    rw [fresh] at closing
    cases closing

theorem Does.asks (does : Does seat.session hub session view taken said) {wait : Hub.Wait}
    (asking : session.phase = .asking wait) : ∃ ticket, wait = .snapshot ticket := by
  cases does with
  | begins fresh =>
    rcases begun_cases seat.session.client hub with phase | phase
    · cases phase.symm.trans asking
    · cases phase.symm.trans asking
      exact ⟨_, rfl⟩
  | goesOn before ready gone =>
    rcases gone with rfl | rfl
    · cases asking
    · cases asking
      exact ⟨_, rfl⟩
  | _ => cases asking

/-- Who listens after a step has a queue. -/
theorem Does.present (does : Does seat.session hub session view taken said)
    (listed : hub.broadcasts.Listed) (live : listens session.phase = true)
    (present : listens seat.session.phase = true →
      ∃ box, boxOf hub.broadcasts.boxes seat.session.broadcasts = some box) :
    ∃ box, boxOf view.broadcasts.boxes session.broadcasts = some box := by
  cases does with
  | begins fresh => exact ⟨_, (listed.boxOf_subscribe _).trans (if_pos rfl)⟩
  | goesOn asking ready gone =>
    rw [asking] at present
    exact present rfl
  | takesSnapshot waits ready =>
    rw [waits] at present
    rcases present rfl with ⟨box, here⟩
    rw [Topic.receiveAll_eq here]
    exact ⟨_, (Topic.boxOf_requeued here [] _).trans (if_pos rfl)⟩
  | takesBroadcast waits unready received =>
    rcases Topic.receive?_eq_some received with ⟨box, queue, here, -, rfl⟩
    exact ⟨_, (Topic.boxOf_requeued here queue _).trans (if_pos rfl)⟩
  | takesReply waits | pings waits =>
    rw [waits] at present
    exact present rfl
  | writes busy =>
    rw [busy] at present
    exact present rfl
  | wrote busy =>
    rcases busy with busy | ⟨fate, busy⟩
    · rw [busy] at present
      exact present rfl
    · rw [busy] at present
      exact present rfl
  | closes | fails | quits => cases live

/-- A session takes a reply in hand only if it lay ready, and adds none. -/
theorem Does.replies (does : Does seat.session hub session view taken said) :
    (∀ client reply, reply ∈ view.replies client → reply ∈ hub.view.replies client) ∧
      ∀ reply, .reply reply ∈ taken → reply ∈ hub.view.replies seat.session.client := by
  cases does with
  | takesReply waits ready =>
    refine ⟨fun client reply member => ?_, fun reply member => ?_⟩
    · simp only [Function.update_apply] at member
      split at member
      · next own =>
        rw [own, ready]
        exact List.mem_cons_of_mem _ member
      · exact member
    · rw [ready, Item.reply.inj (List.mem_singleton.mp member)]
      exact List.mem_cons_self
  | takesSnapshot waits ready =>
    refine ⟨fun _ _ => id, fun reply member => ?_⟩
    simp [grip, ready] at member
  | takesBroadcast | pings =>
    refine ⟨fun _ _ => id, fun reply member => ?_⟩
    simp at member
  | _ => exact ⟨fun _ _ => id, nofun⟩

end Books

/-! ## What a session leaves alone -/

/-- What a step of a session changes for others: nothing but the requests for
snapshots. -/
structure Affects (session : Session) (before after : View) : Prop where
  states_eq : after.states = before.states
  attended : ∀ waiting, before.broadcasts.Attended waiting → after.broadcasts.Attended waiting
  publishings_eq : after.broadcasts.publishings = before.broadcasts.publishings
  nextId_le : before.broadcasts.nextId ≤ after.broadcasts.nextId
  capacity_eq : after.broadcasts.capacity = before.broadcasts.capacity ∧
    after.snapshots.capacity = before.snapshots.capacity
  beside : before.broadcasts.Listed → ∀ id, session.phase = .fresh ∨ id ≠ session.broadcasts →
    Beside id before.broadcasts after.broadcasts
  snapshots : after.snapshots = before.snapshots ∨
    after.snapshots = (before.snapshots.publish session.client).2.2 ∧ session.phase = .fresh ∨
      ∃ ticket, after.snapshots = (before.snapshots.resume ticket).2
  mail : ∀ other, other ≠ session.client → after.mail other = before.mail other

theorem Does.affects {session after : Session} {hub : Hub} {view : View} {taken : List Item}
    {said : List Client.Message} (does : Does session hub after view taken said) :
    Affects session hub.view view := by
  have still : ∀ replies, Affects session hub.view { hub.view with replies := replies } :=
    fun replies => ⟨rfl, fun _ attended => attended, rfl, Nat.le_refl _, ⟨rfl, rfl⟩,
      fun _ id _ => .refl _ id, .inl rfl, fun _ _ => rfl⟩
  have leaves : session.phase ≠ .fresh → Affects session hub.view
      { hub.view with broadcasts := hub.broadcasts.unsubscribe session.broadcasts } :=
    fun begun => ⟨rfl, fun _ attended => attended.unsubscribe _, rfl, Nat.le_refl _, ⟨rfl, rfl⟩,
      fun _ _ apart => .unsubscribe (apart.resolve_left begun).symm, .inl rfl, fun _ _ => rfl⟩
  cases does with
  | begins fresh =>
    exact ⟨rfl, fun _ attended => attended.subscribe, rfl, Nat.le_succ _,
      ⟨rfl, (Topic.publish_frame _ _).1⟩, fun listed _ _ => .subscribe listed,
      .inr (.inl ⟨rfl, fresh⟩), fun _ _ => rfl⟩
  | @goesOn ticket =>
    exact ⟨rfl, fun _ attended => attended, rfl, Nat.le_refl _, ⟨rfl, (Topic.resume_frame _ _).1⟩,
      fun _ id _ => .refl _ id, .inr (.inr ⟨ticket, rfl⟩), fun _ _ => rfl⟩
  | takesSnapshot waits =>
    have frame : (hub.broadcasts.receiveAll session.broadcasts).2.publishings =
          hub.broadcasts.publishings ∧
        (hub.broadcasts.receiveAll session.broadcasts).2.nextId = hub.broadcasts.nextId ∧
          (hub.broadcasts.receiveAll session.broadcasts).2.capacity = hub.broadcasts.capacity := by
      rcases hub.broadcasts.receiveAll_cases session.broadcasts with same | ⟨_, _, same⟩
      · rw [same]
        exact ⟨rfl, rfl, rfl⟩
      · rw [same]
        exact ⟨rfl, rfl, rfl⟩
    exact ⟨rfl, fun _ attended => attended.receiveAll _, frame.1, Nat.le_of_eq frame.2.1.symm,
      ⟨frame.2.2, rfl⟩, fun _ _ apart =>
        .receiveAll (apart.resolve_left (by rw [waits]; nofun)).symm,
      .inl rfl, fun _ apart => Function.update_of_ne apart _ _⟩
  | takesBroadcast waits unready received =>
    have frame := Topic.receive?_frame received
    refine ⟨rfl, fun _ attended => attended.receive? received, ?_, Nat.le_of_eq frame.2.1.symm,
      ⟨frame.1, rfl⟩, fun _ _ apart =>
        .receive (apart.resolve_left (by rw [waits]; nofun)).symm received,
      .inl rfl, fun _ _ => rfl⟩
    rcases Topic.receive?_eq_some received with ⟨_, _, -, -, rfl⟩
    rfl
  | takesReply => exact still _
  | pings | writes | wrote | quits => exact still hub.view.replies
  | closes waits => exact leaves (by rw [waits]; nofun)
  | fails busy =>
    refine leaves ?_
    rcases busy with phase | ⟨fate, phase⟩
    · rw [phase]
      nofun
    · rw [phase]
      nofun

section Affects

variable {session : Session} {before after : View} (affects : Affects session before after)
  (listed : before.snapshots.Listed)
include affects listed

theorem Affects.listed_after : after.snapshots.Listed := by
  rcases affects.snapshots with same | ⟨asks, -⟩ | ⟨ticket, goes⟩
  · rw [same]
    exact listed
  · rw [asks]
    exact (listed.publish _).1
  · rw [goes]
    exact (listed.resume _).1

/-- Only a session that begins asks for a snapshot, and for its own. -/
theorem Affects.coming (id : Nat) :
    (after.snapshots.coming id).Subperm (before.snapshots.coming id ++
      if session.phase = .fresh then [session.client] else []) := by
  rcases affects.snapshots with same | ⟨asks, fresh⟩ | ⟨ticket, goes⟩
  · rw [same]
    exact (List.sublist_append_left _ _).subperm
  · rw [asks, if_pos fresh]
    exact (listed.publish _).2 id
  · rw [goes]
    exact ((listed.resume _).2 id).trans (List.sublist_append_left _ _).subperm

theorem Affects.count_le (id : Nat) {other : Nat} (apart : other ≠ session.client) :
    (after.snapshots.coming id).count other ≤ (before.snapshots.coming id).count other := by
  have fewer := (affects.coming listed id).count_le other
  rw [List.count_append] at fewer
  split at fewer
  · rw [List.count_singleton, if_neg (by simpa using apart.symm)] at fewer
    exact fewer
  · exact fewer

theorem Affects.count_own_le (id : Nat) :
    (after.snapshots.coming id).count session.client ≤
      (before.snapshots.coming id).count session.client +
        if session.phase = .fresh then 1 else 0 := by
  have fewer := (affects.coming listed id).count_le session.client
  rw [List.count_append] at fewer
  split at fewer
  · next fresh =>
    rw [if_pos fresh]
    simpa using fewer
  · next begun =>
    rw [if_neg begun]
    exact fewer

theorem Affects.asked {id : Nat}
    (asked : (before.snapshots.coming id).length ≤ before.snapshots.nextTicket) :
    (after.snapshots.coming id).length ≤ after.snapshots.nextTicket := by
  rcases affects.snapshots with same | ⟨asks, -⟩ | ⟨ticket, goes⟩
  · rw [same]
    exact asked
  · have more := ((listed.publish session.client).2 id).length_le
    rw [List.length_append, List.length_singleton] at more
    rw [asks, (Topic.publish_frame _ _).2.2]
    omega
  · have fewer := ((listed.resume ticket).2 id).length_le
    rw [goes, (Topic.resume_frame _ _).2.2]
    omega

end Affects

/-! ## What a step of the fanout comes to -/

/-- What the fanout does when it turns to a branch: what becomes of it and of
the hub. -/
inductive Serves (fanout : Fanout) (hub : Hub) : Fanout.Branch → Fanout → View → Prop
  | ends :
      Serves fanout hub .shutdown { fanout with phase := .ended }
        { hub.view with
          states := hub.states.unsubscribe fanout.states
          snapshots := hub.snapshots.unsubscribe fanout.snapshots }
  | sends {state : State} {states : Topic State}
      (received : hub.states.receive? fanout.states = some (state, states)) :
      Serves fanout hub .state
        { fanout with
          last := fanout.next state
          phase := if (hub.broadcasts.publish (fanout.next state)).2.1.isSome then fanout.phase
            else .sending (.broadcast hub.broadcasts.nextTicket) }
        { hub.view with
          states := states
          broadcasts := (hub.broadcasts.publish (fanout.next state)).2.2 }
  | answers {client : Nat} {snapshots : Topic Nat} {mail : Nat → Option Broadcast}
      (received : hub.snapshots.receive? fanout.snapshots = some (client, snapshots))
      (answered : mail = hub.view.mail ∨ (hub.view.mail client = none ∧
        mail = Function.update hub.view.mail client (some fanout.last))) :
      Serves fanout hub .snapshot fanout { hub.view with snapshots := snapshots, mail := mail }

section Serves

variable {fanout after : Fanout} {hub next : Hub}

theorem view_answer (hub : Hub) (client : Nat) (snapshot : Broadcast) :
    ∃ mail, ((hub.answer? client snapshot).getD hub).view = { hub.view with mail := mail } ∧
      (mail = hub.view.mail ∨ (hub.view.mail client = none ∧
        mail = Function.update hub.view.mail client (some snapshot))) := by
  cases here : hub.mailbox? client with
  | none => exact ⟨_, by simp [Hub.answer?, here], .inl rfl⟩
  | some mailbox =>
    by_cases awaits : mailbox.awaiting ∧ mailbox.snapshot.isNone
    · have empty : hub.view.mail client = none := by simpa [Hub.view, here] using awaits.2
      refine ⟨_, ?_, .inr ⟨empty, rfl⟩⟩
      simp only [Hub.answer?, here, if_pos awaits, Option.getD_some]
      exact Hub.view_takeSnapshot here (some snapshot)
    · refine ⟨_, ?_, .inl rfl⟩
      simp only [Hub.answer?, here, if_neg awaits, Option.getD_none]

theorem serves_of_turn {branch : Fanout.Branch}
    (turned : fanout.turn? hub branch = some (after, next)) :
    Serves fanout hub branch after next.view := by
  cases branch with
  | shutdown =>
    simp only [Fanout.turn?, Option.bind_eq_bind, Option.bind_eq_some_iff, Option.pure_def,
      Option.some.injEq, Prod.mk.injEq] at turned
    rcases turned with ⟨closed, taken, rfl, rfl⟩
    have outlook := Hub.view_takeShutdown? taken
    have left : Hub.view { closed with
        states := closed.states.unsubscribe fanout.states
        snapshots := closed.snapshots.unsubscribe fanout.snapshots } =
        { closed.view with
          states := closed.view.states.unsubscribe fanout.states
          snapshots := closed.view.snapshots.unsubscribe fanout.snapshots } := rfl
    rw [left, outlook]
    exact .ends
  | state =>
    simp only [Fanout.turn?, Option.bind_eq_bind, Option.bind_eq_some_iff] at turned
    rcases turned with ⟨⟨state, states⟩, received, turned⟩
    have sends := @Serves.sends fanout hub state states received
    have published : Hub.publishBroadcast { hub with states := states } (fanout.next state) =
        (Hub.waitOf .broadcast hub.broadcasts.nextTicket
            (hub.broadcasts.publish (fanout.next state)).2.1,
          { hub with
            states := states
            broadcasts := (hub.broadcasts.publish (fanout.next state)).2.2 }) := rfl
    simp only [published, Hub.waitOf] at turned
    cases ended : (hub.broadcasts.publish (fanout.next state)).2.1 with
    | none =>
      rw [ended] at sends
      simp only [ended, Option.isSome_none, Bool.false_eq_true, if_false, Option.pure_def,
        Option.some.injEq, Prod.mk.injEq] at turned
      rcases turned with ⟨rfl, rfl⟩
      exact sends
    | some served =>
      rw [ended] at sends
      simp only [ended, Option.isSome_some, if_true, Option.pure_def, Option.some.injEq,
        Prod.mk.injEq] at turned
      rcases turned with ⟨rfl, rfl⟩
      exact sends
  | snapshot =>
    simp only [Fanout.turn?, Option.bind_eq_bind, Option.bind_eq_some_iff, Option.pure_def,
      Option.some.injEq, Prod.mk.injEq] at turned
    rcases turned with ⟨⟨client, snapshots⟩, received, rfl, rfl⟩
    rcases view_answer { hub with snapshots := snapshots } client fanout.last with
      ⟨mail, outlook, answered⟩
    rw [outlook]
    exact .answers received answered

theorem fanout_goesOn {ticket : Nat} (sending : fanout.phase = .sending (.broadcast ticket))
    (stepped : fanout.step? hub = some (after, next)) :
    next = { hub with broadcasts := (hub.broadcasts.resume ticket).2 } ∧
      after = { fanout with
        phase := if ((hub.broadcasts.resume ticket).2.publishing? ticket).isNone then .waiting
          else .sending (.broadcast ticket) } := by
  simp only [Fanout.step?, sending, Option.ite_none_right_eq_some] at stepped
  rcases stepped with ⟨-, stepped⟩
  have proceeded : hub.proceed (.broadcast ticket) =
      (((hub.broadcasts.resume ticket).2.publishing? ticket).isNone,
        { hub with broadcasts := (hub.broadcasts.resume ticket).2 }) := rfl
  rw [proceeded] at stepped
  cases ended : ((hub.broadcasts.resume ticket).2.publishing? ticket).isNone with
  | true =>
    simp only [ended, Option.some.injEq, Prod.mk.injEq] at stepped
    rcases stepped with ⟨rfl, rfl⟩
    exact ⟨rfl, rfl⟩
  | false =>
    simp only [ended, Option.some.injEq, Prod.mk.injEq] at stepped
    rcases stepped with ⟨rfl, rfl⟩
    exact ⟨rfl, by simp [← sending]⟩

end Serves

end Server
end Ventilation
