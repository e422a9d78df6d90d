import Ventilation.Proofs.Server.Mail
import Ventilation.Proofs.Server.Turns

namespace Ventilation

/-!
# What a session asks of its sink

A session asks its sink for one thing after another: it waits for the answer
before it asks again, and asks for nothing more when a write has failed or has
taken too long.  It says farewell once, at the end, if it ends in good order, and
not at all otherwise.  Either way it no longer listens to the broadcasts.

Around its steps others put replies into its queue, send broadcasts and
snapshots, give the signal to shut down and come and go as they like.
-/

namespace Bus.Topic

/-- Nobody listens under a number. -/
def Away {α : Type} (id : Nat) (topic : Topic α) : Prop :=
  (∀ listener ∈ topic.listeners, listener.id ≠ id) ∧ ∀ box ∈ topic.boxes, box.id ≠ id

theorem away_unsubscribe {α : Type} (topic : Topic α) (id : Nat) :
    (topic.unsubscribe id).Away id :=
  ⟨fun _ member => by simpa using (List.mem_filter.mp member).2,
    fun _ member => by simpa using (List.mem_filter.mp member).2⟩

namespace Away

variable {α : Type} {topic next : Topic α} {id : Nat}

theorem of_fewer (away : topic.Away id) (listeners : next.listeners ⊆ topic.listeners)
    (boxes : next.boxes.map (·.id) ⊆ topic.boxes.map (·.id)) : next.Away id := by
  refine ⟨fun listener member => away.1 listener (listeners member), fun box member => ?_⟩
  rcases List.mem_map.mp (boxes (List.mem_map_of_mem member)) with ⟨old, present, same⟩
  exact same ▸ away.2 old present

variable (away : topic.Away id)
include away

theorem subscribe (old : id < topic.nextId) : topic.subscribe.2.Away id := by
  refine ⟨List.forall_mem_append.mpr ⟨away.1, List.forall_mem_singleton.mpr ?_⟩,
    List.forall_mem_append.mpr ⟨away.2, List.forall_mem_singleton.mpr ?_⟩⟩
  · exact Nat.ne_of_gt old
  · exact Nat.ne_of_gt old

theorem drop (other : Nat) : (topic.drop other).Away id :=
  away.of_fewer (List.Subset.refl _) (List.filter_sublist.map _).subset

theorem unsubscribe (other : Nat) : (topic.unsubscribe other).Away id :=
  away.of_fewer List.filter_sublist.subset (List.filter_sublist.map _).subset

theorem requeued {other : Nat} {box : Box α} (here : boxOf topic.boxes other = some box)
    (queue : List α) : (Topic.requeued topic other box queue).Away id := by
  have ids : (Topic.requeued topic other box queue).boxes.map (·.id) = topic.boxes.map (·.id) :=
    setBox_ids _ _ _ (boxOf_eq_some here).2
  exact away.of_fewer (List.Subset.refl _) (ids ▸ List.Subset.refl _)

theorem receive? {other : Nat} {value : α}
    (received : topic.receive? other = some (value, next)) : next.Away id := by
  rcases receive?_eq_some received with ⟨box, queue, here, -, rfl⟩
  exact away.requeued here queue

theorem receiveAll (other : Nat) : (topic.receiveAll other).2.Away id := by
  rcases topic.receiveAll_cases other with same | ⟨box, here, same⟩
  · rw [same]
    exact away
  · rw [same]
    exact away.requeued here []

theorem proceed (publishing : Publishing α) : (topic.proceed publishing).2.Away id :=
  away.of_fewer (topic.proceed_listeners publishing).subset fun _ member => by
    rwa [proceed_boxes, progress, serve_ids] at member

theorem resume (ticket : Nat) : (topic.resume ticket).2.Away id := by
  rcases topic.resume_cases ticket with idle | ⟨publishing, -, -, -, goes⟩
  · rw [idle]
    exact away
  · rw [goes]
    exact away.proceed publishing

theorem publish (value : α) : (topic.publish value).2.2.Away id := by
  have opened : (topic.opened value).Away id := by
    refine away.of_fewer (fun listener member => ?_) (List.Subset.refl _)
    rcases List.mem_map.mp member with ⟨other, lasting, rfl⟩
    rcases List.mem_filterMap.mp lasting with ⟨old, present, same⟩
    cases old with
    | lasting old => exact Option.some.inj same ▸ present
    | once old => cases same
  exact opened.proceed (topic.opening value)

end Away

end Bus.Topic

namespace Client

open Bus (Broadcast Hub Topic)
open Server (does_of_begin begun_cases view_quit view_unsubscribe)

/-! ## Asking and answering -/

/-- What can be asked of a sink. -/
inductive Call
  | send (message : Message)
  | farewell

/-- What passes between a session and its sink.  A sink is asked at an instant, at
which it behaves in some way. -/
inductive Use
  | asked (call : Call) (sink : Sink) (begun : Instant)
  | answered (failure : Option SessionError)

/-- A message that was asked to be sent, of a sink at an instant. -/
structure Write where
  message : Message
  sink : Sink
  begun : Instant

namespace Write

/-- What passes for a message that is sent. -/
def uses (write : Write) : List Use :=
  [.asked (.send write.message) write.sink write.begun, .answered none]

/-- The sink sends the message in time. -/
def Succeeds (write : Write) : Prop := (write.sink.fate write.begun).failure = none

/-- When that is over. -/
def finish (write : Write) : Instant := (write.sink.fate write.begun).finish

end Write

namespace Session

/-- What passes between a session and its sink in a step.  What a farewell comes
to is not looked at. -/
def uses (session : Session) (now : Instant) (sink : Sink) (after : Session) : List Use :=
  match session.phase, after.phase with
  | .open (message :: _), _ =>
    .asked (.send message) sink now ::
      if (sink.fate now).finish ≤ now then [.answered (sink.fate now).failure] else []
  | .writing _ fate _, _ => [.answered fate.failure]
  | .open [], .closing _ _ => [.asked .farewell sink now]
  | .closing _ _, .ended => [.answered none]
  | _, _ => []

end Session

/-! ## What a step comes to -/

def Reply.message (reply : Reply) : Message := .text reply.text

/-- What a step of a session comes to: what becomes of the session and of the hub,
what passes between the session and its sink, and what can be seen. -/
inductive Goes (session : Session) (now : Instant) (sink : Sink) (hub : Hub) :
    Session → Hub → List Use → List SessionDeed → Prop
  | prepares {after : Session} {next : Hub}
      (early : session.phase = .fresh ∨ ∃ wait, session.phase = .asking wait)
      (later : after.phase = .open [] ∨ ∃ wait, after.phase = .asking wait)
      (client : after.client = session.client)
      (replies : next.view.replies = hub.view.replies) :
      Goes session now sink hub after next [] []
  | turns {after : Session} {next : Hub} {pending : List Message} (taken : List Reply)
      (waits : session.phase = .open []) (turned : after.phase = .open pending)
      (client : after.client = session.client)
      (drawn : hub.view.replies session.client = taken ++ next.view.replies session.client)
      (held : (taken.map Reply.message).Sublist pending) :
      Goes session now sink hub after next [] []
  | bows {closed : Hub} {finish : Instant} {heard : Bool} (waits : session.phase = .open [])
      (alone : hub.takeShutdown? session.shutdown = none →
        hub.mayReply session.client = false ∧ hub.view.replies session.client = []) :
      Goes session now sink hub { session with phase := .closing finish heard }
        (session.unsubscribe closed) [.asked .farewell sink now] []
  | begins {message : Message} {pending : List Message}
      (busy : session.phase = .open (message :: pending)) :
      Goes session now sink hub { session with phase := .writing message (sink.fate now) pending }
        hub [.asked (.send message) sink now] []
  | writes {message : Message} {pending : List Message}
      (busy : session.phase = .open (message :: pending))
      (elapsed : (sink.fate now).finish ≤ now) (succeeds : (sink.fate now).failure = none) :
      Goes session now sink hub { session with phase := .open pending } hub
        (Write.mk message sink now).uses [.wrote message]
  | wrote {message : Message} {fate : WriteFate} {pending : List Message}
      (busy : session.phase = .writing message fate pending) (elapsed : fate.finish ≤ now)
      (succeeds : fate.failure = none) :
      Goes session now sink hub { session with phase := .open pending } hub
        [.answered none] [.wrote message]
  | fails {message : Message} {pending : List Message} {failure : SessionError}
      (busy : session.phase = .open (message :: pending))
      (failed : (sink.fate now).failure = some failure) :
      Goes session now sink hub { session with phase := .ended }
        (session.quit (session.unsubscribe hub)).2
        [.asked (.send message) sink now, .answered (some failure)] [.ended (some failure)]
  | failed {message : Message} {fate : WriteFate} {pending : List Message} {failure : SessionError}
      (busy : session.phase = .writing message fate pending)
      (failed : fate.failure = some failure) :
      Goes session now sink hub { session with phase := .ended }
        (session.quit (session.unsubscribe hub)).2 [.answered (some failure)]
        [.ended (some failure)]
  | quits {finish : Instant} {heard : Bool} (closing : session.phase = .closing finish heard) :
      Goes session now sink hub { session with phase := .ended } (session.quit hub).2
        [.answered none] ((if heard then [.farewell] else []) ++ [.ended none])

section Goes

variable {session after : Session} {hub next : Hub} {now : Instant} {sink : Sink}
  {deeds : List SessionDeed}

theorem replies_proceed (hub : Hub) (wait : Hub.Wait) :
    (hub.proceed wait).2.view.replies = hub.view.replies := by
  cases wait <;> rfl

theorem goes_of_begin (fresh : session.phase = .fresh) :
    Goes session now sink hub (session.begin now hub).1 (session.begin now hub).2 [] [] := by
  have does : Server.Does session hub (session.begin now hub).1 (session.begin now hub).2.view
      [] [] := does_of_begin fresh
  rcases @Server.Does.of_fresh ⟨session, 0, [], [], []⟩ _ _ _ _ _ does fresh with ⟨phase, view⟩
  have client := (@Server.Does.session_eq ⟨session, 0, [], [], []⟩ _ _ _ _ _ does).1
  refine .prepares (.inl fresh) ?_ client ((congrArg Bus.View.replies view).trans rfl)
  rw [phase]
  exact (begun_cases session.client hub).imp_right fun asking => ⟨_, asking⟩

/-- To turn to a branch is to take something in hand, or to say farewell. -/
theorem goes_of_turn {branch : Session.Branch} (waits : session.phase = .open [])
    (turned : session.turn? now sink hub branch = some (after, next)) :
    Goes session now sink hub after next (session.uses now sink after) [] := by
  cases branch with
  | shutdown =>
    simp only [Session.turn?, Option.bind_eq_bind, Option.bind_eq_some_iff, Option.pure_def,
      Option.some.injEq] at turned
    rcases turned with ⟨closed, taken, same⟩
    rcases Prod.mk.inj same with ⟨rfl, rfl⟩
    simp only [Session.uses, waits]
    refine .bows waits fun untaken => ?_
    cases untaken.symm.trans taken
  | snapshot =>
    simp only [Session.turn?, Option.bind_eq_bind, Option.bind_eq_some_iff, Option.pure_def,
      Option.some.injEq, Prod.mk.injEq] at turned
    rcases turned with ⟨mailbox, here, snapshot, found, rfl, rfl⟩
    simp only [Session.uses, waits]
    have emptied : Hub.mailbox? { hub with
        broadcasts := (hub.broadcasts.receiveAll session.broadcasts).2 } session.client =
          some mailbox := here
    refine .turns [] waits rfl rfl ?_ (List.nil_sublist _)
    rw [Hub.view_takeSnapshot emptied none]
    rfl
  | broadcast =>
    simp only [Session.turn?, Option.bind_eq_bind, Option.bind_eq_some_iff, Option.pure_def,
      Option.some.injEq, Prod.mk.injEq] at turned
    rcases turned with ⟨⟨broadcast, broadcasts⟩, received, rfl, rfl⟩
    simp only [Session.uses, waits]
    exact .turns [] waits rfl rfl rfl (List.nil_sublist _)
  | reply =>
    simp only [Session.turn?, Option.bind_eq_bind, Option.bind_eq_some_iff] at turned
    rcases turned with ⟨mailbox, here, turned⟩
    have queue : hub.view.replies session.client = mailbox.replies := by simp [Hub.view, here]
    cases replies : mailbox.replies with
    | cons reply rest =>
      simp only [replies, Option.pure_def, Option.some.injEq, Prod.mk.injEq] at turned
      rcases turned with ⟨rfl, rfl⟩
      simp only [Session.uses, waits]
      refine .turns [reply] waits rfl rfl ?_ (List.Sublist.refl _)
      rw [Hub.view_setReplies here rest, queue, replies]
      simp
    | nil =>
      simp only [replies] at turned
      split at turned
      · cases turned
      · next alone =>
        rcases Prod.mk.inj (Option.some.inj turned) with ⟨rfl, rfl⟩
        simp only [Session.uses, waits]
        exact .bows waits fun _ => ⟨by simpa using alone, queue.trans replies⟩
  | ping =>
    simp only [Session.turn?, Option.ite_none_right_eq_some, Option.some.injEq,
      Prod.mk.injEq] at turned
    rcases turned with ⟨-, rfl, rfl⟩
    simp only [Session.uses, waits]
    exact .turns [] waits rfl rfl rfl (List.nil_sublist _)

theorem goes_of_step (stepped : session.step? now sink hub = some (after, next, deeds)) :
    Goes session now sink hub after next (session.uses now sink after) deeds := by
  cases phase : session.phase with
  | fresh =>
    simp only [Session.step?, phase, Option.some.injEq, Prod.mk.injEq] at stepped
    rcases stepped with ⟨rfl, rfl, rfl⟩
    simp only [Session.uses, phase]
    exact goes_of_begin phase
  | asking wait =>
    simp only [Session.step?, phase, Option.ite_none_right_eq_some] at stepped
    rcases stepped with ⟨-, stepped⟩
    have replies := replies_proceed hub wait
    simp only [Session.uses, phase]
    split at stepped
    · next proceeded =>
      simp only [Option.some.injEq, Prod.mk.injEq] at stepped
      rcases stepped with ⟨rfl, rfl, rfl⟩
      rw [proceeded] at replies
      exact .prepares (.inr ⟨wait, phase⟩) (.inl rfl) rfl replies
    · next proceeded =>
      simp only [Option.some.injEq, Prod.mk.injEq] at stepped
      rcases stepped with ⟨rfl, rfl, rfl⟩
      rw [proceeded] at replies
      exact .prepares (.inr ⟨wait, phase⟩) (.inr ⟨wait, phase⟩) rfl replies
  | «open» pending =>
    rcases pending with - | ⟨message, pending⟩
    · simp only [Session.step?, phase, Option.map_eq_some_iff] at stepped
      rcases stepped with ⟨⟨turned, left⟩, chosen, same⟩
      simp only [Prod.mk.injEq] at same
      rcases same with ⟨rfl, rfl, rfl⟩
      rcases List.exists_of_findSome?_eq_some chosen with ⟨branch, -, found⟩
      exact goes_of_turn phase found
    · simp only [Session.step?, phase] at stepped
      simp only [Session.uses, phase]
      split at stepped
      · next elapsed =>
        rw [if_pos elapsed]
        cases failure : (sink.fate now).failure with
        | none =>
          simp only [failure, Session.finish, Option.some.injEq, Prod.mk.injEq] at stepped
          rcases stepped with ⟨rfl, rfl, rfl⟩
          exact .writes phase elapsed failure
        | some failure =>
          simp only [failure, Session.finish, Session.fail, Option.some.injEq,
            Prod.mk.injEq] at stepped
          rcases stepped with ⟨rfl, rfl, rfl⟩
          exact .fails phase failure
      · next going =>
        simp only [Option.some.injEq, Prod.mk.injEq] at stepped
        rcases stepped with ⟨rfl, rfl, rfl⟩
        rw [if_neg going]
        exact .begins phase
  | writing message fate pending =>
    simp only [Session.step?, phase, Option.ite_none_right_eq_some] at stepped
    rcases stepped with ⟨elapsed, stepped⟩
    simp only [Session.uses, phase]
    cases failure : fate.failure with
    | none =>
      simp only [failure, Session.finish, Option.some.injEq, Prod.mk.injEq] at stepped
      rcases stepped with ⟨rfl, rfl, rfl⟩
      exact .wrote phase elapsed failure
    | some failure =>
      simp only [failure, Session.finish, Session.fail, Option.some.injEq,
        Prod.mk.injEq] at stepped
      rcases stepped with ⟨rfl, rfl, rfl⟩
      exact .failed phase failure
  | closing finish heard =>
    simp only [Session.step?, phase, Option.ite_none_right_eq_some, Option.some.injEq,
      Prod.mk.injEq] at stepped
    rcases stepped with ⟨-, rfl, rfl, rfl⟩
    simp only [Session.uses, phase]
    exact .quits phase
  | ended => simp [Session.step?, phase] at stepped

end Goes

/-! ## A session among others -/

/-- What others do between two steps of a session: they put replies behind those
that wait for it, and nobody comes to listen under its number. -/
structure Meanwhile (session : Session) (before after : Hub) (arrived : List Reply) : Prop where
  replies : after.view.replies session.client = before.view.replies session.client ++ arrived
  away : before.broadcasts.Away session.broadcasts → after.broadcasts.Away session.broadcasts

namespace Meanwhile

variable {session : Session} {hub after : Hub}

theorem of_eq (replies : after.view.replies = hub.view.replies)
    (broadcasts : after.broadcasts = hub.broadcasts) : Meanwhile session hub after [] :=
  ⟨by rw [replies, List.append_nil], fun away => broadcasts ▸ away⟩

theorem proceed (session : Session) (hub : Hub) (wait : Hub.Wait) :
    Meanwhile session hub (hub.proceed wait).2 [] := by
  cases wait with
  | broadcast ticket => exact ⟨(List.append_nil _).symm, fun away => away.resume ticket⟩
  | request | lockRequest | state | snapshot => exact .of_eq rfl rfl

theorem of_does {other next : Session} {taken : List Server.Item} {said : List Message}
    (apart : session.client ≠ other.client) (old : session.broadcasts < hub.broadcasts.nextId)
    (does : Server.Does other hub next after.view taken said) : Meanwhile session hub after [] := by
  have same : after.broadcasts = after.view.broadcasts := rfl
  refine ⟨?_, fun away => ?_⟩
  · rw [List.append_nil]
    generalize after.view = view at does
    cases does with
    | takesReply => exact Function.update_of_ne apart _ _
    | _ => rfl
  · rw [same]
    generalize after.view = view at does
    cases does with
    | begins => exact away.subscribe old
    | takesSnapshot => exact away.receiveAll other.broadcasts
    | takesBroadcast waits unready received => exact away.receive? received
    | closes | fails => exact away.unsubscribe other.broadcasts
    | _ => exact away

/-- Another session begins to listen, takes something in hand, writes or leaves. -/
theorem of_session {other next : Session} {now : Instant} {sink : Sink}
    {deeds : List SessionDeed} (apart : session.client ≠ other.client)
    (old : session.broadcasts < hub.broadcasts.nextId)
    (stepped : other.step? now sink hub = some (next, after, deeds)) :
    Meanwhile session hub after [] := by
  by_cases asking : ∃ wait, other.phase = .asking wait
  · rcases asking with ⟨wait, phase⟩
    simp only [Session.step?, phase, Option.ite_none_right_eq_some] at stepped
    rcases stepped with ⟨-, stepped⟩
    have goes := proceed session hub wait
    split at stepped
    all_goals
      next proceeded =>
        cases stepped
        rwa [proceeded] at goes
  · exact of_does apart old
      (Server.does_of_step (fun wait phase => absurd ⟨wait, phase⟩ asking) stepped)

/-- The fanout writes a state down for all, answers another session or ends. -/
theorem of_fanout {fanout next : Fanout} (stepped : fanout.step? hub = some (next, after)) :
    Meanwhile session hub after [] := by
  cases phase : fanout.phase with
  | waiting =>
    simp only [Fanout.step?, phase] at stepped
    rcases List.exists_of_findSome?_eq_some stepped with ⟨branch, -, turned⟩
    have serves := Server.serves_of_turn turned
    have same : after.broadcasts = after.view.broadcasts := rfl
    refine ⟨?_, fun away => ?_⟩
    · rw [List.append_nil]
      generalize after.view = view at serves
      cases serves <;> rfl
    · rw [same]
      generalize after.view = view at serves
      cases serves with
      | sends => exact away.publish _
      | ends | answers => exact away
  | sending wait =>
    simp only [Fanout.step?, phase, Option.ite_none_right_eq_some] at stepped
    rcases stepped with ⟨-, stepped⟩
    have goes := proceed session hub wait
    split at stepped
    all_goals
      next proceeded =>
        cases stepped
        rwa [proceeded] at goes
  | ended => simp [Fanout.step?, phase] at stepped

/-- The arbiter tells its answers, to this client or to another, and announces
what comes of them. -/
theorem of_arbiter {arbiter next : Arbiter} {now : Instant} {log : List LogLine}
    (stepped : arbiter.step? now hub = some (next, after, log)) :
    ∃ arrived, Meanwhile session hub after arrived := by
  cases phase : arbiter.phase with
  | waiting =>
    rcases Arbiter.step?_of_waiting phase stepped with left | ⟨taken, event, kept, same, dealt⟩
    · rcases Arbiter.leaves_frame left with ⟨kept, same⟩
      exact ⟨[], .of_eq (Hub.replies_of_mailboxes kept) same⟩
    · rcases arbiter.deal_hub now taken event with ⟨states, held, result⟩
      rw [dealt] at result
      have told := taken.replies_mail (arbiter.arb.explained now event) event.client session.client
      have unchanged : (taken.mail (arbiter.arb.explained now event) event.client).broadcasts =
          taken.broadcasts := by
        cases event.client <;> rfl
      rw [Hub.replies_of_mailboxes kept] at told
      exact ⟨_, (congrArg (·.view.replies session.client) result).trans told, fun away =>
        congrArg Hub.broadcasts result ▸ unchanged ▸ same ▸ away⟩
  | announcing wait client =>
    simp only [Arbiter.step?, phase, Option.ite_none_right_eq_some] at stepped
    rcases stepped with ⟨-, stepped⟩
    have goes := proceed session hub wait
    split at stepped
    · next proceeded =>
      cases stepped
      rw [proceeded] at goes
      cases client <;> exact ⟨[], goes.replies, goes.away⟩
    · next proceeded =>
      cases stepped
      rw [proceeded] at goes
      exact ⟨[], goes⟩
  | ended | crashed => simp [Arbiter.step?, phase] at stepped

end Meanwhile

/-- A session at an instant, with all the replies that have come for it, all that
has passed between it and its sink, and all that was seen of it. -/
structure Account where
  now : Instant
  session : Session
  hub : Hub
  arrived : List Reply
  uses : List Use
  deeds : List SessionDeed

namespace Account

variable {x : Account}

def start (client : Nat) (hub : Hub) : Account :=
  ⟨0, .create client, hub, hub.view.replies client, [], []⟩

/-- What can happen next: others do something, or the session goes on, with a sink
that behaves in some way just then. -/
inductive Move (x : Account) : Account → Prop
  | others {hub : Hub} {arrived : List Reply}
      (meanwhile : Meanwhile x.session x.hub hub arrived) :
      Move x { x with hub := hub, arrived := x.arrived ++ arrived }
  | goesOn {now : Instant} (later : x.now ≤ now) (sink : Sink) {session : Session} {hub : Hub}
      {deeds : List SessionDeed}
      (stepped : x.session.step? now sink x.hub = some (session, hub, deeds)) :
      Move x { x with
        now := now
        session := session
        hub := hub
        uses := x.uses ++ x.session.uses now sink session
        deeds := x.deeds ++ deeds }

/-- All that has been asked for is that some messages be sent, which has been
done, and, when that was over, what the session is about: one more message, of
which the outcome is already certain, or the farewell.  If it has ended, that was
answered too: a message with a failure, which is how the session ended then, or
the farewell. -/
def Follows (x : Account) (written : List Write) : Prop :=
  let past := written.flatMap Write.uses
  let seen := written.map (SessionDeed.wrote ·.message)
  let Free (begun : Instant) : Prop := ∀ write ∈ written, write.finish ≤ begun
  match x.session.phase with
  | .writing message fate _ => ∃ sink begun, Free begun ∧ fate = sink.fate begun ∧
      x.uses = past ++ [.asked (.send message) sink begun] ∧ x.deeds = seen
  | .closing _ _ => ∃ sink begun, Free begun ∧
      x.uses = past ++ [.asked .farewell sink begun] ∧ x.deeds = seen
  | .ended =>
      (∃ sink begun, ∃ heard : Bool, Free begun ∧
        x.uses = past ++ [.asked .farewell sink begun, .answered none] ∧
        x.deeds = seen ++ ((if heard then [.farewell] else []) ++ [.ended none])) ∨
      ∃ message sink begun failure, Free begun ∧ (sink.fate begun).failure = some failure ∧
        x.uses = past ++ [.asked (.send message) sink begun, .answered (some failure)] ∧
        x.deeds = seen ++ [.ended (some failure)]
  | _ => x.uses = past ∧ x.deeds = seen

/-- What a session has still to write. -/
def due (session : Session) : Option (List Message) :=
  match session.phase with
  | .open pending => some pending
  | .writing message _ pending => some (message :: pending)
  | .closing _ _ => none
  | .ended => none
  | _ => some []

/-- What holds of a session all along. -/
structure Sound (client : Nat) (x : Account) (written : List Write) : Prop where
  client_eq : x.session.client = client
  sent : ∀ write ∈ written, write.Succeeds
  apart : written.Pairwise fun first second => first.finish ≤ second.begun
  finished : ∀ write ∈ written, write.finish ≤ x.now
  follows : x.Follows written
  away : due x.session = none → x.hub.broadcasts.Away x.session.broadcasts
  /-- The replies that have come and no longer wait are written or about to be. -/
  drawn : ∀ pending, due x.session = some pending → ∃ taken,
    x.arrived = taken ++ x.hub.view.replies client ∧
      (taken.map Reply.message).Sublist (written.map (·.message) ++ pending)

theorem sound_start (client : Nat) (hub : Hub) : (start client hub).Sound client [] where
  client_eq := rfl
  sent := nofun
  apart := .nil
  finished := nofun
  follows := ⟨rfl, rfl⟩
  away := nofun
  drawn := by
    intro pending pends
    exact ⟨[], rfl, List.nil_sublist _⟩

namespace Sound

variable {client : Nat} {written : List Write} (sound : x.Sound client written)
include sound

theorem meanwhile {hub : Hub} {arrived : List Reply}
    (meanwhile : Meanwhile x.session x.hub hub arrived) :
    Sound client { x with hub := hub, arrived := x.arrived ++ arrived } written where
  client_eq := sound.client_eq
  sent := sound.sent
  apart := sound.apart
  finished := sound.finished
  follows := sound.follows
  away gone := meanwhile.away (sound.away gone)
  drawn := by
    intro pending pends
    rcases sound.drawn pending pends with ⟨taken, all, held⟩
    refine ⟨taken, ?_, held⟩
    have replies := meanwhile.replies
    rw [sound.client_eq] at replies
    rw [all, replies, List.append_assoc]

variable {now : Instant} {sink : Sink} {after : Session} {next : Hub} {uses : List Use}
  {deeds : List SessionDeed}

theorem concat (write : Write) {pending : List Message}
    (due_eq : due x.session = some (write.message :: pending)) (succeeds : write.Succeeds)
    (free : ∀ earlier ∈ written, earlier.finish ≤ write.begun) (elapsed : write.finish ≤ now)
    (later : x.now ≤ now) (follows : Follows ⟨now, { x.session with phase := .open pending },
      x.hub, x.arrived, x.uses ++ uses, x.deeds ++ deeds⟩ (written ++ [write])) :
    Sound client ⟨now, { x.session with phase := .open pending }, x.hub, x.arrived,
      x.uses ++ uses, x.deeds ++ deeds⟩ (written ++ [write]) where
  client_eq := sound.client_eq
  sent := List.forall_mem_append.mpr ⟨sound.sent, List.forall_mem_singleton.mpr succeeds⟩
  apart := by
    refine List.pairwise_append.mpr ⟨sound.apart, List.pairwise_singleton _ _, ?_⟩
    exact fun earlier member _ last => List.mem_singleton.mp last ▸ free earlier member
  finished := List.forall_mem_append.mpr
    ⟨fun earlier member => Nat.le_trans (sound.finished earlier member) later,
      List.forall_mem_singleton.mpr elapsed⟩
  follows := follows
  away := nofun
  drawn := by
    intro due_now pends
    obtain rfl : pending = due_now := Option.some.inj pends
    rcases sound.drawn _ due_eq with ⟨taken, all, held⟩
    exact ⟨taken, all, by simpa using held⟩

theorem goesOn (later : x.now ≤ now)
    (goes : Goes x.session now sink x.hub after next uses deeds) :
    ∃ written, Sound client
      ⟨now, after, next, x.arrived, x.uses ++ uses, x.deeds ++ deeds⟩ written := by
  have follows := sound.follows
  have client_eq := sound.client_eq
  have finished : ∀ write ∈ written, write.finish ≤ now := fun write member =>
    Nat.le_trans (sound.finished write member) later
  unfold Follows at follows
  cases goes with
  | prepares early ready same replies =>
    have was : x.uses = written.flatMap Write.uses ∧ x.deeds = written.map (.wrote ·.message) := by
      rcases early with phase | ⟨wait, phase⟩
      · rw [phase] at follows
        exact follows
      · rw [phase] at follows
        exact follows
    have still : due x.session = some [] := by
      rcases early with phase | ⟨wait, phase⟩ <;> simp only [due, phase]
    have now_due : due after = some [] := by
      rcases ready with phase | ⟨wait, phase⟩ <;> simp only [due, phase]
    refine ⟨written, same.trans client_eq, sound.sent, sound.apart, finished, ?_, ?_, ?_⟩
    · simp only [List.append_nil]
      rcases ready with phase | ⟨wait, phase⟩
      · simpa only [Follows, phase] using was
      · simpa only [Follows, phase] using was
    · exact fun gone => by rw [now_due] at gone; cases gone
    · intro pending pends
      rw [replies]
      exact sound.drawn pending (still.trans (now_due.symm.trans pends))
  | @turns _ _ pending taken waits turned same drawn held =>
    rw [waits] at follows
    have now_due : due after = some pending := by simp only [due, turned]
    refine ⟨written, same.trans client_eq, sound.sent, sound.apart, finished, ?_, ?_, ?_⟩
    · simp only [List.append_nil]
      simpa only [Follows, turned] using follows
    · exact fun gone => by rw [now_due] at gone; cases gone
    · intro due_now pends
      obtain rfl : pending = due_now := Option.some.inj (now_due.symm.trans pends)
      -- A session that waits has nothing in hand, so what it takes comes behind all it has written.
      rcases sound.drawn [] (by simp only [due, waits]) with ⟨before, all, kept⟩
      rw [client_eq] at drawn
      refine ⟨before ++ taken, ?_, ?_⟩
      · rw [all, drawn, List.append_assoc]
      · rw [List.append_nil] at kept
        rw [List.map_append]
        exact kept.append held
  | bows waits alone =>
    rw [waits] at follows
    refine ⟨written, client_eq, sound.sent, sound.apart, finished, ?_,
      fun _ => Topic.away_unsubscribe _ _, nofun⟩
    exact ⟨sink, now, finished, by rw [follows.1], by rw [follows.2, List.append_nil]⟩
  | begins busy =>
    rw [busy] at follows
    refine ⟨written, client_eq, sound.sent, sound.apart, finished, ?_, nofun,
      fun pending pends => ?_⟩
    · exact ⟨sink, now, finished, rfl, by rw [follows.1], by rw [follows.2, List.append_nil]⟩
    · exact sound.drawn pending (by simpa only [due, busy] using pends)
  | @writes message pending busy elapsed succeeds =>
    rw [busy] at follows
    refine ⟨_, sound.concat ⟨message, sink, now⟩ (by simp only [due, busy])
      succeeds finished elapsed later ⟨?_, ?_⟩⟩
    · rw [follows.1, List.flatMap_append]
      rfl
    · rw [follows.2, List.map_append]
      rfl
  | @wrote message fate pending busy elapsed succeeds =>
    rw [busy] at follows
    rcases follows with ⟨sink, begun, free, rfl, past, seen⟩
    refine ⟨_, sound.concat ⟨message, sink, begun⟩ (by simp only [due, busy])
      succeeds free elapsed later ⟨?_, ?_⟩⟩
    · rw [past, List.flatMap_append, List.append_assoc]
      rfl
    · rw [seen, List.map_append]
      rfl
  | @fails message pending failure busy failed =>
    rw [busy] at follows
    refine ⟨written, client_eq, sound.sent, sound.apart, finished, .inr ?_,
      fun _ => Topic.away_unsubscribe _ _, nofun⟩
    exact ⟨message, sink, now, failure, finished, failed, by rw [follows.1], by rw [follows.2]⟩
  | @failed message fate pending failure busy failed =>
    rw [busy] at follows
    rcases follows with ⟨sink, begun, free, rfl, past, seen⟩
    refine ⟨written, client_eq, sound.sent, sound.apart, finished, .inr ?_,
      fun _ => Topic.away_unsubscribe _ _, nofun⟩
    refine ⟨message, sink, begun, failure, free, failed, ?_, by rw [seen]⟩
    rw [past, List.append_assoc]
    rfl
  | @quits finish heard closing =>
    rw [closing] at follows
    rcases follows with ⟨sink, begun, free, past, seen⟩
    refine ⟨written, client_eq, sound.sent, sound.apart, finished, .inl ?_, fun _ => ?_, nofun⟩
    · refine ⟨sink, begun, heard, free, ?_, by rw [seen]⟩
      rw [past, List.append_assoc]
      rfl
    · exact sound.away (by simp only [due, closing])

end Sound

theorem exists_sound {client : Nat} {hub : Hub}
    (reached : Relation.ReflTransGen Move (start client hub) x) :
    ∃ written, x.Sound client written := by
  induction reached with
  | refl => exact ⟨[], sound_start client hub⟩
  | tail _ move inductionHypothesis =>
    rcases inductionHypothesis with ⟨written, sound⟩
    cases move with
    | others meanwhile => exact ⟨written, sound.meanwhile meanwhile⟩
    | goesOn later sink stepped => exact sound.goesOn later (goes_of_step stepped)

/-- A session and its sink, whatever the sink does and whatever happens around them.

The messages that have been asked to be sent have been sent one after another,
each of them in time and begun when the one before was over, but for one at the
end that has not been answered yet or has failed.  A session that ends with a
failure asks for nothing after it, and one that ends otherwise has said farewell,
once and at the very end.  When it has ended it does not listen any more.  If it
turns to the farewell and the signal to shut down has not been given, then nobody
is left who could reply, and every reply that has come has been written, in the
order in which they came. -/
theorem sink_is_asked_in_turn {client : Nat} {hub : Hub}
    (reached : Relation.ReflTransGen Move (start client hub) x) :
    ∃ written : List Write, (∀ write ∈ written, write.Succeeds) ∧
      written.Pairwise (fun first second => first.finish ≤ second.begun) ∧ x.Follows written ∧
      (x.session.phase = .ended → x.hub.broadcasts.Away x.session.broadcasts) ∧
      ∀ now sink after next deeds finish heard,
        x.session.step? now sink x.hub = some (after, next, deeds) →
        after.phase = .closing finish heard →
        x.hub.takeShutdown? x.session.shutdown = none →
          x.hub.mayReply client = false ∧
            (x.arrived.map Reply.message).Sublist (written.map (·.message)) := by
  rcases exists_sound reached with ⟨written, sound⟩
  refine ⟨written, sound.sent, sound.apart, sound.follows, fun ended => ?_, ?_⟩
  · exact sound.away (by simp only [due, ended])
  · intro now sink after next deeds finish heard stepped closes unsignalled
    have goes := goes_of_step stepped
    generalize x.session.uses now sink after = uses at goes
    cases goes with
    | bows waits alone =>
      rcases alone unsignalled with ⟨unheard, empty⟩
      rcases sound.drawn [] (by simp only [due, waits]) with ⟨taken, all, held⟩
      rw [sound.client_eq] at unheard empty
      rw [empty, List.append_nil] at all
      rw [List.append_nil] at held
      exact ⟨unheard, all ▸ held⟩
    | prepares early later =>
      rcases later with phase | ⟨wait, phase⟩
      · cases phase.symm.trans closes
      · cases phase.symm.trans closes
    | turns taken waits turned => cases turned.symm.trans closes
    | _ => cases closes

/-- A reply comes, and then the client goes.  The reply is still written. -/
theorem sink_is_asked_for_the_last_reply :
    let hub := (Hub.empty 4).openMailbox 0
    ∃ x y, Relation.ReflTransGen Move (start 0 hub) x ∧ x.arrived = [.state .shut] ∧
      (∃ written : List Write, x.Follows written ∧
        [Message.text (stateText .shut)].Sublist (written.map (·.message))) ∧
      Relation.ReflTransGen Move (start 0 hub) y ∧ y.session.phase = .ended ∧
      y.hub.broadcasts.Away y.session.broadcasts := by
  intro hub
  let begun := (Session.create 0).begin 0 hub
  have others : Meanwhile begun.1 begun.2
      { begun.2 with mailboxes := [⟨0, [.state .shut], true, false, none, true⟩] }
      [.state .shut] := ⟨rfl, id⟩
  have begins : Relation.ReflTransGen Move (start 0 hub) ⟨0, begun.1, begun.2, [], [], []⟩ :=
    .single (.goesOn (Nat.le_refl 0) .good rfl)
  have comes := begins.tail (.others others)
  have takes := comes.tail (.goesOn (Nat.le_refl 0) .good rfl)
  have writes := takes.tail (.goesOn (Nat.le_refl 0) .good rfl)
  have closes := writes.tail (.goesOn (Nat.le_refl 0) .good rfl)
  have quits := closes.tail (.goesOn (Nat.le_refl 0) .good rfl)
  rcases sink_is_asked_in_turn writes with ⟨written, -, -, follows, -, alone⟩
  rcases sink_is_asked_in_turn quits with ⟨-, -, -, -, away, -⟩
  have told := (alone 0 .good _ _ _ _ _ rfl rfl rfl).2
  exact ⟨_, _, writes, rfl, ⟨written, follows, told⟩, quits, rfl, away rfl⟩

end Account
end Client
end Ventilation
