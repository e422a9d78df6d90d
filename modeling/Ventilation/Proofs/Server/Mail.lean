import Ventilation.Proofs.Arbitration.Refusals
import Ventilation.Proofs.Bus.View

namespace Ventilation

/-!
# Private replies

Every client has a queue for what it is told in private.  It holds ten replies,
the client takes them out when it likes to, and nobody has to receive them at
all.  The arbiter is the only one that puts something in, and it does so in one
way only: when it refuses an event it tells the sender the current state, if
there is one, and then the reason.  Each of the two is put into the queue if
there is room for it, and dropped otherwise; the arbiter never waits for room.
-/

open Bus (Hub)

namespace Arbitration

variable {arb : Arbitration} {now : Instant} {event : ArbiterEvent} {verdict : Verdict}

/-- What the sender of an event is to be told about its answer. -/
def explanation (arb : Arbitration) : Answer → List Client.Reply
  | .refused hazard =>
    match arb.state with
    | some state => [.state state, .refusal hazard.refusal]
    | none => [.refusal hazard.refusal]
  | _ => []

/-- What the sender of an event is to be told; there is nothing to tell if the
clock overflows. -/
def explained (arb : Arbitration) (now : Instant) (event : ArbiterEvent) : List Client.Reply :=
  match arb.perform (eventOf now event) with
  | some (answer, _) => arb.explanation answer
  | none => []

theorem refusalReplies_eq (arb : Arbitration) (hazard : Hazard) :
    arb.refusalReplies hazard = arb.explanation (.refused hazard) := by
  unfold refusalReplies explanation
  cases arb.state <;> rfl

/-- Whoever has sent an event is told about the answer that the event has. -/
theorem told_of_judge (judged : arb.judge now event = some verdict) :
    verdict.told = arb.explained now event := by
  cases event with
  | request r =>
    simp only [judge] at judged
    simp only [explained, eventOf, perform]
    rcases asked : arb.request r.state r.origin with hazard | ⟨state, next⟩
    · rw [asked] at judged
      cases judged
      exact arb.refusalReplies_eq hazard
    · rw [asked] at judged
      cases judged
      rfl
  | lock r =>
    simp only [judge] at judged
    simp only [explained, eventOf, perform]
    rcases asked : arb.changeLock r.lock r.active r.origin now with (hazard | -) | next
    · rw [asked] at judged
      cases judged
      exact arb.refusalReplies_eq hazard
    · rw [asked] at judged
      cases judged
    · rw [asked] at judged
      cases judged
      rfl
  | deadline =>
    simp only [judge] at judged
    split at judged <;>
    · cases judged
      rfl

/-- To refuse an event is to change and to announce nothing. -/
theorem judge_of_refusal {hazard : Hazard} {kept : Arbitration}
    (refused : arb.perform (eventOf now event) = some (.refused hazard, kept)) :
    ∃ verdict, arb.judge now event = some verdict ∧ verdict.arb = arb ∧
      verdict.announced = none ∧ verdict.told = arb.explanation (.refused hazard) := by
  have judged := arb.judge_eq_perform now event
  rw [refused, Option.map_some, Option.map_eq_some_iff] at judged
  rcases judged with ⟨verdict, judged, same⟩
  rcases Prod.mk.inj same with ⟨silent, rfl⟩
  refine ⟨verdict, judged, (perform_eq_some_iff.mp refused).eq_of_refusal rfl, silent, ?_⟩
  rw [told_of_judge judged, explained, refused]

theorem length_explained_le (arb : Arbitration) (now : Instant) (event : ArbiterEvent) :
    (arb.explained now event).length ≤ 2 := by
  unfold explained explanation
  split
  · split
    · split <;> simp
    · simp
  · simp

/-- The state that a sender is to be told is the one that stays. -/
theorem state_of_explained {state : State} (judged : arb.judge now event = some verdict)
    (told : Client.Reply.state state ∈ arb.explained now event) :
    verdict.arb.state = some state := by
  unfold explained at told
  split at told
  · next answer next performed =>
    cases answer with
    | refused hazard =>
      rcases judge_of_refusal performed with ⟨same, again, kept, -, -⟩
      rcases Option.some.inj (judged.symm.trans again) with rfl
      rw [kept]
      cases known : arb.state with
      | none => simp [explanation, known] at told
      | some current => simpa [explanation, known, eq_comm] using told
    | accepted | locks | expired => cases told
  · cases told

theorem explained_eq_nil (upheld : ∀ hazard kept,
    arb.perform (eventOf now event) ≠ some (.refused hazard, kept)) :
    arb.explained now event = [] := by
  unfold explained
  split
  · next answer next performed =>
    cases answer with
    | refused hazard => exact absurd performed (upheld hazard next)
    | accepted | locks | expired => rfl
  · rfl

end Arbitration

/-! ## The queue of a client -/

namespace Bus
namespace Hub

variable {hub next : Hub} {client : Nat}

/-- How many replies a client can be told: as many as fit into its queue if
someone receives them. -/
def room (hub : Hub) (client : Nat) : Nat :=
  match hub.mailbox? client with
  | some mailbox => if mailbox.listening then maxReplies - mailbox.replies.length else 0
  | none => 0

/-- Put some replies at the end of the queue of a client. -/
def put (hub : Hub) (client : Nat) (replies : List Client.Reply) : Hub :=
  hub.setMailbox client fun mailbox => { mailbox with replies := mailbox.replies ++ replies }

/-- Put as many replies as fit into the queue of a client, if there is one. -/
def mail (hub : Hub) (replies : List Client.Reply) : Option Nat → Hub
  | some client => hub.put client (replies.take (hub.room client))
  | none => hub

theorem put_nil (hub : Hub) (client : Nat) : hub.put client [] = hub := by
  simp [put, setMailbox]

theorem put_put (hub : Hub) (client : Nat) (first second : List Client.Reply) :
    (hub.put client first).put client second = hub.put client (first ++ second) := by
  simp only [put, setMailbox, List.map_map]
  congr 2
  funext mailbox
  by_cases own : mailbox.client = client <;> simp [own]

theorem mailbox?_put (hub : Hub) (client : Nat) (replies : List Client.Reply) (other : Nat) :
    (hub.put client replies).mailbox? other =
      if other = client then (hub.mailbox? client).map fun mailbox =>
        { mailbox with replies := mailbox.replies ++ replies }
      else hub.mailbox? other :=
  hub.mailbox?_setMailbox client
    (fun mailbox => { mailbox with replies := mailbox.replies ++ replies }) (fun _ => rfl) other

/-- A reply is put in just when there is room for it at that moment. -/
theorem tell?_eq_some_iff {reply : Client.Reply} :
    hub.tell? client reply = some next ↔ 0 < hub.room client ∧ next = hub.put client [reply] := by
  unfold tell? room put
  cases hub.mailbox? client with
  | none => simp
  | some mailbox =>
    cases listening : mailbox.listening with
    | false => simp [listening]
    | true =>
      simp only [listening, if_true, Nat.sub_pos_iff_lt]
      simp [eq_comm (a := next)]

theorem room_put (hub : Hub) (client : Nat) (replies : List Client.Reply) :
    (hub.put client replies).room client = hub.room client - replies.length := by
  unfold room
  rw [mailbox?_put, if_pos rfl]
  cases hub.mailbox? client with
  | none => simp
  | some mailbox =>
    cases listening : mailbox.listening <;> simp [listening, Nat.sub_sub]

theorem take_room (hub : Hub) (client : Nat) (reply : Client.Reply) :
    [reply].take (hub.room client) = if 0 < hub.room client then [reply] else [] := by
  cases hub.room client <;> simp

/-- Put a reply into the queue of a client, or drop it if there is no room. -/
def offer (hub : Hub) (client : Nat) (reply : Client.Reply) : Hub :=
  (hub.tell? client reply).getD hub

theorem offer_eq_mail (hub : Hub) (client : Nat) (reply : Client.Reply) :
    hub.offer client reply = hub.mail [reply] (some client) := by
  change (hub.tell? client reply).getD hub = hub.put client ([reply].take (hub.room client))
  by_cases room : 0 < hub.room client
  · have fits : [reply].length ≤ hub.room client := room
    rw [tell?_eq_some_iff.mpr ⟨room, rfl⟩, List.take_of_length_le fits, Option.getD_some]
  · have refused : hub.tell? client reply = none := by
      refine Option.eq_none_iff_forall_ne_some.mpr fun next told => ?_
      exact room (tell?_eq_some_iff.mp told).1
    rw [refused, Nat.eq_zero_of_not_pos room, List.take_zero, put_nil, Option.getD_none]

/-- Replies that are offered one after another are mailed, if nothing happens in between. -/
theorem mail_offer (hub : Hub) (client : Nat) (reply : Client.Reply)
    (rest : List Client.Reply) :
    (hub.offer client reply).mail rest (some client) = hub.mail (reply :: rest) (some client) := by
  simp only [offer_eq_mail, mail, put_put, room_put]
  congr 1
  cases hub.room client with
  | zero => simp
  | succ more => simp

theorem mail_nil (hub : Hub) (client : Option Nat) : hub.mail [] client = hub := by
  cases client with
  | none => rfl
  | some client => rw [mail, List.take_nil, put_nil]

/-- What is mailed lies behind everything else in the queue of its client, and
every other queue is as it was. -/
theorem mailbox?_mail (hub : Hub) (replies : List Client.Reply) (receiver : Option Nat)
    (client : Nat) :
    (hub.mail replies receiver).mailbox? client = (hub.mailbox? client).map fun mailbox =>
      { mailbox with
        replies := mailbox.replies ++
          if receiver = some client then replies.take (hub.room client) else [] } := by
  cases receiver with
  | none => simp [mail]
  | some receiver =>
    rw [mail, mailbox?_put]
    by_cases own : client = receiver
    · simp [own]
    · simp [own, Ne.symm own]

theorem replies_mail (hub : Hub) (replies : List Client.Reply) (receiver : Option Nat)
    (client : Nat) :
    (hub.mail replies receiver).view.replies client = hub.view.replies client ++
      if receiver = some client then replies.take (hub.room client) else [] := by
  simp only [view, mailbox?_mail]
  cases here : hub.mailbox? client with
  | some mailbox => rfl
  | none =>
    have closed : hub.room client = 0 := by simp [room, here]
    simp [closed]

theorem replies_of_mailboxes (same : next.mailboxes = hub.mailboxes) :
    next.view.replies = hub.view.replies := by
  funext client
  simp [view, mailbox?, same]

end Hub
end Bus

namespace Arbiter

variable {arbiter after : Arbiter} {hub next : Hub} {now : Instant} {event : ArbiterEvent}
  {log : List LogLine}

/-- A client that is told some replies is offered one after another. -/
theorem tellAll_eq_mail (hub : Hub) (client : Nat) (replies : List Client.Reply) :
    (tellAll hub client replies).2 = hub.mail replies (some client) := by
  induction replies generalizing hub with
  | nil => exact (hub.mail_nil (some client)).symm
  | cons reply rest inductionHypothesis =>
    rw [← Hub.mail_offer]
    unfold tellAll Hub.offer
    split
    · next next told =>
      rw [inductionHypothesis, told]
      rfl
    · next refused =>
      rw [refused, Option.getD_none]
      split
      · exact (hub.mail_nil (some client)).symm
      · exact inductionHypothesis hub

theorem report_eq_mail (hub : Hub) (client : Option Nat) (told : List Client.Reply) :
    (report hub client told).1 = hub.mail told client := by
  cases client with
  | none => rfl
  | some client =>
    cases told with
    | nil => exact (hub.mail_nil (some client)).symm
    | cons reply rest =>
      rw [← tellAll_eq_mail]
      simp only [report]
      split
      · next sent => rw [sent]
      · next sent => rw [sent]

/-- Announce what has come of an event. -/
def announce (arbiter : Arbiter) (hub : Hub) (client : Option Nat) : Option State → Arbiter × Hub
  | none => (arbiter, hub)
  | some state =>
    match hub.publishState state with
    | (none, next) => (arbiter, next)
    | (some wait, next) =>
      ({ arbiter with phase := .announcing wait client }, next.hold client)

/-- To announce something is to publish a state, and to hold on to the event if
that has to wait. -/
theorem announce_hub (arbiter : Arbiter) (hub : Hub) (client : Option Nat)
    (announced : Option State) :
    ∃ states held, (arbiter.announce hub client announced).2 =
      { hub with states := states, held := held } := by
  cases announced with
  | none => exact ⟨hub.states, hub.held, rfl⟩
  | some state =>
    have published : (hub.publishState state).2 =
        { hub with states := (hub.states.publish state).2.2 } := rfl
    unfold announce
    dsimp only
    split
    · next next through =>
      rw [through] at published
      exact ⟨_, _, published⟩
    · next wait next waits =>
      obtain rfl : next = _ := (congrArg Prod.snd waits).symm.trans published
      exact ⟨_, _, rfl⟩

theorem announce_mailboxes (arbiter : Arbiter) (hub : Hub) (client : Option Nat)
    (announced : Option State) :
    (arbiter.announce hub client announced).2.mailboxes = hub.mailboxes := by
  rcases arbiter.announce_hub hub client announced with ⟨states, held, announces⟩
  rw [announces]

/-- To deal with an event is to judge it, to tell its sender and to announce what
has come of it. -/
theorem deal_eq_announce {verdict : Verdict}
    (judged : arbiter.arb.judge now event = some verdict) (hub : Hub) :
    ∃ log, arbiter.deal now hub event =
      let result := { arbiter with arb := verdict.arb }.announce
        (hub.mail verdict.told event.client) event.client verdict.announced
      (result.1, result.2, log) := by
  refine ⟨verdict.log ++ (report hub event.client verdict.told).2, ?_⟩
  simp only [deal, judged, ← report_eq_mail]
  cases verdict.announced with
  | none => rfl
  | some state =>
    simp only [announce]
    rcases (report hub event.client verdict.told).1.publishState state with ⟨_ | wait, next⟩ <;> rfl

/-- Of an event that is dealt with, nothing gets into the queues but what its
sender is told. -/
theorem deal_hub (arbiter : Arbiter) (now : Instant) (hub : Hub) (event : ArbiterEvent) :
    ∃ states held, (arbiter.deal now hub event).2.1 =
      { hub.mail (arbiter.arb.explained now event) event.client with
        states := states, held := held } := by
  cases judged : arbiter.arb.judge now event with
  | none =>
    have unperformed := arbiter.arb.judge_eq_perform now event
    rw [judged, Option.map_none, eq_comm, Option.map_eq_none_iff] at unperformed
    rw [Arbitration.explained, unperformed, Hub.mail_nil, deal, judged]
    exact ⟨hub.states, hub.held, rfl⟩
  | some verdict =>
    rcases deal_eq_announce judged hub with ⟨log, dealt⟩
    rw [dealt, ← Arbitration.told_of_judge judged]
    exact announce_hub ..

theorem deal_mailboxes (arbiter : Arbiter) (now : Instant) (hub : Hub) (event : ArbiterEvent) :
    (arbiter.deal now hub event).2.1.mailboxes =
      (hub.mail (arbiter.arb.explained now event) event.client).mailboxes := by
  rcases arbiter.deal_hub now hub event with ⟨states, held, dealt⟩
  rw [dealt]

/-- A refusal leaves the arbiter as it was, and the hub but for what the sender
is told. -/
theorem deal_of_refusal {hazard : Hazard} {kept : Arbitration}
    (refused : arbiter.arb.perform (Arbitration.eventOf now event) = some (.refused hazard, kept))
    (hub : Hub) :
    ∃ log, arbiter.deal now hub event =
      (arbiter, hub.mail (arbiter.arb.explanation (.refused hazard)) event.client, log) := by
  rcases Arbitration.judge_of_refusal refused with ⟨verdict, judged, kept, silent, told⟩
  rcases deal_eq_announce judged hub with ⟨log, dealt⟩
  refine ⟨log, ?_⟩
  rw [dealt, kept, silent, told]
  rfl

/-- An arbiter that does not wait for an event leaves the queues alone. -/
theorem step?_mailboxes (busy : arbiter.phase ≠ .waiting)
    (stepped : arbiter.step? now hub = some (after, next, log)) :
    next.mailboxes = hub.mailboxes := by
  unfold step? at stepped
  split at stepped
  · next waiting => exact absurd waiting busy
  · next wait client announcing =>
    have proceeded : (hub.proceed wait).2.mailboxes = hub.mailboxes := by cases wait <;> rfl
    split at stepped
    · split at stepped
      · next through =>
        cases stepped
        rw [through] at proceeded
        cases client <;> exact proceeded
      · next further =>
        cases stepped
        rw [further] at proceeded
        exact proceeded
    · cases stepped
  · cases stepped
  · cases stepped

theorem leaves_frame (left : arbiter.turn? now hub .shutdown = some (after, next, log)) :
    next.mailboxes = hub.mailboxes ∧ next.broadcasts = hub.broadcasts := by
  simp only [turn?, Option.bind_eq_bind, Option.bind_eq_some_iff, Option.pure_def,
    Option.some.injEq, Prod.mk.injEq] at left
  rcases left with ⟨closed, taken, -, rfl, -⟩
  rcases Option.map_eq_some_iff.mp taken with ⟨signal, -, rfl⟩
  exact ⟨rfl, rfl⟩

/-- An arbiter that waits for an event leaves, or it deals with one. -/
theorem step?_of_waiting (waiting : arbiter.phase = .waiting)
    (stepped : arbiter.step? now hub = some (after, next, log)) :
    arbiter.turn? now hub .shutdown = some (after, next, log) ∨
      ∃ taken event, taken.mailboxes = hub.mailboxes ∧ taken.broadcasts = hub.broadcasts ∧
        arbiter.deal now taken event = (after, next, log) := by
  simp only [step?, waiting] at stepped
  rcases List.exists_of_findSome?_eq_some stepped with ⟨branch, -, turned⟩
  cases branch with
  | shutdown => exact .inl turned
  | request =>
    simp only [turn?, Option.bind_eq_bind, Option.bind_eq_some_iff, Option.pure_def,
      Option.some.injEq] at turned
    rcases turned with ⟨⟨request, requests⟩, -, dealt⟩
    exact .inr ⟨{ hub with requests := requests }, .request request, rfl, rfl, dealt⟩
  | lock =>
    simp only [turn?, Option.bind_eq_bind, Option.bind_eq_some_iff, Option.pure_def,
      Option.some.injEq] at turned
    rcases turned with ⟨⟨request, requests⟩, -, dealt⟩
    exact .inr ⟨{ hub with lockRequests := requests }, .lock request, rfl, rfl, dealt⟩
  | deadline =>
    simp only [turn?, Option.ite_none_right_eq_some, Option.some.injEq] at turned
    exact .inr ⟨hub, .deadline, rfl, rfl, turned.2⟩

end Arbiter

end Ventilation
