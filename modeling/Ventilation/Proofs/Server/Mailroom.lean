import Ventilation.Proofs.Script
import Ventilation.Proofs.Server.Mail

namespace Ventilation

/-!
# The mailroom

The mailroom is everything that private replies take: the queues, the arbiter,
the event that it has in hand, and a book of what it has dealt with and of what
the clients have taken out.  Events come in any order, from anyone and at any
instant.  The rest of the server may do what it likes in between, also between
the two replies to one event, as long as it leaves the replies where they are.
-/

open Bus (Hub Mailbox)

namespace Server

/-! ## The book -/

/-- An event that the arbiter deals with: what it knew, when and what the event
was, what has come of it, what its sender is still to be told, and what was put
into the queue of the sender. -/
structure Matter where
  before : Arbitration
  now : Instant
  event : ArbiterEvent
  verdict : Verdict
  left : List Client.Reply
  put : List Client.Reply

/-- What a matter has put into the queue of a client. -/
def Matter.putTo (matter : Matter) (client : Nat) : List Client.Reply :=
  if matter.event.client = some client then matter.put else []

/-- What is left of a matter has not been tried, and of what has been tried some
was put into the queue, in order. -/
structure Matter.Fair (matter : Matter) : Prop where
  judged : matter.before.judge matter.now matter.event = some matter.verdict
  told : ∃ tried, matter.verdict.told = tried ++ matter.left ∧ matter.put.Sublist tried

/-- Nobody is left to be told anything. -/
def Matter.Settled (matter : Matter) : Prop := matter.event.client = none ∨ matter.left = []

namespace Matter

variable {matter : Matter}

theorem Fair.explained_eq (fair : matter.Fair) :
    ∃ tried, matter.before.explained matter.now matter.event = tried ++ matter.left ∧
      matter.put.Sublist tried := by
  rw [← Arbitration.told_of_judge fair.judged]
  exact fair.told

theorem Fair.length_left_le (fair : matter.Fair) : matter.left.length ≤ 2 := by
  rcases fair.explained_eq with ⟨tried, told, -⟩
  have short := matter.before.length_explained_le matter.now matter.event
  rw [told, List.length_append] at short
  omega

theorem Fair.silent (fair : matter.Fair) {hazard : Hazard} {kept : Arbitration}
    (refused : matter.before.perform (Arbitration.eventOf matter.now matter.event) =
      some (.refused hazard, kept)) : matter.verdict.announced = none := by
  rcases Arbitration.judge_of_refusal refused with ⟨verdict, judged, -, silent, -⟩
  rcases Option.some.inj (judged.symm.trans fair.judged) with rfl
  exact silent

/-- The state that a sender is still to be told is the current one. -/
theorem Fair.state_of_left (fair : matter.Fair) {state : State}
    (told : Client.Reply.state state ∈ matter.left) : matter.verdict.arb.state = some state := by
  rcases fair.explained_eq with ⟨tried, whole, -⟩
  exact Arbitration.state_of_explained fair.judged (whole ▸ List.mem_append_right tried told)

end Matter

/-- The queues, the arbiter and the book. -/
structure Mailroom where
  hub : Hub
  arbiter : Arbiter
  /-- The event that the arbiter has in hand. -/
  hand : Option Matter
  dealt : List Matter
  collected : List (Nat × Client.Reply)

namespace Mailroom

variable {hub next : Hub} {arbiter after : Arbiter} {log : List LogLine} {x y : Mailroom}
  {matter : Matter} {client : Nat} {reply : Client.Reply} {rest : List Client.Reply}

def start (hub : Hub) (arbiter : Arbiter) : Mailroom := ⟨hub, arbiter, none, [], []⟩

/-- The arbiter takes an event in hand, unless the clock overflows. -/
def takeUp (x : Mailroom) (now : Instant) (event : ArbiterEvent) : Mailroom :=
  match x.arbiter.arb.judge now event with
  | none => { x with arbiter := { x.arbiter with phase := .crashed } }
  | some verdict =>
    { x with
      arbiter := { x.arbiter with arb := verdict.arb }
      hand := some ⟨x.arbiter.arb, now, event, verdict, verdict.told, []⟩ }

/-- The sender of the event in hand is told one more thing. -/
def tell (x : Mailroom) (matter : Matter) (client : Nat) (reply : Client.Reply)
    (rest : List Client.Reply) : Mailroom :=
  { x with
    hub := x.hub.offer client reply
    hand := some { matter with
      left := rest
      put := matter.put ++ if 0 < x.hub.room client then [reply] else [] } }

/-- The arbiter announces what has come of the event in hand, and is done with it. -/
def conclude (x : Mailroom) (matter : Matter) : Mailroom :=
  let result := x.arbiter.announce x.hub matter.event.client matter.verdict.announced
  { x with hub := result.2, arbiter := result.1, hand := none, dealt := x.dealt ++ [matter] }

/-- The arbiter goes on with the event in hand: with what its sender is still to be
told, one thing at a time, and with the announcement then. -/
def goOn (x : Mailroom) : Mailroom :=
  match x.hand with
  | none => x
  | some matter =>
    match matter.event.client, matter.left with
    | some client, reply :: rest => x.tell matter client reply rest
    | _, _ => x.conclude matter

/-- A client takes the oldest reply out of its queue. -/
def collect (x : Mailroom) (client : Nat) (reply : Client.Reply) (rest : List Client.Reply) :
    Mailroom :=
  { x with
    hub := x.hub.setMailbox client fun mailbox => { mailbox with replies := rest }
    collected := x.collected ++ [(client, reply)] }

/-- What a client has taken out so far. -/
def collectedBy (x : Mailroom) (client : Nat) : List Client.Reply :=
  (x.collected.filter fun entry => entry.1 = client).map Prod.snd

def matters (x : Mailroom) : List Matter := x.dealt ++ x.hand.toList

inductive Move (x : Mailroom) : Mailroom → Prop
  | takesUp (waiting : x.arbiter.phase = .waiting) (free : x.hand = none) (now : Instant)
      (event : ArbiterEvent) : Move x (x.takeUp now event)
  | goesOn {matter : Matter} (inHand : x.hand = some matter) : Move x x.goOn
  | announces (busy : x.arbiter.phase ≠ .waiting) (free : x.hand = none) {now : Instant}
      {arbiter : Arbiter} {hub : Hub} {log : List LogLine}
      (stepped : x.arbiter.step? now x.hub = some (arbiter, hub, log)) :
      Move x { x with hub := hub, arbiter := arbiter }
  | leaves (free : x.hand = none) {now : Instant} {arbiter : Arbiter} {hub : Hub}
      {log : List LogLine} (left : x.arbiter.turn? now x.hub .shutdown = some (arbiter, hub, log)) :
      Move x { x with hub := hub, arbiter := arbiter }
  | collects {client : Nat} {mailbox : Mailbox} {reply : Client.Reply}
      {rest : List Client.Reply} (here : x.hub.mailbox? client = some mailbox)
      (waits : mailbox.replies = reply :: rest) : Move x (x.collect client reply rest)
  | stirs {hub : Hub} (spared : hub.view.replies = x.hub.view.replies) :
      Move x { x with hub := hub }

theorem goOn_eq_tell (inHand : x.hand = some matter) (sender : matter.event.client = some client)
    (left : matter.left = reply :: rest) : x.goOn = x.tell matter client reply rest := by
  simp only [goOn, inHand, sender, left]

theorem goOn_eq_conclude (inHand : x.hand = some matter) (settled : matter.Settled) :
    x.goOn = x.conclude matter := by
  simp only [goOn, inHand]
  rcases settled with unsent | told
  · rw [unsent]
  · rw [told]
    cases matter.event.client <;> rfl

theorem takeUp_of_refused {now : Instant} {event : ArbiterEvent} {hazard : Hazard}
    {kept : Arbitration}
    (refused : x.arbiter.arb.perform (Arbitration.eventOf now event) =
      some (.refused hazard, kept)) :
    ∃ verdict, verdict.announced = none ∧
      x.takeUp now event = { x with
        hand := some ⟨x.arbiter.arb, now, event, verdict,
          x.arbiter.arb.explanation (.refused hazard), []⟩ } := by
  rcases Arbitration.judge_of_refusal refused with ⟨verdict, judged, same, silent, told⟩
  refine ⟨verdict, silent, ?_⟩
  rw [takeUp, judged, ← told]
  simp only [same]

theorem settled_of_takeUp {now : Instant} {event : ArbiterEvent} (free : x.hand = none)
    (other : event.client = none ∨ ∀ hazard kept,
      x.arbiter.arb.perform (Arbitration.eventOf now event) ≠ some (.refused hazard, kept))
    (taken : (x.takeUp now event).hand = some matter) : matter.Settled := by
  unfold takeUp at taken
  split at taken
  · rw [free] at taken
    cases taken
  · next verdict judged =>
    cases taken
    rcases other with unsent | upheld
    · exact .inl unsent
    · exact .inr ((Arbitration.told_of_judge judged).trans (Arbitration.explained_eq_nil upheld))

theorem takeUp_hub (x : Mailroom) (now : Instant) (event : ArbiterEvent) :
    (x.takeUp now event).hub = x.hub := by
  unfold takeUp
  split <;> rfl

/-- An event in hand has a sender that is to be told something, or it is settled. -/
theorem tells_or_settled (matter : Matter) :
    (∃ client reply rest, matter.event.client = some client ∧ matter.left = reply :: rest) ∨
      matter.Settled := by
  cases sender : matter.event.client with
  | none => exact .inr (.inl sender)
  | some client =>
    cases left : matter.left with
    | nil => exact .inr (.inr left)
    | cons reply rest => exact .inl ⟨client, reply, rest, rfl, rfl⟩

/-! ## Without interruption -/

/-- If nobody interferes, the sender of the event in hand is mailed what it is to
be told, and the announcement follows. -/
theorem reaches_concluded (inHand : x.hand = some matter) :
    ∃ dealt, Relation.ReflTransGen Move x
      (let result := x.arbiter.announce (x.hub.mail matter.left matter.event.client)
        matter.event.client matter.verdict.announced
      { x with hub := result.2, arbiter := result.1, hand := none, dealt := dealt }) := by
  have goes := Move.goesOn inHand
  generalize left : matter.left = replies
  induction replies generalizing x matter with
  | nil =>
    rw [goOn_eq_conclude inHand (.inr left)] at goes
    rw [Hub.mail_nil]
    exact ⟨_, .single goes⟩
  | cons reply rest inductionHypothesis =>
    cases sender : matter.event.client with
    | none =>
      rw [goOn_eq_conclude inHand (.inl sender), conclude, sender] at goes
      exact ⟨_, .single goes⟩
    | some client =>
      rw [goOn_eq_tell inHand sender left] at goes
      have further : (x.tell matter client reply rest).hand = some _ := rfl
      rcases inductionHypothesis further (.goesOn further) rfl with ⟨dealt, later⟩
      rw [← Hub.mail_offer]
      refine ⟨dealt, .head goes ?_⟩
      rw [show { matter with left := rest, put := _ : Matter }.event.client = some client from
        sender] at later
      exact later

/-- Whatever the arbiter does is a run of the mailroom. -/
theorem reaches_of_step {now : Instant} (free : x.hand = none)
    (stepped : x.arbiter.step? now x.hub = some (after, next, log)) :
    ∃ dealt, Relation.ReflTransGen Move x
      { x with hub := next, arbiter := after, dealt := dealt } := by
  by_cases waiting : x.arbiter.phase = .waiting
  · rcases Arbiter.step?_of_waiting waiting stepped with left | ⟨taken, event, spared, -, dealt⟩
    · exact ⟨x.dealt, .single (.leaves free left)⟩
    · have stirred : Move x { x with hub := taken } := .stirs (Hub.replies_of_mailboxes spared)
      have takes := @Move.takesUp { x with hub := taken } waiting free now event
      cases judged : x.arbiter.arb.judge now event with
      | none =>
        simp only [Arbiter.deal, judged, Prod.mk.injEq] at dealt
        rcases dealt with ⟨rfl, rfl, -⟩
        simp only [takeUp, judged] at takes
        exact ⟨x.dealt, .tail (.single stirred) takes⟩
      | some verdict =>
        rcases Arbiter.deal_eq_announce judged taken with ⟨log, announced⟩
        have same := dealt.symm.trans announced
        simp only [Prod.mk.injEq] at same
        rcases same with ⟨rfl, rfl, -⟩
        simp only [takeUp, judged] at takes
        rcases reaches_concluded (x := { x with
            hub := taken
            arbiter := { x.arbiter with arb := verdict.arb }
            hand := some ⟨x.arbiter.arb, now, event, verdict, verdict.told, []⟩ }) rfl with
          ⟨dealt, later⟩
        rw [← free] at later
        exact ⟨dealt, .head stirred (.head takes later)⟩
  · exact ⟨x.dealt, .single (.announces waiting free stepped)⟩

/-! ## The account -/

/-- Every client has taken out or still finds what was in its queue in the
beginning, and behind it what was put in since, in order. -/
def Balanced (begun : Hub) (x : Mailroom) : Prop :=
  ∀ client, x.collectedBy client ++ x.hub.view.replies client =
    begun.view.replies client ++ x.matters.flatMap fun matter => matter.putTo client

theorem matters_of_hand (inHand : x.hand = some matter) : x.matters = x.dealt ++ [matter] := by
  rw [matters, inHand, Option.toList_some]

/-- To tell the sender something is to put it into its queue, and to note that. -/
theorem balanced_tell {begun : Hub} (inHand : x.hand = some matter)
    (sender : matter.event.client = some client) (balanced : x.Balanced begun) :
    (x.tell matter client reply rest).Balanced begun := by
  intro other
  have before := balanced other
  rw [matters_of_hand inHand] at before
  have queue : (x.tell matter client reply rest).hub.view.replies other = _ :=
    (congrFun (congrArg (fun hub : Hub => hub.view.replies) (x.hub.offer_eq_mail client reply))
      other).trans (Hub.replies_mail ..)
  rw [queue, matters_of_hand rfl]
  simp only [tell, collectedBy, List.flatMap_append, List.flatMap_singleton, Matter.putTo, sender,
    Option.some.injEq] at before ⊢
  rw [← List.append_assoc, before]
  by_cases own : client = other
  · subst own
    simp [Hub.take_room]
  · simp [own]

/-- One step keeps the account. -/
theorem Move.balanced {begun : Hub} (move : x.Move y) (balanced : x.Balanced begun) :
    y.Balanced begun := by
  have spared : ∀ {hub : Hub} {arbiter : Arbiter}, hub.view.replies = x.hub.view.replies →
      Balanced begun { x with hub := hub, arbiter := arbiter } := by
    intro hub arbiter same client
    have before := balanced client
    rw [← same] at before
    exact before
  cases move with
  | takesUp waiting free now event =>
    unfold takeUp
    split
    · exact spared rfl
    · intro client
      have before := balanced client
      simp only [matters, free] at before
      simpa [matters, Matter.putTo, collectedBy] using before
  | @goesOn matter inHand =>
    rcases tells_or_settled matter with ⟨client, reply, rest, sender, left⟩ | settled
    · rw [goOn_eq_tell inHand sender left]
      exact balanced_tell inHand sender balanced
    · rw [goOn_eq_conclude inHand settled]
      intro client
      have before := balanced client
      have spares := Arbiter.announce_mailboxes x.arbiter x.hub matter.event.client
        matter.verdict.announced
      rw [matters_of_hand inHand, ← Hub.replies_of_mailboxes spares] at before
      simpa [matters, conclude, collectedBy] using before
  | announces busy free stepped =>
    exact spared (Hub.replies_of_mailboxes (Arbiter.step?_mailboxes busy stepped))
  | leaves free left => exact spared (Hub.replies_of_mailboxes (Arbiter.leaves_frame left).1)
  | stirs same => exact spared same
  | @collects other mailbox reply rest here waits =>
    intro client
    have before := balanced client
    have queues := congrArg (fun view => view.replies client) (Hub.view_setReplies here rest)
    simp only [Function.update_apply] at queues
    simp only [collect, collectedBy, queues, List.filter_append, List.map_append]
    by_cases own : client = other
    · subst own
      have lies : x.hub.view.replies client = reply :: rest := by simp [Hub.view, here, waits]
      rw [lies] at before
      simpa [collectedBy, matters] using before
    · simpa [own, Ne.symm own, collectedBy, matters] using before

theorem balanced_of_reached (reached : Relation.ReflTransGen Move (start hub arbiter) x) :
    x.Balanced hub := by
  induction reached with
  | refl =>
    intro client
    simp [start, matters, collectedBy]
  | tail _ move inductionHypothesis => exact move.balanced inductionHypothesis

/-! ## The book is in order -/

/-- Whoever is to be told something is told it in order, before the arbiter is
done with the event, and as long as it is in hand the arbiter does not change. -/
structure Orderly (x : Mailroom) : Prop where
  fair : ∀ matter ∈ x.matters, matter.Fair
  settled : ∀ matter ∈ x.dealt, matter.Settled
  steady : ∀ matter, x.hand = some matter →
    x.arbiter.phase = .waiting ∧ x.arbiter.arb = matter.verdict.arb

theorem Move.orderly (move : x.Move y) (orderly : x.Orderly) : y.Orderly := by
  cases move with
  | takesUp waiting free now event =>
    have dealt : x.matters = x.dealt := by simp [matters, free]
    unfold takeUp
    split
    · refine ⟨orderly.fair, orderly.settled, fun matter inHand => ?_⟩
      rw [free] at inHand
      cases inHand
    · next verdict judged =>
      refine ⟨fun matter noted => ?_, orderly.settled, fun matter inHand => ?_⟩
      · rcases List.mem_append.mp noted with before | new
        · exact orderly.fair matter (dealt ▸ before)
        · rcases Option.mem_some.mp (Option.mem_toList.mp new) with rfl
          exact ⟨judged, [], rfl, .refl []⟩
      · cases inHand
        exact ⟨waiting, rfl⟩
  | @goesOn matter inHand =>
    have own : matter.Fair := orderly.fair matter (by simp [matters_of_hand inHand])
    have others : ∀ other ∈ x.dealt, other.Fair := fun other noted =>
      orderly.fair other (by simp [matters, noted])
    rcases tells_or_settled matter with ⟨client, reply, rest, sender, left⟩ | settled
    · rw [goOn_eq_tell inHand sender left]
      rcases own.told with ⟨tried, told, put⟩
      have further : Matter.Fair { matter with
          left := rest
          put := matter.put ++ if 0 < x.hub.room client then [reply] else [] } := by
        refine ⟨own.judged, tried ++ [reply], by simp [told, left], put.append ?_⟩
        split
        · exact .refl _
        · exact List.nil_sublist _
      refine ⟨fun other noted => ?_, orderly.settled, fun other stillInHand => ?_⟩
      · rcases List.mem_append.mp noted with before | new
        · exact others other before
        · rcases Option.mem_some.mp (Option.mem_toList.mp new) with rfl
          exact further
      · cases stillInHand
        exact orderly.steady matter inHand
    · rw [goOn_eq_conclude inHand settled]
      have noted : (x.conclude matter).matters = x.matters := by
        simp [matters, conclude, inHand]
      refine ⟨noted ▸ orderly.fair, fun other dealt => ?_, fun other inHand => ?_⟩
      · rcases List.mem_append.mp dealt with before | new
        · exact orderly.settled other before
        · rcases List.mem_singleton.mp new with rfl
          exact settled
      · cases inHand
  | announces busy free stepped =>
    refine ⟨orderly.fair, orderly.settled, fun matter inHand => ?_⟩
    rw [free] at inHand
    cases inHand
  | leaves free left =>
    refine ⟨orderly.fair, orderly.settled, fun matter inHand => ?_⟩
    rw [free] at inHand
    cases inHand
  | stirs same => exact ⟨orderly.fair, orderly.settled, orderly.steady⟩
  | collects here waits => exact ⟨orderly.fair, orderly.settled, orderly.steady⟩

theorem orderly_of_reached (reached : Relation.ReflTransGen Move (start hub arbiter) x) :
    x.Orderly := by
  induction reached with
  | refl =>
    refine ⟨fun _ noted => ?_, fun _ noted => ?_, fun _ inHand => ?_⟩
    · cases noted
    · cases noted
    · cases inHand
  | tail _ move inductionHypothesis => exact move.orderly inductionHypothesis

/-! ## The end of an event -/

/-- How many steps the arbiter has ahead of it with the event in hand. -/
def ahead (x : Mailroom) : Nat := x.hand.elim 0 fun matter => matter.left.length + 1

theorem ahead_goOn_lt (inHand : x.hand = some matter) : x.goOn.ahead < x.ahead := by
  rcases tells_or_settled matter with ⟨client, reply, rest, sender, left⟩ | settled
  · rw [goOn_eq_tell inHand sender left]
    simp [ahead, tell, inHand, left]
  · rw [goOn_eq_conclude inHand settled]
    simp [ahead, conclude, inHand]

/-- Nobody but the arbiter does anything to the event in hand. -/
theorem Move.goOn_or_kept (move : x.Move y) (inHand : x.hand = some matter) :
    y = x.goOn ∨ y.hand = x.hand := by
  cases move with
  | takesUp waiting free =>
    rw [free] at inHand
    cases inHand
  | goesOn => exact .inl rfl
  | announces | leaves | stirs | collects => exact .inr rfl

/-! ## What holds at every moment -/

/-- What becomes of an event, from whatever moment on and whatever has filled the
queues so far. -/
structure Discreet (begun : Hub) (x : Mailroom) : Prop where
  refused : ∀ now event hazard kept,
    x.arbiter.arb.perform (Arbitration.eventOf now event) = some (.refused hazard, kept) →
      ∃ verdict, verdict.announced = none ∧
        x.takeUp now event = { x with
          hand := some ⟨x.arbiter.arb, now, event, verdict,
            x.arbiter.arb.explanation (.refused hazard), []⟩ }
  other : ∀ now event,
    (event.client = none ∨ ∀ hazard kept,
      x.arbiter.arb.perform (Arbitration.eventOf now event) ≠ some (.refused hazard, kept)) →
      (x.takeUp now event).hub = x.hub ∧
        ∀ matter, (x.takeUp now event).hand = some matter → x.hand = none → matter.Settled
  /-- The sender of the event in hand is told one thing, if there is room at this moment. -/
  tells : ∀ matter client reply rest,
    x.hand = some matter → matter.event.client = some client → matter.left = reply :: rest →
      x.goOn = { x with
        hub := { x.hub with mailboxes := x.goOn.hub.mailboxes }
        hand := some { matter with
          left := rest
          put := matter.put ++ if 0 < x.hub.room client then [reply] else [] } } ∧
      ∀ other, x.goOn.hub.mailbox? other = (x.hub.mailbox? other).map fun mailbox =>
        { mailbox with
          replies := mailbox.replies ++
            if client = other ∧ 0 < x.hub.room client then [reply] else [] }
  ends : ∀ matter, x.hand = some matter → matter.Settled →
    x.goOn.hub.mailboxes = x.hub.mailboxes ∧
      (matter.verdict.announced = none →
        x.goOn = { x with hand := none, dealt := x.dealt ++ [matter] })
  /-- Nothing can keep the arbiter from going on, and it is done after three steps of its own. -/
  finishes : ∀ matter, x.hand = some matter →
    x.Move x.goOn ∧ x.goOn.ahead < x.ahead ∧ x.ahead ≤ 3 ∧
      ∀ y, x.Move y → y = x.goOn ∨ y.hand = x.hand
  told : ∀ matter ∈ x.matters, ∃ tried,
    matter.before.explained matter.now matter.event = tried ++ matter.left ∧
      matter.put.Sublist tried
  silent : ∀ matter ∈ x.matters, ∀ hazard kept,
    matter.before.perform (Arbitration.eventOf matter.now matter.event) =
      some (.refused hazard, kept) → matter.verdict.announced = none
  settled : ∀ matter ∈ x.dealt, matter.Settled
  current : ∀ matter state, x.hand = some matter → Client.Reply.state state ∈ matter.left →
    x.arbiter.arb.state = some state
  /-- If nobody interferes, the sender is told as much as fits. -/
  undisturbed : ∀ now event hazard kept,
    x.arbiter.arb.perform (Arbitration.eventOf now event) = some (.refused hazard, kept) →
      ∃ next log, x.arbiter.deal now x.hub event = (x.arbiter, next, log) ∧
        next = { x.hub with mailboxes := next.mailboxes } ∧
        ∀ client, next.mailbox? client = (x.hub.mailbox? client).map fun mailbox =>
          { mailbox with
            replies := mailbox.replies ++
              if event.client = some client then
                (x.arbiter.arb.explanation (.refused hazard)).take (x.hub.room client)
              else [] }
  spared : ∀ now event,
    (event.client = none ∨ ∀ hazard kept,
      x.arbiter.arb.perform (Arbitration.eventOf now event) ≠ some (.refused hazard, kept)) →
      (x.arbiter.deal now x.hub event).2.1.mailboxes = x.hub.mailboxes
  goesOn : ∀ now after next log,
    x.hand = none → x.arbiter.step? now x.hub = some (after, next, log) →
      ∃ dealt, Relation.ReflTransGen Move x
        { x with hub := next, arbiter := after, dealt := dealt }
  balanced : x.Balanced begun

/-- Whatever the queues hold and whoever still listens, a sender that is refused is
told the state, if there is one, and the reason.  Each of the two is put into its
queue just when there is room at that moment, nothing else is, and nobody waits for
room; whoever takes something out between the two may find the reason without the
state.  An event that is not refused, or that has no sender, leaves all queues
alone.  So all that a client ever finds, from any beginning on, is what was put in
in this way, in order. -/
theorem refusals_are_told_to_their_sender
    (reached : Relation.ReflTransGen Move (start hub arbiter) x) : x.Discreet hub := by
  have orderly := orderly_of_reached reached
  have fair : ∀ matter, x.hand = some matter → matter.Fair := fun matter inHand =>
    orderly.fair matter (by simp [matters_of_hand inHand])
  exact {
    refused := fun _ _ _ _ refused => takeUp_of_refused refused
    other := fun now event other =>
      ⟨x.takeUp_hub now event, fun _ taken free => settled_of_takeUp free other taken⟩
    tells := by
      intro matter client reply rest inHand sender left
      rw [goOn_eq_tell inHand sender left]
      refine ⟨by simp only [tell, Hub.offer_eq_mail]; rfl, fun other => ?_⟩
      simp only [tell, Hub.offer_eq_mail, Hub.mailbox?_mail, Option.some.injEq]
      by_cases own : client = other
      · simp [own, Hub.take_room]
      · simp [own]
    ends := by
      intro matter inHand settled
      rw [goOn_eq_conclude inHand settled]
      refine ⟨Arbiter.announce_mailboxes .., fun silent => ?_⟩
      rw [conclude, silent]
      rfl
    finishes := by
      intro matter inHand
      refine ⟨.goesOn inHand, ahead_goOn_lt inHand, ?_, fun y move => move.goOn_or_kept inHand⟩
      rw [ahead, inHand, Option.elim_some]
      exact Nat.succ_le_succ (fair matter inHand).length_left_le
    told := fun matter noted => (orderly.fair matter noted).explained_eq
    silent := fun matter noted _ _ refused => (orderly.fair matter noted).silent refused
    settled := orderly.settled
    current := by
      intro matter state inHand told
      rw [(orderly.steady matter inHand).2]
      exact (fair matter inHand).state_of_left told
    undisturbed := by
      intro now event hazard kept refused
      rcases Arbiter.deal_of_refusal refused x.hub with ⟨log, dealt⟩
      refine ⟨_, log, dealt, ?_, x.hub.mailbox?_mail _ event.client⟩
      cases event.client <;> rfl
    spared := by
      intro now event other
      rw [Arbiter.deal_mailboxes]
      rcases other with unsent | upheld
      · rw [unsent]
        rfl
      · rw [Arbitration.explained_eq_nil upheld, Hub.mail_nil]
    goesOn := fun _ _ _ _ free stepped => reaches_of_step free stepped
    balanced := balanced_of_reached reached }

inductive Turn
  | opens (client : Nat)
  | closes (client : Nat)
  | takesUp (now : Instant) (event : ArbiterEvent)
  | goesOn
  | collects (client : Nat)

def act (x : Mailroom) : Turn → Option Mailroom
  | .opens client => some { x with hub := x.hub.openMailbox client }
  | .closes client => some { x with
      hub := x.hub.setMailbox client fun mailbox => { mailbox with listening := false } }
  | .takesUp now event =>
    if x.arbiter.phase = .waiting ∧ x.hand.isNone then some (x.takeUp now event) else none
  | .goesOn => if x.hand.isSome then some x.goOn else none
  | .collects client => do
    let mailbox ← x.hub.mailbox? client
    match mailbox.replies with
    | reply :: rest => some (x.collect client reply rest)
    | [] => none

theorem Move.of_act {turn : Turn} (acted : x.act turn = some y) : x.Move y := by
  cases turn with
  | opens client =>
    cases acted
    exact .stirs (by rw [Hub.view_openMailbox])
  | closes client =>
    cases acted
    have spared := x.hub.view_setMailbox_of_kept client
      (fun mailbox => { mailbox with listening := false }) fun _ => ⟨rfl, rfl, rfl⟩
    exact .stirs (congrArg Bus.View.replies spared)
  | takesUp now event =>
    rcases Option.ite_none_right_eq_some.mp acted with ⟨⟨waiting, free⟩, taken⟩
    cases taken
    exact .takesUp waiting (Option.isNone_iff_eq_none.mp free) now event
  | goesOn =>
    rcases Option.ite_none_right_eq_some.mp acted with ⟨busy, gone⟩
    cases gone
    rcases Option.isSome_iff_exists.mp busy with ⟨matter, inHand⟩
    exact .goesOn inHand
  | collects client =>
    rcases Option.bind_eq_some_iff.mp acted with ⟨mailbox, here, taken⟩
    split at taken
    · next reply rest waits =>
      cases taken
      exact .collects here waits
    · cases taken

/-- Nobody may touch the interlock of the laser from afar, and someone tries. -/
def attempt (client : Option Nat) : ArbiterEvent := .lock ⟨.laser, true, .remote, client⟩

/-- An attempt that is dealt with in so many steps. -/
def attempts (client : Option Nat) (steps : Nat) : List Turn :=
  .takesUp 0 (attempt client) :: List.replicate steps .goesOn

def opening (client : Nat) : List Turn :=
  [.takesUp 0 (.request ⟨⟨.half, .closed, .closed, .on, .none⟩, .local, some client⟩), .goesOn]

/-- A client whose queue is full tries once more, and takes something out when it
has been told the state, but not yet the reason. -/
def race : List Turn :=
  [.opens 0] ++ opening 0 ++ (List.replicate 5 (attempts (some 0) 3)).flatten ++
    attempts (some 0) 1 ++ [.collects 0, .goesOn, .goesOn]

/-- A sender may find the reason in its queue without the state, although both
were to be told and the state comes first: there was no room for the state, and
room for the reason. -/
theorem reason_comes_without_the_state :
    ∃ x matter, race.foldlM act
        (start (.empty 8) (Arbiter.start (Span.ofSeconds 10) (.empty 8)).1) = some x ∧
      Relation.ReflTransGen Move
        (start (.empty 8) (Arbiter.start (Span.ofSeconds 10) (.empty 8)).1) x ∧
      x.dealt.getLast? = some matter ∧
      matter.event = attempt (some 0) ∧
      matter.before.explained matter.now matter.event =
        [.state ⟨.half, .closed, .closed, .on, .none⟩,
          .refusal Hazard.laserLockRemote.refusal] ∧
      matter.put = [.refusal Hazard.laserLockRemote.refusal] ∧
      ¬ matter.put <+: matter.before.explained matter.now matter.event := by
  have told : (race.foldlM act
      (start (.empty 8) (Arbiter.start (Span.ofSeconds 10) (.empty 8)).1)).bind
      (fun x => x.dealt.getLast?.map fun matter =>
        (matter.event, matter.before.explained matter.now matter.event, matter.put)) =
      some (attempt (some 0), [.state ⟨.half, .closed, .closed, .on, .none⟩,
        .refusal Hazard.laserLockRemote.refusal], [.refusal Hazard.laserLockRemote.refusal]) := by
    decide +kernel
  rcases Option.bind_eq_some_iff.mp told with ⟨x, played, last⟩
  rcases Option.map_eq_some_iff.mp last with ⟨matter, dealt, looks⟩
  simp only [Prod.mk.injEq] at looks
  rcases looks with ⟨event, explained, put⟩
  refine ⟨x, matter, played, Script.reflTransGen Move.of_act played, dealt, event, explained, put,
    ?_⟩
  rw [put, explained]
  decide

/-- Three clients, one of whom tries to set an interlock before there is a state
and then more often than it looks into its queue.  Another one does not listen. -/
def crowd : List Turn :=
  [.opens 0, .opens 1, .opens 2] ++ attempts (some 0) 2 ++ attempts (some 1) 2 ++ opening 1 ++
  (List.replicate 6 (attempts (some 0) 3)).flatten ++
  [.closes 2] ++ attempts (some 2) 3 ++ attempts none 1 ++ [.collects 0] ++ attempts (some 0) 1

/-- The first client has been told the reason, then four times the state and the
reason, then only the state, then nothing.  It has taken out one reply, and has
got the state for it; of its last attempt the reason is left. -/
theorem refusals_are_told_in_a_crowd :
    ∃ x, crowd.foldlM act (start (.empty 8) (Arbiter.start (Span.ofSeconds 10) (.empty 8)).1) =
        some x ∧
      x.Discreet (.empty 8) ∧
      x.collected = [(0, .refusal Hazard.laserLockRemote.refusal)] ∧
      x.hub.view.replies 0 = (List.replicate 4
        [.state ⟨.half, .closed, .closed, .on, .none⟩,
          .refusal Hazard.laserLockRemote.refusal]).flatten ++
        [.state ⟨.half, .closed, .closed, .on, .none⟩,
          .state ⟨.half, .closed, .closed, .on, .none⟩] ∧
      x.hub.view.replies 1 = [.refusal Hazard.laserLockRemote.refusal] ∧
      x.hub.view.replies 2 = [] ∧
      x.hand.map Matter.left = some [.refusal Hazard.laserLockRemote.refusal] ∧
      x.arbiter.arb.perform (Arbitration.eventOf 0 (attempt (some 0))) =
        some (.refused .laserLockRemote, x.arbiter.arb) := by
  have told : (crowd.foldlM act
      (start (.empty 8) (Arbiter.start (Span.ofSeconds 10) (.empty 8)).1)).map
      (fun x => (x.collected, x.hub.view.replies 0, x.hub.view.replies 1, x.hub.view.replies 2,
        x.hand.map Matter.left)) =
      some ([(0, .refusal Hazard.laserLockRemote.refusal)],
        (List.replicate 4 [.state ⟨.half, .closed, .closed, .on, .none⟩,
          .refusal Hazard.laserLockRemote.refusal]).flatten ++
          [.state ⟨.half, .closed, .closed, .on, .none⟩,
            .state ⟨.half, .closed, .closed, .on, .none⟩],
        [.refusal Hazard.laserLockRemote.refusal], [],
        some [.refusal Hazard.laserLockRemote.refusal]) := by
    decide +kernel
  rcases Option.map_eq_some_iff.mp told with ⟨x, played, looks⟩
  simp only [Prod.mk.injEq] at looks
  rcases looks with ⟨collected, first, second, third, left⟩
  exact ⟨x, played, refusals_are_told_to_their_sender (Script.reflTransGen Move.of_act played),
    collected, first, second, third, left, rfl⟩

end Mailroom
end Server
end Ventilation
