import Ventilation.Arbiter
import Ventilation.Proofs.Arbitration.Docket
import Ventilation.Proofs.Server.Turns

namespace Ventilation

/-!
# The whole house

A house is a floor with the arbiter, who is the only one that announces states
and tells states to clients in private.  Requests and interlocks come from
anywhere, in any order and number.
-/

open Bus (Hub Topic View)
open Bus.Topic (Elsewhere)

namespace Server

/-! ## What is told in private -/

/-- Nothing changes but the replies that lie ready, and no state is among those
that are added but the given one. -/
structure Tells (current : Option State) (before after : Hub) : Prop where
  spares : Spares before after
  told : ∀ client state, .state state ∈ after.view.replies client →
    .state state ∈ before.view.replies client ∨ current = some state

namespace Tells

variable {current : Option State} {before middle after : Hub}

theorem of_view_eq (same : after.view = before.view) : Tells current before after := by
  refine ⟨?_, fun client state told => .inl ?_⟩
  · rw [Spares, same]
  · rw [← same]
    exact told

theorem trans (first : Tells current before middle) (second : Tells current middle after) :
    Tells current before after := by
  refine ⟨?_, fun client state told => ?_⟩
  · have spares := first.spares
    have later := second.spares
    unfold Spares at spares later ⊢
    rw [later, spares]
  · rcases second.told client state told with before | same
    · exact first.told client state before
    · exact .inr same

theorem tell? {hub next : Hub} {client : Nat} {reply : Client.Reply}
    (told : hub.tell? client reply = some next)
    (fits : ∀ state, reply = .state state → current = some state) : Tells current hub next := by
  unfold Hub.tell? at told
  split at told
  · next mailbox here =>
    split at told
    · rcases Option.some.inj told with rfl
      have outlook := Hub.view_setMailbox here
        (fun mailbox => { mailbox with replies := mailbox.replies ++ [reply] }) fun _ => rfl
      have mail : mailbox.snapshot = hub.view.mail client := by simp [Hub.view, here]
      have replies : mailbox.replies = hub.view.replies client := by simp [Hub.view, here]
      simp only [mail, replies, Function.update_eq_self] at outlook
      refine ⟨?_, fun other state member => ?_⟩
      · rw [Spares, outlook]
      · rw [outlook] at member
        simp only [Function.update_apply] at member
        split at member
        · next same =>
          rcases List.mem_append.mp member with old | new
          · exact .inl (same ▸ old)
          · exact .inr (fits state (List.mem_singleton.mp new).symm)
        · exact .inl member
    · cases told
  · cases told

theorem tellAll (hub : Hub) (client : Nat) (replies : List Client.Reply)
    (fits : ∀ state, .state state ∈ replies → current = some state) :
    Tells current hub (Arbiter.tellAll hub client replies).2 := by
  induction replies generalizing hub with
  | nil => exact of_view_eq rfl
  | cons reply rest inductionHypothesis =>
    have later : ∀ state, .state state ∈ rest → current = some state :=
      fun state member => fits state (List.mem_cons_of_mem _ member)
    unfold Arbiter.tellAll
    split
    · next told =>
      have first := tell? told fun state same => fits state (same ▸ List.mem_cons_self)
      exact first.trans (inductionHypothesis _ later)
    · split
      · exact of_view_eq rfl
      · exact inductionHypothesis hub later

theorem report (hub : Hub) (client : Option Nat) (told : List Client.Reply)
    (fits : ∀ state, .state state ∈ told → current = some state) :
    Tells current hub (Arbiter.report hub client told).1 := by
  unfold Arbiter.report
  split
  · next client reply rest =>
    have tells := tellAll hub client (reply :: rest) fits
    split
    · next sent =>
      rw [sent] at tells
      exact tells
    · next sent =>
      rw [sent] at tells
      exact tells
  · exact of_view_eq rfl

end Tells

end Server

/-! ## What a step of the arbiter comes to -/

namespace Arbitration

variable {arb : Arbitration} {now : Instant} {event : ArbiterEvent} {verdict : Verdict}

/-- An event that leaves the accepted state has the state announced, if there is one. -/
theorem announced_of_accepted_eq {next : Arbitration} (same : next.accepted = arb.accepted) :
    (∃ state, next.state = some state) ∨ next.state = none ∧ next.state = arb.state := by
  unfold Arbitration.state
  rw [same]
  cases arb.accepted with
  | none => exact .inr ⟨rfl, rfl⟩
  | some state => exact .inl ⟨_, rfl⟩

/-- A state is announced when it has become the current one, and whoever is told
a state in private is told the current one. -/
theorem judge_cases (judged : arb.judge now event = some verdict) :
    (∃ state, verdict.announced = some state ∧ verdict.arb.state = some state ∧
      verdict.told = []) ∨
    (verdict.announced = none ∧ verdict.arb.state = arb.state ∧
      ∀ state, .state state ∈ verdict.told → arb.state = some state) := by
  have refused : ∀ hazard state, .state state ∈ arb.refusalReplies hazard →
      arb.state = some state := by
    intro hazard state told
    simpa [refusalReplies] using told
  have told_nothing : ∀ state, Client.Reply.state state ∈ [] → arb.state = some state := nofun
  cases event with
  | request asked =>
    simp only [judge, request] at judged
    split at judged
    · next state next answer =>
      split at answer
      · cases answer
      · cases answer
        rcases Option.some.inj judged with rfl
        exact .inl ⟨_, rfl, rfl, rfl⟩
    · rcases Option.some.inj judged with rfl
      exact .inr ⟨rfl, rfl, refused _⟩
  | lock asked =>
    simp only [judge] at judged
    split at judged
    · next next changed =>
      rcases Option.some.inj judged with rfl
      have same : next.accepted = arb.accepted := by
        unfold changeLock at changed
        split at changed
        · cases changed
        · split at changed
          · cases changed
          · cases changed
            rfl
      rcases announced_of_accepted_eq same with ⟨state, known⟩ | ⟨unknown, still⟩
      · exact .inl ⟨state, known, known, rfl⟩
      · exact .inr ⟨unknown, still, told_nothing⟩
    · rcases Option.some.inj judged with rfl
      exact .inr ⟨rfl, rfl, refused _⟩
    · cases judged
  | deadline =>
    simp only [judge] at judged
    split at judged
    · next nothing =>
      rcases Option.some.inj judged with rfl
      rw [expire_eq_of_nothing nothing]
      exact .inr ⟨rfl, rfl, told_nothing⟩
    · rcases Option.some.inj judged with rfl
      rcases announced_of_accepted_eq (expire_accepted arb now)
        with ⟨state, known⟩ | ⟨unknown, still⟩
      · exact .inl ⟨state, known, known, rfl⟩
      · exact .inr ⟨unknown, still, told_nothing⟩

end Arbitration

namespace Server

def announced : ArbiterPhase → Option Nat
  | .announcing (.state ticket) _ => some ticket
  | _ => none

theorem announced_ite (through : Prop) [Decidable through] (ticket : Nat) (client : Option Nat) :
    announced (if through then .waiting else .announcing (.state ticket) client) =
      if through then none else some ticket := by
  split
  · rfl
  · rfl

/-- What the arbiter does when it turns to a branch: what becomes of it and of
the hub.  It announces the state that it adopts, and tells nothing but the
current one. -/
inductive Decides (arbiter : Arbiter) (hub : Hub) : Arbiter → Hub → Prop
  | leaves {next : Hub} {phase : ArbiterPhase} (gone : phase = .ended ∨ phase = .crashed)
      (same : next.view = hub.view) : Decides arbiter hub { arbiter with phase := phase } next
  | keeps {next : Hub} {arb : Arbitration} (same : arb.state = arbiter.arb.state)
      (tells : Tells arbiter.arb.state hub next) :
      Decides arbiter hub { arbiter with arb := arb } next
  | announces {next : Hub} {arb : Arbitration} {state : State} {client : Option Nat}
      (adopts : arb.state = some state)
      (outlook : next.view = { hub.view with states := (hub.states.publish state).2.2 }) :
      Decides arbiter hub
        { arbiter with
          arb := arb
          phase := if (hub.states.publish state).2.1.isSome then arbiter.phase
            else .announcing (.state hub.states.nextTicket) client } next

section Decides

variable {arbiter after : Arbiter} {hub taken next : Hub} {now : Instant} {log : List LogLine}

theorem decides_of_deal {event : ArbiterEvent}
    (dealt : arbiter.deal now taken event = (after, next, log)) (same : taken.view = hub.view) :
    Decides arbiter hub after next := by
  unfold Arbiter.deal at dealt
  split at dealt
  · simp only [Prod.mk.injEq] at dealt
    rcases dealt with ⟨rfl, rfl, -⟩
    exact .leaves (.inr rfl) same
  · next verdict judged =>
    rcases Arbitration.judge_cases judged
      with ⟨state, announced, adopts, told⟩ | ⟨none, still, told⟩
    · have unheard : Arbiter.report taken event.client [] = (taken, []) := by
        cases event.client <;> rfl
      have states : taken.states = hub.states := congrArg View.states same
      have outlook : Hub.view { taken with states := (hub.states.publish state).2.2 } =
          { hub.view with states := (hub.states.publish state).2.2 } :=
        congrArg (fun view : View => { view with states := (hub.states.publish state).2.2 }) same
      simp only [announced, told, unheard, Hub.publishState, Hub.waitOf, states] at dealt
      cases ended : (hub.states.publish state).2.1 with
      | none =>
        simp only [ended, Option.isSome_none, Bool.false_eq_true, if_false, Prod.mk.injEq] at dealt
        rcases dealt with ⟨rfl, rfl, -⟩
        have announces := @Decides.announces arbiter hub
          (Hub.hold { taken with states := (hub.states.publish state).2.2 } event.client)
          verdict.arb state event.client adopts outlook
        rw [ended] at announces
        exact announces
      | some served =>
        simp only [ended, Option.isSome_some, if_true, Prod.mk.injEq] at dealt
        rcases dealt with ⟨rfl, rfl, -⟩
        have announces := @Decides.announces arbiter hub _ verdict.arb state event.client adopts
          outlook
        rw [ended] at announces
        exact announces
    · have tells :=
        (Tells.of_view_eq same).trans (Tells.report taken event.client verdict.told told)
      simp only [none, Prod.mk.injEq] at dealt
      rcases dealt with ⟨rfl, rfl, -⟩
      exact .keeps still tells

theorem decides_of_turn {branch : Arbiter.Branch}
    (turned : arbiter.turn? now hub branch = some (after, next, log)) :
    Decides arbiter hub after next := by
  cases branch with
  | shutdown =>
    simp only [Arbiter.turn?, Option.bind_eq_bind, Option.bind_eq_some_iff, Option.pure_def,
      Option.some.injEq, Prod.mk.injEq] at turned
    rcases turned with ⟨closed, taken, rfl, rfl, -⟩
    have quiet := Hub.view_takeShutdown? taken
    exact .leaves (.inl rfl) quiet
  | request =>
    simp only [Arbiter.turn?, Option.bind_eq_bind, Option.bind_eq_some_iff, Option.pure_def,
      Option.some.injEq] at turned
    rcases turned with ⟨⟨request, requests⟩, -, dealt⟩
    exact decides_of_deal dealt rfl
  | lock =>
    simp only [Arbiter.turn?, Option.bind_eq_bind, Option.bind_eq_some_iff, Option.pure_def,
      Option.some.injEq] at turned
    rcases turned with ⟨⟨request, requests⟩, -, dealt⟩
    exact decides_of_deal dealt rfl
  | deadline =>
    simp only [Arbiter.turn?, Option.ite_none_right_eq_some, Option.some.injEq] at turned
    exact decides_of_deal turned.2 rfl

theorem arbiter_goesOn {ticket : Nat} {client : Option Nat}
    (announcing : arbiter.phase = .announcing (.state ticket) client)
    (stepped : arbiter.step? now hub = some (after, next, log)) :
    next.view = { hub.view with states := (hub.states.resume ticket).2 } ∧
      after = { arbiter with
        phase := if ((hub.states.resume ticket).2.publishing? ticket).isNone then .waiting
          else .announcing (.state ticket) client } := by
  simp only [Arbiter.step?, announcing, Option.ite_none_right_eq_some] at stepped
  rcases stepped with ⟨-, stepped⟩
  have proceeded : hub.proceed (.state ticket) =
      (((hub.states.resume ticket).2.publishing? ticket).isNone,
        { hub with states := (hub.states.resume ticket).2 }) := rfl
  rw [proceeded] at stepped
  cases ended : ((hub.states.resume ticket).2.publishing? ticket).isNone with
  | true =>
    simp only [ended, Option.some.injEq, Prod.mk.injEq] at stepped
    rcases stepped with ⟨rfl, rfl, -⟩
    cases client <;> exact ⟨rfl, rfl⟩
  | false =>
    simp only [ended, Option.some.injEq, Prod.mk.injEq] at stepped
    rcases stepped with ⟨rfl, rfl, -⟩
    exact ⟨rfl, by simp [← announcing]⟩

end Decides

/-! ## The house -/

/-- A floor, and the arbiter. -/
structure House where
  floor : Floor
  arbiter : Arbiter

namespace House

def start (capacity others : Nat) (lockTimeout : Span) : House :=
  let floor := Floor.start capacity others
  let (arbiter, hub, _) := Arbiter.start lockTimeout floor.hub
  ⟨{ floor with hub := hub }, arbiter⟩

inductive Move (x : House) : House → Prop
  | floor {floor : Floor} (step : x.floor.Step floor) : Move x { x with floor := floor }
  | listens {states : Topic State}
      (elsewhere : Elsewhere x.floor.fanout.states x.floor.hub.states states) :
      Move x { x with floor := { x.floor with hub := { x.floor.hub with states := states } } }
  | stirs {hub : Hub} (tells : Tells none x.floor.hub hub) :
      Move x { x with floor := { x.floor with hub := hub } }
  | arbiterTurns {branch : Arbiter.Branch} {arbiter : Arbiter} {hub : Hub} {log : List LogLine}
      (waiting : x.arbiter.phase = .waiting)
      (turned : x.arbiter.turn? x.floor.now x.floor.hub branch = some (arbiter, hub, log)) :
      Move x { floor := { x.floor with hub := hub }, arbiter := arbiter }
  | arbiterGoesOn {wait : Hub.Wait} {client : Option Nat} {arbiter : Arbiter} {hub : Hub}
      {log : List LogLine} (announcing : x.arbiter.phase = .announcing wait client)
      (stepped : x.arbiter.step? x.floor.now x.floor.hub = some (arbiter, hub, log)) :
      Move x { floor := { x.floor with hub := hub }, arbiter := arbiter }

inductive Reachable (capacity : Nat) (lockTimeout : Span) : House → Prop
  | start (others : Nat) : Reachable capacity lockTimeout (start capacity others lockTimeout)
  | move {x y : House} (reached : Reachable capacity lockTimeout x) (move : x.Move y) :
      Reachable capacity lockTimeout y

variable {capacity : Nat} {lockTimeout : Span} {x y : House}

theorem Reachable.later (reached : Reachable capacity lockTimeout x)
    (later : Relation.ReflTransGen Move x y) : Reachable capacity lockTimeout y := by
  induction later with
  | refl => exact reached
  | tail _ move inductionHypothesis => exact inductionHypothesis.move move

/-! ## The floor of a house -/

/-- The arbiter waits for nothing but what it announces. -/
theorem announcing_state (reached : Reachable capacity lockTimeout x) {wait : Hub.Wait}
    {client : Option Nat} (announcing : x.arbiter.phase = .announcing wait client) :
    ∃ ticket, wait = .state ticket := by
  induction reached generalizing wait client with
  | start => cases announcing
  | @move x y reached move inductionHypothesis =>
    cases move with
    | floor | listens | stirs => exact inductionHypothesis announcing
    | arbiterTurns waiting turned =>
      cases decides_of_turn turned with
      | leaves gone same =>
        rcases gone with rfl | rfl <;> cases announcing
      | keeps => cases waiting.symm.trans announcing
      | announces =>
        simp only [waiting] at announcing
        split at announcing
        · cases announcing
        · cases announcing
          exact ⟨_, rfl⟩
    | arbiterGoesOn before stepped =>
      rcases inductionHypothesis before with ⟨ticket, rfl⟩
      rw [(arbiter_goesOn before stepped).2] at announcing
      simp only at announcing
      split at announcing
      · cases announcing
      · cases announcing
        exact ⟨_, rfl⟩

theorem floor_announces {floor : Floor} {hub : Hub} {state : State}
    (outlook : hub.view =
      { floor.hub.view with states := (floor.hub.states.publish state).2.2 }) :
    Relation.ReflTransGen Floor.Move floor { floor with hub := hub } := by
  have announces : floor.Move { floor with hub := (floor.hub.publishState state).2 } :=
    .announces state
  have announced : (floor.hub.publishState state).2.view =
      { floor.hub.view with states := (floor.hub.states.publish state).2.2 } := rfl
  refine (Relation.ReflTransGen.single announces).tail (.stirs ?_)
  change hub.view = { (floor.hub.publishState state).2.view with replies := hub.view.replies }
  rw [announced, outlook]

/-- Whatever happens in a house can happen on its floor. -/
theorem Move.floor_later (reached : Reachable capacity lockTimeout x) (move : x.Move y) :
    Relation.ReflTransGen Floor.Move x.floor y.floor := by
  cases move with
  | floor step => exact .single (.step step)
  | listens elsewhere => exact .single (.listens elsewhere)
  | stirs tells => exact .single (.stirs tells.spares)
  | arbiterTurns waiting turned =>
    cases decides_of_turn turned with
    | leaves gone same => exact .single (.stirs (@Tells.of_view_eq none _ _ same).spares)
    | keeps same tells => exact .single (.stirs tells.spares)
    | announces adopts outlook => exact floor_announces outlook
  | @arbiterGoesOn wait client arbiter hub log announcing stepped =>
    rcases announcing_state reached announcing with ⟨ticket, rfl⟩
    have goes : x.floor.Move
        { x.floor with hub := (x.floor.hub.proceed (.state ticket)).2 } := .goesOn ticket
    have gone : (x.floor.hub.proceed (.state ticket)).2.view =
        { x.floor.hub.view with states := (x.floor.hub.states.resume ticket).2 } := rfl
    refine (Relation.ReflTransGen.single goes).tail (.stirs ?_)
    change hub.view = { (x.floor.hub.proceed (.state ticket)).2.view with
      replies := hub.view.replies }
    rw [gone, (arbiter_goesOn announcing stepped).1]

theorem floor_reachable (reached : Reachable capacity lockTimeout x) :
    Floor.Reachable capacity x.floor := by
  induction reached with
  | start others => exact (Floor.Reachable.start others).move (.stirs rfl)
  | move reached move inductionHypothesis =>
    exact inductionHypothesis.later (move.floor_later reached)

/-! ## Scripts -/

inductive Turn
  | floor (turn : Floor.Turn)
  | asks (request : Bus.Request)
  | decides (branch : Arbiter.Branch)

/-- The move that a script asks for, if it is possible; only the arbiter
announces states. -/
def act (x : House) : Turn → Option House
  | .floor (.announces _) => none
  | .floor turn => (x.floor.act turn).map fun floor => { x with floor := floor }
  | .asks request =>
    some { x with floor := { x.floor with hub := (x.floor.hub.publishRequest request).2 } }
  | .decides branch =>
    if x.arbiter.phase = .waiting then
      (x.arbiter.turn? x.floor.now x.floor.hub branch).map fun (arbiter, hub, _) =>
        { floor := { x.floor with hub := hub }, arbiter := arbiter }
    else none

theorem move_of_act {turn : Turn} (acted : x.act turn = some y) : x.Move y := by
  cases turn with
  | floor turn =>
    have steps : (∀ state, turn ≠ .announces state) →
        (x.floor.act turn).map (fun floor => { x with floor := floor }) = some y → x.Move y := by
      intro own played
      rcases Option.map_eq_some_iff.mp played with ⟨floor, moved, rfl⟩
      rcases Floor.step_of_act moved with step | ⟨state, same, -⟩
      · exact .floor step
      · exact absurd same (own state)
    cases turn with
    | announces state => cases acted
    | joins | serves | works => exact steps nofun acted
  | asks request =>
    rcases Option.some.inj acted with rfl
    exact .stirs (.of_view_eq rfl)
  | decides branch =>
    simp only [act, Option.ite_none_right_eq_some, Option.map_eq_some_iff] at acted
    rcases acted with ⟨waiting, ⟨arbiter, hub, log⟩, turned, rfl⟩
    exact .arbiterTurns waiting turned

theorem arbiter_eq_of_act {turn : Floor.Turn} (acted : x.act (.floor turn) = some y) :
    y.arbiter = x.arbiter := by
  cases turn with
  | announces state => cases acted
  | joins | serves | works =>
    rcases Option.map_eq_some_iff.mp acted with ⟨floor, -, rfl⟩
    rfl

theorem later_of_script {turns : List Turn} (played : turns.foldlM act x = some y) :
    Relation.ReflTransGen Move x y :=
  Script.reflTransGen move_of_act played

end House

end Server
end Ventilation
