import Ventilation.Proofs.Server.Coherence
import Ventilation.Proofs.Server.House

namespace Ventilation
namespace Server

/-!
# Whether a client sees the current state

What the fanout has written down and what is still to come to it end with the
current state.  So when everything has been attended to, the last that a client
has from the fanout shows the current state.  A client is also told states in
private, though, when it is refused something, and a session prefers what comes
from the fanout: a state that was told before a change may be shown after it.
That is the only way in which a client is left with an older state.
-/

open Bus (Hub Topic View)
open Bus.Topic (Attended Beside boxOf)
open Client (stateText)

/-! ## What is told in private -/

namespace Floor

variable {capacity : Nat} {x y : Floor}

/-- A reply lies ready for a session or is in its hand. -/
def Underway (x : Floor) (client : Nat) (reply : Client.Reply) : Prop :=
  reply ∈ x.hub.view.replies client ∨ ∃ seat, x.seats client = some seat ∧ .reply reply ∈ seat.hand

def written (x : Floor) (client : Nat) : List Item := (x.seats client).elim [] (·.written)

/-- A reply that a session has in hand or has written has been underway to it. -/
structure Conveys (x y : Floor) (client : Nat) : Prop where
  underway : ∀ reply, y.Underway client reply → x.Underway client reply
  written : ∃ news, y.written client = x.written client ++ news ∧
    ∀ reply, .reply reply ∈ news → x.Underway client reply

theorem Conveys.of_eq {client : Nat} (seats : y.seats client = x.seats client)
    (replies : ∀ reply, reply ∈ y.hub.view.replies client → reply ∈ x.hub.view.replies client) :
    Conveys x y client := by
  refine ⟨fun reply underway => ?_, [], ?_, nofun⟩
  · unfold Underway at underway ⊢
    rw [seats] at underway
    exact underway.imp_left (replies reply)
  · rw [Floor.written, Floor.written, seats, List.append_nil]

/-- A step conveys replies and adds none. -/
theorem Step.conveys (step : x.Step y) (coherent : Coherent capacity x) (client : Nat) :
    Conveys x y client := by
  cases step with
  | passes => exact .of_eq rfl fun _ => id
  | @joins other vacant =>
    by_cases own : client = other
    · subst own
      refine ⟨fun reply underway => ?_, [], ?_, nofun⟩
      · rcases underway with ready | ⟨seat, sits, held⟩
        · rw [Hub.view_openMailbox] at ready
          exact .inl ready
        · rcases Option.some.inj ((Function.update_self client _ _).symm.trans sits) with rfl
          cases held
      · simp [Floor.written, vacant, Seat.create]
    · refine .of_eq (Function.update_of_ne own _ _) fun reply ready => ?_
      rw [Hub.view_openMailbox] at ready
      exact ready
  | @fanoutTurns branch fanout hub waiting turned =>
    refine .of_eq rfl fun reply ready => ?_
    have same : hub.view.replies = x.hub.view.replies := by
      have serves := serves_of_turn turned
      generalize hub.view = view at serves
      cases serves <;> rfl
    exact same ▸ ready
  | fanoutGoesOn sending stepped =>
    rcases coherent.sending.sends _ sending with ⟨ticket, rfl⟩
    rcases fanout_goesOn sending stepped with ⟨rfl, -⟩
    exact .of_eq rfl fun _ => id
  | @sessionGoesOn other seat sink session hub deeds sits stepped =>
    have fits := coherent.sits other seat sits
    have does := does_of_step fits.asks stepped
    rcases does.replies with ⟨replies, grips⟩
    by_cases own : client = other
    · subst own
      refine ⟨fun reply underway => ?_, seat.hand.take (sent deeds).length, ?_, ?_⟩
      · rcases underway with ready | ⟨after, sitsOn, held⟩
        · exact .inl (replies client reply ready)
        · rcases Option.some.inj ((Function.update_self client _ _).symm.trans sitsOn) with rfl
          rcases List.mem_append.mp held with kept | taken
          · exact .inr ⟨seat, sits, List.mem_of_mem_drop kept⟩
          · exact .inl (fits.named ▸ grips reply taken)
      · simp [Floor.written, sits, Seat.after]
      · exact fun reply member => .inr ⟨seat, sits, List.mem_of_mem_take member⟩
    · exact .of_eq (Function.update_of_ne own _ _) (replies client)

end Floor

namespace House

variable {capacity : Nat} {lockTimeout : Span} {x y : House} {client : Nat}

/-- Only the current state is told in private, and only what has been told comes
to a client. -/
theorem Move.conveys (move : x.Move y) (reached : Reachable capacity lockTimeout x)
    (client : Nat) :
    (∀ state, y.floor.Underway client (.state state) →
      x.floor.Underway client (.state state) ∨ x.arbiter.arb.state = some state) ∧
    ∃ news, y.floor.written client = x.floor.written client ++ news ∧
      ∀ reply, .reply reply ∈ news → x.floor.Underway client reply := by
  have tells : ∀ {current : Option State} {hub : Hub}, Tells current x.floor.hub hub →
      (∀ state, current = some state → x.arbiter.arb.state = some state) →
      ∀ state, ({ x.floor with hub := hub } : Floor).Underway client (.state state) →
        x.floor.Underway client (.state state) ∨ x.arbiter.arb.state = some state := by
    intro current hub tells fits state underway
    rcases underway with ready | held
    · rcases tells.told client state ready with before | told
      · exact .inl (.inl before)
      · exact .inr (fits state told)
    · exact .inl (.inr held)
  have still : ∀ {floor : Floor}, floor.seats = x.floor.seats →
      ∃ news, floor.written client = x.floor.written client ++ news ∧
        ∀ reply, .reply reply ∈ news → x.floor.Underway client reply := by
    intro floor seats
    refine ⟨[], ?_, nofun⟩
    rw [Floor.written, Floor.written, seats, List.append_nil]
  have quiet : ∀ {hub : Hub}, hub.view.replies = x.floor.hub.view.replies →
      ∀ state, ({ x.floor with hub := hub } : Floor).Underway client (.state state) →
        x.floor.Underway client (.state state) ∨ x.arbiter.arb.state = some state := by
    intro hub same state underway
    unfold Floor.Underway at underway ⊢
    rw [same] at underway
    exact .inl underway
  cases move with
  | floor step =>
    have conveys := step.conveys (coherent_of_reachable (floor_reachable reached)) client
    exact ⟨fun state underway => .inl (conveys.underway _ underway), conveys.written⟩
  | listens => exact ⟨quiet rfl, still rfl⟩
  | stirs told => exact ⟨tells told nofun, still rfl⟩
  | arbiterTurns waiting turned =>
    cases decides_of_turn turned with
    | leaves gone same => exact ⟨quiet (by rw [same]), still rfl⟩
    | keeps same told => exact ⟨tells told fun _ => id, still rfl⟩
    | announces adopts outlook => exact ⟨quiet (by rw [outlook]), still rfl⟩
  | arbiterGoesOn announcing stepped =>
    rcases announcing_state reached announcing with ⟨ticket, rfl⟩
    exact ⟨quiet (by rw [(arbiter_goesOn announcing stepped).1]), still rfl⟩

end House

/-! ## What is announced -/

def currentText (arb : Arbitration) : String := arb.state.elim Client.emptyText stateText

/-- What the fanout has written down and what is still to come to it. -/
def Floor.story (x : Floor) : List String :=
  x.texts.map (·.text) ++ (x.hub.states.coming x.fanout.states).map stateText

/-- As long as the fanout listens, its story ends with the current state, and
every state that is told in private is part of it. -/
structure Abreast (x : House) : Prop where
  present : ∃ box, boxOf x.floor.hub.states.boxes x.floor.fanout.states = some box
  newest : x.floor.story.getLast? = some (currentText x.arbiter.arb)
  told : ∀ client state, x.floor.Underway client (.state state) ∨
    .reply (.state state) ∈ x.floor.written client → stateText state ∈ x.floor.story

namespace Abreast

variable {capacity : Nat} {lockTimeout : Span} {x y : House}

/-- A move that adds to the story what is current after it, or nothing. -/
theorem carry (abreast : Abreast x) (move : x.Move y)
    (reached : House.Reachable capacity lockTimeout x) (news : List String)
    (present : ∃ box, boxOf y.floor.hub.states.boxes y.floor.fanout.states = some box)
    (story : y.floor.story = x.floor.story ++ news)
    (current : (news = [] ∧ currentText y.arbiter.arb = currentText x.arbiter.arb) ∨
      news.getLast? = some (currentText y.arbiter.arb)) : Abreast y := by
  refine ⟨present, ?_, fun client state known => ?_⟩
  · rw [story]
    rcases current with ⟨rfl, same⟩ | last
    · rw [List.append_nil, same]
      exact abreast.newest
    · rw [List.getLast?_append, last, Option.some_or]
  · -- What is told in private is the state that ends the story.
    have current : x.arbiter.arb.state = some state → stateText state ∈ x.floor.story := by
      intro told
      refine List.mem_of_getLast? (abreast.newest.trans ?_)
      rw [currentText, told]
      rfl
    rcases move.conveys reached client with ⟨underway, news, written, conveyed⟩
    rw [story]
    refine List.mem_append_left _ ?_
    rcases known with held | shown
    · rcases underway state held with before | told
      · exact abreast.told client state (.inl before)
      · exact current told
    · rw [written] at shown
      rcases List.mem_append.mp shown with old | new
      · exact abreast.told client state (.inr old)
      · exact abreast.told client state (.inl (conveyed _ new))

end Abreast

namespace Floor

variable {capacity : Nat} {x y : Floor}

/-- A step leaves the announced states alone, or the fanout writes one of them
down or stops listening. -/
theorem Step.states_cases (step : x.Step y) (coherent : Coherent capacity x) :
    (y.hub.states = x.hub.states ∧ y.fanout.states = x.fanout.states ∧ y.texts = x.texts ∧
      (x.fanout.phase = .ended → y.fanout.phase = .ended)) ∨
    (∃ state shown, x.hub.states.receive? x.fanout.states = some (state, y.hub.states) ∧
      y.fanout.states = x.fanout.states ∧ y.texts = x.texts ++ [shown] ∧
      shown.text = stateText state ∧ x.fanout.phase = .waiting) ∨
    (y.hub.states = x.hub.states.unsubscribe x.fanout.states ∧ y.fanout.phase = .ended) := by
  cases step with
  | passes | joins => exact .inl ⟨rfl, rfl, rfl, id⟩
  | @fanoutTurns branch fanout hub waiting turned =>
    have serves := serves_of_turn turned
    generalize outlook : hub.view = view at serves
    have states : hub.states = view.states := congrArg View.states outlook
    cases serves with
    | ends => exact .inr (.inr ⟨states, rfl⟩)
    | @sends state topic received =>
      refine .inr (.inl ⟨state, x.fanout.next state, ?_, rfl, rfl, rfl, waiting⟩)
      rw [states]
      exact received
    | answers => exact .inl ⟨states, rfl, rfl, id⟩
  | fanoutGoesOn sending stepped =>
    rcases coherent.sending.sends _ sending with ⟨ticket, rfl⟩
    rcases fanout_goesOn sending stepped with ⟨rfl, rfl⟩
    exact .inl ⟨rfl, rfl, rfl, fun ended => nomatch sending.symm.trans ended⟩
  | @sessionGoesOn client seat sink session hub deeds sits stepped =>
    have does := does_of_step (coherent.sits client seat sits).asks stepped
    have states : hub.states = x.hub.states := does.affects.states_eq
    exact .inl ⟨states, rfl, rfl, id⟩

theorem Step.attended (step : x.Step y) (coherent : Coherent capacity x) {waiting : Option Nat}
    (attended : x.hub.states.Attended waiting) : y.hub.states.Attended waiting := by
  rcases step.states_cases coherent with ⟨same, -⟩ | ⟨state, shown, received, -⟩ | ⟨left, -⟩
  · rw [same]
    exact attended
  · exact attended.receive? received
  · rw [left]
    exact attended.unsubscribe _

/-- What the fanout takes and writes down does not change the story. -/
theorem Step.story_eq (step : x.Step y) (coherent : Coherent capacity x)
    (listening : y.fanout.phase ≠ .ended) :
    x.fanout.phase ≠ .ended ∧ y.story = x.story ∧
      ((∃ box, boxOf x.hub.states.boxes x.fanout.states = some box) →
        ∃ box, boxOf y.hub.states.boxes y.fanout.states = some box) := by
  rcases step.states_cases coherent with ⟨same, id, texts, ended⟩ |
    ⟨state, shown, received, id, texts, text, waiting⟩ | ⟨-, ended⟩
  · refine ⟨fun past => listening (ended past), ?_, ?_⟩
    · rw [story, story, same, id, texts]
    · rw [same, id]
      exact fun here => here
  · refine ⟨by rw [waiting]; nofun, ?_, fun _ => ?_⟩
    · rw [story, story, texts, id, Topic.coming_receive received]
      simp [text]
    · rcases Topic.receive?_eq_some received with ⟨box, queue, here, -, same⟩
      rw [same, id]
      exact ⟨_, (Topic.boxOf_requeued here queue _).trans (if_pos rfl)⟩
  · exact absurd ended listening

end Floor

/-- All that is announced is what the arbiter waits for, and the fanout keeps
abreast of it. -/
structure Announcing (x : House) : Prop where
  attended : x.floor.hub.states.Attended (announced x.arbiter.phase)
  abreast : x.floor.fanout.phase ≠ .ended → Abreast x

namespace Announcing

variable {capacity : Nat} {lockTimeout : Span} {x y : House}

/-- The fanout takes notice of what the arbiter does at the announced states. -/
theorem carry (announcing : Announcing x) (move : x.Move y)
    (reached : House.Reachable capacity lockTimeout x) (news : List State)
    (attended : y.floor.hub.states.Attended (announced y.arbiter.phase))
    (same : y.floor.fanout = x.floor.fanout ∧ y.floor.texts = x.floor.texts)
    (live : (boxOf y.floor.hub.states.boxes x.floor.fanout.states).isSome =
      (boxOf x.floor.hub.states.boxes x.floor.fanout.states).isSome)
    (coming : ∀ box, boxOf x.floor.hub.states.boxes x.floor.fanout.states = some box →
      y.floor.hub.states.coming x.floor.fanout.states =
        x.floor.hub.states.coming x.floor.fanout.states ++ news)
    (current : (news = [] ∧ currentText y.arbiter.arb = currentText x.arbiter.arb) ∨
      (news.map stateText).getLast? = some (currentText y.arbiter.arb)) : Announcing y := by
  rcases same with ⟨fanout, texts⟩
  refine ⟨attended, fun listening => ?_⟩
  have abreast := announcing.abreast (fanout ▸ listening)
  rcases abreast.present with ⟨box, here⟩
  refine abreast.carry move reached (news.map stateText) ?_ ?_ ?_
  · rw [fanout, ← Option.isSome_iff_exists, live, here]
    rfl
  · rw [Floor.story, Floor.story, texts, fanout, coming box here, List.map_append,
      List.append_assoc]
  · exact current.imp_left fun ⟨nothing, still⟩ => ⟨by rw [nothing, List.map_nil], still⟩

theorem move (announcing : Announcing x) (move : x.Move y)
    (reached : House.Reachable capacity lockTimeout x) : Announcing y := by
  have coherent := coherent_of_reachable (House.floor_reachable reached)
  have attended := announcing.attended
  have moved := move
  cases move with
  | floor step =>
    refine ⟨step.attended coherent attended, fun listening => ?_⟩
    rcases step.story_eq coherent listening with ⟨live, story, present⟩
    have abreast := announcing.abreast live
    exact abreast.carry moved reached [] (present abreast.present)
      (story.trans (List.append_nil _).symm) (.inl ⟨rfl, rfl⟩)
  | listens elsewhere =>
    have old := coherent.hearing.attends
    have beside := Beside.of_elsewhere elsewhere coherent.hearing.listed
    exact announcing.carry moved reached [] (attended.elsewhere elsewhere) ⟨rfl, rfl⟩
      (congrArg Option.isSome (beside.box_eq old))
      (fun _ _ => (beside.coming_eq old).trans (List.append_nil _).symm) (.inl ⟨rfl, rfl⟩)
  | @stirs hub tells =>
    have states : hub.states = x.floor.hub.states := congrArg View.states tells.spares
    exact announcing.carry moved reached [] (states ▸ attended) ⟨rfl, rfl⟩ (by rw [states])
      (fun _ _ => by rw [states, List.append_nil]) (.inl ⟨rfl, rfl⟩)
  | @arbiterTurns branch arbiter hub log waiting turned =>
    rw [waiting] at attended
    cases decides_of_turn turned with
    | @leaves _ phase gone same =>
      have states : hub.states = x.floor.hub.states := congrArg View.states same
      have silent : announced phase = none := by rcases gone with rfl | rfl <;> rfl
      refine announcing.carry moved reached [] ?_ ⟨rfl, rfl⟩ (by rw [states])
        (fun _ _ => by rw [states, List.append_nil]) (.inl ⟨rfl, rfl⟩)
      rw [states, silent]
      exact attended
    | @keeps _ arb same tells =>
      have states : hub.states = x.floor.hub.states := congrArg View.states tells.spares
      refine announcing.carry moved reached [] ?_ ⟨rfl, rfl⟩ (by rw [states])
        (fun _ _ => by rw [states, List.append_nil]) (.inl ⟨rfl, by rw [currentText, same]; rfl⟩)
      rw [states, waiting]
      exact attended
    | @announces _ arb state client adopts outlook =>
      have states : hub.states = (x.floor.hub.states.publish state).2.2 :=
        congrArg View.states outlook
      rcases attended.publish state with ⟨attends, -, live, coming⟩
      refine announcing.carry moved reached [state] ?_ ⟨rfl, rfl⟩ ?_ ?_ (.inr ?_)
      · rw [states]
        simp only [waiting, announced_ite]
        exact attends
      · rw [states]
        exact live _
      · rw [states]
        exact coming _
      · rw [currentText, adopts]
        rfl
  | @arbiterGoesOn wait client arbiter hub log before stepped =>
    rcases House.announcing_state reached before with ⟨ticket, rfl⟩
    rcases arbiter_goesOn before stepped with ⟨outlook, rfl⟩
    rw [before] at attended
    have states : hub.states = (x.floor.hub.states.resume ticket).2 := congrArg View.states outlook
    rcases Attended.resume attended with ⟨attends, onward⟩
    refine announcing.carry moved reached [] ?_ ⟨rfl, rfl⟩ ?_ ?_ (.inl ⟨rfl, rfl⟩)
    · rw [states]
      simp only [announced_ite]
      exact attends
    · rw [states]
      exact onward.live_iff _
    · intro box here
      rw [states, List.append_nil]
      exact onward.coming_eq _ box here

theorem start (capacity others : Nat) (lockTimeout : Span) :
    Announcing (House.start capacity others lockTimeout) := by
  have attended := (attended_crowd capacity others).1
  have listed := attended.orderly.toListed
  refine ⟨attended.subscribe, fun _ => ⟨?_, ?_, fun client state known => ?_⟩⟩
  · exact ⟨_, (listed.boxOf_subscribe _).trans (if_pos rfl)⟩
  · have unheard := listed.coming_subscribe_new
    exact congrArg (fun coming : List State =>
      ([Client.emptyText] ++ coming.map stateText).getLast?) unheard
  · rcases known with (ready | ⟨seat, sits, -⟩) | shown
    · cases ready
    · cases sits
    · cases shown

theorem of_reachable (reached : House.Reachable capacity lockTimeout x) : Announcing x := by
  induction reached with
  | start others => exact start capacity others lockTimeout
  | move reached move inductionHypothesis => exact inductionHypothesis.move move reached

end Announcing

/-! ## Quiet moments -/

/-- Something that shows a state to the client. -/
def Item.shows : Item → Bool
  | .snapshot _ => true
  | .broadcast _ => true
  | .reply (.state _) => true
  | .reply (.refusal _) => false
  | .ping => false

theorem Item.shows_of_fromFanout {item : Item} (sent : item.fromFanout = true) :
    item.shows = true := by
  cases item with
  | snapshot | broadcast => rfl
  | reply | ping => cases sent

namespace House

variable {capacity : Nat} {lockTimeout : Span} {x y : House} {client : Nat} {seat : Seat}

/-- Nobody is in the middle of something, and nothing waits for the fanout or
for the session. -/
structure Quiet (x : House) (seat : Seat) : Prop where
  arbiter_waits : x.arbiter.phase = .waiting
  fanout_waits : x.floor.fanout.phase = .waiting
  session_waits : seat.session.phase = .open []
  all_announced : x.floor.hub.states.receive? x.floor.fanout.states = none
  all_sent : x.floor.hub.broadcasts.receive? seat.session.broadcasts = none

instance (x : House) (seat : Seat) : Decidable (x.Quiet seat) :=
  decidable_of_iff (x.arbiter.phase = .waiting ∧ x.floor.fanout.phase = .waiting ∧
      seat.session.phase = .open [] ∧
      x.floor.hub.states.receive? x.floor.fanout.states = none ∧
      x.floor.hub.broadcasts.receive? seat.session.broadcasts = none)
    ⟨fun ⟨arbiter, fanout, session, announced, sent⟩ =>
        ⟨arbiter, fanout, session, announced, sent⟩,
      fun ⟨arbiter, fanout, session, announced, sent⟩ =>
        ⟨arbiter, fanout, session, announced, sent⟩⟩

/-- A move that leaves the current state. -/
def Rests (x y : House) : Prop := x.Move y ∧ y.arbiter.arb.state = x.arbiter.arb.state

/-- What the fanout and the sessions do leaves the current state. -/
theorem rests_of_script {turns : List Floor.Turn}
    (played : (turns.map Turn.floor).foldlM act x = some y) :
    Relation.ReflTransGen Rests x y := by
  induction turns generalizing x with
  | nil =>
    rcases Option.some.inj played with rfl
    exact .refl
  | cons turn turns inductionHypothesis =>
    rcases Option.bind_eq_some_iff.mp played with ⟨next, acted, later⟩
    exact (inductionHypothesis later).head
      ⟨move_of_act acted, by rw [arbiter_eq_of_act acted]⟩

/-- At a quiet moment the fanout has written down all that has been announced,
and the last of that is current. -/
theorem Quiet.story_eq (quiet : x.Quiet seat) (reached : Reachable capacity lockTimeout x) :
    Abreast x ∧ x.floor.story = x.floor.texts.map (·.text) := by
  have announcing := Announcing.of_reachable reached
  have attended := announcing.attended
  rw [quiet.arbiter_waits] at attended
  refine ⟨announcing.abreast (by rw [quiet.fanout_waits]; nofun), ?_⟩
  rw [Floor.story, attended.coming_eq_nil quiet.all_announced, List.map_nil, List.append_nil]

/-- At a quiet moment, the last that has been written from the fanout is current. -/
theorem last_from_fanout (reached : Reachable capacity lockTimeout x)
    (sits : x.floor.seats client = some seat) (quiet : x.Quiet seat) {item : Item}
    (last : (seat.written.filter Item.fromFanout).getLast? = some item) :
    item.message = .text (currentText x.arbiter.arb) := by
  have coherent := coherent_of_reachable (floor_reachable reached)
  have fits := coherent.sits client seat sits
  have live : listens seat.session.phase = true := by rw [quiet.session_waits]; rfl
  have done : seat.hand = [] := by
    have holds := fits.holds
    unfold Seat.Holds at holds
    rw [quiet.session_waits] at holds
    exact List.map_eq_nil_iff.mp holds.symm
  have still : x.floor.hub.broadcasts.coming seat.session.broadcasts = [] := by
    have attended := coherent.sending.attended
    rw [quiet.fanout_waits] at attended
    exact attended.coming_eq_nil quiet.all_sent
  rcases fits.stage.last_written live done still last with ⟨shown, newest, same⟩
  rcases quiet.story_eq reached with ⟨abreast, story⟩
  have current := abreast.newest
  rw [story, List.getLast?_map, newest] at current
  exact same.trans (congrArg Client.Message.text (Option.some.inj current))

/-- No older state is on its way to a client in private. -/
def Clear (x : House) (client : Nat) : Prop :=
  ∀ state, x.floor.Underway client (.state state) → x.arbiter.arb.state = some state

/-- As long as the current state stays, no older one is told in private. -/
theorem clear_since (reached : Reachable capacity lockTimeout x) (clear : x.Clear client)
    (since : Relation.ReflTransGen Rests x y) :
    y.Clear client ∧ ∃ news, y.floor.written client = x.floor.written client ++ news ∧
      ∀ state, .reply (.state state) ∈ news → y.arbiter.arb.state = some state := by
  have both : Reachable capacity lockTimeout y ∧ y.Clear client ∧
      ∃ news, y.floor.written client = x.floor.written client ++ news ∧
        ∀ state, .reply (.state state) ∈ news → y.arbiter.arb.state = some state := by
    induction since with
    | refl => exact ⟨reached, clear, [], (List.append_nil _).symm, nofun⟩
    | @tail y z _ rests inductionHypothesis =>
      rcases inductionHypothesis with ⟨reached, clear, news, written, fresh⟩
      rcases rests with ⟨move, same⟩
      rcases move.conveys reached client with ⟨underway, more, later, conveyed⟩
      refine ⟨reached.move move, fun state held => ?_, news ++ more, ?_, fun state member => ?_⟩
      · rw [same]
        rcases underway state held with before | told
        · exact clear state before
        · exact told
      · rw [later, written, List.append_assoc]
      · rw [same]
        rcases List.mem_append.mp member with old | new
        · exact fresh state old
        · exact clear state (conveyed _ new)
  exact both.2

end House

/-! ## What a client is left with -/

/-- The last that has shown a state to the client. -/
def Seat.lastShown (seat : Seat) : Option Item := (seat.written.filter Item.shows).getLast?

theorem Seat.last_from_fanout_of_shown {seat : Seat} {item : Item}
    (last : seat.lastShown = some item) (sent : item.fromFanout = true) :
    (seat.written.filter Item.fromFanout).getLast? = some item := by
  rcases List.getLast?_eq_some_iff.mp last with ⟨before, shown⟩
  have both : seat.written.filter Item.fromFanout =
      (seat.written.filter Item.shows).filter Item.fromFanout := by
    rw [List.filter_filter]
    refine List.filter_congr fun other _ => ?_
    cases fanout : other.fromFanout with
    | false => rfl
    | true => rw [Item.shows_of_fromFanout fanout, Bool.and_true]
  rw [both, shown, List.filter_append, List.filter_singleton, sent, cond_true,
    List.getLast?_concat]

theorem Item.fromFanout_or_reply {item : Item} (shows : item.shows = true) :
    item.fromFanout = true ∨ ∃ state, item = .reply (.state state) := by
  cases item with
  | snapshot | broadcast => exact .inl rfl
  | ping => cases shows
  | reply told =>
    cases told with
    | state state => exact .inr ⟨state, rfl⟩
    | refusal => cases shows

namespace House

variable {capacity : Nat} {lockTimeout : Span} {x y : House} {client : Nat} {seat : Seat}

/-- What a client is left with at a quiet moment.  What it has from the fanout is
current.  If the last that it was shown is not, it was told that in private, and
before the current state was announced. -/
structure LeftWith (capacity : Nat) (lockTimeout : Span) (y : House) (client : Nat) (seat : Seat) :
    Prop where
  from_fanout : ∃ item, (seat.written.filter Item.fromFanout).getLast? = some item ∧
    item.message = .text (currentText y.arbiter.arb)
  in_private : ∃ item, seat.lastShown = some item ∧
    (item.message = .text (currentText y.arbiter.arb) ∨
      ∃ state, item = .reply (.state state) ∧ stateText state ∈ y.floor.texts.map (·.text))
  since : ∀ x news, Reachable capacity lockTimeout x → Relation.ReflTransGen Rests x y →
    x.Clear client → seat.written = x.floor.written client ++ news →
    (∃ item ∈ news, item.fromFanout = true) →
      ∃ item, seat.lastShown = some item ∧ item.message = .text (currentText y.arbiter.arb)

/-- When everything has been attended to, the last that a client has from the
fanout is the current state.  The last that it was shown is the current state
too, or else a state that it was told in private and that was current before.
It is the current one if, at some moment since which the current state has
stayed, no older one was on its way to the client in private, and if the fanout
has got something through to the client since then. -/
theorem left_with_current_state (reached : Reachable capacity lockTimeout y)
    (sits : y.floor.seats client = some seat) (quiet : y.Quiet seat)
    (fed : ∃ item ∈ seat.written, item.fromFanout = true) :
    LeftWith capacity lockTimeout y client seat := by
  have written : y.floor.written client = seat.written := by
    rw [Floor.written, sits]
    rfl
  have exists_last : ∀ {p : Item → Bool} {items : List Item}, (∃ item ∈ items, p item = true) →
      ∃ item, (items.filter p).getLast? = some item := by
    rintro p items ⟨item, member, fits⟩
    have some_left := List.ne_nil_of_mem (List.mem_filter.mpr ⟨member, fits⟩)
    exact Option.ne_none_iff_exists'.mp (mt List.getLast?_eq_none_iff.mp some_left)
  have shown : ∀ item, seat.lastShown = some item →
      item.message = .text (currentText y.arbiter.arb) ∨
        ∃ state, item = .reply (.state state) := by
    intro item last
    have shows := (List.mem_filter.mp (List.mem_of_getLast? last)).2
    refine (Item.fromFanout_or_reply shows).imp_left fun sent => ?_
    exact last_from_fanout reached sits quiet (Seat.last_from_fanout_of_shown last sent)
  refine ⟨?_, ?_, ?_⟩
  · rcases exists_last fed with ⟨item, last⟩
    exact ⟨item, last, last_from_fanout reached sits quiet last⟩
  · have some_shown : ∃ item ∈ seat.written, item.shows = true :=
      fed.imp fun item ⟨member, sent⟩ => ⟨member, Item.shows_of_fromFanout sent⟩
    rcases exists_last some_shown with ⟨item, last⟩
    refine ⟨item, last, (shown item last).imp_right ?_⟩
    rintro ⟨state, rfl⟩
    have member := (List.mem_filter.mp (List.mem_of_getLast? last)).1
    rcases quiet.story_eq reached with ⟨abreast, story⟩
    exact ⟨state, rfl, story ▸ abreast.told client state (.inr (written.symm ▸ member))⟩
  · intro x news before since clear split some_sent
    rcases clear_since before clear since with ⟨-, more, later, fresh⟩
    obtain rfl : more = news :=
      List.append_cancel_left ((later.symm.trans written).trans split)
    have some_shown : ∃ item ∈ more, item.shows = true :=
      some_sent.imp fun item ⟨member, sent⟩ => ⟨member, Item.shows_of_fromFanout sent⟩
    rcases exists_last some_shown with ⟨item, last⟩
    have last_of_all : seat.lastShown = some item := by
      rw [Seat.lastShown, split, List.filter_append, List.getLast?_append, last, Option.some_or]
    refine ⟨item, last_of_all, ?_⟩
    rcases shown item last_of_all with current | ⟨state, rfl⟩
    · exact current
    · have member := (List.mem_filter.mp (List.mem_of_getLast? last)).1
      rw [currentText, fresh state member]
      rfl

def ajar : State := ⟨.half, .closed, .closed, .off, .none⟩

/-- A client gets its snapshot and is refused a request, but another state is
accepted and sent to it before it has been told; then it is told. -/
def overtaken : List Turn :=
  [.floor (.joins 0), .floor (.works 0 .good),
    .asks ⟨.shut, .local, none⟩, .decides .request, .floor (.serves .state),
    .floor (.serves .snapshot), .floor (.works 0 .good), .floor (.works 0 .good),
    .asks ⟨⟨.full, .full, .full, .on, .none⟩, .remote, some 0⟩, .decides .request,
    .asks ⟨ajar, .local, none⟩, .decides .request, .floor (.serves .state),
    .floor (.works 0 .good), .floor (.works 0 .good),
    .floor (.works 0 .good), .floor (.works 0 .good),
    .floor (.works 0 .good), .floor (.works 0 .good)]

/-- Then another state is accepted, -/
def changed : List Turn := [.asks ⟨.shut, .local, none⟩, .decides .request]

/-- and sent to the client. -/
def settled : List Floor.Turn := [.serves .state, .works 0 .good, .works 0 .good]

/-- What a house looks like from the outside, and to a client: whether it is
quiet, the current state, what is underway to the client and what it was sent. -/
def seen (x : House) (client : Nat) :
    Option (Bool × Option State × List Client.Reply × List Item × List Item) :=
  (x.floor.seats client).map fun seat =>
    (decide (x.Quiet seat), x.arbiter.arb.state, x.floor.hub.view.replies client, seat.hand,
      seat.written)

theorem of_seen {turns : List Turn} {quiet : Bool} {current : Option State}
    {replies : List Client.Reply} {hand written : List Item}
    (told : ((turns.foldlM act x).bind fun y => y.seen client) =
      some (quiet, current, replies, hand, written)) :
    ∃ y seat, turns.foldlM act x = some y ∧ y.floor.seats client = some seat ∧
      decide (y.Quiet seat) = quiet ∧ y.arbiter.arb.state = current ∧
      y.floor.hub.view.replies client = replies ∧ seat.hand = hand ∧ seat.written = written := by
  rcases Option.bind_eq_some_iff.mp told with ⟨y, played, looks⟩
  rcases Option.map_eq_some_iff.mp looks with ⟨seat, sits, same⟩
  simp only [Prod.mk.injEq] at same
  exact ⟨y, seat, played, sits, same⟩

/-- The client is left with the older state, until the next one is accepted. -/
theorem left_with_current_state_overtaken :
    ∃ y seat, Reachable 1 (Span.ofSeconds 1800) y ∧ y.floor.seats 0 = some seat ∧
      y.Quiet seat ∧ (∃ item ∈ seat.written, item.fromFanout = true) ∧
      LeftWith 1 (Span.ofSeconds 1800) y 0 seat ∧
      y.arbiter.arb.state = some ajar ∧ seat.lastShown = some (.reply (.state .shut)) ∧
      ∃ z after item, Relation.ReflTransGen Move y z ∧ z.floor.seats 0 = some after ∧
        after.lastShown = some item ∧ item.message = .text (currentText z.arbiter.arb) := by
  let texts : List Item := [.snapshot ⟨1, stateText .shut⟩, .broadcast ⟨2, stateText ajar⟩,
    .reply (.state .shut), .reply (.refusal Hazard.allDampersOpen.refusal)]
  have told : ((overtaken.foldlM act (start 1 0 (Span.ofSeconds 1800))).bind fun y => y.seen 0) =
      some (true, some ajar, [], [], texts) := by
    decide +kernel
  have adopted : (((overtaken ++ changed).foldlM act (start 1 0 (Span.ofSeconds 1800))).bind
      fun x => x.seen 0) = some (false, some .shut, [], [], texts) := by
    decide +kernel
  have sent : (((overtaken ++ changed ++ settled.map Turn.floor).foldlM act
      (start 1 0 (Span.ofSeconds 1800))).bind fun z => z.seen 0) =
        some (true, some .shut, [], [], texts ++ [.broadcast ⟨3, stateText .shut⟩]) := by
    decide +kernel
  rcases of_seen told with ⟨y, seat, played, sits, quiet, current, -, -, written⟩
  have reached : Reachable 1 (Span.ofSeconds 1800) y :=
    (Reachable.start 0).later (later_of_script played)
  have fed : ∃ item ∈ seat.written, item.fromFanout = true := by
    rw [written]
    exact ⟨_, List.mem_cons_self, rfl⟩
  refine ⟨y, seat, reached, sits, of_decide_eq_true quiet, fed,
    left_with_current_state reached sits (of_decide_eq_true quiet) fed, current, ?_, ?_⟩
  · rw [Seat.lastShown, written]
    rfl
  · -- Nothing is underway in private when the next state is accepted.
    simp only [List.foldlM_append, played, Option.bind_eq_bind, Option.bind_some] at adopted
    rcases of_seen adopted with ⟨x, waits, changes, sitsBefore, -, -, replies, hand, before⟩
    have clear : x.Clear 0 := by
      rintro state (ready | ⟨other, sitsThere, held⟩)
      · rw [replies] at ready
        cases ready
      · rcases Option.some.inj (sitsBefore.symm.trans sitsThere) with rfl
        rw [hand] at held
        cases held
    simp only [List.foldlM_append, played, changes, Option.bind_eq_bind, Option.bind_some] at sent
    rcases of_seen sent with ⟨z, after, goes, sitsAfter, rest, -, -, -, later⟩
    have accepted := reached.later (later_of_script changes)
    have since := rests_of_script goes
    have more : after.written = x.floor.written 0 ++ [.broadcast ⟨3, stateText .shut⟩] := by
      rw [later, Floor.written, sitsBefore, Option.elim_some, before]
    have fedAgain : ∃ item ∈ after.written, item.fromFanout = true := by
      rw [more]
      exact ⟨_, List.mem_append_right _ List.mem_cons_self, rfl⟩
    have path : Relation.ReflTransGen Move y z :=
      (later_of_script changes).trans (later_of_script goes)
    have left := left_with_current_state (reached.later path) sitsAfter (of_decide_eq_true rest)
      fedAgain
    rcases left.since x _ accepted since clear more ⟨_, List.mem_cons_self, rfl⟩ with
      ⟨item, last, same⟩
    exact ⟨z, after, item, path, sitsAfter, last, same⟩

end House
end Server
end Ventilation
