import Ventilation.Proofs.Controller.Steps
import Ventilation.Proofs.Script
import Mathlib.Data.List.Induction

namespace Ventilation
namespace Controller

/-!
# The actuator at its link

A station is the actuator with its clock, its link and the hub.  A script says
what happens and in which order: time passes, though never beyond the instant at
which a command that is held becomes ready, others do anything to the hub, the
controller prints whatever it likes and closes its side, and reading fails.  The
link takes everything that is written, at once.

Main statement: commands go out exactly when they depart, and nobody outside can
tell what the controller has printed.
-/

open Bus (Hub)

/-- The actuator, what lies around it, and what it has taken and written so far. -/
structure Station where
  now : Instant
  hub : Hub
  link : Link
  actuator : Actuator
  /-- The states that the actuator has taken, and when. -/
  calls : List (Instant × State)
  /-- What has been written, and when. -/
  written : List (Instant × List UInt8)

namespace Station

def start (target : UInt8) (interval : Span) (hub : Hub) : Station :=
  let (actuator, hub, _) := Actuator.start target interval hub
  ⟨0, hub, .idle, actuator, [], []⟩

inductive Turn
  | passes (later : Instant)
  | shares (hub : Hub)
  | takes
  | goesOn
  | leaves
  | prints (bytes : List UInt8)
  | hushes
  | fails (fault : String)
  | reads

/-- Whether a turn is anything but printing and reading. -/
def Turn.outward : Turn → Bool
  | passes _ | shares _ | takes | goesOn | leaves => true
  | prints _ | hushes | fails _ | reads => false

/-- What the actuator makes of its surroundings. -/
def adopt (x : Station) (outcome : Actuator × Hub × Link × List Deed) : Station :=
  let (actuator, hub, link, deeds) := outcome
  { x with
    hub := hub
    link := link
    actuator := actuator
    written := x.written ++ (writings deeds).map fun bytes => (x.now, bytes) }

def act (x : Station) : Turn → Option Station
  | .passes later =>
    if x.now ≤ later ∧ later < Instant.limit ∧ x.actuator.alarm.all fun alarm => later ≤ alarm then
      some { x with now := later }
    else none
  | .shares hub => some { x with hub := hub }
  | .takes =>
    if x.actuator.phase = .waiting then do
      let (state, _) ← x.hub.states.receive? x.actuator.states
      let outcome ← x.actuator.turn? x.now x.hub x.link .state
      return { x.adopt outcome with calls := x.calls ++ [(x.now, state)] }
    else none
  | .goesOn =>
    match x.actuator.phase with
    | .holding _ _ => (x.actuator.step? x.now x.hub x.link).map x.adopt
    | _ => none
  | .leaves =>
    if x.actuator.phase = .waiting then
      (x.actuator.turn? x.now x.hub x.link .shutdown).map x.adopt
    else none
  | .prints bytes => some { x with link := x.link.print bytes }
  | .hushes => some { x with link := x.link.hush }
  | .fails fault => some { x with link := x.link.fail fault }
  | .reads =>
    if x.actuator.phase = .waiting then
      (x.actuator.turn? x.now x.hub x.link .inbound).map x.adopt
    else none

def dispatches (x : Station) (interval : Span) : List Dispatch :=
  (Pacing.start interval).dispatches x.calls

variable {target : UInt8} {interval : Span} {x y : Station} {turn : Turn}

/-! ## Commands and departures -/

/-- Why the last command has not gone out: it is held, or its departure is beyond
what the clock can hold. -/
inductive Late (x : Station) (dispatch : Dispatch) : Prop
  | held (holding : x.actuator.phase = .holding dispatch.state dispatch.gone)
      (early : x.now ≤ dispatch.gone)
  | lost (crashed : x.actuator.phase = .crashed) (beyond : Instant.limit ≤ dispatch.gone)

/-- Which commands have gone out. -/
inductive Doing (x : Station) (target : UInt8) (interval : Span) : Prop
  | free (idle : x.actuator.phase = .waiting ∨ x.actuator.phase = .ended)
      (paced : x.actuator.pacing = x.calls.foldl Pacing.after (.start interval))
      (written : x.written = (x.dispatches interval).map (Dispatch.frame target))
      (gone : ∀ dispatch ∈ x.dispatches interval, dispatch.gone ≤ x.now)
  | busy {before : List (Instant × State)} {call : Instant × State}
      (calls : x.calls = before ++ [call])
      (paced : x.actuator.pacing = before.foldl Pacing.after (.start interval))
      (written : x.written =
        ((Pacing.start interval).dispatches before).map (Dispatch.frame target))
      (late : x.Late (x.actuator.pacing.dispatch call))

structure Kept (x : Station) (target : UInt8) (interval : Span) : Prop where
  plugged : x.link.plugged = true
  target_eq : x.actuator.target = target
  inTurn : Pacing.InTurn (x.dispatches interval)
  doing : x.Doing target interval

namespace Kept

/-- Everything has gone out if the actuator waits. -/
theorem free_of_waiting (kept : x.Kept target interval) (waiting : x.actuator.phase = .waiting) :
    x.actuator.pacing = x.calls.foldl Pacing.after (.start interval) ∧
      x.written = (x.dispatches interval).map (Dispatch.frame target) ∧
      ∀ dispatch ∈ x.dispatches interval, dispatch.gone ≤ x.now := by
  cases kept.doing with
  | free _ paced written gone => exact ⟨paced, written, gone⟩
  | busy _ _ _ late =>
    cases late with
    | held holding => cases waiting.symm.trans holding
    | lost crashed => cases waiting.symm.trans crashed

/-- All but the last command have gone out if the actuator holds one, and this one
is the last. -/
theorem busy_of_holding (kept : x.Kept target interval) {state : State} {ready : Instant}
    (holding : x.actuator.phase = .holding state ready) :
    ∃ before asked, x.calls = before ++ [(asked, state)] ∧
      x.actuator.pacing = before.foldl Pacing.after (.start interval) ∧
      x.written = ((Pacing.start interval).dispatches before).map (Dispatch.frame target) ∧
      x.actuator.pacing.departure asked state = ready ∧ x.now ≤ ready := by
  cases kept.doing with
  | free idle =>
    rcases idle with waiting | ended
    · cases waiting.symm.trans holding
    · cases ended.symm.trans holding
  | @busy before call split paced written late =>
    rcases call with ⟨asked, wanted⟩
    cases late with
    | held same early =>
      cases same.symm.trans holding
      exact ⟨before, asked, split, paced, written, rfl, early⟩
    | lost crashed => cases crashed.symm.trans holding

/-- Nothing goes out, and the actuator goes on with what it is doing. -/
theorem still (kept : x.Kept target interval) (plugged : y.link.plugged = true)
    (same : y.actuator.target = x.actuator.target ∧ y.actuator.pacing = x.actuator.pacing ∧
      y.actuator.phase = x.actuator.phase)
    (calls : y.calls = x.calls) (written : y.written = x.written) (later : x.now ≤ y.now)
    (awake : ∀ alarm ∈ x.actuator.alarm, y.now ≤ alarm) : y.Kept target interval := by
  rcases same with ⟨target_eq, pacing_eq, phase_eq⟩
  have dispatches_eq : y.dispatches interval = x.dispatches interval := by
    rw [dispatches, calls, dispatches]
  refine ⟨plugged, target_eq.trans kept.target_eq, dispatches_eq ▸ kept.inTurn, ?_⟩
  cases kept.doing with
  | free idle paced out gone =>
    refine .free (phase_eq ▸ idle) ?_ ?_ ?_
    · rw [pacing_eq, calls, paced]
    · rw [written, dispatches_eq, out]
    · rw [dispatches_eq]
      exact fun dispatch member => Nat.le_trans (gone dispatch member) later
  | busy split paced out late =>
    refine .busy (calls.trans split) (pacing_eq.trans paced) (written.trans out) ?_
    rw [pacing_eq]
    cases late with
    | held holding early =>
      refine .held (phase_eq.trans holding) (awake _ ?_)
      simp [Actuator.alarm, holding]
    | lost crashed beyond => exact .lost (phase_eq.trans crashed) beyond

theorem takes (kept : x.Kept target interval) {actuator : Actuator} {hub : Hub}
    {deeds : List Deed} {state : State} (waiting : x.actuator.phase = .waiting)
    (sends : Actuator.Sends { x.actuator with fresh := false } x.now state actuator
      (writings deeds)) :
    Kept { x.adopt (actuator, hub, x.link, deeds) with calls := x.calls ++ [(x.now, state)] }
      target interval := by
  rcases kept.free_of_waiting waiting with ⟨paced, out, gone⟩
  have more : (Pacing.start interval).dispatches (x.calls ++ [(x.now, state)]) =
      x.dispatches interval ++ [x.actuator.pacing.dispatch (x.now, state)] := by
    rw [Pacing.dispatches_concat, paced]
    rfl
  have inTurn : Pacing.InTurn
      ((Pacing.start interval).dispatches (x.calls ++ [(x.now, state)])) := by
    rw [more]
    refine List.pairwise_append.mpr ⟨kept.inTurn, List.pairwise_singleton _ _, ?_⟩
    intro earlier member last lastMember
    rw [List.mem_singleton.mp lastMember]
    exact gone earlier member
  generalize frames : writings deeds = bytes at sends
  cases sends with
  | goes due =>
    refine ⟨kept.plugged, kept.target_eq, inTurn, .free (.inl rfl) ?_ ?_ ?_⟩
    · rw [List.foldl_concat, ← paced]
      exact congrArg (x.actuator.pacing.sent state) due.symm
    · rw [dispatches, more, List.map_append, List.map_singleton, ← out,
        Pacing.frame_dispatch due, ← kept.target_eq]
      simp only [adopt, frames]
      rfl
    · intro dispatch member
      rw [dispatches, more] at member
      rcases List.mem_append.mp member with before | last
      · exact gone dispatch before
      · rw [List.mem_singleton.mp last]
        exact Nat.le_of_eq due
  | holds early =>
    refine ⟨kept.plugged, kept.target_eq, inTurn, .busy rfl paced ?_
      (.held rfl (Nat.le_of_lt early))⟩
    simp only [adopt, frames, List.map_nil, List.append_nil]
    exact out
  | crashes late =>
    refine ⟨kept.plugged, kept.target_eq, inTurn, .busy rfl paced ?_ (.lost rfl late)⟩
    simp only [adopt, frames, List.map_nil, List.append_nil]
    exact out

theorem goesOn (kept : x.Kept target interval) {deeds : List Deed} {state : State}
    {ready : Instant} (holding : x.actuator.phase = .holding state ready) (due : ready ≤ x.now)
    (frames : writings deeds = [(commandFrame x.actuator.target state).bytes]) :
    Kept (x.adopt ({ x.actuator with
      pacing := x.actuator.pacing.sent state x.now, phase := .waiting }, x.hub, x.link, deeds))
      target interval := by
  rcases kept.busy_of_holding holding with ⟨before, asked, split, paced, out, departs, early⟩
  have departs : x.actuator.pacing.departure asked state = x.now :=
    departs.trans (Nat.le_antisymm due early)
  have whole : x.dispatches interval =
      (Pacing.start interval).dispatches before ++
        [x.actuator.pacing.dispatch (asked, state)] := by
    rw [dispatches, split, Pacing.dispatches_concat, paced]
  refine ⟨kept.plugged, kept.target_eq, kept.inTurn, .free (.inl rfl) ?_ ?_ ?_⟩
  · rw [adopt, split, List.foldl_concat, ← paced]
    exact congrArg (x.actuator.pacing.sent state) departs.symm
  · have sent : (x.dispatches interval).map (Dispatch.frame target) =
        x.written ++ [(x.now, (commandFrame x.actuator.target state).bytes)] := by
      rw [whole, List.map_append, List.map_singleton, ← out, Pacing.frame_dispatch departs,
        ← kept.target_eq]
    rw [adopt, frames]
    exact sent.symm
  · intro dispatch member
    have inTurn := kept.inTurn
    rw [whole] at inTurn
    have before_last := (List.pairwise_append.mp inTurn).2.2
    have among : dispatch ∈ x.dispatches interval := member
    rw [whole] at among
    rcases List.mem_append.mp among with old | last
    · -- Whatever went out earlier did so before the last one was asked for.
      have asked_after := before_last dispatch old _ (List.mem_singleton_self _)
      have least := x.actuator.pacing.le_departure asked state
      exact Nat.le_trans asked_after (Nat.le_trans least (Nat.le_of_eq departs))
    · rw [List.mem_singleton.mp last]
      exact Nat.le_of_eq departs

theorem leaves (kept : x.Kept target interval) {hub : Hub} {deeds : List Deed}
    (waiting : x.actuator.phase = .waiting) (frames : writings deeds = []) :
    Kept (x.adopt ({ x.actuator with phase := .ended }, hub, x.link, deeds)) target interval := by
  rcases kept.free_of_waiting waiting with ⟨paced, out, gone⟩
  refine ⟨kept.plugged, kept.target_eq, kept.inTurn, .free (.inr rfl) paced ?_ gone⟩
  simp only [adopt, frames, List.map_nil, List.append_nil]
  exact out

theorem acts (kept : x.Kept target interval) (acted : x.act turn = some y) :
    y.Kept target interval := by
  have plugged := kept.plugged
  have awake : ∀ alarm ∈ x.actuator.alarm, x.now ≤ alarm := by
    intro alarm rings
    unfold Actuator.alarm at rings
    split at rings
    · next state ready holding =>
      rcases kept.busy_of_holding holding with ⟨-, -, -, -, -, -, early⟩
      rcases Option.some.inj rings with rfl
      exact early
    · cases rings
  cases turn with
  | passes later =>
    simp only [act, Option.ite_none_right_eq_some, Option.some.injEq] at acted
    rcases acted with ⟨⟨after, -, early⟩, rfl⟩
    refine kept.still plugged ⟨rfl, rfl, rfl⟩ rfl rfl after fun alarm rings => ?_
    rw [Option.mem_def] at rings
    simpa [rings] using early
  | shares hub | prints bytes | hushes | fails fault =>
    rcases Option.some.inj acted with rfl
    exact kept.still plugged ⟨rfl, rfl, rfl⟩ rfl rfl (Nat.le_refl _) awake
  | takes =>
    simp only [act, Option.ite_none_right_eq_some, Option.bind_eq_bind, Option.bind_eq_some_iff,
      Option.pure_def, Option.some.injEq] at acted
    rcases acted with
      ⟨waiting, ⟨state, states⟩, received, ⟨actuator, hub, link, deeds⟩, turned, rfl⟩
    rcases Actuator.sends_of_turn plugged turned with ⟨taken, rest, same, rfl, rfl, sends⟩
    cases received.symm.trans same
    exact kept.takes waiting sends
  | goesOn =>
    cases phase : x.actuator.phase with
    | holding state ready =>
      simp only [act, phase, Option.map_eq_some_iff] at acted
      rcases acted with ⟨⟨actuator, hub, link, deeds⟩, stepped, rfl⟩
      rcases Actuator.goes_of_step plugged phase stepped with ⟨due, rfl, rfl, rfl, frames⟩
      exact kept.goesOn phase due frames
    | waiting | ended | failed | crashed => simp [act, phase] at acted
  | leaves =>
    simp only [act, Option.ite_none_right_eq_some, Option.map_eq_some_iff] at acted
    rcases acted with ⟨waiting, ⟨actuator, hub, link, deeds⟩, turned, rfl⟩
    rcases Actuator.leaves_of_turn turned with ⟨rfl, -, rfl, frames⟩
    exact kept.leaves waiting frames
  | reads =>
    simp only [act, Option.ite_none_right_eq_some, Option.map_eq_some_iff] at acted
    rcases acted with ⟨waiting, ⟨actuator, hub, link, deeds⟩, turned, rfl⟩
    rcases Actuator.still_of_turn turned with ⟨⟨reading, begun, fresh, rfl⟩, rfl, same, frames⟩
    refine kept.still (same.trans plugged) ⟨rfl, rfl, rfl⟩ rfl ?_ (Nat.le_refl _) awake
    simp [adopt, frames]

theorem start (target : UInt8) (interval : Span) (hub : Hub) :
    (start target interval hub).Kept target interval :=
  ⟨rfl, rfl, List.Pairwise.nil, .free (.inl rfl) rfl rfl nofun⟩

theorem script (kept : x.Kept target interval) {turns : List Turn}
    (played : turns.foldlM act x = some y) : y.Kept target interval :=
  @Script.kept _ _ act x y turns (fun x => x.Kept target interval)
    (fun acted kept => acts kept acted) played kept

end Kept

/-! ## Every sequence of calls -/

/-- A hub in which a state lies ready for the actuator. -/
def ready (x : Station) (state : State) : Hub :=
  { x.hub with states := { x.hub.states with boxes := [⟨x.actuator.states, [state], []⟩] } }

theorem receive?_ready (x : Station) (state : State) :
    ∃ states, (x.ready state).states.receive? x.actuator.states = some (state, states) := by
  refine ⟨{ (x.ready state).states with
    boxes := Bus.Topic.setBox [⟨x.actuator.states, [state], []⟩] x.actuator.states
      ⟨x.actuator.states, [], []⟩ }, ?_⟩
  simp [ready, Bus.Topic.receive?, Bus.Topic.box?]

theorem act_passes {later : Instant} (after : x.now ≤ later) (held : later < Instant.limit)
    (early : ∀ alarm ∈ x.actuator.alarm, later ≤ alarm) :
    x.act (.passes later) = some { x with now := later } := by
  have awake : (x.actuator.alarm.all fun alarm => later ≤ alarm) = true := by
    cases rings : x.actuator.alarm with
    | none => rfl
    | some alarm => exact decide_eq_true (early alarm rings)
  exact if_pos ⟨after, held, awake⟩

theorem act_takes (waiting : x.actuator.phase = .waiting) {state : State}
    {states : Bus.Topic State}
    (received : x.hub.states.receive? x.actuator.states = some (state, states)) :
    ∃ actuator hub deeds,
      x.act .takes = some { x.adopt (actuator, hub, x.link, deeds) with
        calls := x.calls ++ [(x.now, state)] } ∧
      (x.link.plugged = true →
        Actuator.Sends { x.actuator with fresh := false } x.now state actuator
          (writings deeds)) := by
  let sent := Actuator.send { x.actuator with fresh := false } x.now
    { x.hub with states := states } x.link state
  refine ⟨sent.1, sent.2.1, sent.2.2, ?_, fun plugged => (Actuator.sends_of_send plugged rfl).2⟩
  simp only [act, waiting, if_true, received, Actuator.turn?, Option.bind_eq_bind,
    Option.bind_some, Option.pure_def]
  rfl

theorem act_goesOn (plugged : x.link.plugged = true) {state : State} {ready : Instant}
    (holding : x.actuator.phase = .holding state ready) (due : ready ≤ x.now) :
    ∃ y, x.act .goesOn = some y ∧ y.actuator.phase = .waiting ∧ y.calls = x.calls ∧
      y.now = x.now := by
  rcases Actuator.write_eq x.actuator x.now x.hub state plugged with ⟨deeds, writes, -⟩
  refine ⟨x.adopt ({ x.actuator with
    pacing := x.actuator.pacing.sent state x.now, phase := .waiting }, x.hub, x.link, deeds),
    ?_, rfl, rfl, rfl⟩
  simp only [act, holding, Actuator.step?, due, if_true, writes, Option.map_some]

/-- A station that waits can take any state at any instant that is still to come,
and its command goes out if the clock can hold the departure. -/
theorem exists_turns (plugged : x.link.plugged = true) (waiting : x.actuator.phase = .waiting)
    {asked : Instant} {state : State} (later : x.now ≤ asked)
    (held : x.actuator.pacing.departure asked state < Instant.limit) :
    ∃ (turns : List Turn) (y : Station), turns.foldlM act x = some y ∧
      y.actuator.phase = .waiting ∧ y.calls = x.calls ++ [(asked, state)] ∧
      y.now = x.actuator.pacing.departure asked state := by
  have least := x.actuator.pacing.le_departure asked state
  rcases x.receive?_ready state with ⟨states, received⟩
  have asks : x.act (.passes asked) = some { x with now := asked } := by
    refine act_passes later (Nat.lt_of_le_of_lt least held) fun alarm rings => ?_
    simp [Actuator.alarm, waiting] at rings
  let offered : Station := { x with now := asked, hub := x.ready state }
  rcases @act_takes offered waiting state states received with ⟨actuator, hub, deeds, takes, sends⟩
  let taken : Station := { offered.adopt (actuator, hub, x.link, deeds) with
    calls := x.calls ++ [(asked, state)] }
  have begins : ([.passes asked, .shares (x.ready state), .takes] : List Turn).foldlM act x =
      some taken := by
    simp only [List.foldlM_cons, List.foldlM_nil, asks, Option.bind_eq_bind, Option.bind_some]
    exact congrArg (Option.bind · some) takes
  generalize frames : writings deeds = bytes at sends
  cases sends plugged with
  | goes due => exact ⟨_, taken, begins, rfl, rfl, due.symm⟩
  | crashes late => exact absurd held (Nat.not_lt_of_le late)
  | holds early =>
    have sleeps : taken.act (.passes (x.actuator.pacing.departure asked state)) =
        some { taken with now := x.actuator.pacing.departure asked state } := by
      refine act_passes least held fun alarm rings => ?_
      exact Nat.le_of_eq (Option.some.inj rings)
    let slept : Station := { taken with now := x.actuator.pacing.departure asked state }
    rcases @act_goesOn slept plugged state _ rfl (Nat.le_refl _) with
      ⟨y, goes, waits, calls, now⟩
    refine ⟨[.passes asked, .shares (x.ready state), .takes] ++
      [.passes (x.actuator.pacing.departure asked state), .goesOn], y, ?_, waits, calls, now⟩
    rw [List.foldlM_append, begins]
    simp only [List.foldlM_cons, List.foldlM_nil, sleeps, Option.bind_eq_bind, Option.bind_some]
    exact congrArg (Option.bind · some) goes

/-- Every sequence of calls whose departures the clock can hold is what some
script comes to, if nothing is asked for before what was asked for earlier has
gone out. -/
theorem exists_script (target : UInt8) (interval : Span) (hub : Hub)
    (calls : List (Instant × State))
    (inTurn : Pacing.InTurn ((Pacing.start interval).dispatches calls))
    (held : ∀ dispatch ∈ (Pacing.start interval).dispatches calls, dispatch.gone < Instant.limit) :
    ∃ (turns : List Turn) (x : Station), turns.foldlM act (start target interval hub) = some x ∧
      x.calls = calls ∧ x.actuator.phase = .waiting ∧
      (x.now = 0 ∨ ∃ dispatch ∈ x.dispatches interval, x.now = dispatch.gone) := by
  induction calls using List.reverseRecOn with
  | nil => exact ⟨[], _, rfl, rfl, rfl, .inl rfl⟩
  | append_singleton before call inductionHypothesis =>
    have more := (Pacing.start interval).dispatches_concat before call
    rw [more] at inTurn held
    rcases List.pairwise_append.mp inTurn with ⟨inTurn, -, last⟩
    rcases inductionHypothesis inTurn fun dispatch member => held dispatch (by simp [member])
      with ⟨turns, x, played, calls, waiting, rests⟩
    have kept := (Kept.start target interval hub).script played
    have paced : x.actuator.pacing = before.foldl Pacing.after (.start interval) :=
      calls ▸ (kept.free_of_waiting waiting).1
    have later : x.now ≤ call.1 := by
      rcases rests with begins | ⟨dispatch, member, gone⟩
      · exact begins ▸ Nat.zero_le _
      · rw [dispatches, calls] at member
        exact gone ▸ last dispatch member _ (List.mem_singleton_self _)
    have departs : x.actuator.pacing.departure call.1 call.2 < Instant.limit := by
      rw [paced]
      exact held _ (List.mem_append_right _ (List.mem_singleton_self _))
    rcases exists_turns kept.plugged waiting later departs with
      ⟨further, y, goes, waits, takes, at_last⟩
    have whole : y.calls = before ++ [call] := by rw [takes, calls]
    refine ⟨turns ++ further, y, ?_, whole, waits,
      .inr ⟨x.actuator.pacing.dispatch call, ?_, at_last⟩⟩
    · rw [List.foldlM_append, played]
      exact goes
    · rw [dispatches, whole, more, ← paced]
      exact List.mem_append_right _ (List.mem_singleton_self _)

/-! ## What the controller prints -/

/-- A station that has forgotten what the controller has printed and what has
been read of it. -/
def deaf (x : Station) : Station :=
  { x with link := Actuator.mute x.link, actuator := x.actuator.deaf }

/-- Printing and reading are forgotten. -/
theorem deaf_of_inward (inward : turn.outward = false) (acted : x.act turn = some y) :
    y.deaf = x.deaf := by
  cases turn with
  | passes | shares | takes | goesOn | leaves => cases inward
  | prints bytes | hushes | fails fault =>
    rcases Option.some.inj acted with rfl
    rfl
  | reads =>
    simp only [act, Option.ite_none_right_eq_some, Option.map_eq_some_iff] at acted
    rcases acted with ⟨waiting, ⟨actuator, hub, link, deeds⟩, turned, rfl⟩
    rcases Actuator.still_of_turn turned with ⟨⟨reading, begun, fresh, rfl⟩, rfl, same, frames⟩
    simp [deaf, Actuator.deaf, Actuator.mute, adopt, frames, same]

/-- Nothing else depends on what has been forgotten. -/
theorem act_deaf (outward : turn.outward = true) (x : Station) :
    x.deaf.act turn = (x.act turn).map deaf := by
  cases turn with
  | prints | hushes | fails | reads => cases outward
  | passes later =>
    unfold act
    rw [apply_ite (Option.map deaf)]
    rfl
  | shares hub => rfl
  | takes =>
    unfold act
    rw [apply_ite (Option.map deaf)]
    refine if_congr Iff.rfl ?_ rfl
    have same : x.deaf.hub.states.receive? x.deaf.actuator.states =
        x.hub.states.receive? x.actuator.states := rfl
    have turned := @Actuator.turn?_deaf x.actuator x.now x.hub x.link .state nofun
    rw [same]
    cases x.hub.states.receive? x.actuator.states with
    | none => rfl
    | some received =>
      change ((x.actuator.deaf.turn? x.now x.hub (Actuator.mute x.link) .state).bind fun outcome =>
        some { x.deaf.adopt outcome with calls := x.calls ++ [(x.now, received.1)] }) = _
      rw [turned]
      cases x.actuator.turn? x.now x.hub x.link .state with
      | none => rfl
      | some outcome => rfl
  | goesOn =>
    have same : x.deaf.actuator.phase = x.actuator.phase := rfl
    cases phase : x.actuator.phase with
    | holding state ready =>
      simp only [act, same, phase, Option.map_map]
      have stepped := Actuator.step?_deaf phase x.now x.hub x.link
      refine (congrArg (Option.map x.deaf.adopt) stepped).trans ?_
      rw [Option.map_map]
      rfl
    | waiting | ended | failed | crashed => simp [act, same, phase]
  | leaves =>
    unfold act
    rw [apply_ite (Option.map deaf)]
    refine if_congr Iff.rfl ?_ rfl
    have turned := @Actuator.turn?_deaf x.actuator x.now x.hub x.link .shutdown nofun
    refine (congrArg (Option.map x.deaf.adopt) turned).trans ?_
    rw [Option.map_map, Option.map_map]
    rfl

/-- A script comes to the same without what is printed and read, apart from that. -/
theorem script_without {turns : List Turn} (alike : y.deaf = x.deaf) {z : Station}
    (played : turns.foldlM act x = some z) :
    ∃ w, (turns.filter Turn.outward).foldlM act y = some w ∧ w.deaf = z.deaf := by
  induction turns generalizing x y with
  | nil =>
    rcases Option.some.inj played with rfl
    exact ⟨y, rfl, alike⟩
  | cons turn turns inductionHypothesis =>
    rcases Option.bind_eq_some_iff.mp played with ⟨next, acted, later⟩
    cases side : turn.outward with
    | false =>
      rw [List.filter_cons_of_neg (by simp [side])]
      exact inductionHypothesis (alike.trans (deaf_of_inward side acted).symm) later
    | true =>
      rw [List.filter_cons_of_pos side]
      have both : (y.act turn).map deaf = some next.deaf := by
        rw [← act_deaf side, alike, act_deaf side, acted]
        rfl
      rcases Option.map_eq_some_iff.mp both with ⟨other, does, same⟩
      rcases inductionHypothesis same later with ⟨w, ends, alike⟩
      exact ⟨w, Option.bind_eq_some_iff.mpr ⟨other, does, ends⟩, alike⟩

/-! ## Pacing -/

/-- What has been written comes from the dispatches of what has been taken. -/
structure Paced (x : Station) (target : UInt8) (interval : Span) : Prop where
  /-- Every command goes out at its departure, except that the last one may be
  late: it is held up to its departure, or the clock cannot hold that. -/
  written : ∃ sent rest, x.dispatches interval = sent ++ rest ∧
    x.written = sent.map (Dispatch.frame target) ∧
    (rest = [] ∨ ∃ dispatch, rest = [dispatch] ∧ x.Late dispatch)
  /-- Nothing is taken before what was taken earlier has gone out. -/
  inTurn : Pacing.InTurn (x.dispatches interval)
  /-- Whatever moves a damper keeps its distance from everything before that moves one. -/
  apart : ((x.dispatches interval).filter Dispatch.moves).Pairwise fun earlier later =>
    earlier.gone + interval ≤ later.gone

/-- Every command goes out at its departure: the first one at once, one that
leaves the dampers as they were sent last at once too, and any other when the
interval has passed since the last one, if it has not already.  So all commands
that move a damper are apart, whatever goes out between them.  What the
controller prints, and when the actuator reads it, changes nothing. -/
theorem commands_are_paced {turns : List Turn} {hub : Hub}
    (played : turns.foldlM act (start target interval hub) = some x) :
    x.Paced target interval ∧
      (∃ y, (turns.filter Turn.outward).foldlM act (start target interval hub) = some y ∧
        y.written = x.written ∧ y.calls = x.calls) ∧
      ∀ (others : List Turn) (y : Station), others.filter Turn.outward = turns.filter Turn.outward →
        others.foldlM act (start target interval hub) = some y →
          y.written = x.written ∧ y.calls = x.calls := by
  have kept := (Kept.start target interval hub).script played
  have seen : ∀ {first second : Station}, first.deaf = second.deaf →
      first.written = second.written ∧ first.calls = second.calls := by
    intro first second alike
    have written : first.deaf.written = second.deaf.written := congrArg Station.written alike
    have calls : first.deaf.calls = second.deaf.calls := congrArg Station.calls alike
    exact ⟨written, calls⟩
  rcases script_without rfl played with ⟨y, without, alike⟩
  refine ⟨⟨?_, kept.inTurn, (Pacing.start interval).moves_apart kept.inTurn⟩,
    ⟨y, without, seen alike⟩, ?_⟩
  · cases kept.doing with
    | free idle paced out gone => exact ⟨_, [], (List.append_nil _).symm, out, .inl rfl⟩
    | @busy before call split paced out late =>
      refine ⟨(Pacing.start interval).dispatches before, [_], ?_, out, .inr ⟨_, rfl, late⟩⟩
      rw [dispatches, split, Pacing.dispatches_concat, paced]
  · intro others z same ends
    rcases script_without rfl ends with ⟨w, lone, other⟩
    rw [same, without] at lone
    cases lone
    exact seen (other.symm.trans alike)

/-- A hub with some states that lie ready for the actuator. -/
def offering (states : List State) : Hub :=
  states.foldl (fun hub state => (hub.publishState state).2)
    (Actuator.start 7 (Span.ofMillis 1500) (.empty 8)).2.1

/-- A damper moves, and another a second later, which is too early.  Then the fan
goes on, and half a second later everything is shut, again too early.  Meanwhile
the controller prints half a line and closes its side. -/
def noisy : List Turn :=
  [.shares (offering [⟨.half, .closed, .closed, .off, .none⟩, ⟨.half, .full, .closed, .off, .none⟩,
      ⟨.half, .full, .closed, .on, .none⟩, .shut]),
    .takes, .prints [62, 48], .passes (Span.ofSeconds 1), .reads, .takes,
    .passes (Span.ofMillis 1500), .goesOn, .hushes, .reads, .takes, .passes (Span.ofSeconds 2),
    .takes, .passes (Span.ofMillis 2500)]

/-- Three commands have gone out, and the fourth is held. -/
theorem commands_are_paced_around_a_fan :
    ∃ x, noisy.foldlM act (start 7 (Span.ofMillis 1500) (.empty 8)) = some x ∧
      x.Paced 7 (Span.ofMillis 1500) ∧
      x.written.map Prod.fst = [0, Span.ofMillis 1500, Span.ofMillis 1500] ∧
      x.actuator.phase = .holding .shut (Span.ofSeconds 3) ∧
      ∃ y,
        (noisy.filter Turn.outward).foldlM act (start 7 (Span.ofMillis 1500) (.empty 8)) = some y ∧
          y.written = x.written := by
  have told : (noisy.foldlM act (start 7 (Span.ofMillis 1500) (.empty 8))).map
      (fun x => (x.written.map Prod.fst, x.actuator.phase)) =
        some ([0, Span.ofMillis 1500, Span.ofMillis 1500], .holding .shut (Span.ofSeconds 3)) := by
    decide +kernel
  rcases Option.map_eq_some_iff.mp told with ⟨x, played, looks⟩
  rcases Prod.mk.inj looks with ⟨instants, held⟩
  rcases commands_are_paced played with ⟨paced, ⟨y, without, same, -⟩, -⟩
  exact ⟨x, played, paced, instants, held, y, without, same⟩

end Station
end Controller
end Ventilation
