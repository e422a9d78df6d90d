import Ventilation.Proofs.Bus.Coming

namespace Ventilation
namespace Bus

/-!
# Delivery

A topic is used in steps.  A step is followed by everything that goes on because
of it, so between two steps every unfinished publishing is stuck somewhere.
What a lasting listener has been handed, what waits in its queue and what
unfinished publishings still owe it are together everything that has been
published since it came, in that order.
-/

variable {α : Type}

/-! ## What can be seen of a step -/

def Step.published : Step α → List α
  | .publish value => [value]
  | _ => []

/-- The value that a step hands to a listener. -/
def received (id : Nat) : Step α × Told α → List α
  | (.receive other, .received (some value)) => if other = id then [value] else []
  | _ => []

/-- What happens after a listener has come. -/
def since (id : Nat) : List (Step α × Told α) → List (Step α × Told α)
  | [] => []
  | (_, .listener other) :: rest => if other = id then rest else since id rest
  | _ :: rest => since id rest

namespace Topic

variable {topic next : Topic α}

/-- Take steps one after another, with what each of them tells. -/
def run (topic : Topic α) : List (Step α) → List (Step α × Told α) × Topic α
  | [] => ([], topic)
  | taken :: rest =>
    let (told, _, next) := topic.step taken
    let (trace, last) := next.run rest
    ((taken, told) :: trace, last)

/-- Everything that a listener has been handed. -/
def handed (id : Nat) (trace : List (Step α × Told α)) : List α := trace.flatMap (received id)

def announced (trace : List (Step α × Told α)) : List α :=
  trace.flatMap fun entry => entry.1.published

theorem since_suffix (id : Nat) (trace : List (Step α × Told α)) : since id trace <:+ trace := by
  induction trace with
  | nil => exact List.suffix_refl _
  | cons entry rest inductionHypothesis =>
    have later := inductionHypothesis.trans (List.suffix_cons entry rest)
    unfold since
    split
    · exact List.nil_suffix
    · next equal =>
      cases equal
      split
      · exact List.suffix_cons _ _
      · exact later
    · next equal =>
      cases equal
      exact later

/-! ## Everything goes on -/

theorem settle_eq (topic : Topic α) :
    topic.settle.2 = (topic.publishings.map (·.ticket)).foldl
      (fun topic ticket => (topic.resume ticket).2) topic := by
  unfold settle
  refine (List.foldl_hom Prod.snd ?_).symm
  rintro ⟨ended, topic⟩ ticket
  rcases resumed : topic.resume ticket with ⟨- | served, next⟩
  · simp [resumed]
  · simp [resumed]

namespace Orderly

/-- A publishing that has been told to go on is stuck or has ended, and others
stand where they stood. -/
theorem stuck_or_stood (orderly : topic.Orderly)
    (stands : ∀ other ∈ topic.publishings, topic.Stands other) {ticket : Nat}
    {other : Publishing α} (present : other ∈ (topic.resume ticket).2.publishings) :
    (topic.resume ticket).2.Stands other ∧
      ((topic.resume ticket).2.Stuck other ∨
        (other ∈ topic.publishings ∧ other.ticket ≠ ticket ∧
          (topic.Stuck other → (topic.resume ticket).2.Stuck other))) := by
  rcases orderly.resume_cases ticket with ⟨idle, halted⟩ | ⟨publishing, member, rfl, goes⟩
  · rw [idle] at present ⊢
    have stood := stands other present
    refine ⟨stood, ?_⟩
    by_cases own : other.ticket = ticket
    · exact .inl (stood.stuck (halted other present own))
    · exact .inr ⟨present, own, id⟩
  · rw [goes] at present ⊢
    rcases orderly.mem_proceed member present with ⟨old, apart⟩ | ⟨waits, rfl⟩
    · have kept := orderly.proceed_stuck member apart.symm
      exact ⟨orderly.proceed_stands member apart (stands other old), .inr ⟨old, apart, kept⟩⟩
    · have stuck := orderly.proceed_stuck_self member waits
      exact ⟨stuck.stands, .inl stuck⟩

/-- When all have been told to go on in turn, nothing can go on, and nothing
has changed for any listener. -/
theorem settle (orderly : topic.Orderly)
    (stands : ∀ other ∈ topic.publishings, topic.Stands other) :
    Onward topic topic.settle.2 ∧ topic.settle.2.Settled := by
  -- Everyone whose turn is over is stuck; the others stand where they stood.
  have general : ∀ (tickets : List Nat) (topic : Topic α), topic.Orderly →
      tickets.Pairwise (· < ·) → (∀ other ∈ topic.publishings, topic.Stands other) →
      (∀ other ∈ topic.publishings, other.ticket ∉ tickets → topic.Stuck other) →
      Onward topic (tickets.foldl (fun topic ticket => (topic.resume ticket).2) topic) ∧
        (tickets.foldl (fun topic ticket => (topic.resume ticket).2) topic).Settled := by
    intro tickets
    induction tickets with
    | nil =>
      intro topic orderly _ _ stuck
      exact ⟨.refl orderly, fun other member => stuck other member List.not_mem_nil⟩
    | cons ticket rest inductionHypothesis =>
      intro topic orderly sorted stands stuck
      rcases List.pairwise_cons.mp sorted with ⟨first, sorted⟩
      have before : ∀ other ∈ topic.publishings, other.ticket < ticket → topic.Stuck other := by
        intro other member less
        apply stuck other member
        intro waits
        rcases List.mem_cons.mp waits with same | later
        · exact Nat.ne_of_lt less same
        · exact Nat.lt_asymm less (first _ later)
      have onward := orderly.onward_resume before
      have done : ∀ other ∈ (topic.resume ticket).2.publishings, other.ticket ∉ rest →
          (topic.resume ticket).2.Stuck other := by
        intro other present absent
        rcases (orderly.stuck_or_stood stands present).2 with now | ⟨old, apart, keeps⟩
        · exact now
        · apply keeps
          apply stuck other old
          exact fun waits => (List.mem_cons.mp waits).elim apart absent
      have settled := inductionHypothesis _ onward.orderly sorted
        (fun other present => (orderly.stuck_or_stood stands present).1) done
      exact ⟨onward.trans settled.1, settled.2⟩
  rw [settle_eq]
  apply general _ _ orderly orderly.tickets_sorted stands
  intro other member absent
  exact absurd (List.mem_map_of_mem member) absent

end Orderly

/-! ## One step -/

/-- What a step does, before anything goes on because of it. -/
structure Acts (topic : Topic α) (taken : Step α) (told : Told α) (next : Topic α) : Prop where
  orderly : next.Orderly
  stands : ∀ publishing ∈ next.publishings, next.Stands publishing
  born : ∀ id, told = .listener id → id = topic.nextId ∧ next.nextId = topic.nextId + 1
  unborn : (∀ id, told ≠ .listener id) → next.nextId = topic.nextId
  keeps : ∀ id, id < topic.nextId → (boxOf next.boxes id).isSome →
    (boxOf topic.boxes id).isSome ∧
      received id (taken, told) ++ next.coming id = topic.coming id ++ taken.published
  comes : ∀ id, topic.nextId ≤ id → (boxOf next.boxes id).isSome → next.coming id = []
  silent : ∀ id, boxOf topic.boxes id = none → received id (taken, told) = []

theorem received_eq_nil {taken : Step α} {told : Told α}
    (empty : ∀ id value, taken = .receive id → told ≠ .received (some value)) (id : Nat) :
    received id (taken, told) = [] := by
  unfold received
  split
  · next other value equal =>
    rcases Prod.mk.inj equal with ⟨rfl, rfl⟩
    exact absurd rfl (empty other value rfl)
  · rfl

namespace Acts

/-- Some step changes nothing for those who stay. -/
theorem of_quiet (orderly : next.Orderly) (settled : topic.Settled)
    (sound : topic.Orderly) (nextId : next.nextId = topic.nextId)
    (publishings : next.publishings = topic.publishings)
    (boxes : ∀ id box, boxOf next.boxes id = some box → boxOf topic.boxes id = some box)
    {taken : Step α} {told : Told α} (unborn : ∀ id, told ≠ .listener id)
    (nothing : taken.published = [])
    (empty : ∀ id value, taken = .receive id → told ≠ .received (some value)) :
    Acts topic taken told next := by
  refine ⟨orderly, ?_, fun id told => absurd told (unborn id), fun _ => nextId, ?_, ?_, ?_⟩
  · intro publishing member id box front here
    exact (settled publishing (publishings ▸ member)).stands id box front (boxes id box here)
  · intro id _ held
    rcases Option.isSome_iff_exists.mp held with ⟨box, here⟩
    have before := boxes id box here
    refine ⟨by rw [before]; rfl, ?_⟩
    rw [received_eq_nil empty, nothing, List.append_nil, List.nil_append]
    unfold coming
    rw [here, before, publishings]
  · intro id new held
    rcases Option.isSome_iff_exists.mp held with ⟨box, here⟩
    have before := boxes id box here
    exact absurd (before.symm.trans (sound.boxOf_of_nextId_le new)) (by simp)
  · exact fun id _ => received_eq_nil empty id

theorem receive (orderly : topic.Orderly) (settled : topic.Settled) {id : Nat} {value : α}
    (taken : topic.receive? id = some (value, next)) :
    Acts topic (.receive id) (.received (some value)) next := by
  rcases receive?_eq_some taken with ⟨box, queue, here, content, rfl⟩
  have boxes := fun other => boxOf_requeued here queue other
  have live : ∀ other, (boxOf (requeued topic id box queue).boxes other).isSome =
      (boxOf topic.boxes other).isSome := by
    intro other
    rw [boxes]
    split
    · next own => rw [own, here]; rfl
    · rfl
  refine ⟨orderly.requeue here queue, ?_, (fun _ told => nomatch told), fun _ => rfl, ?_, ?_, ?_⟩
  · intro publishing member other after front there
    have stands := (settled publishing member).stands
    replace there := (boxes other).symm.trans there
    split at there
    · next own =>
      rcases Option.some.inj there with rfl
      exact stands other box front (own ▸ here)
    · exact stands other after front there
  · intro other _ held
    refine ⟨(live other) ▸ held, ?_⟩
    change received other _ ++ (requeued topic id box queue).coming other = _
    rw [coming_requeued here]
    change _ = topic.coming other ++ []
    rw [List.append_nil]
    by_cases own : other = id
    · subst own
      rw [if_pos rfl, received, if_pos rfl, coming, here, Option.elim_some, content]
      rfl
    · rw [if_neg own, received, if_neg fun same => own same.symm]
      rfl
  · intro other new held
    have absent := orderly.boxOf_of_nextId_le new
    replace held := (live other).symm.trans held
    rw [absent] at held
    cases held
  · intro other absent
    have apart : id ≠ other := fun own => absurd (here.symm.trans (own ▸ absent)) (by simp)
    exact if_neg apart

theorem subscribe (orderly : topic.Orderly) (settled : topic.Settled) :
    Acts topic .subscribe (.listener topic.nextId) topic.subscribe.2 := by
  have empty : ∀ id value, (Step.subscribe : Step α) = .receive id →
      (Told.listener topic.nextId : Told α) ≠ .received (some value) := nofun
  refine ⟨orderly.subscribe, ?_, ?_, fun unborn => absurd rfl (unborn _), ?_, ?_, ?_⟩
  · intro publishing member id box front here
    rw [orderly.boxOf_subscribe] at here
    have old := orderly.rest_old publishing member id (List.mem_of_head? front)
    rw [if_neg (Nat.ne_of_lt old)] at here
    exact (settled publishing member).stands id box front here
  · intro id told
    cases told
    exact ⟨rfl, rfl⟩
  · intro id old held
    rw [orderly.boxOf_subscribe, if_neg (Nat.ne_of_lt old)] at held
    refine ⟨held, ?_⟩
    rw [received_eq_nil empty, orderly.coming_subscribe (Nat.ne_of_lt old)]
    exact (List.append_nil _).symm
  · intro id new held
    by_cases own : id = topic.nextId
    · rw [own]
      exact orderly.coming_subscribe_new
    · rw [orderly.boxOf_subscribe, if_neg own, orderly.boxOf_of_nextId_le new] at held
      cases held
  · exact fun id _ => received_eq_nil empty id

theorem listenOnce (orderly : topic.Orderly) (settled : topic.Settled) :
    Acts topic .listenOnce (.listener topic.nextId) topic.listenOnce.2 := by
  have empty : ∀ id value, (Step.listenOnce : Step α) = .receive id →
      (Told.listener topic.nextId : Told α) ≠ .received (some value) := nofun
  have joined : topic.listenOnce.2.Orderly :=
    orderly.join (show (Listener.once topic.nextId).id = topic.nextId from rfl) _
  refine ⟨joined, ?_, ?_, fun unborn => absurd rfl (unborn _), ?_, ?_, ?_⟩
  · exact fun publishing member => (settled publishing member).stands
  · intro id told
    cases told
    exact ⟨rfl, rfl⟩
  · intro id _ held
    refine ⟨held, ?_⟩
    rw [received_eq_nil empty]
    exact (List.append_nil _).symm
  · intro id new held
    have absent : boxOf topic.listenOnce.2.boxes id = none := orderly.boxOf_of_nextId_le new
    rw [absent] at held
    cases held
  · exact fun id _ => received_eq_nil empty id

theorem publish (orderly : topic.Orderly) (settled : topic.Settled) (value : α) :
    Acts topic (.publish value) .nothing (topic.publish value).2.2 := by
  have empty : ∀ id other, Step.publish value = .receive id →
      (Told.nothing : Told α) ≠ .received (some other) := nofun
  have live : ∀ id, (boxOf (topic.publish value).2.2.boxes id).isSome =
      (boxOf topic.boxes id).isSome := by
    intro id
    rw [publish_eq, (orderly.opened value).boxOf_proceed (topic.opening_mem_opened value),
      Option.isSome_map]
    rfl
  refine ⟨orderly.publish settled value, ?_, (fun _ told => nomatch told), fun _ => ?_, ?_, ?_, ?_⟩
  · exact fun publishing member => (orderly.settled_publish settled value publishing member).stands
  · rw [publish_eq]
    exact proceed_nextId _ _
  · intro id _ held
    rw [live id] at held
    refine ⟨held, ?_⟩
    rcases Option.isSome_iff_exists.mp held with ⟨box, here⟩
    rw [received_eq_nil empty, orderly.coming_publish settled value here]
    rfl
  · intro id new held
    rw [live id, orderly.boxOf_of_nextId_le new] at held
    cases held
  · exact fun id _ => received_eq_nil empty id

end Acts

theorem act_acts (orderly : topic.Orderly) (settled : topic.Settled) (taken : Step α) :
    Acts topic taken (topic.act taken).1 (topic.act taken).2.2 := by
  cases taken with
  | subscribe => exact .subscribe orderly settled
  | listenOnce => exact .listenOnce orderly settled
  | publish value =>
    have acts := Acts.publish orderly settled value
    simp only [act]
    rcases published : topic.publish value with ⟨ticket, - | served, after⟩
    · rw [published] at acts
      exact acts
    · rw [published] at acts
      exact acts
  | receive id =>
    simp only [act]
    cases taken : topic.receive? id with
    | none =>
      exact .of_quiet orderly settled orderly rfl rfl (fun _ _ here => here) (by simp) rfl (by simp)
    | some result => exact .receive orderly settled taken
  | unsubscribe id =>
    refine .of_quiet (orderly.unsubscribe id) settled orderly rfl rfl ?_ (by simp [act]) rfl
      (by simp)
    intro other box here
    replace here := (boxOf_drop topic id other).symm.trans here
    split at here
    · cases here
    · exact here
  | drop id =>
    refine .of_quiet (orderly.drop id) settled orderly rfl rfl ?_ (by simp [act]) rfl (by simp)
    intro other box here
    replace here := (boxOf_drop topic id other).symm.trans here
    split at here
    · cases here
    · exact here
  | poll id =>
    have kept : ∀ shots told, (∀ new, told ≠ Told.listener new) →
        Acts topic (.poll id) told { topic with shots := shots } := by
      intro shots told unborn
      exact .of_quiet (orderly.reshot shots) settled orderly rfl rfl (fun _ _ here => here) unborn
        rfl (by simp)
    simp only [act, takeShot?]
    cases topic.shot id with
    | value value => exact kept _ _ (by simp)
    | nothing => exact kept topic.shots _ (by simp)
    | taken => exact kept topic.shots _ (by simp)
  | dropOnce id =>
    have kept : (topic.dropOnce id).Orderly := orderly.reshot _
    exact .of_quiet kept settled orderly rfl rfl (fun _ _ here => here) (by simp [act]) rfl
      (by simp)

theorem step_acts (orderly : topic.Orderly) (settled : topic.Settled) (taken : Step α) :
    Acts topic taken (topic.step taken).1 (topic.step taken).2.2 ∧
      (topic.step taken).2.2.Settled := by
  have acts := act_acts orderly settled taken
  have stepped : topic.step taken = ((topic.act taken).1,
      (topic.act taken).2.1 ++ (topic.act taken).2.2.settle.1,
      (topic.act taken).2.2.settle.2) := rfl
  rw [stepped]
  rcases acts.orderly.settle acts.stands with ⟨onward, last⟩
  refine ⟨⟨onward.orderly, fun other member => (last other member).stands, ?_, ?_, ?_, ?_,
    acts.silent⟩, last⟩
  · intro id told
    rw [onward.nextId_eq]
    exact acts.born id told
  · intro unborn
    rw [onward.nextId_eq]
    exact acts.unborn unborn
  · intro id old held
    rw [onward.live_iff] at held
    rcases Option.isSome_iff_exists.mp held with ⟨box, here⟩
    rw [onward.coming_eq id box here]
    exact acts.keeps id old held
  · intro id new held
    rw [onward.live_iff] at held
    rcases Option.isSome_iff_exists.mp held with ⟨box, here⟩
    rw [onward.coming_eq id box here]
    exact acts.comes id new held

/-! ## Many steps -/

theorem run_cons (topic : Topic α) (taken : Step α) (rest : List (Step α)) :
    topic.run (taken :: rest) =
      ((taken, (topic.step taken).1) :: ((topic.step taken).2.2.run rest).1,
        ((topic.step taken).2.2.run rest).2) := rfl

theorem run_orderly {topic : Topic α} (orderly : topic.Orderly) (settled : topic.Settled)
    (steps : List (Step α)) : (topic.run steps).2.Orderly ∧ (topic.run steps).2.Settled := by
  induction steps generalizing topic with
  | nil => exact ⟨orderly, settled⟩
  | cons taken rest inductionHypothesis =>
    rcases step_acts orderly settled taken with ⟨acts, later⟩
    exact inductionHypothesis acts.orderly later

/-- Whoever listens from the beginning of a run to its end has been handed what
was to come, followed by what was published, up to what is still to come. -/
theorem handed_run {topic : Topic α} (orderly : topic.Orderly) (settled : topic.Settled)
    {steps : List (Step α)} {id : Nat} (old : id < topic.nextId)
    (held : (boxOf (topic.run steps).2.boxes id).isSome) :
    (boxOf topic.boxes id).isSome ∧
      handed id (topic.run steps).1 ++ (topic.run steps).2.coming id =
        topic.coming id ++ announced (topic.run steps).1 := by
  induction steps generalizing topic with
  | nil => exact ⟨held, by simp [run, handed, announced]⟩
  | cons taken rest inductionHypothesis =>
    rcases step_acts orderly settled taken with ⟨acts, later⟩
    have older : id < (topic.step taken).2.2.nextId := by
      by_cases birth : ∃ new, (topic.step taken).1 = .listener new
      · rcases birth with ⟨new, told⟩
        rw [(acts.born new told).2]
        exact Nat.lt_succ_of_lt old
      · rw [acts.unborn fun new told => birth ⟨new, told⟩]
        exact old
    rcases inductionHypothesis acts.orderly later older held with ⟨between, lately⟩
    rcases acts.keeps id old between with ⟨before, now⟩
    refine ⟨before, ?_⟩
    calc handed id (topic.run (taken :: rest)).1 ++ (topic.run (taken :: rest)).2.coming id
        = received id (taken, (topic.step taken).1) ++
            (handed id ((topic.step taken).2.2.run rest).1 ++
              ((topic.step taken).2.2.run rest).2.coming id) := by
          simp [run_cons, handed]
      _ = received id (taken, (topic.step taken).1) ++
            ((topic.step taken).2.2.coming id ++
              announced ((topic.step taken).2.2.run rest).1) := by rw [lately]
      _ = topic.coming id ++ taken.published ++
            announced ((topic.step taken).2.2.run rest).1 := by rw [← List.append_assoc, now]
      _ = topic.coming id ++ announced (topic.run (taken :: rest)).1 := by
          simp [run_cons, announced]

/-- Whoever comes during a run and stays has been handed what has been published
since, up to what is still to come. -/
theorem handed_since {topic : Topic α} (orderly : topic.Orderly) (settled : topic.Settled)
    {steps : List (Step α)} {id : Nat} (new : topic.nextId ≤ id)
    (held : (boxOf (topic.run steps).2.boxes id).isSome) :
    handed id (topic.run steps).1 ++ (topic.run steps).2.coming id =
      announced (since id (topic.run steps).1) := by
  induction steps generalizing topic with
  | nil =>
    have absent : boxOf (topic.run []).2.boxes id = none := orderly.boxOf_of_nextId_le new
    rw [absent] at held
    cases held
  | cons taken rest inductionHypothesis =>
    rcases step_acts orderly settled taken with ⟨acts, later⟩
    have silent := acts.silent id (orderly.boxOf_of_nextId_le new)
    have handed_cons : handed id (topic.run (taken :: rest)).1 =
        handed id ((topic.step taken).2.2.run rest).1 := by
      simp [run_cons, handed, silent]
    rw [handed_cons]
    by_cases birth : (topic.step taken).1 = .listener id
    · -- The listener comes with this step, and nothing is on its way to it yet.
      rcases acts.born id birth with ⟨same, next⟩
      have old : id < (topic.step taken).2.2.nextId := by omega
      rcases handed_run acts.orderly later old held with ⟨between, lately⟩
      have begins : since id (topic.run (taken :: rest)).1 =
          ((topic.step taken).2.2.run rest).1 := by
        rw [run_cons, birth]
        exact if_pos rfl
      rw [begins]
      exact lately.trans (by rw [acts.comes id new between]; rfl)
    · have fresh : (topic.step taken).2.2.nextId ≤ id := by
        by_cases other : ∃ first, (topic.step taken).1 = .listener first
        · rcases other with ⟨first, told⟩
          rcases acts.born first told with ⟨first_eq, next⟩
          have apart : first ≠ id := fun same => birth (same ▸ told)
          omega
        · rw [acts.unborn fun first told => other ⟨first, told⟩]
          exact new
      have waits : since id (topic.run (taken :: rest)).1 =
          since id ((topic.step taken).2.2.run rest).1 := by
        rw [run_cons]
        generalize (topic.step taken).1 = told at birth ⊢
        cases told with
        | listener first => exact if_neg fun same => birth (congrArg Told.listener same)
        | nothing => rfl
        | received value => rfl
        | polled shot => rfl
      rw [waits]
      exact inductionHypothesis acts.orderly later fresh held

/-! ## From the beginning -/

/-- All that is for a listener after some steps: what it has been handed, what
is in its queue and what unfinished publishings owe it. -/
def share (trace : List (Step α × Told α)) (topic : Topic α) (box : Box α) : List α :=
  handed box.id trace ++ box.queue ++
    (topic.publishings.filter fun publishing => box.id ∈ publishing.rest).map (·.value)

theorem share_eq (trace : List (Step α × Told α)) {id : Nat} {box : Box α}
    (here : boxOf topic.boxes id = some box) :
    share trace topic box = handed id trace ++ topic.coming id := by
  have same : box.id = id := (boxOf_eq_some here).2
  rw [share, coming, here, same, List.append_assoc]
  rfl

theorem announced_suffix {shorter longer : List (Step α × Told α)} (suffix : shorter <:+ longer) :
    announced shorter <:+ announced longer := by
  rcases suffix with ⟨before, rfl⟩
  exact ⟨announced before, by simp [announced]⟩

/-- Nothing is lost, doubled or overtaken.  After any steps from an empty topic
nothing can go on by itself, the unfinished publishings stand in the order in
which they began, and the share of every lasting listener is what has been
published since it came.  So of two listeners the one that came later has the
same share as the other, less what was published before it came. -/
theorem share_eq_announced (capacity : Nat) (steps : List (Step α)) :
    let trace := ((empty capacity).run steps).1
    let topic := ((empty capacity).run steps).2
    (∀ publishing ∈ topic.publishings, topic.ready publishing = false) ∧
      (topic.publishings.map (·.ticket)).Pairwise (· < ·) ∧
      (∀ id box, topic.box? id = some box →
        share trace topic box = announced (since id trace)) ∧
      ∀ id other box otherBox, topic.box? id = some box → topic.box? other = some otherBox →
        share trace topic box <:+ share trace topic otherBox ∨
          share trace topic otherBox <:+ share trace topic box := by
  have start : (empty capacity : Topic α).Settled := nofun
  rcases run_orderly (orderly_empty capacity) start steps with ⟨orderly, settled⟩
  have whole : ∀ id box, ((empty capacity).run steps).2.box? id = some box →
      share ((empty capacity).run steps).1 ((empty capacity).run steps).2 box =
        announced (since id ((empty capacity).run steps).1) := by
    intro id box here
    rw [share_eq _ here]
    have held : (boxOf ((empty capacity).run steps).2.boxes id).isSome :=
      Option.isSome_iff_exists.mpr ⟨box, here⟩
    rcases Nat.lt_or_ge id (empty capacity : Topic α).nextId with old | new
    · -- Nobody listens at the beginning.
      cases (handed_run (orderly_empty capacity) start old held).1
    · exact handed_since (orderly_empty capacity) start new held
  refine ⟨?_, orderly.tickets_sorted, whole, ?_⟩
  · intro publishing member
    exact (settled publishing member).not_ready
  · intro id other box otherBox here otherHere
    rw [whole id box here, whole other otherBox otherHere]
    rcases List.suffix_or_suffix_of_suffix (since_suffix id _) (since_suffix other _) with
      shorter | longer
    · exact .inl (announced_suffix shorter)
    · exact .inr (announced_suffix longer)

/-- With room for one value, two publishings wait at two listeners: one has
passed the first of them and is at the second, the other has come to the first. -/
theorem share_eq_announced_while_two_wait :
    let steps : List (Step Nat) := [.subscribe, .publish 10, .subscribe, .publish 20, .publish 30,
      .receive 1, .receive 1, .subscribe, .publish 40]
    let trace := ((empty 0).run steps).1
    let topic := ((empty 0).run steps).2
    topic.box? 1 = some ⟨1, [30], [3]⟩ ∧ share trace topic ⟨1, [30], [3]⟩ = [10, 20, 30, 40] ∧
      topic.box? 2 = some ⟨2, [20], [2]⟩ ∧ share trace topic ⟨2, [20], [2]⟩ = [20, 30, 40] ∧
      topic.box? 3 = some ⟨3, [], []⟩ ∧ share trace topic ⟨3, [], []⟩ = [40] := by
  intro steps trace topic
  have law := (share_eq_announced 0 steps).2.2.1
  exact ⟨rfl, law 1 _ rfl, rfl, law 2 _ rfl, rfl, law 3 _ rfl⟩

end Topic
end Bus
end Ventilation
