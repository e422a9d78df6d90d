import Ventilation.Proofs.Bus.Once

namespace Ventilation
namespace Bus

/-!
# Who is on the list

A lasting listener is on the list of a topic from the moment at which it comes.
It is taken off when it stops listening, and otherwise only by a publishing that
has found it gone, when that publishing ends.  So the list can be told from what
has been done with the topic: those who have come, less those who have stopped
listening and those whom publishings that have returned have found gone, and
the one-shot listeners that have come since the last publishing began.
-/

variable {α : Type}

/-- The lasting listener that comes with a step. -/
def subscribed : Step α × Told α → Option Nat
  | (.subscribe, .listener id) => some id
  | _ => none

/-- Whether a listener stops listening with a step. -/
def Step.leaves (id : Nat) : Step α → Bool
  | .unsubscribe other => other = id
  | _ => false

theorem Step.leaves_iff {id : Nat} {taken : Step α} :
    taken.leaves id = true ↔ taken = .unsubscribe id := by
  cases taken <;> simp [Step.leaves]

theorem subscribed_eq_some {id : Nat} {entry : Step α × Told α} :
    subscribed entry = some id ↔ entry = (.subscribe, .listener id) := by
  unfold subscribed
  split
  · next other => simp
  · next apart => exact iff_of_false nofun fun same => apart id same

namespace Topic

variable {topic next : Topic α}

/-! ## Taken off by a publishing -/

/-- Those whom a publishing takes off the list when it ends: whom it has found
gone, and who are not there when it gets to them. -/
def condemned (publishing : Publishing α) (there : Nat → Bool) : List Nat :=
  publishing.gone ++ publishing.rest.filter fun id => !there id

section Proceed

variable {publishing : Publishing α} {there : Nat → Bool}

/-- Going on does not change whom a publishing is to take off. -/
theorem condemned_proceed (known : ∀ id, topic.live id = there id)
    (member : publishing ∈ topic.publishings) {later : Publishing α}
    (present : later ∈ (topic.proceed publishing).2.publishings) :
    ∃ old ∈ topic.publishings, old.ticket = later.ticket ∧
      condemned old there = condemned later there := by
  rcases topic.proceed_cases publishing with ⟨-, ended⟩ | ⟨-, waits⟩
  · rw [ended] at present
    exact ⟨later, (List.mem_filter.mp present).1, rfl, rfl⟩
  · rw [waits] at present
    rcases List.mem_map.mp present with ⟨old, before, rfl⟩
    split
    · next own =>
      refine ⟨publishing, member, rfl, ?_⟩
      rcases serve_account topic.capacity publishing.ticket publishing.value topic.boxes
        publishing.rest with ⟨past, split, found, -⟩
      have gone_there : (fun id => !(boxOf topic.boxes id).isSome) = fun id => !there id :=
        funext fun id => congrArg (! ·) (known id)
      rw [gone_there] at found
      change publishing.gone ++ publishing.rest.filter _ =
        publishing.gone ++ (topic.progress publishing).gone ++
          (topic.progress publishing).rest.filter _
      rw [progress, found, List.append_assoc, ← List.filter_append, ← split]
    · exact ⟨old, before, rfl, rfl⟩

/-- Whoever is taken off the list is taken off by a publishing that ends. -/
theorem listed_proceed (publishing : Publishing α) (known : ∀ id, topic.live id = there id)
    {listener : Listener}
    (listed : listener ∈ topic.listeners) :
    listener ∈ (topic.proceed publishing).2.listeners ∨
      ((topic.proceed publishing).1.isSome ∧ listener.id ∈ condemned publishing there) := by
  rcases topic.proceed_cases publishing with ⟨done, ended⟩ | ⟨-, waits⟩
  · rw [ended]
    by_cases gone : listener.id ∈ publishing.gone ++ (topic.progress publishing).gone
    · refine .inr ⟨rfl, (List.mem_append.mp gone).elim (List.mem_append_left _) fun found => ?_⟩
      rcases boxOf_of_mem_gone found with ⟨owed, absent⟩
      refine List.mem_append_right _ (List.mem_filter.mpr ⟨owed, ?_⟩)
      have away : topic.live listener.id = false := by
        unfold live
        rw [show topic.box? listener.id = none from absent]
        rfl
      rw [← known, away]
      rfl
    · exact .inl (List.mem_filter.mpr ⟨listed, decide_eq_true gone⟩)
  · rw [waits]
    exact .inl listed

end Proceed

theorem listed_resumeAll {there : Nat → Bool} (known : ∀ id, topic.live id = there id)
    (tickets : List Nat) {listener : Listener} (listed : listener ∈ topic.listeners) :
    listener ∈ (topic.resumeAll tickets).2.listeners ∨
      ∃ publishing ∈ topic.publishings,
        returnedBy publishing.ticket (topic.resumeAll tickets).1 ≠ [] ∧
          listener.id ∈ condemned publishing there := by
  -- Whom a publishing is to take off is known from the beginning.
  refine (@resumeAll_kept α topic (fun ended later => (∀ id, later.live id = there id) ∧
    (∀ publishing ∈ later.publishings, ∃ old ∈ topic.publishings,
      old.ticket = publishing.ticket ∧ condemned old there = condemned publishing there) ∧
    (listener ∈ later.listeners ∨ ∃ publishing ∈ topic.publishings,
      returnedBy publishing.ticket ended ≠ [] ∧ listener.id ∈ condemned publishing there))
    ?_ [] ⟨known, fun publishing member => ⟨publishing, member, rfl, rfl⟩, .inl listed⟩ tickets).2.2
  intro ended later publishing member ⟨known, before, listed⟩
  refine ⟨fun id => (live_proceed _ _ id).trans (known id), fun other present => ?_, ?_⟩
  · rcases condemned_proceed known member present with ⟨old, earlier, ticket, same⟩
    rcases before old earlier with ⟨oldest, first, ticket_first, same_first⟩
    exact ⟨oldest, first, ticket_first.trans ticket, same_first.trans same⟩
  · rcases listed with stays | ⟨old, first, returned, gone⟩
    · refine (listed_proceed publishing known stays).imp_right ?_
      rintro ⟨ends, gone⟩
      rcases Option.isSome_iff_exists.mp ends with ⟨served, returns⟩
      rcases before publishing member with ⟨old, first, ticket, same⟩
      refine ⟨old, first, ?_, same ▸ gone⟩
      simp [returns, returnedBy, ticket]
    · refine .inr ⟨old, first, fun silent => returned ?_, gone⟩
      rw [returnedBy_append] at silent
      exact (List.append_eq_nil_iff.mp silent).1

theorem resumeAll_listeners (topic : Topic α) (tickets : List Nat) :
    (topic.resumeAll tickets).2.listeners.Sublist topic.listeners :=
  resumeAll_keeps (fun later => later.listeners.Sublist topic.listeners)
    (fun _ fewer => (proceed_listeners _ _).trans fewer) (List.Sublist.refl _) tickets

/-! ## One step -/

/-- The publishings that may go on in a step: the unfinished ones, and the one
that begins. -/
def goers (topic : Topic α) (taken : Step α) : List (Publishing α) :=
  topic.publishings ++ taken.published.map topic.opening

theorem Orderly.fares_goer (orderly : topic.Orderly) (settled : topic.Settled) (taken : Step α)
    {publishing : Publishing α} (goes : publishing ∈ topic.goers taken) :
    Fares (topic.step taken).2.2.live publishing (topic.step taken).2.2
      (returnedBy publishing.ticket (topic.step taken).2.1) := by
  rcases List.mem_append.mp goes with old | new
  · exact orderly.fares_step settled taken old
  · rcases topic.act_cases taken with ⟨value, rfl⟩ | ⟨nothing, -⟩
    · rw [List.mem_singleton.mp new]
      exact orderly.fares_publish settled value
    · rw [nothing] at new
      cases new

/-- Whatever is not to publish takes nobody off the list, but who stops listening. -/
theorem listed_act (topic : Topic α) {taken : Step α} (nothing : taken.published = [])
    {listener : Listener} (listed : listener ∈ topic.listeners) :
    listener ∈ (topic.act taken).2.2.listeners ∨ taken = .unsubscribe listener.id := by
  cases taken with
  | publish value => cases nothing
  | subscribe => exact .inl (List.mem_append_left _ listed)
  | listenOnce => exact .inl (List.mem_append_left _ listed)
  | unsubscribe id =>
    by_cases own : listener.id = id
    · exact .inr (congrArg Step.unsubscribe own.symm)
    · exact .inl (List.mem_filter.mpr ⟨listed, decide_eq_true own⟩)
  | receive id =>
    rcases topic.act_receive_frame id with ⟨boxes, frame⟩
    exact .inl (by rwa [frame])
  | drop id => exact .inl listed
  | poll id =>
    rcases topic.act_poll_frame id with ⟨shots, frame⟩
    exact .inl (by rwa [frame])
  | dropOnce id => exact .inl listed

/-- A publishing that ends in a step takes a listener off the list. -/
def TakenOff (topic : Topic α) (taken : Step α) (id : Nat) : Prop :=
  ∃ publishing ∈ topic.goers taken, returnedBy publishing.ticket (topic.step taken).2.1 ≠ [] ∧
    id ∈ condemned publishing (topic.step taken).2.2.live

/-- Whoever is still on the list when others begin to go on stays there, or is
taken off by one of them. -/
theorem listed_later (topic : Topic α) (taken : Step α) {listener : Listener}
    (listed : listener ∈ (topic.act taken).2.2.listeners)
    (before : ∀ publishing ∈ (topic.act taken).2.2.publishings, ∃ old ∈ topic.goers taken,
      old.ticket = publishing.ticket ∧ condemned old (topic.step taken).2.2.live =
        condemned publishing (topic.step taken).2.2.live) :
    listener ∈ (topic.step taken).2.2.listeners ∨ topic.TakenOff taken listener.id := by
  have known : ∀ id, (topic.act taken).2.2.live id = (topic.step taken).2.2.live id :=
    fun id => (topic.live_step taken id).symm
  have onward := listed_resumeAll known ((topic.act taken).2.2.publishings.map (·.ticket)) listed
  unfold TakenOff
  rw [step_eq] at before onward ⊢
  refine onward.imp_right ?_
  rintro ⟨publishing, present, returned, gone⟩
  rcases before publishing present with ⟨old, goes, same, equal⟩
  refine ⟨old, goes, fun silent => returned ?_, equal ▸ gone⟩
  rw [returnedBy_append] at silent
  exact same ▸ (List.append_eq_nil_iff.mp silent).2

/-- How a listener comes off the list in a step. -/
theorem listed_step (topic : Topic α) (taken : Step α) {listener : Listener}
    (listed : listener ∈ topic.listeners) :
    listener ∈ (topic.step taken).2.2.listeners ∨ taken = .unsubscribe listener.id ∨
      (∃ value id, taken = .publish value ∧ listener = .once id) ∨
      topic.TakenOff taken listener.id := by
  rcases topic.act_cases taken with ⟨value, rfl⟩ | ⟨nothing, quiet⟩
  · cases listener with
    | once id => exact .inr (.inr (.inl ⟨value, id, rfl, rfl⟩))
    | lasting id =>
      have opened : .lasting id ∈ (topic.opened value).listeners :=
        List.mem_map_of_mem (List.mem_filterMap.mpr ⟨_, listed, rfl⟩)
      have known : ∀ other, (topic.opened value).live other =
          (topic.step (.publish value)).2.2.live other := by
        intro other
        rw [live_step, act_publish, live_proceed]
      have member := topic.opening_mem_opened value
      have acted := topic.act_publish value
      rcases listed_proceed (topic.opening value) known opened with
        stays | ⟨ended, gone⟩
      · refine (topic.listed_later (.publish value) (by rw [acted]; exact stays) ?_).imp_right
          fun off => .inr (.inr off)
        intro publishing present
        rw [acted] at present
        exact condemned_proceed known member present
      · rcases Option.isSome_iff_exists.mp ended with ⟨served, returns⟩
        refine .inr (.inr (.inr ⟨topic.opening value, member, fun silent => ?_, gone⟩))
        rw [step_eq, acted, returnedBy_append, returns] at silent
        simp [returnedBy, opening] at silent
  · rcases topic.listed_act nothing listed with stays | leaves
    · refine (topic.listed_later taken stays fun publishing present => ?_).imp_right
        fun off => .inr (.inr off)
      rw [quiet.publishings_eq] at present
      exact ⟨publishing, List.mem_append_left _ present, rfl, rfl⟩
    · exact .inr (.inl leaves)

/-- Whoever is on the list after a step was there before and did not stop
listening, or has come. -/
theorem of_listed_step (topic : Topic α) (taken : Step α) {id : Nat}
    (listed : .lasting id ∈ (topic.step taken).2.2.listeners) :
    (.lasting id ∈ topic.listeners ∧ taken ≠ .unsubscribe id) ∨
      subscribed (taken, (topic.step taken).1) = some id := by
  have before : .lasting id ∈ (topic.act taken).2.2.listeners := by
    rw [step_eq] at listed
    exact (resumeAll_listeners _ _).subset listed
  cases taken with
  | publish value => exact .inl ⟨topic.publish_listeners value before, by simp⟩
  | subscribe =>
    rcases List.mem_append.mp before with old | new
    · exact .inl ⟨old, by simp⟩
    · have same := Listener.lasting.inj (List.mem_singleton.mp new)
      exact .inr (subscribed_eq_some.mpr (by rw [same]; rfl))
  | listenOnce =>
    rcases List.mem_append.mp before with old | new
    · exact .inl ⟨old, by simp⟩
    · cases List.mem_singleton.mp new
  | unsubscribe other =>
    rcases List.mem_filter.mp before with ⟨old, apart⟩
    refine .inl ⟨old, fun same => ?_⟩
    rcases Step.unsubscribe.inj same with rfl
    simp [Listener.id] at apart
  | receive other =>
    rcases topic.act_receive_frame other with ⟨boxes, frame⟩
    rw [frame] at before
    exact .inl ⟨before, by simp⟩
  | drop other => exact .inl ⟨before, by simp⟩
  | poll other =>
    rcases topic.act_poll_frame other with ⟨shots, frame⟩
    rw [frame] at before
    exact .inl ⟨before, by simp⟩
  | dropOnce other => exact .inl ⟨before, by simp⟩

/-- Nobody whom a publishing has taken off in a step is on the list after it. -/
theorem Orderly.not_listed_of_takenOff (orderly : topic.Orderly) (settled : topic.Settled)
    {taken : Step α} {id : Nat} (off : topic.TakenOff taken id) :
    ∀ listener ∈ (topic.step taken).2.2.listeners, listener.id ≠ id := by
  rcases off with ⟨publishing, goes, returned, gone⟩
  have fares := orderly.fares_goer settled taken goes
  generalize returnedBy publishing.ticket _ = numbers at fares returned
  cases fares with
  | waits => exact absurd rfl returned
  | ends finished forgotten =>
    rintro listener listed rfl
    exact forgotten listener listed gone

/-- What a step does to the list of lasting listeners. -/
theorem Orderly.lasting_step (orderly : topic.Orderly) (settled : topic.Settled) (taken : Step α)
    (id : Nat) :
    .lasting id ∈ (topic.step taken).2.2.listeners ↔
      ((.lasting id ∈ topic.listeners ∧ taken ≠ .unsubscribe id) ∨
        subscribed (taken, (topic.step taken).1) = some id) ∧ ¬ topic.TakenOff taken id := by
  constructor
  · intro listed
    exact ⟨topic.of_listed_step taken listed, fun off =>
      orderly.not_listed_of_takenOff settled off _ listed rfl⟩
  · rintro ⟨⟨listed, stays⟩ | came, kept⟩
    · rcases topic.listed_step taken listed with here | leaves | ⟨value, other, -, once⟩ | off
      · exact here
      · exact absurd leaves stays
      · cases once
      · exact absurd off kept
    · rcases Prod.mk.inj (subscribed_eq_some.mp came) with ⟨rfl, told⟩
      obtain rfl : topic.nextId = id := Told.listener.inj told
      have listed : .lasting topic.nextId ∈ (topic.act .subscribe).2.2.listeners :=
        List.mem_append_right _ (List.mem_singleton_self _)
      refine (topic.listed_later .subscribe listed fun publishing present => ?_).resolve_right kept
      exact ⟨publishing, List.mem_append_left _ present, rfl, rfl⟩

/-! ## Many steps -/

/-- A publishing has returned within some steps and has found a listener gone. -/
def Doomed (topic : Topic α) (steps : List (Step α)) (publishing : Publishing α) (id : Nat) :
    Prop :=
  returnedBy publishing.ticket (topic.returns steps) ≠ [] ∧
    id ∈ condemned publishing (reached publishing.ticket (topic.moments steps))

theorem resumeAll_tickets (topic : Topic α) (tickets : List Nat) :
    ((topic.resumeAll tickets).2.publishings.map (·.ticket)).Sublist
      (topic.publishings.map (·.ticket)) :=
  resumeAll_keeps
    (fun later => (later.publishings.map (·.ticket)).Sublist (topic.publishings.map (·.ticket)))
    (fun _ fewer => (proceed_tickets _ _).trans fewer) (List.Sublist.refl _) tickets

theorem step_tickets (topic : Topic α) (taken : Step α) :
    ((topic.step taken).2.2.publishings.map (·.ticket)).Sublist
      ((topic.goers taken).map (·.ticket)) := by
  rw [step_eq]
  refine (resumeAll_tickets _ _).trans ?_
  rcases topic.act_cases taken with ⟨value, rfl⟩ | ⟨nothing, quiet⟩
  · rw [act_publish]
    exact (topic.opened value).proceed_tickets (topic.opening value)
  · rw [quiet.publishings_eq]
    exact (List.sublist_append_left _ _).map _

/-- A publishing that waits after a step is one of those that could go on in it. -/
theorem Orderly.goer_of_mem (orderly : topic.Orderly) (settled : topic.Settled) {taken : Step α}
    {later : Publishing α} (member : later ∈ (topic.step taken).2.2.publishings) :
    ∃ publishing ∈ topic.goers taken, publishing.ticket = later.ticket ∧
      later.gone ++ later.rest ⊆ publishing.gone ++ publishing.rest := by
  rcases step_acts orderly settled taken with ⟨acts, -⟩
  rcases List.mem_map.mp ((topic.step_tickets taken).subset (List.mem_map_of_mem member)) with
    ⟨publishing, goes, same⟩
  refine ⟨publishing, goes, same, ?_⟩
  have fares := orderly.fares_goer settled taken goes
  generalize returnedBy publishing.ticket _ = numbers at fares
  cases fares with
  | @waits past waiting present ticket_eq value_eq split gone_eq served_eq =>
    obtain rfl := acts.orderly.sound.publishing_unique member present
      (same.symm.trans ticket_eq.symm)
    rw [gone_eq, split, List.append_assoc]
    exact List.Sublist.subset
      ((List.Sublist.refl _).append (List.filter_sublist.append (List.Sublist.refl _)))
  | ends finished forgotten => exact absurd same.symm (finished later member)

/-- A publishing finds a listener gone in the first step, or later on. -/
theorem Orderly.doomed_cons (orderly : topic.Orderly) (settled : topic.Settled) {taken : Step α}
    {rest : List (Step α)} {publishing : Publishing α} (goes : publishing ∈ topic.goers taken)
    (distinct : publishing.rest.Nodup) (id : Nat) :
    topic.Doomed (taken :: rest) publishing id ↔
      (returnedBy publishing.ticket (topic.step taken).2.1 ≠ [] ∧
        id ∈ condemned publishing (topic.step taken).2.2.live) ∨
      ∃ later ∈ (topic.step taken).2.2.publishings, later.ticket = publishing.ticket ∧
        (topic.step taken).2.2.Doomed rest later id := by
  rcases step_acts orderly settled taken with ⟨acts, still⟩
  have fares := orderly.fares_goer settled taken goes
  have returns : returnedBy publishing.ticket (topic.returns (taken :: rest)) =
      returnedBy publishing.ticket (topic.step taken).2.1 ++
        returnedBy publishing.ticket ((topic.step taken).2.2.returns rest) :=
    returnedBy_append _ _ _
  have moments : topic.moments (taken :: rest) =
      (topic.step taken).2.2 :: (topic.step taken).2.2.moments rest := rfl
  unfold Doomed
  rw [returns, moments]
  generalize returnedBy publishing.ticket (topic.step taken).2.1 = numbers at fares
  generalize (topic.step taken).2.2 = next at *
  cases fares with
  | @waits past waiting present ticket_eq value_eq split gone_eq served_eq =>
    rcases Fares.passed_split acts.orderly.sound present ticket_eq split distinct with
      ⟨passed, owed⟩
    have before : ∀ other ∈ past, reached publishing.ticket (next :: next.moments rest) other =
        next.live other := fun other member => by rw [reached_cons, if_pos (passed other member)]
    have after : ∀ other ∈ waiting.rest,
        reached publishing.ticket (next :: next.moments rest) other =
          reached publishing.ticket (next.moments rest) other := fun other member => by
      rw [reached_cons, if_neg (Bool.eq_false_iff.mp (owed other member))]
    have same : condemned publishing (reached publishing.ticket (next :: next.moments rest)) =
        condemned waiting (reached waiting.ticket (next.moments rest)) := by
      unfold condemned
      rw [gone_eq, split, ticket_eq, List.filter_append, Fares.filter_not_congr before,
        Fares.filter_not_congr after, List.append_assoc]
    rw [same, List.nil_append]
    constructor
    · rintro ⟨returned, found⟩
      exact .inr ⟨waiting, present, ticket_eq, ticket_eq ▸ returned, found⟩
    · rintro (⟨silent, -⟩ | ⟨later, member, named, returned, found⟩)
      · exact absurd rfl silent
      · obtain rfl := acts.orderly.sound.publishing_unique member present
          (named.trans ticket_eq.symm)
        exact ⟨named ▸ returned, found⟩
  | ends finished forgotten =>
    have before : ∀ other ∈ publishing.rest,
        reached publishing.ticket (next :: next.moments rest) other = next.live other :=
      fun other _ => by
        rw [reached_cons, if_pos]
        exact passed_iff.mpr fun own member same => absurd same (finished own member)
    have same : condemned publishing (reached publishing.ticket (next :: next.moments rest)) =
        condemned publishing next.live := by
      unfold condemned
      rw [Fares.filter_not_congr before]
    rw [same]
    constructor
    · exact fun found => .inl ⟨List.cons_ne_nil _ _, found.2⟩
    · rintro (⟨-, found⟩ | ⟨later, member, named, -⟩)
      · exact ⟨by simp, found⟩
      · exact absurd named (finished later member)

/-- Those whom publishings that have begun and returned within some steps have
found gone: who was on their list and not there when its turn came. -/
def pruned (topic : Topic α) : List (Step α) → List Nat
  | [] => []
  | taken :: rest =>
    (taken.published.flatMap fun _ =>
      if returnedBy topic.nextTicket (topic.returns (taken :: rest)) = [] then []
      else topic.invited.filter fun id =>
        !reached topic.nextTicket (topic.moments (taken :: rest)) id) ++
      (topic.step taken).2.2.pruned rest

theorem mem_pruned_cons (topic : Topic α) (taken : Step α) (rest : List (Step α)) (id : Nat) :
    id ∈ topic.pruned (taken :: rest) ↔
      (∃ publishing ∈ taken.published.map topic.opening,
        topic.Doomed (taken :: rest) publishing id) ∨
      id ∈ (topic.step taken).2.2.pruned rest := by
  rw [pruned, List.mem_append]
  refine or_congr_left ?_
  rcases topic.act_cases taken with ⟨value, rfl⟩ | ⟨nothing, -⟩
  · have found : topic.Doomed (.publish value :: rest) (topic.opening value) id ↔
        returnedBy topic.nextTicket (topic.returns (.publish value :: rest)) ≠ [] ∧
          id ∈ topic.invited.filter fun id =>
            !reached topic.nextTicket (topic.moments (.publish value :: rest)) id := by
      rw [opening_eq]
      rfl
    have one : (∃ publishing ∈ [topic.opening value],
        topic.Doomed (.publish value :: rest) publishing id) ↔
          topic.Doomed (.publish value :: rest) (topic.opening value) id := by simp
    rw [show (Step.publish value).published.map topic.opening = [topic.opening value] from rfl, one,
      found, show (Step.publish value).published = [value] from rfl, List.flatMap_singleton]
    by_cases pending : returnedBy topic.nextTicket (topic.returns (.publish value :: rest)) = []
    · rw [if_pos pending]
      exact iff_of_false List.not_mem_nil fun both => both.1 pending
    · rw [if_neg pending]
      exact (and_iff_right pending).symm
  · rw [nothing]
    simp

theorem Orderly.goer_nodup (orderly : topic.Orderly) {taken : Step α} {publishing : Publishing α}
    (goes : publishing ∈ topic.goers taken) : publishing.rest.Nodup := by
  rcases List.mem_append.mp goes with old | new
  · exact orderly.rest_nodup old
  · rcases List.mem_map.mp new with ⟨value, -, rfl⟩
    exact (orderly.opened value).rest_nodup (topic.opening_mem_opened value)

theorem Orderly.not_doomed_of_new (orderly : topic.Orderly) {taken : Step α}
    {publishing : Publishing α} (goes : publishing ∈ topic.goers taken) {id : Nat}
    (new : topic.nextId ≤ id) : id ∉ publishing.gone ++ publishing.rest := by
  intro known
  rcases List.mem_append.mp goes with old | opens
  · rcases List.mem_append.mp known with gone | owed
    · exact absurd (orderly.gone_away publishing old id gone).1 (Nat.not_lt.mpr new)
    · exact absurd (orderly.rest_old publishing old id owed) (Nat.not_lt.mpr new)
  · rcases List.mem_map.mp opens with ⟨value, -, rfl⟩
    exact absurd ((orderly.opened value).rest_old _ (topic.opening_mem_opened value) id known)
      (Nat.not_lt.mpr new)

/-- Whoever has a number stays on the list unless it stops listening or is found
gone. -/
theorem Orderly.lasting_run (orderly : topic.Orderly) (settled : topic.Settled)
    {steps : List (Step α)} {id : Nat} (old : id < topic.nextId) :
    .lasting id ∈ (topic.run steps).2.listeners ↔
      .lasting id ∈ topic.listeners ∧ .unsubscribe id ∉ steps ∧ id ∉ topic.pruned steps ∧
        ∀ publishing ∈ topic.publishings, ¬ topic.Doomed steps publishing id := by
  induction steps generalizing topic with
  | nil => simp [run, pruned, Doomed, returns, returnedBy]
  | cons taken rest inductionHypothesis =>
    rcases step_acts orderly settled taken with ⟨acts, still⟩
    have unborn : subscribed (taken, (topic.step taken).1) ≠ some id := fun came =>
      absurd (acts.born id (Prod.mk.inj (subscribed_eq_some.mp came)).2).1 (Nat.ne_of_lt old)
    have doomed : (∃ publishing ∈ topic.goers taken, topic.Doomed (taken :: rest) publishing id) ↔
        topic.TakenOff taken id ∨ ∃ later ∈ (topic.step taken).2.2.publishings,
          (topic.step taken).2.2.Doomed rest later id := by
      constructor
      · rintro ⟨publishing, goes, found⟩
        rcases (orderly.doomed_cons settled goes (orderly.goer_nodup goes) id).mp found with
          now | ⟨later, member, -, found⟩
        · exact .inl ⟨publishing, goes, now⟩
        · exact .inr ⟨later, member, found⟩
      · rintro (⟨publishing, goes, now⟩ | ⟨later, member, found⟩)
        · exact ⟨publishing, goes,
            (orderly.doomed_cons settled goes (orderly.goer_nodup goes) id).mpr (.inl now)⟩
        · rcases orderly.goer_of_mem settled member with ⟨publishing, goes, same, -⟩
          exact ⟨publishing, goes, (orderly.doomed_cons settled goes (orderly.goer_nodup goes)
            id).mpr (.inr ⟨later, member, same.symm, found⟩)⟩
    have whole : (∃ publishing ∈ topic.goers taken, topic.Doomed (taken :: rest) publishing id) ↔
        (∃ publishing ∈ topic.publishings, topic.Doomed (taken :: rest) publishing id) ∨
          ∃ publishing ∈ taken.published.map topic.opening,
            topic.Doomed (taken :: rest) publishing id := by
      simp only [goers, List.mem_append, or_and_right, exists_or]
    rw [run_cons]
    have later := inductionHypothesis acts.orderly still
      (Nat.lt_of_lt_of_le old (topic.step_frame taken).2.1)
    have now := orderly.lasting_step settled taken id
    have pruned := topic.mem_pruned_cons taken rest id
    have leaves : .unsubscribe id ∈ taken :: rest ↔
        taken = .unsubscribe id ∨ .unsubscribe id ∈ rest := by
      rw [List.mem_cons, eq_comm]
    have pending : ∀ (topic : Topic α) (steps : List (Step α)),
        (∀ publishing ∈ topic.publishings, ¬ topic.Doomed steps publishing id) ↔
          ¬ ∃ publishing ∈ topic.publishings, topic.Doomed steps publishing id := by
      simp
    rw [later, now, pruned, leaves, pending, pending]
    constructor
    · rintro ⟨⟨⟨listed, stays⟩ | came, kept⟩, stays_on, unpruned, free⟩
      · have nobody := fun found => (doomed.mp found).elim kept free
        exact ⟨listed, fun away => away.elim stays stays_on,
          fun gone => gone.elim (fun own => nobody (whole.mpr (.inr own))) unpruned,
          fun found => nobody (whole.mpr (.inl found))⟩
      · exact absurd came unborn
    · rintro ⟨listed, stays, unpruned, free⟩
      have nobody := fun found => (whole.mp found).elim free fun own => unpruned (.inl own)
      exact ⟨⟨.inl ⟨listed, fun away => stays (.inl away)⟩,
          fun off => nobody (doomed.mpr (.inl off))⟩,
        fun away => stays (.inr away), fun gone => unpruned (.inr gone),
        fun found => nobody (doomed.mpr (.inr found))⟩

/-- Whoever comes is on the list unless it stops listening or is found gone. -/
theorem Orderly.lasting_since (orderly : topic.Orderly) (settled : topic.Settled)
    {steps : List (Step α)} {id : Nat} (new : topic.nextId ≤ id) :
    .lasting id ∈ (topic.run steps).2.listeners ↔
      (.subscribe, .listener id) ∈ (topic.run steps).1 ∧
        .unsubscribe id ∉ (since id (topic.run steps).1).map (·.1) ∧ id ∉ topic.pruned steps := by
  induction steps generalizing topic with
  | nil =>
    refine iff_of_false (fun listed => ?_) fun both => List.not_mem_nil both.1
    exact absurd (orderly.sound.listeners_old _ listed) (Nat.not_lt.mpr new)
  | cons taken rest inductionHypothesis =>
    rcases step_acts orderly settled taken with ⟨acts, still⟩
    have unknown : ∀ publishing ∈ taken.published.map topic.opening,
        ¬ topic.Doomed (taken :: rest) publishing id := by
      rintro publishing opens ⟨-, found⟩
      refine orderly.not_doomed_of_new (List.mem_append_right _ opens) new ?_
      exact ((List.Sublist.refl _).append List.filter_sublist).subset found
    have pruned : id ∈ topic.pruned (taken :: rest) ↔ id ∈ (topic.step taken).2.2.pruned rest := by
      rw [mem_pruned_cons]
      exact or_iff_right fun ⟨publishing, opens, found⟩ => unknown publishing opens found
    rw [run_cons, pruned]
    by_cases birth : (topic.step taken).1 = .listener id
    · rcases acts.born id birth with ⟨same, next_eq⟩
      have begins : since id ((taken, (topic.step taken).1) ::
          ((topic.step taken).2.2.run rest).1) = ((topic.step taken).2.2.run rest).1 := by
        rw [birth]
        exact if_pos rfl
      have came : subscribed (taken, (topic.step taken).1) = some id ↔ taken = .subscribe := by
        rw [subscribed_eq_some, birth, Prod.mk.injEq]
        exact and_iff_left rfl
      have told : (.subscribe, .listener id) ∈ (taken, (topic.step taken).1) ::
          ((topic.step taken).2.2.run rest).1 ↔ taken = .subscribe := by
        rw [List.mem_cons, eq_comm, ← subscribed_eq_some, came]
        refine or_iff_left fun after => ?_
        have fresh := acts.orderly.nextId_le_of_told still after
        omega
      have unlisted : .lasting id ∉ topic.listeners := fun listed =>
        absurd (orderly.sound.listeners_old _ listed) (Nat.not_lt.mpr new)
      -- Nobody who goes on in this step, or has to go on later, has heard of it.
      have kept : ¬ topic.TakenOff taken id := by
        rintro ⟨publishing, goes, -, found⟩
        refine orderly.not_doomed_of_new goes new ?_
        exact ((List.Sublist.refl _).append List.filter_sublist).subset found
      have free : ∀ later ∈ (topic.step taken).2.2.publishings,
          ¬ (topic.step taken).2.2.Doomed rest later id := by
        rintro later member ⟨-, found⟩
        rcases orderly.goer_of_mem settled member with ⟨publishing, goes, -, names⟩
        refine orderly.not_doomed_of_new goes new (names ?_)
        exact ((List.Sublist.refl _).append List.filter_sublist).subset found
      rw [begins, run_steps, told, acts.orderly.lasting_run still (by omega),
        orderly.lasting_step settled, came]
      constructor
      · rintro ⟨⟨⟨listed, -⟩ | comes, -⟩, stays, unpruned, -⟩
        · exact absurd listed unlisted
        · exact ⟨comes, stays, unpruned⟩
      · rintro ⟨comes, stays, unpruned⟩
        exact ⟨⟨.inr comes, kept⟩, stays, unpruned, free⟩
    · rw [since_cons_of_ne birth, inductionHypothesis acts.orderly still (acts.nextId_le new birth)]
      refine and_congr_left' ?_
      rw [List.mem_cons]
      exact (or_iff_right fun same => birth (Prod.mk.inj same).2.symm).symm

/-! ## Whoever has gone away stays away -/

theorem Orderly.live_moments (orderly : topic.Orderly) (settled : topic.Settled)
    {steps : List (Step α)} {id : Nat} (old : id < topic.nextId) (away : topic.live id = false) :
    ∀ moment ∈ topic.moments steps, moment.live id = false := by
  induction steps generalizing topic with
  | nil => nofun
  | cons taken rest inductionHypothesis =>
    rcases step_acts orderly settled taken with ⟨acts, still⟩
    have later : (topic.step taken).2.2.live id = false := by
      by_contra there
      have before := (acts.keeps id old ((Bool.not_eq_false _).mp there)).1
      exact absurd (before.symm.trans away) nofun
    intro moment member
    rcases List.mem_cons.mp member with rfl | after
    · exact later
    · exact inductionHypothesis acts.orderly still
        (Nat.lt_of_lt_of_le old (topic.step_frame taken).2.1) later moment after

theorem reached_eq_false {ticket id : Nat} {moments : List (Topic α)}
    (away : ∀ moment ∈ moments, moment.live id = false) : reached ticket moments id = false := by
  unfold reached
  cases found : moments.find? fun moment => moment.passed ticket id with
  | none => rfl
  | some moment => exact away moment (List.mem_of_find?_eq_some found)

/-- Whoever a publishing takes off the list is not there. -/
theorem Orderly.live_of_takenOff (orderly : topic.Orderly) (settled : topic.Settled)
    {taken : Step α} {id : Nat} (off : topic.TakenOff taken id) :
    (topic.step taken).2.2.live id = false := by
  rcases off with ⟨publishing, goes, -, found⟩
  rcases List.mem_append.mp found with gone | owed
  · have known : id < topic.nextId ∧ topic.live id = false := by
      rcases List.mem_append.mp goes with old | new
      · rcases orderly.gone_away publishing old id gone with ⟨known, absent⟩
        exact ⟨known, by rw [live, show topic.box? id = none from absent]; rfl⟩
      · rcases List.mem_map.mp new with ⟨value, -, rfl⟩
        cases gone
    have later : ∀ moment ∈ topic.moments [taken], moment.live id = false :=
      orderly.live_moments settled known.1 known.2
    exact later _ List.mem_cons_self
  · simpa using (List.mem_filter.mp owed).2

/-! ## The count -/

theorem listenerCount_eq (topic : Topic α) :
    topic.listenerCount = topic.invited.length + topic.onces.length := by
  unfold listenerCount invited onces
  induction topic.listeners with
  | nil => rfl
  | cons listener rest inductionHypothesis =>
    cases listener with
    | lasting id =>
      change rest.length + 1 = (rest.filterMap Listener.lasting?).length + 1 +
        (rest.filterMap Listener.once?).length
      omega
    | once id =>
      change rest.length + 1 = (rest.filterMap Listener.lasting?).length +
        ((rest.filterMap Listener.once?).length + 1)
      omega

/-- The lasting listeners that have come, and have neither stopped listening nor
been found gone. -/
def attached (trace : List (Step α × Told α)) (gone : List Nat) : List Nat :=
  (trace.filterMap subscribed).filter fun id =>
    !((since id trace).any fun entry => entry.1.leaves id) && id ∉ gone

theorem subscribed_nodup (orderly : topic.Orderly) (settled : topic.Settled)
    (steps : List (Step α)) : ((topic.run steps).1.filterMap subscribed).Nodup := by
  induction steps generalizing topic with
  | nil => exact List.nodup_nil
  | cons taken rest inductionHypothesis =>
    rcases step_acts orderly settled taken with ⟨acts, still⟩
    have later := inductionHypothesis acts.orderly still
    rw [run_cons, List.filterMap_cons]
    split
    · exact later
    · next id came =>
      refine List.nodup_cons.mpr ⟨fun again => ?_, later⟩
      rcases List.mem_filterMap.mp again with ⟨entry, member, same⟩
      rw [subscribed_eq_some.mp same] at member
      have fresh := acts.orderly.nextId_le_of_told still member
      have born := acts.born id (Prod.mk.inj (subscribed_eq_some.mp came)).2
      omega

theorem mem_invited {id : Nat} : id ∈ topic.invited ↔ .lasting id ∈ topic.listeners := by
  unfold invited
  rw [List.mem_filterMap]
  constructor
  · rintro ⟨other | other, member, same⟩
    · exact Option.some.inj same ▸ member
    · cases same
  · exact fun member => ⟨_, member, rfl⟩

/-- The list of lasting listeners, up to the order. -/
theorem invited_run (capacity : Nat) (steps : List (Step α)) :
    ((empty capacity).run steps).2.invited.Perm
      (attached ((empty capacity).run steps).1 ((empty capacity).pruned steps)) := by
  have begun : (empty capacity : Topic α).Orderly := orderly_empty capacity
  have nothing : (empty capacity : Topic α).Settled := nofun
  rcases run_orderly begun nothing steps with ⟨orderly, -⟩
  have distinct : ((empty capacity).run steps).2.invited.Nodup :=
    (lasting_sublist _).nodup orderly.sound.listeners_nodup
  refine (List.perm_ext_iff_of_nodup distinct
    ((subscribed_nodup begun nothing steps).filter _)).mpr fun id => ?_
  rw [mem_invited, List.mem_filter, List.mem_filterMap]
  have came : (∃ entry ∈ ((empty capacity).run steps).1, subscribed entry = some id) ↔
      (.subscribe, .listener id) ∈ ((empty capacity).run steps).1 := by
    simp only [subscribed_eq_some, exists_eq_right]
  have leaves : ((since id ((empty capacity).run steps).1).any fun entry => entry.1.leaves id) =
      true ↔ .unsubscribe id ∈ (since id ((empty capacity).run steps).1).map (·.1) := by
    simp only [List.any_eq_true, Step.leaves_iff, List.mem_map]
  have kept : (!((since id ((empty capacity).run steps).1).any fun entry => entry.1.leaves id) &&
      decide (id ∉ (empty capacity).pruned steps)) = true ↔
        .unsubscribe id ∉ (since id ((empty capacity).run steps).1).map (·.1) ∧
          id ∉ (empty capacity).pruned steps := by
    rw [← leaves]
    simp
  rw [came, kept]
  rcases Nat.eq_zero_or_pos id with rfl | positive
  · -- Numbers begin with one.
    refine iff_of_false (fun listed => ?_) fun both => ?_
    · cases ((begun.lasting_run nothing Nat.one_pos).mp listed).1
    · exact Nat.not_succ_le_zero _ (begun.nextId_le_of_told nothing both.1)
  · exact begun.lasting_since nothing positive

/-! ## Coming off the list -/

/-- Whoever was not there when a publishing began is not on the list when the
publishing has returned. -/
theorem Orderly.not_listed_of_returned (orderly : topic.Orderly) (settled : topic.Settled)
    {value : α} {later : List (Step α)}
    (returned : returnedBy topic.nextTicket (topic.returns (.publish value :: later)) ≠ [])
    {id : Nat} (listed : .lasting id ∈ topic.listeners) (away : topic.live id = false) :
    .lasting id ∉ (topic.run (.publish value :: later)).2.listeners := by
  have fares := orderly.fares_from settled value later
  have old : id < topic.nextId := orderly.sound.listeners_old _ listed
  rw [opening_eq] at fares
  generalize returnedBy _ _ = numbers at fares returned
  cases fares with
  | waits => exact absurd rfl returned
  | ends finished forgotten =>
    intro member
    refine forgotten _ member (List.mem_append_right _ (List.mem_filter.mpr
      ⟨mem_invited.mpr listed, ?_⟩))
    change (!reached topic.nextTicket (topic.moments (.publish value :: later)) id) = true
    rw [reached_eq_false (orderly.live_moments settled old away)]
    rfl

/-- Whoever comes off the list in a step stops listening, is served as a one-shot
listener, or is found gone by a publishing that returns. -/
theorem Orderly.off_step (orderly : topic.Orderly) (settled : topic.Settled) (apart : topic.Apart)
    {taken : Step α} {listener : Listener} (listed : listener ∈ topic.listeners)
    (off : listener ∉ (topic.step taken).2.2.listeners) :
    taken = .unsubscribe listener.id ∨
      (∃ value id, taken = .publish value ∧ listener = .once id) ∨
        ∃ id, listener = .lasting id ∧ (topic.step taken).2.2.live id = false ∧
          (topic.step taken).2.1 ≠ [] := by
  rcases topic.listed_step taken listed with stays | leaves | once | found
  · exact absurd stays off
  · exact .inl leaves
  · exact .inr (.inl once)
  · have away := orderly.live_of_takenOff settled found
    rcases found with ⟨publishing, goes, returned, gone⟩
    have returns : (topic.step taken).2.1 ≠ [] := fun silent => returned (by rw [silent]; rfl)
    cases listener with
    | lasting id => exact .inr (.inr ⟨id, rfl, away, returns⟩)
    | once id =>
      refine .inr (.inl ?_)
      rcases List.mem_append.mp goes with old | new
      · refine absurd ?_ (apart id (mem_filterMap_once.mpr listed) publishing old)
        exact ((List.Sublist.refl _).append List.filter_sublist).subset gone
      · rcases topic.act_cases taken with ⟨value, rfl⟩ | ⟨silent, -⟩
        · exact ⟨value, id, rfl, rfl⟩
        · rw [silent] at new
          cases new

/-! ## From the beginning -/

/-- Who comes, who is served once, and who is taken off the list.  Only lasting
listeners can stop listening.  After any such steps from an empty topic:

* a one-shot receiver has got the first value that was published after it came,
  from the step on in which that publishing began, and never another one;
* a lasting listener that is there is on the list;
* a publishing that has returned has left nobody on the list who was not there
  when it began;
* whoever comes off the list in one more step stops listening itself, or is a
  one-shot listener that is served, or is not there and found gone by a
  publishing that returns;
* who stops listening is not on the list after that;
* the topic counts the lasting listeners that have come and have neither stopped
  listening nor been found gone, and the one-shot listeners that have come since
  the last publishing began. -/
theorem listeners_come_and_go (capacity : Nat) (steps : List (Step α))
    (typed : ∀ id, .unsubscribe id ∈ steps →
      (.listenOnce, .listener id) ∉ ((empty capacity).run steps).1) :
    let trace := ((empty capacity).run steps).1
    let topic := ((empty capacity).run steps).2
    (∀ id, (.listenOnce, .listener id) ∈ trace →
      trace.flatMap (polled id) ++ topic.held id <+: (announced (since id trace)).take 1 ∧
        (.dropOnce id ∉ steps →
          trace.flatMap (polled id) ++ topic.held id = (announced (since id trace)).take 1)) ∧
    (∀ id, topic.live id = true → .lasting id ∈ topic.listeners) ∧
    (∀ earlier value later, steps = earlier ++ .publish value :: later →
      let start := ((empty capacity).run earlier).2
      returnedBy start.nextTicket (start.returns (.publish value :: later)) ≠ [] →
        ∀ id, .lasting id ∈ start.listeners → start.live id = false →
          .lasting id ∉ topic.listeners) ∧
    (∀ taken, ∀ listener ∈ topic.listeners, listener ∉ (topic.step taken).2.2.listeners →
      taken = .unsubscribe listener.id ∨
        (∃ value id, taken = .publish value ∧ listener = .once id) ∨
          ∃ id, listener = .lasting id ∧ (topic.step taken).2.2.live id = false ∧
            (topic.step taken).2.1 ≠ []) ∧
    (∀ id, ∀ listener ∈ (topic.step (.unsubscribe id)).2.2.listeners, listener.id ≠ id) ∧
    topic.listenerCount =
      (attached trace ((empty capacity).pruned steps)).length +
        ((lately trace).filterMap enlisted).length := by
  intro trace topic
  have begun : (empty capacity : Topic α).Orderly := orderly_empty capacity
  have nothing : (empty capacity : Topic α).Settled := nofun
  have kinds : (empty capacity : Topic α).Typed steps := fun id member => ⟨nofun, typed id member⟩
  rcases run_orderly begun nothing steps with ⟨orderly, settled⟩
  rcases onces_run capacity kinds with ⟨apart, onces⟩
  refine ⟨?_, ?_, ?_, ?_, ?_, ?_⟩
  · intro id came
    exact account_since begun nothing (apart_empty capacity) kinds nofun
      (begun.nextId_le_of_told nothing came) came
  · intro id there
    rcases Option.isSome_iff_exists.mp there with ⟨box, here⟩
    exact orderly.listened id box here
  · intro earlier value later split start returned id listed away
    rcases run_orderly begun nothing earlier with ⟨before, still⟩
    have last : topic = (start.run (.publish value :: later)).2 := by
      simp only [topic, split, run_append, start]
    rw [last]
    exact before.not_listed_of_returned still returned listed away
  · exact fun taken listener listed off => orderly.off_step settled apart listed off
  · intro id listener member
    rw [step_eq] at member
    have kept := (List.mem_filter.mp ((resumeAll_listeners _ _).subset member)).2
    simpa using kept
  · rw [listenerCount_eq, (invited_run capacity steps).length_eq, onces]

/-- One listener has gone away and is found gone, another stops listening, a
one-shot receiver has got its value and gives it away, and one that came later
still waits. -/
theorem listeners_come_and_go_in_turn :
    let steps : List (Step Nat) := [.subscribe, .subscribe, .listenOnce, .drop 2, .publish 10,
      .listenOnce, .poll 3, .subscribe, .unsubscribe 5]
    let trace := ((empty 0).run steps).1
    let topic := ((empty 0).run steps).2
    trace.flatMap (polled 3) ++ topic.held 3 = [10] ∧
      topic.listenerCount =
        (attached trace ((empty 0).pruned steps)).length +
          ((lately trace).filterMap enlisted).length ∧
      (empty 0).pruned steps = [2] ∧ attached trace [2] = [1] ∧
        (lately trace).filterMap enlisted = [4] := by
  intro steps trace topic
  have came : trace.map enlisted =
      [none, none, some 3, none, none, some 4, none, none, none] := rfl
  have typed : ∀ id, .unsubscribe id ∈ steps → (.listenOnce, .listener id) ∉ trace := by
    intro id member told
    obtain rfl : id = 5 := by simpa [steps] using member
    have listed := List.mem_map_of_mem (f := enlisted) told
    rw [came] at listed
    simp [enlisted] at listed
  rcases listeners_come_and_go 0 steps typed with ⟨once, -, -, -, -, count⟩
  have third : (.listenOnce, .listener 3) ∈ trace :=
    List.mem_cons_of_mem _ (List.mem_cons_of_mem _ List.mem_cons_self)
  refine ⟨((once 3 third).2 (by simp [steps])).trans rfl, count, ?_, ?_, ?_⟩
  all_goals
    simp only [trace, steps]
    decide +kernel

end Topic
end Bus
end Ventilation
