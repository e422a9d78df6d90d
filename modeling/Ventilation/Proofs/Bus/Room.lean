import Ventilation.Proofs.Bus.Course

namespace Ventilation
namespace Bus
namespace Topic

/-!
# Room in the queues

No queue ever holds more than the topic allows.  Between two steps a publishing
that has not ended waits at a listener that is there, and the queue of that
listener is full: whoever is first in the line finds no room, so there is none.
When the listener takes something, the first in the line has its place and goes
on, and everyone else moves up by one; nobody else goes on, because everyone
else waits where there is still no room.
-/

variable {α : Type} {topic next : Topic α}

/-! ## Queues are bounded -/

/-- No queue holds more than is allowed. -/
def Bounded (topic : Topic α) : Prop := ∀ box ∈ topic.boxes, box.queue.length ≤ topic.capacity

theorem bounded_serve {capacity ticket : Nat} {value : α} {boxes : List (Box α)} {rest : List Nat}
    (bounded : ∀ box ∈ boxes, box.queue.length ≤ capacity) :
    ∀ box ∈ (serve capacity ticket value boxes rest).boxes, box.queue.length ≤ capacity := by
  induction rest generalizing boxes with
  | nil => exact bounded
  | cons target rest inductionHypothesis =>
    simp only [serve]
    split
    · exact inductionHypothesis bounded
    · next found here =>
      replace here : boxOf boxes target = some found := here
      split
      · next room =>
        refine inductionHypothesis fun box member => ?_
        rcases mem_setBox member with rfl | ⟨kept, -⟩
        · simp only [Box.admits, decide_eq_true_eq] at room
          rw [Box.enter_queue, List.length_append]
          exact Nat.lt_of_le_of_lt (Nat.le_add_right _ _) room
        · exact bounded box kept
      · intro box member
        rcases mem_setBox member with rfl | ⟨kept, -⟩
        · rw [Box.wait_queue]
          exact bounded found (boxOf_eq_some here).1
        · exact bounded box kept

namespace Bounded

theorem proceed (bounded : topic.Bounded) (publishing : Publishing α) :
    (topic.proceed publishing).2.Bounded := by
  unfold Bounded
  rw [proceed_boxes, proceed_capacity]
  exact bounded_serve bounded

theorem resumeAll (bounded : topic.Bounded) (tickets : List Nat) :
    (topic.resumeAll tickets).2.Bounded :=
  resumeAll_keeps Bounded (fun _ kept => kept.proceed _) bounded tickets

theorem act (bounded : topic.Bounded) (taken : Step α) : (topic.act taken).2.2.Bounded := by
  cases taken with
  | publish value =>
    rw [act_publish]
    exact (show (topic.opened value).Bounded from bounded).proceed (topic.opening value)
  | receive id =>
    simp only [Topic.act]
    cases received : topic.receive? id with
    | none => exact bounded
    | some result =>
      rcases receive?_eq_some received with ⟨box, queue, here, content, same⟩
      intro other member
      simp only [same] at member ⊢
      rcases mem_setBox member with rfl | ⟨kept, -⟩
      · have before := bounded box (boxOf_eq_some here).1
        rw [content, List.length_cons] at before
        exact Nat.le_of_succ_le before
      · exact bounded other kept
  | subscribe =>
    intro box member
    rcases List.mem_append.mp member with old | new
    · exact bounded box old
    · rw [List.mem_singleton.mp new]
      exact Nat.zero_le _
  | listenOnce => exact bounded
  | unsubscribe id => exact fun box member => bounded box (List.mem_filter.mp member).1
  | drop id => exact fun box member => bounded box (List.mem_filter.mp member).1
  | poll id =>
    rcases topic.act_poll_frame id with ⟨shots, frame⟩
    rw [frame]
    exact bounded
  | dropOnce id => exact bounded

theorem run (bounded : topic.Bounded) (steps : List (Step α)) :
    (topic.run steps).2.Bounded := by
  induction steps generalizing topic with
  | nil => exact bounded
  | cons taken rest inductionHypothesis =>
    refine @inductionHypothesis (topic.step taken).2.2 ?_
    rw [step_eq]
    exact (bounded.act taken).resumeAll _

end Bounded

theorem run_capacity (topic : Topic α) (steps : List (Step α)) :
    (topic.run steps).2.capacity = topic.capacity := by
  induction steps generalizing topic with
  | nil => rfl
  | cons taken rest inductionHypothesis =>
    exact (inductionHypothesis (topic.step taken).2.2).trans (topic.step_frame taken).1

/-! ## Who waits, waits for room -/

/-- When nothing can go on, whoever waits at a listener waits in its line, and
its queue is full. -/
theorem Settled.full (settled : topic.Settled) (sound : topic.Sound) (bounded : topic.Bounded)
    {publishing : Publishing α} (member : publishing ∈ topic.publishings) :
    ∃ id rest box, publishing.rest = id :: rest ∧ boxOf topic.boxes id = some box ∧
      publishing.ticket ∈ box.line ∧ box.queue.length = topic.capacity := by
  rcases settled publishing member with ⟨id, box, front, here, inLine, -⟩
  rcases List.head?_eq_some_iff.mp front with ⟨rest, whole⟩
  refine ⟨id, rest, box, whole, here, inLine, ?_⟩
  rcases boxOf_eq_some here with ⟨present, same⟩
  -- The first in the line is stuck although nobody stands before it.
  rcases List.exists_cons_of_ne_nil (List.ne_nil_of_mem inLine) with ⟨first, waiting, line⟩
  rcases sound.line_waits box present first (by rw [line]; exact List.mem_cons_self) with
    ⟨leader, leads, named, heads⟩
  rcases settled leader leads with ⟨place, found, there, found_here, -, full⟩
  obtain rfl : box.id = place := Option.some.inj (heads.symm.trans there)
  obtain rfl : box = found := Option.some.inj ((same ▸ here).symm.trans found_here)
  rw [Box.ahead, named, line, List.idxOf_cons_self, Nat.add_zero] at full
  exact Nat.le_antisymm (bounded box present) full

/-! ## Whoever is passed stays so -/

theorem Orderly.passed_step (orderly : topic.Orderly) (settled : topic.Settled)
    {ticket id : Nat} (old : ticket < topic.nextTicket)
    (passed : topic.passed ticket id = true) (taken : Step α) :
    (topic.step taken).2.2.passed ticket id = true := by
  rcases step_acts orderly settled taken with ⟨acts, -⟩
  refine passed_iff.mpr fun publishing member same owes => ?_
  by_cases before : ∃ earlier ∈ topic.publishings, earlier.ticket = ticket
  · rcases before with ⟨earlier, present, rfl⟩
    have fares := orderly.fares_step settled taken present
    generalize returnedBy earlier.ticket _ = returned at fares
    cases fares with
    | @waits past later laterMember ticket_eq value_eq split gone_eq served_eq =>
      obtain rfl := acts.orderly.sound.publishing_unique member laterMember
        (same.trans ticket_eq.symm)
      refine passed_iff.mp passed earlier present rfl ?_
      rw [split]
      exact List.mem_append_right _ owes
    | ends finished forgotten => exact finished publishing member same
  · have finished : topic.Over ticket [] :=
      ⟨old, nofun, fun other present equal => before ⟨other, present, equal⟩, by simp⟩
    exact (finished.step taken).1.ended publishing member same

theorem Orderly.passed_run (orderly : topic.Orderly) (settled : topic.Settled)
    {ticket id : Nat} (old : ticket < topic.nextTicket)
    (passed : topic.passed ticket id = true) (steps : List (Step α)) :
    (topic.run steps).2.passed ticket id = true := by
  induction steps generalizing topic with
  | nil => exact passed
  | cons taken rest inductionHypothesis =>
    rcases step_acts orderly settled taken with ⟨acts, still⟩
    have older : ticket < (topic.step taken).2.2.nextTicket := by
      rw [(topic.step_frame taken).2.2]
      omega
    exact inductionHypothesis acts.orderly still older
      (orderly.passed_step settled old passed taken)

/-! ## A listener goes away -/

theorem passed_of_gone (orderly : topic.Orderly) (settled : topic.Settled) (taken : Step α)
    {publishing : Publishing α} (member : publishing ∈ topic.publishings) {id : Nat}
    (front : publishing.rest.head? = some id)
    (gone : (topic.step taken).2.2.live id = false) :
    (topic.step taken).2.2.passed publishing.ticket id = true := by
  rcases step_acts orderly settled taken with ⟨acts, still⟩
  have fares := orderly.fares_step settled taken member
  have distinct := orderly.rest_nodup member
  generalize returnedBy publishing.ticket _ = returned at fares
  cases fares with
  | @waits past later present ticket_eq value_eq split gone_eq served_eq =>
    rw [← ticket_eq, Fares.passed_eq acts.orderly.sound present, decide_eq_true_iff]
    intro owes
    rcases still later present with ⟨place, box, heads, here, -, -⟩
    rcases List.head?_eq_some_iff.mp heads with ⟨rest, whole⟩
    rcases past with - | ⟨first, past⟩
    · rw [split, List.nil_append, heads] at front
      rcases Option.some.inj front with rfl
      have there : (topic.step taken).2.2.box? place = some box := here
      simp [live, there] at gone
    · rw [split] at front distinct
      rcases Option.some.inj front with rfl
      exact (List.nodup_cons.mp distinct).1 (List.mem_append_right _ owes)
  | ends finished forgotten =>
    exact passed_iff.mpr fun other present same => absurd same (finished other present)

theorem live_drop (topic : Topic α) (id : Nat) : (topic.drop id).live id = false := by
  have absent : (topic.drop id).box? id = none := by
    change boxOf (topic.drop id).boxes id = none
    rw [boxOf_drop, if_pos rfl]
  rw [live, absent]
  rfl

/-! ## A listener takes something -/

theorem resume_of_stuck {ticket : Nat}
    (stuck : ∀ other ∈ topic.publishings, other.ticket = ticket → topic.Stuck other) :
    topic.resume ticket = (none, topic) := by
  unfold resume
  split
  · next publishing found =>
    have member := List.mem_of_find?_eq_some found
    have halted := (stuck publishing member (by simpa using List.find?_some found)).not_ready
    rw [halted]
    rfl
  · rfl

theorem Settled.resumeAll (settled : topic.Settled) (tickets : List Nat) :
    topic.resumeAll tickets = ([], topic) := by
  induction tickets with
  | nil => rfl
  | cons ticket rest inductionHypothesis =>
    rw [resumeAll_cons, resume_of_stuck fun other member _ => settled other member,
      inductionHypothesis]
    rfl

theorem Sound.resume_of_ready (sound : topic.Sound) {publishing : Publishing α}
    (member : publishing ∈ topic.publishings) (ready : topic.ready publishing = true) :
    topic.resume publishing.ticket = topic.proceed publishing := by
  have found : topic.publishing? publishing.ticket = some publishing := by
    cases search : topic.publishing? publishing.ticket with
    | none =>
      have differs := List.find?_eq_none.mp search publishing member
      simp at differs
    | some other =>
      have same : other.ticket = publishing.ticket := by simpa using List.find?_some search
      rw [sound.publishing_unique (List.mem_of_find?_eq_some search) member same]
  simp only [Topic.resume, found, ready, if_true]

/-- When all but one are stuck, only this one goes on. -/
theorem Orderly.resumeAll_of_one (orderly : topic.Orderly) {publishing : Publishing α}
    (member : publishing ∈ topic.publishings) (ready : topic.ready publishing = true)
    (stuck : ∀ other ∈ topic.publishings, other.ticket ≠ publishing.ticket → topic.Stuck other)
    {tickets : List Nat} (listed : publishing.ticket ∈ tickets) :
    (topic.resumeAll tickets).2 = (topic.proceed publishing).2 := by
  induction tickets with
  | nil => cases listed
  | cons ticket rest inductionHypothesis =>
    rw [resumeAll_cons]
    by_cases own : ticket = publishing.ticket
    · have last : (topic.proceed publishing).2.Settled := by
        intro other present
        rcases orderly.mem_proceed member present with ⟨old, apart⟩ | ⟨waits, rfl⟩
        · exact orderly.proceed_stuck member apart.symm (stuck other old apart)
        · exact orderly.proceed_stuck_self member waits
      rw [own, orderly.sound.resume_of_ready member ready, last.resumeAll]
    · rw [resume_of_stuck fun other present same => stuck other present (same ▸ own)]
      exact inductionHypothesis ((List.mem_cons.mp listed).resolve_left fun same => own same.symm)

/-- Whoever can go on gets past the listener that it has come to. -/
theorem Listed.passed_of_ready (listed : topic.Listed) {publishing : Publishing α}
    (member : publishing ∈ topic.publishings) (ready : topic.ready publishing = true) {id : Nat}
    (front : publishing.rest.head? = some id) : id ∉ (topic.progress publishing).rest := by
  intro owed
  have distinct := listed.rest_nodup member
  have suffix := serve_rest_suffix topic.capacity publishing.ticket publishing.value topic.boxes
    publishing.rest
  change (topic.progress publishing).rest <:+ publishing.rest at suffix
  rcases List.head?_eq_some_iff.mp front with ⟨rest, whole⟩
  rw [whole] at suffix distinct
  rcases List.suffix_cons_iff.mp suffix with same | shorter
  · have stopped : (topic.progress publishing).rest.head? = some id := by rw [same]; rfl
    rcases not_admits_of_stopped (listed.rest_nodup member) stopped with ⟨box, here, full⟩
    have seen : topic.box? id = some box := here
    simp [Topic.ready, whole, seen, full] at ready
  · exact (List.nodup_cons.mp distinct).1 (shorter.subset owed)

/-- When a listener takes something, the first in its line has the place that
is free now, and the others move up. -/
theorem receive_in_line (orderly : topic.Orderly) (settled : topic.Settled)
    (bounded : topic.Bounded) {id first : Nat} {waiting : List Nat} {box : Box α}
    (here : boxOf topic.boxes id = some box) (line : box.line = first :: waiting) :
    (topic.step (.receive id)).2.2.passed first id = true ∧
      (∀ other ∈ topic.publishings, other.ticket ≠ first →
        other ∈ (topic.step (.receive id)).2.2.publishings) ∧
      ∃ after, boxOf (topic.step (.receive id)).2.2.boxes id = some after ∧
        after.line = waiting := by
  rcases boxOf_eq_some here with ⟨present, same⟩
  rcases orderly.sound.line_waits box present first (by rw [line]; exact List.mem_cons_self) with
    ⟨leader, leads, named, heads⟩
  subst first
  rw [same] at heads
  rcases settled.full orderly.sound bounded leads with ⟨place, rest, found, owes, there, -, full⟩
  obtain rfl : id = place := by
    rw [owes] at heads
    exact (Option.some.inj heads).symm
  obtain rfl : box = found := Option.some.inj (here.symm.trans there)
  rcases List.exists_cons_of_length_pos (full ▸ topic.capacity_pos) with ⟨value, queue, content⟩
  have acted : (topic.act (.receive id)).2.2 = requeued topic id box queue := by
    have seen : topic.box? id = some box := here
    simp only [act, receive?, seen, content]
    rfl
  have between := orderly.requeue here queue
  have boxes := boxOf_requeued here queue
  have shorter : queue.length + 1 = topic.capacity := by
    rw [← full, content, List.length_cons]
  have ready : (requeued topic id box queue).ready leader = true := by
    have seen : (requeued topic id box queue).box? id = some { box with queue := queue } :=
      (boxes id).trans (if_pos rfl)
    simp only [Topic.ready, owes, seen, Box.admits, line, List.idxOf_cons_self, Nat.add_zero]
    exact decide_eq_true (Nat.lt_of_succ_le (Nat.le_of_eq shorter))
  -- Whoever else waits at this listener still has too many before it.
  have stuck : ∀ other ∈ (requeued topic id box queue).publishings,
      other.ticket ≠ leader.ticket → (requeued topic id box queue).Stuck other := by
    intro other member apart
    rcases settled other member with ⟨target, held, front, target_here, inLine, crowded⟩
    by_cases own : target = id
    · subst own
      obtain rfl : box = held := Option.some.inj (here.symm.trans target_here)
      refine ⟨target, { box with queue := queue }, front, (boxes target).trans (if_pos rfl),
        inLine, ?_⟩
      change topic.capacity ≤ queue.length + box.line.idxOf other.ticket
      rw [line, List.idxOf_cons_ne _ apart.symm]
      omega
    · exact ⟨target, held, front, (boxes target).trans ((if_neg own).trans target_here), inLine,
        crowded⟩
  have leads_on : leader ∈ (requeued topic id box queue).publishings := leads
  have result : (topic.step (.receive id)).2.2 =
      ((requeued topic id box queue).proceed leader).2 := by
    rw [step_eq, acted]
    exact between.resumeAll_of_one leads_on ready stuck (List.mem_map_of_mem leads_on)
  have passed := between.toListed.passed_of_ready leads_on ready heads
  rw [result]
  refine ⟨passed_iff.mpr ?_, fun other member apart => mem_proceed_of_ne member apart, ?_⟩
  · intro publishing member ticket_eq owed
    rcases between.mem_proceed leads_on member with ⟨-, apart⟩ | ⟨-, rfl⟩
    · exact apart ticket_eq
    · exact passed owed
  · refine ⟨_, (between.boxOf_proceed leads_on id).trans
      (congrArg (Option.map _) ((boxes id).trans (if_pos rfl))), ?_⟩
    simp [served, same, owes, passed, line]

/-- Whoever waits at a listener goes on when its turn has come, and not before. -/
theorem passed_receives (orderly : topic.Orderly) (settled : topic.Settled)
    (bounded : topic.Bounded) {publishing : Publishing α}
    (member : publishing ∈ topic.publishings) {id : Nat} {box : Box α}
    (front : publishing.rest.head? = some id) (here : boxOf topic.boxes id = some box)
    (count : Nat) :
    (topic.run (List.replicate count (.receive id))).2.passed publishing.ticket id =
      decide (box.line.idxOf publishing.ticket < count) := by
  induction count generalizing topic box with
  | zero =>
    rw [show (topic.run (List.replicate 0 (.receive id))).2 = topic from rfl,
      Fares.passed_eq orderly.sound member]
    simpa using List.mem_of_head? front
  | succ count inductionHypothesis =>
    rcases step_acts orderly settled (.receive id) with ⟨acts, still⟩
    have later : (topic.run (List.replicate (count + 1) (.receive id))).2 =
        ((topic.step (.receive id)).2.2.run (List.replicate count (.receive id))).2 := rfl
    have inLine := (settled publishing member).stands id box front here
    rcases List.exists_cons_of_ne_nil (List.ne_nil_of_mem inLine) with ⟨first, waiting, line⟩
    rcases receive_in_line orderly settled bounded here line with ⟨gone, kept, after, there, moved⟩
    rw [later]
    by_cases turn : publishing.ticket = first
    · subst turn
      have older : publishing.ticket < (topic.step (.receive id)).2.2.nextTicket := by
        rw [(topic.step_frame (.receive id)).2.2]
        exact Nat.lt_add_right _ (orderly.sound.tickets_old publishing member)
      rw [acts.orderly.passed_run still older gone, line, List.idxOf_cons_self]
      simp
    · have further := inductionHypothesis acts.orderly still
        (bounded.run [.receive id]) (kept publishing member turn) there
      rw [further, moved, line, List.idxOf_cons_ne _ fun same => turn same.symm]
      simp

/-! ## What has been delivered -/

theorem length_add_lt_of_sorted {tickets : List Nat} (sorted : tickets.Pairwise (· < ·))
    (low high : Nat) (between : ∀ ticket ∈ tickets, low < ticket ∧ ticket < high)
    (less : low < high) :
    tickets.length + low < high := by
  have within : tickets ⊆ List.range' (low + 1) (high - (low + 1)) := by
    intro ticket member
    rw [List.mem_range'_1]
    have bounds := between ticket member
    omega
  have distinct : tickets.Nodup := sorted.imp Nat.ne_of_lt
  have fewer := (distinct.subperm within).length_le
  rw [List.length_range'] at fewer
  omega

/-- Whoever owes a listener that a publishing has passed began later. -/
theorem Orderly.owing_length (orderly : topic.Orderly) {publishing : Publishing α}
    (member : publishing ∈ topic.publishings) {id : Nat} {box : Box α}
    (here : boxOf topic.boxes id = some box) (passed : id ∉ publishing.rest) :
    (owing topic.publishings id).length + publishing.ticket < topic.nextTicket := by
  rcases List.append_of_mem member with ⟨earlier, later, split⟩
  have before : owing earlier id = [] := by
    refine List.filter_eq_nil_iff.mpr fun other early owes => ?_
    exact passed ((orderly.owes_around split here).1 other early (by simpa using owes))
  have fewer : (owing topic.publishings id).length ≤ later.length := by
    rw [split, owing_append, owing_cons, before, if_neg passed]
    exact List.length_filter_le _ _
  have sorted := orderly.tickets_sorted
  rw [split, List.map_append, List.map_cons, List.pairwise_append, List.pairwise_cons] at sorted
  have room := length_add_lt_of_sorted sorted.2.1.2 publishing.ticket topic.nextTicket ?_
    (orderly.sound.tickets_old publishing member)
  · rw [List.length_map] at room
    omega
  · intro ticket listed
    rcases List.mem_map.mp listed with ⟨other, late, rfl⟩
    exact ⟨(orderly.ticket_lt split).2 other late,
      orderly.sound.tickets_old other (by simp [split, late])⟩

/-- Everyone whom a publishing has passed and who is there has its value, and all
that had been published before. -/
theorem Orderly.due_prefix (orderly : topic.Orderly) (settled : topic.Settled)
    {trace : List (Step α × Told α)} {value : α} {later : List (Step α)}
    {publishing : Publishing α}
    (member : publishing ∈ (topic.run (.publish value :: later)).2.publishings)
    (ticket_eq : publishing.ticket = topic.nextTicket) {id : Nat} (old : id < topic.nextId)
    (passed : id ∉ publishing.rest) {box : Box α}
    (here : boxOf (topic.run (.publish value :: later)).2.boxes id = some box)
    (before : (boxOf topic.boxes id).isSome →
      handed id trace ++ topic.coming id = announced (since id trace)) :
    announced (since id trace) ++ [value] <+:
      handed id (trace ++ (topic.run (.publish value :: later)).1) ++ box.queue := by
  rcases run_orderly orderly settled (.publish value :: later) with ⟨last, -⟩
  have owing_lt := last.owing_length member here passed
  have tickets := run_nextTicket topic (.publish value :: later)
  rcases handed_run orderly settled old (by rw [here]; rfl) with ⟨held, whole⟩
  have announces : announced (topic.run (.publish value :: later)).1 =
      [value] ++ announced ((topic.step (.publish value)).2.2.run later).1 := rfl
  have coming_eq : (topic.run (.publish value :: later)).2.coming id = box.queue ++
      (owing (topic.run (.publish value :: later)).2.publishings id).map (·.value) := by
    rw [coming, here]
    rfl
  have all : handed id (trace ++ (topic.run (.publish value :: later)).1) ++ box.queue ++
      (owing (topic.run (.publish value :: later)).2.publishings id).map (·.value) =
        announced (since id trace) ++ [value] ++
          announced ((topic.step (.publish value)).2.2.run later).1 := by
    calc handed id (trace ++ (topic.run (.publish value :: later)).1) ++ box.queue ++
          (owing (topic.run (.publish value :: later)).2.publishings id).map (·.value)
        = handed id trace ++ (handed id (topic.run (.publish value :: later)).1 ++
            (topic.run (.publish value :: later)).2.coming id) := by
          rw [coming_eq]
          simp only [handed, List.flatMap_append, List.append_assoc]
      _ = announced (since id trace) ++ announced (topic.run (.publish value :: later)).1 := by
          rw [whole, ← List.append_assoc, before held]
      _ = _ := by rw [announces, List.append_assoc]
  have lengths := congrArg List.length all
  refine List.prefix_of_prefix_length_le ⟨_, rfl⟩ ⟨_, all⟩ ?_
  rw [announces] at tickets
  simp only [List.length_append, List.length_map, List.length_cons, List.length_nil]
    at lengths tickets ⊢
  omega

theorem handed_from_empty (capacity : Nat) (steps : List (Step α)) {id : Nat}
    (held : (boxOf ((empty capacity).run steps).2.boxes id).isSome) :
    handed id ((empty capacity).run steps).1 ++ ((empty capacity).run steps).2.coming id =
      announced (since id ((empty capacity).run steps).1) := by
  rcases Nat.lt_or_ge id (empty capacity : Topic α).nextId with old | new
  · -- Nobody listens at the beginning.
    cases (handed_run (orderly_empty capacity) nofun old held).1
  · exact handed_since (orderly_empty capacity) nofun new held

/-! ## No wake-up is lost -/

/-- A publishing is held up at a listener that is there, because its queue is
full; everyone before this listener who is there has the value, and all that was
due before. -/
def HeldUp (topic : Topic α) (trace : List (Step α × Told α)) (invited : List Nat)
    (due : Nat → List α) (publishing : Publishing α) : Prop :=
  ∃ past id rest box, invited = past ++ id :: rest ∧ publishing.rest = id :: rest ∧
    topic.box? id = some box ∧ publishing.ticket ∈ box.line ∧
      box.queue.length = topic.capacity ∧
        ∀ other ∈ past, ∀ otherBox, topic.box? other = some otherBox →
          due other <+: handed other trace ++ otherBox.queue

/-- A publishing that has not ended is held up. -/
theorem Orderly.heldUp (orderly : topic.Orderly) (settled : topic.Settled)
    {trace : List (Step α × Told α)}
    (before : ∀ id, (boxOf topic.boxes id).isSome →
      handed id trace ++ topic.coming id = announced (since id trace))
    {value : α} {later : List (Step α)} (bounded : topic.Bounded) {past : List Nat}
    {publishing : Publishing α}
    (member : publishing ∈ (topic.run (.publish value :: later)).2.publishings)
    (ticket_eq : publishing.ticket = topic.nextTicket)
    (split : topic.invited = past ++ publishing.rest) :
    (topic.run (.publish value :: later)).2.HeldUp
      (trace ++ (topic.run (.publish value :: later)).1) topic.invited
      (fun id => announced (since id trace) ++ [value]) publishing := by
  rcases run_orderly orderly settled (.publish value :: later) with ⟨last, still⟩
  rcases still.full last.sound (bounded.run _) member with
    ⟨id, rest, box, whole, here, inLine, full⟩
  refine ⟨past, id, rest, box, whole ▸ split, whole, here, inLine, full, ?_⟩
  intro other passed otherBox there
  have opened := orderly.opened value
  have opening := topic.opening_mem_opened value
  have distinct := opened.rest_nodup opening
  have known := opened.rest_old _ opening other
  rw [opening_eq] at distinct known
  simp only [split] at distinct known
  have apart : other ∉ publishing.rest := fun owes =>
    (List.nodup_append.mp distinct).2.2 other passed other owes rfl
  exact orderly.due_prefix settled member ticket_eq (known (List.mem_append_left _ passed)) apart
    there (before other)

/-- Queues are bounded and no wake-up is lost.  After any steps from an empty
topic no queue holds more than it may.  A publishing has either returned, once,
and then its number is that of the one-shot receivers that were there when it
began and of the lasting listeners that were there when it reached them; or it
is held up where there is no room.  And whoever waits at a listener goes on in
the very step in which the listener goes away, with or without a word, or takes
as much as makes room for it. -/
theorem waits_only_for_room (capacity : Nat) (steps : List (Step α)) :
    let trace := ((empty capacity).run steps).1
    let topic := ((empty capacity).run steps).2
    topic.capacity = max capacity 1 ∧
      (∀ id box, topic.box? id = some box → box.queue.length ≤ max capacity 1) ∧
      (∀ earlier value later, steps = earlier ++ .publish value :: later →
        let start := ((empty capacity).run earlier).2
        let due id := announced (since id ((empty capacity).run earlier).1) ++ [value]
        let returned := returnedBy start.nextTicket (start.returns (.publish value :: later))
        let moments := start.moments (.publish value :: later)
        (returned = [] ∧ ∃ publishing ∈ topic.publishings,
          publishing.ticket = start.nextTicket ∧ publishing.value = value ∧
            topic.HeldUp trace start.invited due publishing) ∨
        (returned = [start.expectant +
            (start.invited.filter (reached start.nextTicket moments)).length] ∧
          ∀ publishing ∈ topic.publishings, publishing.ticket ≠ start.nextTicket)) ∧
      ∀ publishing ∈ topic.publishings, ∀ id box, publishing.rest.head? = some id →
        topic.box? id = some box →
          (topic.step (.unsubscribe id)).2.2.passed publishing.ticket id = true ∧
          (topic.step (.drop id)).2.2.passed publishing.ticket id = true ∧
          ∀ count, (topic.run (List.replicate count (.receive id))).2.passed publishing.ticket id =
            decide (box.line.idxOf publishing.ticket < count) := by
  intro trace topic
  have nothing : (empty capacity : Topic α).Settled := nofun
  have begun : (empty capacity : Topic α).Orderly := orderly_empty capacity
  rcases run_orderly begun nothing steps with ⟨orderly, settled⟩
  have within : topic.capacity = max capacity 1 := run_capacity _ _
  have bounded : topic.Bounded := (show (empty capacity : Topic α).Bounded from nofun).run steps
  refine ⟨within, ?_, ?_, ?_⟩
  · intro id box here
    rw [← within]
    exact bounded box (boxOf_eq_some here).1
  · intro earlier value later split start due returned moments
    rcases run_orderly begun nothing earlier with ⟨before, still⟩
    have fares := before.fares_from still value later
    rw [opening_eq] at fares
    have last : topic = (start.run (.publish value :: later)).2 := by
      simp only [topic, split, run_append, start]
    have told : trace = ((empty capacity).run earlier).1 ++
        (start.run (.publish value :: later)).1 := by
      simp only [trace, split, run_append, start]
    have returned_eq : returned = returnedBy start.nextTicket
      (start.returns (.publish value :: later)) := rfl
    rw [← returned_eq, ← last] at fares
    clear_value returned
    cases fares with
    | @waits past publishing member ticket_eq value_eq rest_eq gone_eq served_eq =>
      refine .inl ⟨rfl, publishing, member, ticket_eq, value_eq, ?_⟩
      rw [last] at member ⊢
      rw [told]
      exact before.heldUp still (fun _ => handed_from_empty capacity earlier)
        ((show (empty capacity : Topic α).Bounded from nofun).run earlier) member ticket_eq rest_eq
    | ends finished forgotten => exact .inr ⟨by simp; rfl, finished⟩
  · intro publishing member id box front here
    refine ⟨passed_of_gone orderly settled _ member front ?_,
      passed_of_gone orderly settled _ member front ?_,
      passed_receives orderly settled bounded member front here⟩
    · rw [live_step]
      exact topic.live_drop id
    · rw [live_step]
      exact topic.live_drop id

/-- With room for one value, one publishing has served both listeners and a
one-shot receiver, the next has passed the first listener and waits at the
second, and two more stand in line at the first. -/
theorem waits_only_for_room_while_three_wait :
    let steps : List (Step Nat) := [.subscribe, .subscribe, .listenOnce, .publish 10, .receive 1,
      .publish 20, .publish 30, .publish 40]
    let start := ((empty 0).run (steps.take 3)).2
    let early := (empty 0).run (steps.take 5)
    let topic := ((empty 0).run steps).2
    topic.box? 1 = some ⟨1, [20], [2, 3]⟩ ∧ [20].length ≤ max 0 1 ∧
      returnedBy 0 (start.returns (steps.drop 3)) =
        [start.expectant + (start.invited.filter
          (reached 0 (start.moments (steps.drop 3)))).length] ∧
      start.expectant = 1 ∧ start.invited = [1, 2] ∧
      early.2.nextTicket = 1 ∧ early.2.invited = [1, 2] ∧
      (∃ publishing ∈ topic.publishings, publishing.ticket = early.2.nextTicket ∧
        publishing.value = 20 ∧
          topic.HeldUp ((empty 0).run steps).1 early.2.invited
            (fun id => announced (since id early.1) ++ [20]) publishing) ∧
      (topic.step (.drop 1)).2.2.passed 3 1 = true ∧
      ∀ count, (topic.run (List.replicate count (.receive 1))).2.passed 3 1 =
        decide (1 < count) := by
  intro steps start early topic
  rcases waits_only_for_room 0 steps with ⟨-, bounded, fates, released⟩
  have served := (fates (steps.take 3) 10 (steps.drop 4) rfl).resolve_left fun held =>
    nomatch held.1
  have pending : returnedBy early.2.nextTicket (early.2.returns (steps.drop 5)) = [] := by
    simp only [early, steps]
    decide +kernel
  have held := (fates (steps.take 5) 20 (steps.drop 6) rfl).resolve_right fun done =>
    List.cons_ne_nil _ _ (done.1.symm.trans pending)
  have last : (⟨3, 40, [1, 2], 0, []⟩ : Publishing Nat) ∈ topic.publishings :=
    List.mem_cons_of_mem _ (List.mem_cons_of_mem _ List.mem_cons_self)
  have lets := released _ last 1 ⟨1, [20], [2, 3]⟩ rfl rfl
  exact ⟨rfl, bounded 1 _ rfl, served.1, rfl, rfl, rfl, rfl, held.2, lets.2.1, lets.2.2⟩

end Topic
end Bus
end Ventilation
