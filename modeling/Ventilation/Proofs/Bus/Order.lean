import Ventilation.Proofs.Bus.Traffic

namespace Ventilation
namespace Bus
namespace Topic

/-!
# The order in which a listener is served

Publishings block independently, each at the queue of some listener, and each
with its own list of listeners still to serve.  Nevertheless nobody overtakes.
A topic is orderly when whoever began later still owes every listener that
someone before it owes, and when the line at a listener is kept in the order of
the tickets.  A publishing that goes on while everyone before it waits cannot
get past a listener at which one of those waits, and so the topic stays orderly.

What is still to come to a listener is then a list and not only a number: the
values in its queue, followed by those of the publishings that owe it one.  A
new value joins this list at the end, a value that is taken leaves it in front,
and nothing else changes it.
-/

variable {α : Type}

/-! ## Serving, listener by listener -/

theorem serve_rest_suffix (capacity ticket : Nat) (value : α) (boxes : List (Box α))
    (rest : List Nat) : (serve capacity ticket value boxes rest).rest <:+ rest := by
  induction rest generalizing boxes with
  | nil => exact List.suffix_refl _
  | cons target rest inductionHypothesis =>
    simp only [serve]
    split
    · exact (inductionHypothesis boxes).trans (List.suffix_cons _ _)
    · split
      · exact (inductionHypothesis _).trans (List.suffix_cons _ _)
      · exact List.suffix_refl _

/-- What becomes of a box when a publishing that had the listeners `before` to
serve has those of `after` left. -/
def served (ticket : Nat) (value : α) (before after : List Nat) (box : Box α) : Box α :=
  if box.id ∈ before then
    if box.id ∉ after then box.enter ticket value
    else if after.head? = some box.id then box.wait ticket
    else box
  else box

/-- Something comes into the queue of a listener that is passed, and of no other. -/
theorem served_queue (ticket : Nat) (value : α) (before after : List Nat) (box : Box α) :
    (served ticket value before after box).queue =
      box.queue ++ if box.id ∈ before ∧ box.id ∉ after then [value] else [] := by
  by_cases listed : box.id ∈ before
  · by_cases kept : box.id ∈ after
    · by_cases stops : after.head? = some box.id <;> simp [served, listed, kept, stops]
    · simp [served, listed, kept]
  · simp [served, listed]

theorem boxOf_serve {capacity ticket : Nat} {value : α} {boxes : List (Box α)} {rest : List Nat}
    (nodup : rest.Nodup) (id : Nat) :
    boxOf (serve capacity ticket value boxes rest).boxes id =
      (boxOf boxes id).map
        (served ticket value rest (serve capacity ticket value boxes rest).rest) := by
  induction rest generalizing boxes with
  | nil =>
    have unchanged : (served ticket value [] []) = (fun box : Box α => box) := by
      funext box
      simp [served]
    change boxOf boxes id = (boxOf boxes id).map (served ticket value [] [])
    rw [unchanged, Option.map_id']
  | cons target rest inductionHypothesis =>
    rcases List.nodup_cons.mp nodup with ⟨fresh, nodup⟩
    simp only [serve]
    split
    · -- The listener has gone away, so no box is concerned.
      next gone =>
      rw [inductionHypothesis nodup]
      refine Option.map_congr fun box found => ?_
      have apart : box.id ≠ target := ne_of_boxOf_eq_none gone (boxOf_eq_some found).1
      simp [served, apart]
    · next found here =>
      have same := (boxOf_eq_some here).2
      split
      · next room =>
        have left := serve_rest_suffix capacity ticket value
          (setBox boxes target (found.enter ticket value)) rest
        have passed : target ∉ (serve capacity ticket value
            (setBox boxes target (found.enter ticket value)) rest).rest :=
          fun member => fresh (left.subset member)
        rw [inductionHypothesis nodup, boxOf_setBox (by rw [Box.enter_id, same])]
        split
        · next own =>
          subst own
          rw [show boxOf boxes id = some found from here]
          simp [served, same, fresh, passed]
        · next apart =>
          refine Option.map_congr fun box place => ?_
          have other : box.id ≠ target := (boxOf_eq_some place).2.trans_ne apart
          simp [served, other]
      · rw [boxOf_setBox (by rw [Box.wait_id, same])]
        split
        · next own =>
          subst own
          rw [show boxOf boxes id = some found from here]
          simp [served, same]
        · next apart =>
          refine Option.map_id'.symm.trans (Option.map_congr fun box place => ?_)
          have other : box.id ≠ target := (boxOf_eq_some place).2.trans_ne apart
          by_cases listed : box.id ∈ rest <;> simp [served, listed, other, other.symm]

theorem admits_of_passed {capacity ticket : Nat} {value : α} {boxes : List (Box α)}
    {rest : List Nat} (nodup : rest.Nodup) {id : Nat} {box : Box α}
    (here : boxOf boxes id = some box) (listed : id ∈ rest)
    (passed : id ∉ (serve capacity ticket value boxes rest).rest) :
    box.admits capacity ticket = true := by
  induction rest generalizing boxes with
  | nil => cases listed
  | cons target rest inductionHypothesis =>
    rcases List.nodup_cons.mp nodup with ⟨fresh, nodup⟩
    simp only [serve] at passed
    split at passed
    · next gone =>
      rcases List.mem_cons.mp listed with rfl | later
      · exact absurd gone (by rw [show boxes.find? _ = some box from here]; simp)
      · exact inductionHypothesis nodup here later passed
    · next found place =>
      split at passed
      · next room =>
        rcases List.mem_cons.mp listed with rfl | later
        · have equal : found = box := Option.some.inj ((show _ = _ from place).symm.trans here)
          exact equal ▸ room
        · have apart : id ≠ target := fun equal => fresh (equal ▸ later)
          refine inductionHypothesis nodup ?_ later passed
          rw [boxOf_setBox (by rw [Box.enter_id, (boxOf_eq_some place).2]), if_neg apart]
          exact here
      · exact absurd listed passed

/-- Whoever stops at a listener has found no room there. -/
theorem not_admits_of_stopped {capacity ticket : Nat} {value : α} {boxes : List (Box α)}
    {rest : List Nat} (nodup : rest.Nodup) {id : Nat}
    (stopped : (serve capacity ticket value boxes rest).rest.head? = some id) :
    ∃ box, boxOf boxes id = some box ∧ box.admits capacity ticket = false := by
  induction rest generalizing boxes with
  | nil => cases stopped
  | cons target rest inductionHypothesis =>
    rcases List.nodup_cons.mp nodup with ⟨fresh, nodup⟩
    simp only [serve] at stopped
    split at stopped
    · exact inductionHypothesis nodup stopped
    · next found place =>
      split at stopped
      · rcases inductionHypothesis nodup stopped with ⟨box, here, full⟩
        have listed := (serve_rest_suffix _ _ _ _ _).subset (List.mem_of_head? stopped)
        have apart : id ≠ target := fun equal => fresh (equal ▸ listed)
        rw [boxOf_setBox (by rw [Box.enter_id, (boxOf_eq_some place).2]), if_neg apart] at here
        exact ⟨box, here, full⟩
      · next full =>
        obtain rfl : target = id := Option.some.inj stopped
        exact ⟨found, place, Bool.not_eq_true _ ▸ full⟩

theorem boxOf_of_mem_gone {capacity ticket : Nat} {value : α} {boxes : List (Box α)}
    {rest : List Nat} {id : Nat} (member : id ∈ (serve capacity ticket value boxes rest).gone) :
    id ∈ rest ∧ boxOf boxes id = none := by
  induction rest generalizing boxes with
  | nil => cases member
  | cons target rest inductionHypothesis =>
    simp only [serve] at member
    split at member
    · next gone =>
      rcases List.mem_cons.mp member with rfl | later
      · exact ⟨List.mem_cons_self, gone⟩
      · rcases inductionHypothesis later with ⟨listed, absent⟩
        exact ⟨List.mem_cons_of_mem _ listed, absent⟩
    · next found place =>
      split at member
      · rcases inductionHypothesis member with ⟨listed, absent⟩
        refine ⟨List.mem_cons_of_mem _ listed, ?_⟩
        rw [boxOf_setBox (by rw [Box.enter_id, (boxOf_eq_some place).2])] at absent
        split at absent
        · next own =>
          rw [own]
          exact Option.map_eq_none_iff.mp absent
        · exact absent
      · cases member

theorem admits_eq_false_iff {box : Box α} {capacity ticket : Nat} :
    box.admits capacity ticket = false ↔ capacity ≤ box.ahead ticket := by
  simp [Box.admits, Box.ahead]

/-- A publishing stands in the line of the listener that it has come to, and
finds no room. -/
def Stuck (topic : Topic α) (publishing : Publishing α) : Prop :=
  ∃ id box, publishing.rest.head? = some id ∧ boxOf topic.boxes id = some box ∧
    publishing.ticket ∈ box.line ∧ topic.capacity ≤ box.ahead publishing.ticket

/-- A publishing stands in the line of the listener that it has come to, unless
the listener has gone away. -/
def Stands (topic : Topic α) (publishing : Publishing α) : Prop :=
  ∀ id box, publishing.rest.head? = some id → boxOf topic.boxes id = some box →
    publishing.ticket ∈ box.line

/-- Nothing can go on. -/
def Settled (topic : Topic α) : Prop := ∀ publishing ∈ topic.publishings, topic.Stuck publishing

theorem Stuck.stands {topic : Topic α} {publishing : Publishing α}
    (stuck : topic.Stuck publishing) : topic.Stands publishing := by
  rcases stuck with ⟨id, box, front, here, inLine, -⟩
  intro other found otherFront place
  obtain rfl : id = other := Option.some.inj (front.symm.trans otherFront)
  obtain rfl : box = found := Option.some.inj (here.symm.trans place)
  exact inLine

theorem Stuck.not_ready {topic : Topic α} {publishing : Publishing α}
    (stuck : topic.Stuck publishing) : topic.ready publishing = false := by
  rcases stuck with ⟨id, box, front, here, -, full⟩
  rcases List.head?_eq_some_iff.mp front with ⟨later, rest⟩
  have seen : topic.box? id = some box := here
  simp only [ready, rest, seen]
  exact admits_eq_false_iff.mpr full

theorem Stands.stuck {topic : Topic α} {publishing : Publishing α}
    (stands : topic.Stands publishing) (halted : topic.ready publishing = false) :
    topic.Stuck publishing := by
  unfold ready at halted
  split at halted
  · cases halted
  · next id later rest =>
    split at halted
    · cases halted
    · next box here =>
      have front : publishing.rest.head? = some id := by rw [rest]; rfl
      exact ⟨id, box, front, here, stands id box front here, admits_eq_false_iff.mp halted⟩

/-- In a sorted line, whoever has the smaller ticket stands in front. -/
theorem idxOf_lt_idxOf {line : List Nat} (sorted : line.Pairwise (· < ·)) {first second : Nat}
    (member : first ∈ line) (less : first < second) : line.idxOf first < line.idxOf second := by
  induction line with
  | nil => cases member
  | cons head tail inductionHypothesis =>
    rcases List.pairwise_cons.mp sorted with ⟨below, sorted⟩
    rcases List.mem_cons.mp member with rfl | later
    · rw [List.idxOf_cons_self, List.idxOf_cons_ne _ (Nat.ne_of_lt less)]
      exact Nat.succ_pos _
    · have apart : head ≠ first := Nat.ne_of_lt (below first later)
      have far : head ≠ second := Nat.ne_of_lt (Nat.lt_trans (below first later) less)
      rw [List.idxOf_cons_ne _ apart, List.idxOf_cons_ne _ far]
      exact Nat.succ_lt_succ (inductionHypothesis sorted later)

/-! ## Orderly topics -/

/-- The publishings that have still to serve a listener, in the order in which
they began. -/
def owing (publishings : List (Publishing α)) (id : Nat) : List (Publishing α) :=
  publishings.filter fun publishing => id ∈ publishing.rest

/-- What is still to come to a listener. -/
def coming (topic : Topic α) (id : Nat) : List α :=
  (boxOf topic.boxes id).elim [] (·.queue) ++ (owing topic.publishings id).map (·.value)

/-- Everything is numbered in the order in which it came, and the topic knows
who listens and who has gone. -/
structure Listed (topic : Topic α) : Prop where
  sound : topic.Sound
  tickets_sorted : (topic.publishings.map (·.ticket)).Pairwise (· < ·)
  rest_sorted : ∀ publishing ∈ topic.publishings, publishing.rest.Pairwise (· < ·)
  rest_old : ∀ publishing ∈ topic.publishings, ∀ id ∈ publishing.rest, id < topic.nextId
  gone_away : ∀ publishing ∈ topic.publishings, ∀ id ∈ publishing.gone,
    id < topic.nextId ∧ boxOf topic.boxes id = none
  listeners_sorted : (topic.listeners.map (·.id)).Pairwise (· < ·)
  listened : ∀ id box, boxOf topic.boxes id = some box → .lasting id ∈ topic.listeners

/-- Besides, whoever began later owes a listener at least as long, and the lines
are kept in order. -/
structure Orderly (topic : Topic α) : Prop extends Listed topic where
  later_owes : topic.publishings.Pairwise fun first second =>
    ∀ id box, boxOf topic.boxes id = some box → id ∈ first.rest → id ∈ second.rest
  line_sorted : ∀ id box, boxOf topic.boxes id = some box → box.line.Pairwise (· < ·)
  line_closed : ∀ id box, boxOf topic.boxes id = some box → ∀ publishing ∈ topic.publishings,
    id ∈ publishing.rest → ∀ ticket ∈ box.line, publishing.ticket < ticket →
      publishing.ticket ∈ box.line

theorem orderly_empty (capacity : Nat) : (empty capacity : Topic α).Orderly where
  sound := sound_empty capacity
  tickets_sorted := List.Pairwise.nil
  rest_sorted := by simp [empty]
  rest_old := by simp [empty]
  gone_away := by simp [empty]
  listeners_sorted := List.Pairwise.nil
  listened := by simp [empty, boxOf]
  later_owes := List.Pairwise.nil
  line_sorted := by simp [empty, boxOf]
  line_closed := by simp [empty, boxOf]

section Proceed

variable {publishing : Publishing α} {earlier later : List (Publishing α)}

/-! ## Going on with a publishing -/

/-- What is left of a publishing that has gone on. -/
def left (publishing : Publishing α) (progress : Progress α) : List (Publishing α) :=
  if progress.rest = [] then [] else [advance publishing progress]

theorem mem_left {other : Publishing α} {progress : Progress α}
    (member : other ∈ left publishing progress) :
    progress.rest ≠ [] ∧ other = advance publishing progress := by
  unfold left at member
  split at member
  · cases member
  · next waits => exact ⟨waits, List.mem_singleton.mp member⟩

theorem progress_rest_subset (topic : Topic α) (publishing : Publishing α) :
    (topic.progress publishing).rest ⊆ publishing.rest :=
  (serve_rest_suffix _ _ _ _ _).subset

theorem owing_left (progress : Progress α) (id : Nat) :
    owing (left publishing progress) id =
      if id ∈ progress.rest then [advance publishing progress] else [] := by
  unfold left
  split
  · next done => simp [done, owing]
  · by_cases owes : id ∈ progress.rest <;> simp [owing, advance, owes]

theorem owing_cons (publishing : Publishing α) (rest : List (Publishing α)) (id : Nat) :
    owing (publishing :: rest) id =
      (if id ∈ publishing.rest then [publishing] else []) ++ owing rest id := by
  by_cases owes : id ∈ publishing.rest <;> simp [owing, owes]

theorem owing_append (first second : List (Publishing α)) (id : Nat) :
    owing (first ++ second) id = owing first id ++ owing second id :=
  List.filter_append first second

theorem mem_served_line {ticket other : Nat} (apart : other ≠ ticket) {value : α}
    {before after : List Nat} {box : Box α} :
    other ∈ (served ticket value before after box).line ↔ other ∈ box.line := by
  unfold served
  repeat' split
  · rw [Box.enter_line]
    exact List.mem_erase_of_ne apart
  · rw [Box.mem_wait_line]
    exact or_iff_left apart
  · exact Iff.rfl
  · exact Iff.rfl

/-- Whoever has gone on stands in the line of a listener that it still owes only
if it stood there or stops there. -/
theorem mem_served_line_self {ticket : Nat} {value : α} {before after : List Nat} {box : Box α}
    (nodup : box.line.Nodup) (inLine : ticket ∈ (served ticket value before after box).line) :
    ticket ∈ box.line ∨ after.head? = some box.id := by
  unfold served at inLine
  repeat' split at inLine
  · exact absurd inLine nodup.not_mem_erase
  · next stops => exact .inr stops
  · exact .inl inLine
  · exact .inl inLine

namespace Listed

variable {topic : Topic α}

theorem ticket_lt (listed : topic.Listed)
    (split : topic.publishings = earlier ++ publishing :: later) :
    (∀ other ∈ earlier, other.ticket < publishing.ticket) ∧
      ∀ other ∈ later, publishing.ticket < other.ticket := by
  have sorted := listed.tickets_sorted
  rw [split, List.pairwise_map, List.pairwise_append, List.pairwise_cons] at sorted
  rcases sorted with ⟨-, ⟨after, -⟩, before⟩
  exact ⟨fun other member => before other member publishing List.mem_cons_self, after⟩

theorem proceed_publishings (listed : topic.Listed)
    (split : topic.publishings = earlier ++ publishing :: later) :
    (topic.proceed publishing).2.publishings =
      earlier ++ left publishing (topic.progress publishing) ++ later := by
  rcases listed.ticket_lt split with ⟨before, after⟩
  have apartBefore : ∀ other ∈ earlier, other.ticket ≠ publishing.ticket :=
    fun other member => Nat.ne_of_lt (before other member)
  have apartAfter : ∀ other ∈ later, other.ticket ≠ publishing.ticket :=
    fun other member => (Nat.ne_of_lt (after other member)).symm
  rcases topic.proceed_cases publishing with ⟨done, result⟩ | ⟨waits, result⟩
  · rw [result, left, if_pos done, List.append_nil]
    simp only [split, List.filter_append, List.filter_cons]
    rw [List.filter_eq_self.mpr (by simpa using apartBefore),
      List.filter_eq_self.mpr (by simpa using apartAfter)]
    simp
  · rw [result, left, if_neg waits]
    simp only [split, List.map_append, List.map_cons, if_true]
    have kept : ∀ others : List (Publishing α), (∀ other ∈ others,
        other.ticket ≠ publishing.ticket) → (others.map fun other =>
          if other.ticket = publishing.ticket then
            advance publishing (topic.progress publishing) else other) = others := by
      intro others apart
      exact (List.map_congr_left fun other member => if_neg (apart other member)).trans
        (List.map_id' others)
    rw [kept earlier apartBefore, kept later apartAfter, List.append_assoc]
    rfl

theorem rest_nodup (listed : topic.Listed) (member : publishing ∈ topic.publishings) :
    publishing.rest.Nodup :=
  (listed.rest_sorted publishing member).imp Nat.ne_of_lt

/-- The listeners that a publishing has passed come before those that it has
left. -/
theorem lt_of_passed (listed : topic.Listed) (member : publishing ∈ topic.publishings)
    {passed ahead : Nat} (owed : passed ∈ publishing.rest)
    (gone : passed ∉ (topic.progress publishing).rest)
    (kept : ahead ∈ (topic.progress publishing).rest) : passed < ahead := by
  have sorted := listed.rest_sorted publishing member
  obtain ⟨front, whole⟩ := serve_rest_suffix topic.capacity publishing.ticket publishing.value
    topic.boxes publishing.rest
  change front ++ (topic.progress publishing).rest = publishing.rest at whole
  rw [← whole] at sorted owed
  have early : passed ∈ front := (List.mem_append.mp owed).resolve_right gone
  exact (List.pairwise_append.mp sorted).2.2 passed early ahead kept

theorem boxOf_proceed (listed : topic.Listed) (member : publishing ∈ topic.publishings)
    (id : Nat) :
    boxOf (topic.proceed publishing).2.boxes id = (boxOf topic.boxes id).map
      (served publishing.ticket publishing.value publishing.rest
        (topic.progress publishing).rest) := by
  rw [proceed_boxes]
  exact boxOf_serve (listed.rest_nodup member) id

/-- A box after a publishing has gone on was there before. -/
theorem of_boxOf_proceed (listed : topic.Listed) (member : publishing ∈ topic.publishings)
    {id : Nat} {after : Box α} (here : boxOf (topic.proceed publishing).2.boxes id = some after) :
    ∃ box, boxOf topic.boxes id = some box ∧ box.id = id ∧
      after = served publishing.ticket publishing.value publishing.rest
        (topic.progress publishing).rest box := by
  rw [listed.boxOf_proceed member, Option.map_eq_some_iff] at here
  rcases here with ⟨box, found, rfl⟩
  exact ⟨box, found, (boxOf_eq_some found).2, rfl⟩

theorem mem_proceed (listed : topic.Listed) (member : publishing ∈ topic.publishings)
    {other : Publishing α} (present : other ∈ (topic.proceed publishing).2.publishings) :
    (other ∈ topic.publishings ∧ other.ticket ≠ publishing.ticket) ∨
      ((topic.progress publishing).rest ≠ [] ∧
        other = advance publishing (topic.progress publishing)) := by
  rcases List.append_of_mem member with ⟨earlier, later, split⟩
  rcases listed.ticket_lt split with ⟨before, behind⟩
  rw [listed.proceed_publishings split, List.append_assoc] at present
  rcases List.mem_append.mp present with early | rest
  · exact .inl ⟨by simp [split, early], Nat.ne_of_lt (before other early)⟩
  · rcases List.mem_append.mp rest with changed | late
    · exact .inr (mem_left changed)
    · exact .inl ⟨by simp [split, late], (Nat.ne_of_lt (behind other late)).symm⟩

theorem proceed (listed : topic.Listed) (member : publishing ∈ topic.publishings) :
    (topic.proceed publishing).2.Listed := by
  refine ⟨listed.sound.proceed member, ?_, ?_, ?_, ?_, ?_, ?_⟩
  · exact listed.tickets_sorted.sublist (topic.proceed_tickets publishing)
  · intro other present
    rcases listed.mem_proceed member present with ⟨old, -⟩ | ⟨-, rfl⟩
    · exact listed.rest_sorted other old
    · exact (listed.rest_sorted publishing member).sublist (serve_rest_suffix _ _ _ _ _).sublist
  · intro other present id owes
    rw [proceed_nextId]
    rcases listed.mem_proceed member present with ⟨old, -⟩ | ⟨-, rfl⟩
    · exact listed.rest_old other old id owes
    · exact listed.rest_old publishing member id (progress_rest_subset topic publishing owes)
  · intro other present id gone
    rw [proceed_nextId, listed.boxOf_proceed member, Option.map_eq_none_iff]
    rcases listed.mem_proceed member present with ⟨old, -⟩ | ⟨-, rfl⟩
    · exact listed.gone_away other old id gone
    · rcases List.mem_append.mp gone with known | found
      · exact listed.gone_away publishing member id known
      · rcases boxOf_of_mem_gone found with ⟨owed, absent⟩
        exact ⟨listed.rest_old publishing member id owed, absent⟩
  · exact listed.listeners_sorted.sublist ((topic.proceed_listeners publishing).map _)
  · intro id after here
    rcases listed.of_boxOf_proceed member here with ⟨box, found, -, -⟩
    have listens := listed.listened id box found
    rcases topic.proceed_cases publishing with ⟨-, result⟩ | ⟨-, result⟩
    · rw [result]
      refine List.mem_filter.mpr ⟨listens, decide_eq_true ?_⟩
      intro gone
      rcases List.mem_append.mp gone with known | noticed
      · have absent := (listed.gone_away publishing member id known).2
        exact absurd (found.symm.trans absent) (by simp)
      · have absent := (boxOf_of_mem_gone noticed).2
        exact absurd (found.symm.trans absent) (by simp)
    · rw [result]
      exact listens

end Listed

namespace Orderly

variable {topic : Topic α}

theorem owes_around (orderly : topic.Orderly)
    (split : topic.publishings = earlier ++ publishing :: later) {id : Nat} {box : Box α}
    (here : boxOf topic.boxes id = some box) :
    (∀ other ∈ earlier, id ∈ other.rest → id ∈ publishing.rest) ∧
      ∀ other ∈ later, id ∈ publishing.rest → id ∈ other.rest := by
  have pairs := orderly.later_owes
  rw [split, List.pairwise_append, List.pairwise_cons] at pairs
  rcases pairs with ⟨-, ⟨after, -⟩, before⟩
  constructor
  · intro other member
    exact before other member publishing List.mem_cons_self id box here
  · intro other member
    exact after other member id box here

/-- Nobody is overtaken: a publishing that gets past a listener while everyone
before it is stuck is the first of those who owe that listener. -/
theorem first_of_passed (orderly : topic.Orderly)
    (split : topic.publishings = earlier ++ publishing :: later)
    (stuck : ∀ other ∈ earlier, topic.Stuck other) {id : Nat} (listed : id ∈ publishing.rest)
    (passed : id ∉ (topic.progress publishing).rest) : ∀ other ∈ earlier, id ∉ other.rest := by
  have member : publishing ∈ topic.publishings := by simp [split]
  intro other before owes
  rcases stuck other before with ⟨place, found, front, there, inLine, full⟩
  have otherMember : other ∈ topic.publishings := by simp [split, before]
  have near : place ≤ id := by
    rcases List.head?_eq_some_iff.mp front with ⟨tail, whole⟩
    have sorted := orderly.rest_sorted other otherMember
    rw [whole] at sorted owes
    rcases List.mem_cons.mp owes with rfl | behind
    · exact Nat.le_refl _
    · exact Nat.le_of_lt ((List.pairwise_cons.mp sorted).1 id behind)
  have owesPlace : place ∈ publishing.rest :=
    (orderly.owes_around split there).1 other before (List.mem_of_head? front)
  have passedPlace : place ∉ (topic.progress publishing).rest := fun kept =>
    absurd (orderly.lt_of_passed member listed passed kept) (Nat.not_lt.mpr near)
  have room := admits_of_passed (orderly.rest_nodup member) there owesPlace passedPlace
  have behind := idxOf_lt_idxOf (orderly.line_sorted place found there) inLine
    ((orderly.ticket_lt split).1 other before)
  simp only [Box.admits, decide_eq_true_eq] at room
  unfold Box.ahead at full
  omega

/-- Whoever owes the listener at which a later publishing stops stands there
already. -/
theorem mem_line_of_stopped (orderly : topic.Orderly)
    (split : topic.publishings = earlier ++ publishing :: later)
    (stuck : ∀ other ∈ earlier, topic.Stuck other) {id : Nat} {box : Box α}
    (here : boxOf topic.boxes id = some box)
    (stopped : (topic.progress publishing).rest.head? = some id) {other : Publishing α}
    (before : other ∈ earlier) (owes : id ∈ other.rest) : other.ticket ∈ box.line := by
  have member : publishing ∈ topic.publishings := by simp [split]
  have otherMember : other ∈ topic.publishings := by simp [split, before]
  rcases stuck other before with ⟨place, found, front, there, inLine, -⟩
  have kept : place ∈ (topic.progress publishing).rest := by
    by_contra passed
    have owesPlace := (orderly.owes_around split there).1 other before (List.mem_of_head? front)
    exact orderly.first_of_passed split stuck owesPlace passed other before
      (List.mem_of_head? front)
  have sameBox : place = id := by
    rcases List.head?_eq_some_iff.mp front with ⟨tail, whole⟩
    rcases List.head?_eq_some_iff.mp stopped with ⟨others, stops⟩
    have restSorted := orderly.rest_sorted other otherMember
    have leftSorted := (orderly.rest_sorted publishing member).sublist (serve_rest_suffix
      topic.capacity publishing.ticket publishing.value topic.boxes publishing.rest).sublist
    change (topic.progress publishing).rest.Pairwise (· < ·) at leftSorted
    rw [whole] at restSorted owes
    rw [stops] at leftSorted kept
    rcases List.mem_cons.mp owes with same | behind
    · exact same.symm
    · rcases List.mem_cons.mp kept with same | ahead
      · exact same
      · exact absurd (Nat.lt_trans ((List.pairwise_cons.mp restSorted).1 id behind)
          ((List.pairwise_cons.mp leftSorted).1 place ahead)) (Nat.lt_irrefl _)
  subst sameBox
  obtain rfl : found = box := Option.some.inj (there.symm.trans here)
  exact inLine

/-- To go on with a publishing changes nothing for any listener, as long as
everyone before it is stuck. -/
theorem coming_proceed (orderly : topic.Orderly)
    (split : topic.publishings = earlier ++ publishing :: later)
    (stuck : ∀ other ∈ earlier, topic.Stuck other) {id : Nat} {box : Box α}
    (here : boxOf topic.boxes id = some box) :
    (topic.proceed publishing).2.coming id = topic.coming id := by
  have member : publishing ∈ topic.publishings := by simp [split]
  have same : box.id = id := (boxOf_eq_some here).2
  unfold coming
  rw [orderly.boxOf_proceed member, orderly.proceed_publishings split, split, here]
  simp only [owing_append, owing_cons, owing_left, Option.map_some, Option.elim_some,
    served_queue, same]
  by_cases listed : id ∈ publishing.rest
  · by_cases kept : id ∈ (topic.progress publishing).rest
    · simp [listed, kept, advance]
    · have nobody : owing earlier id = [] := by
        have none := orderly.first_of_passed split stuck listed kept
        exact List.filter_eq_nil_iff.mpr fun other before => by simpa using none other before
      simp [nobody, listed, kept]
  · have unkept : id ∉ (topic.progress publishing).rest := fun kept =>
      listed (progress_rest_subset topic publishing kept)
    simp [listed, unkept]

theorem proceed_line_sorted (orderly : topic.Orderly) (member : publishing ∈ topic.publishings)
    {id : Nat} {after : Box α} (here : boxOf (topic.proceed publishing).2.boxes id = some after) :
    after.line.Pairwise (· < ·) := by
  rcases orderly.of_boxOf_proceed member here with ⟨box, found, same, rfl⟩
  have sorted := orderly.line_sorted id box found
  unfold served
  split
  · next listed =>
    split
    · exact sorted.sublist List.erase_sublist
    · split
      · rw [Box.wait_line]
        split
        · exact sorted
        · next absent =>
          refine List.pairwise_append.mpr ⟨sorted, List.pairwise_singleton _ _, ?_⟩
          intro ticket stands other last
          rw [List.mem_singleton.mp last]
          -- A larger ticket in the line would mean that this publishing stood there.
          by_contra notBelow
          have apart : ticket ≠ publishing.ticket := fun equal => absent (equal ▸ stands)
          have larger : publishing.ticket < ticket := by omega
          exact absent (orderly.line_closed id box found publishing member (same ▸ listed) ticket
            stands larger)
      · exact sorted
  · exact sorted

theorem proceed_line_closed (orderly : topic.Orderly)
    (split : topic.publishings = earlier ++ publishing :: later)
    (stuck : ∀ other ∈ earlier, topic.Stuck other) {id : Nat} {after : Box α}
    (here : boxOf (topic.proceed publishing).2.boxes id = some after) {other : Publishing α}
    (present : other ∈ (topic.proceed publishing).2.publishings) (owes : id ∈ other.rest)
    {ticket : Nat} (inLine : ticket ∈ after.line) (less : other.ticket < ticket) :
    other.ticket ∈ after.line := by
  have member : publishing ∈ topic.publishings := by simp [split]
  rcases orderly.ticket_lt split with ⟨before, behind⟩
  rcases orderly.of_boxOf_proceed member here with ⟨box, found, same, rfl⟩
  rw [orderly.proceed_publishings split, List.append_assoc] at present
  have closed := orderly.line_closed id box found
  by_cases own : ticket = publishing.ticket
  · -- Whoever has a smaller ticket and owes this listener was standing there already.
    subst own
    have early : other ∈ earlier := by
      rcases List.mem_append.mp present with early | rest
      · exact early
      · rcases List.mem_append.mp rest with changed | late
        · rcases mem_left changed with ⟨-, rfl⟩
          exact absurd less (Nat.lt_irrefl _)
        · exact absurd less (Nat.lt_asymm (behind other late))
    have apart : other.ticket ≠ publishing.ticket := Nat.ne_of_lt less
    refine (mem_served_line apart).mpr ?_
    rcases mem_served_line_self (orderly.sound.line_nodup box (boxOf_eq_some found).1) inLine with
      stood | stops
    · exact closed other (by simp [split, early]) owes _ stood less
    · exact orderly.mem_line_of_stopped split stuck found (same ▸ stops) early owes
  · have stood : ticket ∈ box.line := (mem_served_line own).mp inLine
    have kept : ∀ old ∈ topic.publishings, old.ticket ≠ publishing.ticket → id ∈ old.rest →
        old.ticket < ticket → old.ticket ∈ (served publishing.ticket publishing.value
          publishing.rest (topic.progress publishing).rest box).line :=
      fun old oldMember apart owes less =>
        (mem_served_line apart).mpr (closed old oldMember owes ticket stood less)
    rcases List.mem_append.mp present with early | rest
    · exact kept other (by simp [split, early]) (Nat.ne_of_lt (before other early)) owes less
    · rcases List.mem_append.mp rest with changed | late
      · -- This publishing still owes the listener, so it keeps its place there.
        rcases mem_left changed with ⟨-, rfl⟩
        have left : id ∈ (topic.progress publishing).rest := owes
        have listed : id ∈ publishing.rest := progress_rest_subset topic publishing left
        have standing := closed publishing member listed ticket stood less
        by_cases stops : (topic.progress publishing).rest.head? = some id
        · simp only [advance, served, same, listed, left, stops, not_true_eq_false, if_true,
            if_false]
          exact Box.mem_wait_line.mpr (.inr rfl)
        · simp only [advance, served, same, listed, left, stops, not_true_eq_false, if_true,
            if_false]
          exact standing
      · exact kept other (by simp [split, late]) (Nat.ne_of_lt (behind other late)).symm owes less

theorem proceed_later_owes (orderly : topic.Orderly)
    (split : topic.publishings = earlier ++ publishing :: later)
    (stuck : ∀ other ∈ earlier, topic.Stuck other) :
    (topic.proceed publishing).2.publishings.Pairwise fun first second =>
      ∀ id box, boxOf (topic.proceed publishing).2.boxes id = some box →
        id ∈ first.rest → id ∈ second.rest := by
  have member : publishing ∈ topic.publishings := by simp [split]
  have pairs := orderly.later_owes
  have narrow : ∀ {first second : Publishing α},
      (∀ id box, boxOf topic.boxes id = some box → id ∈ first.rest → id ∈ second.rest) →
      ∀ id box, boxOf (topic.proceed publishing).2.boxes id = some box →
        id ∈ first.rest → id ∈ second.rest := by
    intro first second owes id after here
    rcases orderly.of_boxOf_proceed member here with ⟨box, found, -, -⟩
    exact owes id box found
  rw [split, List.pairwise_append, List.pairwise_cons] at pairs
  rcases pairs with ⟨front, ⟨after, back⟩, across⟩
  rw [orderly.proceed_publishings split, List.append_assoc, List.pairwise_append,
    List.pairwise_append]
  refine ⟨front.imp narrow, ⟨?_, back.imp narrow, ?_⟩, ?_⟩
  · unfold left
    split
    · exact List.Pairwise.nil
    · exact List.pairwise_singleton _ _
  · intro changed changedMember other late
    rcases mem_left changedMember with ⟨-, rfl⟩
    intro id box here owes
    exact narrow (after other late) id box here (progress_rest_subset topic publishing owes)
  · intro other early changed rest
    rcases List.mem_append.mp rest with changedMember | late
    · rcases mem_left changedMember with ⟨-, rfl⟩
      intro id box here owes
      by_contra passed
      have listed := narrow (across other early publishing List.mem_cons_self) id box here owes
      exact orderly.first_of_passed split stuck listed passed other early owes
    · exact narrow (across other early changed (List.mem_cons_of_mem _ late))

theorem proceed (orderly : topic.Orderly)
    (split : topic.publishings = earlier ++ publishing :: later)
    (stuck : ∀ other ∈ earlier, topic.Stuck other) : (topic.proceed publishing).2.Orderly := by
  have member : publishing ∈ topic.publishings := by simp [split]
  refine ⟨orderly.toListed.proceed member, orderly.proceed_later_owes split stuck, ?_, ?_⟩
  · exact fun id after here => orderly.proceed_line_sorted member here
  · intro id after here other present owes ticket inLine less
    exact orderly.proceed_line_closed split stuck here present owes inLine less

/-- Others keep their places when a publishing goes on. -/
theorem proceed_stands (orderly : topic.Orderly) (member : publishing ∈ topic.publishings)
    {other : Publishing α} (apart : other.ticket ≠ publishing.ticket)
    (stands : topic.Stands other) : (topic.proceed publishing).2.Stands other := by
  intro id after front here
  rcases orderly.of_boxOf_proceed member here with ⟨box, found, -, rfl⟩
  exact (mem_served_line apart).mpr (stands id box front found)

theorem proceed_stuck (orderly : topic.Orderly) (member : publishing ∈ topic.publishings)
    {other : Publishing α} (apart : publishing.ticket ≠ other.ticket)
    (stuck : topic.Stuck other) : (topic.proceed publishing).2.Stuck other := by
  have ⟨id, box, front, here, inLine, full⟩ := stuck
  obtain ⟨after, place, grows⟩ :=
    serve_ahead topic.capacity apart publishing.value here publishing.rest
  have there : boxOf (topic.proceed publishing).2.boxes id = some after := by
    rw [proceed_boxes]
    exact place
  refine ⟨id, after, front, there, ?_, ?_⟩
  · exact orderly.proceed_stands member apart.symm stuck.stands id after front there
  · rw [proceed_capacity]
    exact Nat.le_trans full grows

/-- A publishing goes on until it is stuck or has ended. -/
theorem proceed_stuck_self (orderly : topic.Orderly) (member : publishing ∈ topic.publishings)
    (waits : (topic.progress publishing).rest ≠ []) :
    (topic.proceed publishing).2.Stuck (advance publishing (topic.progress publishing)) := by
  have nodup := orderly.rest_nodup member
  rcases List.exists_cons_of_ne_nil waits with ⟨id, rest, stops⟩
  have front : (topic.progress publishing).rest.head? = some id := by rw [stops]; rfl
  rcases not_admits_of_stopped nodup front with ⟨box, found, full⟩
  have same : box.id = id := (boxOf_eq_some found).2
  have kept : id ∈ (topic.progress publishing).rest := List.mem_of_head? front
  have listed : id ∈ publishing.rest := progress_rest_subset topic publishing kept
  have waiting : served publishing.ticket publishing.value publishing.rest
      (topic.progress publishing).rest box = box.wait publishing.ticket := by
    simp [served, same, listed, kept, front]
  refine ⟨id, box.wait publishing.ticket, front, ?_, Box.mem_wait_line.mpr (.inr rfl), ?_⟩
  · rw [orderly.boxOf_proceed member, found, Option.map_some, waiting]
  · rw [proceed_capacity]
    exact Nat.le_trans (admits_eq_false_iff.mp full) (box.ahead_le_wait _ _)

end Orderly

end Proceed

end Topic
end Bus
end Ventilation
