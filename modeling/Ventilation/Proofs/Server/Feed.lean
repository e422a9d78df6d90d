import Ventilation.Proofs.Server.Turns
import Mathlib.Data.List.TakeWhile

namespace Ventilation
namespace Server

/-!
# Snapshot and broadcasts of one session

The fanout numbers what it writes down.  A session that listened after number
`m` gets the later broadcasts one by one; when the snapshot arrives, which is
some number `k`, it has read those up to some number `j`, leaves out what the
snapshot covers, and goes on after `k`.  At every instant what it has written,
what it has in hand and what is still to come to it are together exactly that.
-/

open Bus (Broadcast)
open Client (SessionPhase)

/-! ## Two courses of a feed -/

/-- All broadcasts after a number. -/
def course (texts : List Broadcast) (joined : Nat) : List Item :=
  (texts.drop (joined + 1)).map .broadcast

/-- The broadcasts after a number and up to another, a snapshot, and all
broadcasts after that. -/
def merged (texts : List Broadcast) (joined read : Nat) (snapshot : Broadcast) : List Item :=
  ((texts.drop (joined + 1)).take (read - joined)).map .broadcast ++
    .snapshot snapshot :: course texts snapshot.mark

/-- Every text has its number as its mark. -/
def Numbered (texts : List Broadcast) : Prop :=
  ∀ (number : Nat) (shown : Broadcast), texts[number]? = some shown → shown.mark = number

theorem Numbered.append {texts : List Broadcast} {text : Broadcast} (numbered : Numbered texts)
    (mark : text.mark = texts.length) : Numbered (texts ++ [text]) := by
  intro number shown here
  rw [List.getElem?_append] at here
  split at here
  · exact numbered number shown here
  · next beyond =>
    rcases List.getElem?_eq_some_iff.mp here with ⟨within, rfl⟩
    rw [List.length_singleton] at within
    have last : number = texts.length := by omega
    simpa [last] using mark

theorem course_append {texts : List Broadcast} {joined : Nat} (known : joined < texts.length)
    (news : List Broadcast) :
    course (texts ++ news) joined = course texts joined ++ news.map .broadcast := by
  unfold course
  rw [List.drop_append_of_le_length known, List.map_append]

theorem merged_append {texts : List Broadcast} {joined read : Nat} {snapshot : Broadcast}
    (known : snapshot.mark < texts.length) (early : joined ≤ read) (late : read ≤ snapshot.mark)
    (news : List Broadcast) :
    merged (texts ++ news) joined read snapshot =
      merged texts joined read snapshot ++ news.map .broadcast := by
  have old : joined + 1 ≤ texts.length := by omega
  have enough : read - joined ≤ (texts.drop (joined + 1)).length := by
    rw [List.length_drop]
    omega
  unfold merged
  rw [course_append known, List.drop_append_of_le_length old,
    List.take_append_of_le_length enough]
  simp

theorem exists_last {texts : List Broadcast} (numbered : Numbered texts) {number : Nat}
    (known : number < texts.length) :
    ∃ last : Broadcast, texts[last.mark]? = some last ∧ last.mark + 1 = texts.length := by
  have last := List.getElem?_eq_getElem (show texts.length - 1 < texts.length by omega)
  have mark := numbered _ _ last
  refine ⟨texts[texts.length - 1], ?_, by omega⟩
  rw [mark]
  exact last

theorem snapshot_not_mem_course (texts : List Broadcast) (joined : Nat) (snapshot : Broadcast) :
    Item.snapshot snapshot ∉ course texts joined := by
  intro member
  rcases List.mem_map.mp member with ⟨shown, -, same⟩
  cases same

/-- What a feed has carried so far is a beginning of its course with the last
text in place of the snapshot. -/
theorem course_prefix_merged {texts : List Broadcast} {joined : Nat} {last : Broadcast}
    (known : joined < texts.length) (newest : last.mark + 1 = texts.length) :
    course texts joined <+: merged texts joined last.mark last := by
  refine ⟨.snapshot last :: course texts last.mark, ?_⟩
  unfold merged course
  rw [List.take_of_length_le (by rw [List.length_drop]; omega)]

/-- A feed ends with the last text. -/
theorem course_getLast? {texts : List Broadcast} {joined : Nat} {item : Item}
    (last : (course texts joined).getLast? = some item) :
    ∃ shown, texts.getLast? = some shown ∧ item.message = .text shown.text := by
  rw [course, List.getLast?_map, List.getLast?_drop] at last
  split at last
  · cases last
  · rcases Option.map_eq_some_iff.mp last with ⟨shown, newest, rfl⟩
    exact ⟨shown, newest, rfl⟩

theorem merged_getLast? {texts : List Broadcast} {joined read : Nat} {snapshot : Broadcast}
    {item : Item} (there : texts[snapshot.mark]? = some snapshot)
    (last : (merged texts joined read snapshot).getLast? = some item) :
    ∃ shown, texts.getLast? = some shown ∧ item.message = .text shown.text := by
  rw [merged, List.getLast?_append, List.getLast?_cons, Option.some_or] at last
  cases later : (course texts snapshot.mark).getLast? with
  | some shown =>
    rw [later] at last
    exact course_getLast? (later.trans last)
  | none =>
    rw [later] at last
    rcases Option.some.inj last with rfl
    have nothing : texts.length ≤ snapshot.mark + 1 := by
      rw [course, List.getLast?_map, List.getLast?_drop, Option.map_eq_none_iff] at later
      by_contra more
      rw [if_neg more, List.getLast?_eq_none_iff] at later
      rw [later] at there
      cases there
    have known := (List.getElem?_eq_some_iff.mp there).1
    refine ⟨snapshot, ?_, rfl⟩
    rw [List.getLast?_eq_getElem?, show texts.length - 1 = snapshot.mark by omega]
    exact there

/-- The broadcasts that a snapshot does not cover are those after it, if it is
the last that has been read or one of those that wait. -/
theorem newer_append {texts queue owed : List Broadcast} {read : Nat} {snapshot : Broadcast}
    (numbered : Numbered texts) (there : texts[snapshot.mark]? = some snapshot)
    (whole : queue ++ owed = texts.drop (read + 1)) (late : read ≤ snapshot.mark)
    (covered : snapshot.mark ≤ read + queue.length) :
    Client.Session.newer snapshot queue ++ owed = texts.drop (snapshot.mark + 1) := by
  have place : ∀ position, position < queue.length →
      queue[position]? = texts[read + 1 + position]? := by
    intro position within
    rw [← List.getElem?_drop, ← whole, List.getElem?_append_left within]
  have passed : ∀ shown ∈ queue.take (snapshot.mark - read - 1), shown.mark ≠ snapshot.mark := by
    intro shown member
    rcases List.mem_iff_getElem?.mp member with ⟨position, here⟩
    rw [List.getElem?_take] at here
    split at here
    · next before =>
      have within : position < queue.length := by omega
      have mark := numbered _ _ ((place position within).symm.trans here)
      omega
    · cases here
  unfold Client.Session.newer
  rcases Nat.eq_or_lt_of_le late with same | later
  · -- The snapshot has been read as a broadcast, and all that wait are newer.
    have none_same : ∀ shown ∈ queue, shown.mark ≠ snapshot.mark := by
      intro shown member
      rcases List.mem_iff_getElem?.mp member with ⟨position, here⟩
      have within : position < queue.length := by
        by_contra beyond
        rw [List.getElem?_eq_none (Nat.le_of_not_lt beyond)] at here
        cases here
      have mark := numbered _ _ ((place position within).symm.trans here)
      omega
    have all : queue.dropWhile (fun shown => shown.mark ≠ snapshot.mark) = [] :=
      List.dropWhile_eq_nil_iff.mpr fun shown member => decide_eq_true (none_same shown member)
    rw [all, whole, same]
  · have within : snapshot.mark - read - 1 < queue.length := by omega
    have here : queue[snapshot.mark - read - 1]? = some snapshot := by
      rw [place _ within, show read + 1 + (snapshot.mark - read - 1) = snapshot.mark by omega]
      exact there
    have front : queue = queue.take (snapshot.mark - read - 1) ++
        snapshot :: queue.drop (snapshot.mark - read) := by
      have split := (List.take_append_drop (snapshot.mark - read - 1) queue).symm
      rw [List.drop_eq_getElem_cons within,
        Option.some.inj ((List.getElem?_eq_getElem within).symm.trans here),
        show snapshot.mark - read - 1 + 1 = snapshot.mark - read by omega] at split
      exact split
    have found : queue.dropWhile (fun shown => shown.mark ≠ snapshot.mark) =
        snapshot :: queue.drop (snapshot.mark - read) :=
      calc queue.dropWhile (fun shown => shown.mark ≠ snapshot.mark)
          = (queue.take (snapshot.mark - read - 1) ++
              snapshot :: queue.drop (snapshot.mark - read)).dropWhile
                (fun shown => shown.mark ≠ snapshot.mark) := congrArg _ front
        _ = (snapshot :: queue.drop (snapshot.mark - read)).dropWhile
                (fun shown => shown.mark ≠ snapshot.mark) :=
          List.dropWhile_append_of_pos fun shown member => decide_eq_true (passed shown member)
        _ = snapshot :: queue.drop (snapshot.mark - read) :=
          List.dropWhile_cons_of_neg (by simp)
    rw [found, ← List.drop_append_of_le_length (by omega), whole, List.drop_drop]
    congr 1
    omega

/-! ## How far a session has come -/

/-- What is on its way to a session: broadcasts, its requests for a snapshot and
the snapshot; and whether the fanout has sent all that it has written down. -/
structure Ahead where
  coming : List Broadcast
  requests : Nat
  mail : Option Broadcast
  calm : Prop

/-- How far a session has come with its feed. -/
inductive Stage (texts : List Broadcast) (seat : Seat) (ahead : Ahead) : Prop
  | fresh (begins : seat.session.phase = .fresh) (empty : seat.written = [] ∧ seat.hand = [])
      (unasked : ahead.requests = 0) (unanswered : ahead.mail = none)
  | reading (live : listens seat.session.phase = true) (known : seat.joined < texts.length)
      (whole : seat.got ++ ahead.coming.map .broadcast = course texts seat.joined)
      (once : ahead.requests ≤ 1) (unanswered : ahead.mail = none)
  | answered {snapshot : Broadcast} (live : listens seat.session.phase = true)
      (there : texts[snapshot.mark]? = some snapshot)
      (whole : seat.got ++ ahead.coming.map .broadcast = course texts seat.joined)
      (late : seat.joined + seat.got.length ≤ snapshot.mark)
      (sent : snapshot.mark + 1 < texts.length ∨ ahead.calm)
      (unasked : ahead.requests = 0) (ready : ahead.mail = some snapshot)
  | merging {read : Nat} {snapshot : Broadcast} (live : listens seat.session.phase = true)
      (there : texts[snapshot.mark]? = some snapshot) (early : seat.joined ≤ read)
      (late : read ≤ snapshot.mark)
      (whole : seat.got ++ ahead.coming.map .broadcast = merged texts seat.joined read snapshot)
      (unasked : ahead.requests = 0) (unanswered : ahead.mail = none)
  | past {read : Nat} {snapshot : Broadcast}
      (gone : listens seat.session.phase = false ∧ seat.session.phase ≠ .fresh)
      (there : texts[snapshot.mark]? = some snapshot) (early : seat.joined ≤ read)
      (late : read ≤ snapshot.mark)
      (part : seat.written.filter Item.fromFanout <+: merged texts seat.joined read snapshot)

namespace Stage

variable {texts : List Broadcast} {seat after : Seat} {ahead later : Ahead}

theorem mark_lt {snapshot : Broadcast} (there : texts[snapshot.mark]? = some snapshot) :
    snapshot.mark < texts.length :=
  (List.getElem?_eq_some_iff.mp there).1

/-- More is written down and sent to everyone who listens. -/
theorem carry (stage : Stage texts seat ahead) (news : List Broadcast)
    (coming : listens seat.session.phase = true → later.coming = ahead.coming ++ news)
    (fewer : later.requests ≤ ahead.requests) (mail : later.mail = ahead.mail)
    (calm : ahead.calm → later.calm ∨ news ≠ []) : Stage (texts ++ news) seat later := by
  have kept : ∀ {number : Nat} {shown : Broadcast}, texts[number]? = some shown →
      (texts ++ news)[number]? = some shown := by
    intro number shown here
    rw [List.getElem?_append_left (List.getElem?_eq_some_iff.mp here).1]
    exact here
  cases stage with
  | fresh begins empty unasked unanswered =>
    exact .fresh begins empty (by omega) (mail.trans unanswered)
  | reading live known whole once unanswered =>
    refine .reading live ?_ ?_ (by omega) (mail.trans unanswered)
    · rw [List.length_append]
      omega
    · rw [coming live, course_append known, ← whole, List.map_append, List.append_assoc]
  | answered live there whole late sent unasked ready =>
    have known := mark_lt there
    refine .answered live (kept there) ?_ late ?_ (by omega) (mail.trans ready)
    · rw [coming live, course_append (by omega), ← whole, List.map_append, List.append_assoc]
    · rw [List.length_append]
      rcases sent with older | all
      · exact .inl (by omega)
      · rcases calm all with still | some_news
        · exact .inr still
        · have longer := List.length_pos_iff.mpr some_news
          exact .inl (by omega)
  | merging live there early late whole unasked unanswered =>
    refine .merging live (kept there) early late ?_ (by omega) (mail.trans unanswered)
    rw [coming live, merged_append (mark_lt there) early late, ← whole, List.map_append,
      List.append_assoc]
  | past gone there early late part =>
    refine .past gone (kept there) early late ?_
    rw [merged_append (mark_lt there) early late]
    exact part.trans (List.prefix_append _ _)

/-- Nothing new is written down, and no request is added. -/
theorem keep (stage : Stage texts seat ahead) (coming : later.coming = ahead.coming)
    (fewer : later.requests ≤ ahead.requests) (mail : later.mail = ahead.mail)
    (calm : ahead.calm → later.calm) : Stage texts seat later := by
  have kept := stage.carry [] (fun _ => by rw [coming, List.append_nil]) fewer mail
    fun calmly => .inl (calm calmly)
  rwa [List.append_nil] at kept

/-- The session works on what it has in hand, or takes something that does not
come from the fanout. -/
theorem works (stage : Stage texts seat ahead) (live : listens seat.session.phase = true)
    (lives : listens after.session.phase = true) (joined : after.joined = seat.joined)
    (got : after.got = seat.got) : Stage texts after ahead := by
  cases stage with
  | fresh begins =>
    rw [begins] at live
    cases live
  | reading _ known whole once unanswered =>
    exact .reading lives (joined ▸ known) (by rw [got, joined]; exact whole) once unanswered
  | answered _ there whole late sent unasked ready =>
    exact .answered lives there (by rw [got, joined]; exact whole) (by rw [got, joined]; exact late)
      sent unasked ready
  | merging _ there early late whole unasked unanswered =>
    exact .merging lives there (joined ▸ early) late (by rw [got, joined]; exact whole) unasked
      unanswered
  | past gone =>
    rw [gone.1] at live
    cases live

theorem begins (stage : Stage texts seat ahead) (fresh : seat.session.phase = .fresh)
    (lives : listens after.session.phase = true) (same : after.got = seat.got)
    (newest : after.joined + 1 = texts.length) (coming : later.coming = [])
    (once : later.requests ≤ ahead.requests + 1) (mail : later.mail = ahead.mail) :
    Stage texts after later := by
  cases stage with
  | fresh _ empty unasked unanswered =>
    refine .reading lives (by omega) ?_ (by omega) (mail.trans unanswered)
    have nothing : seat.got = [] := by
      rw [Seat.got, empty.1, empty.2]
      rfl
    have all : texts.drop (after.joined + 1) = [] := List.drop_eq_nil_of_le (by omega)
    rw [same, nothing, coming, course, all]
    rfl
  | reading live | answered live | merging live =>
    rw [fresh] at live
    cases live
  | past gone => exact absurd fresh gone.2

/-- The session takes a broadcast, as no snapshot lies ready. -/
theorem takesBroadcast (stage : Stage texts seat ahead) (live : listens seat.session.phase = true)
    (lives : listens after.session.phase = true) (joined : after.joined = seat.joined)
    {shown : Broadcast} (got : after.got = seat.got ++ [.broadcast shown])
    (coming : ahead.coming = shown :: later.coming) (unready : ahead.mail = none)
    (requests : later.requests = ahead.requests) (mail : later.mail = ahead.mail) :
    Stage texts after later := by
  have same :
      after.got ++ later.coming.map .broadcast = seat.got ++ ahead.coming.map .broadcast := by
    rw [got, coming, List.map_cons, List.append_assoc]
    rfl
  cases stage with
  | fresh begins =>
    rw [begins] at live
    cases live
  | reading _ known whole once unanswered =>
    exact .reading lives (joined ▸ known) (by rw [same, joined]; exact whole) (requests ▸ once)
      (mail.trans unanswered)
  | answered _ _ _ _ _ _ ready =>
    rw [unready] at ready
    cases ready
  | merging _ there early late whole unasked unanswered =>
    exact .merging lives there (joined ▸ early) late (by rw [same, joined]; exact whole)
      (requests.trans unasked) (mail.trans unanswered)
  | past gone =>
    rw [gone.1] at live
    cases live

/-- The session takes the snapshot together with all broadcasts that wait, and
leaves out those that the snapshot covers. -/
theorem takesSnapshot (stage : Stage texts seat ahead) (numbered : Numbered texts)
    (live : listens seat.session.phase = true) (lives : listens after.session.phase = true)
    (joined : after.joined = seat.joined) {snapshot : Broadcast} {queue owed : List Broadcast}
    (ready : ahead.mail = some snapshot)
    (got : after.got = seat.got ++
      .snapshot snapshot :: (Client.Session.newer snapshot queue).map .broadcast)
    (coming : ahead.coming = queue ++ owed) (left : later.coming = owed)
    (one : owed.length ≤ 1) (none_owed : ahead.calm → owed = [])
    (requests : later.requests = ahead.requests) (mail : later.mail = none) :
    Stage texts after later := by
  cases stage with
  | fresh _ _ _ unanswered | reading _ _ _ _ unanswered | merging _ _ _ _ _ _ unanswered =>
    rw [ready] at unanswered
    cases unanswered
  | past gone =>
    rw [gone.1] at live
    cases live
  | @answered found _ there whole late sent unasked answer =>
    obtain rfl : found = snapshot := Option.some.inj (answer.symm.trans ready)
    have known := mark_lt there
    -- What has been read is the beginning of the course, and what waits is its rest.
    have beginning : seat.got = ((texts.drop (seat.joined + 1)).take seat.got.length).map
        Item.broadcast := by
      rw [List.map_take]
      change seat.got = (course texts seat.joined).take seat.got.length
      rw [← whole, List.take_left]
    have rest : queue ++ owed = texts.drop (seat.joined + seat.got.length + 1) := by
      have behind := congrArg (List.drop seat.got.length) whole
      rw [List.drop_left, course, ← List.map_drop, List.drop_drop, coming] at behind
      rw [show seat.joined + seat.got.length + 1 = seat.joined + 1 + seat.got.length by omega]
      exact List.map_injective_iff.mpr (fun _ _ => Item.broadcast.inj) behind
    have counted := congrArg List.length rest
    rw [List.length_append, List.length_drop] at counted
    have covered : found.mark ≤ seat.joined + seat.got.length + queue.length := by
      rcases sent with older | all
      · omega
      · have empty := congrArg List.length (none_owed all)
        rw [List.length_nil] at empty
        omega
    have newer := newer_append numbered there rest late covered
    refine .merging lives there (joined ▸ Nat.le_add_right _ seat.got.length) late ?_
      (requests.trans unasked) mail
    have read : seat.joined + seat.got.length - seat.joined = seat.got.length := by omega
    unfold merged course
    rw [joined, read, ← beginning, got, left, ← newer, List.map_append, List.append_assoc]
    rfl

/-- What a session has written from the fanout is a beginning of a merged feed.
Before the snapshot has been taken, the last text could still come as the
snapshot. -/
theorem merges (stage : Stage texts seat ahead) (numbered : Numbered texts)
    (begun : seat.session.phase ≠ .fresh) :
    ∃ read snapshot, seat.joined ≤ read ∧ read ≤ snapshot.mark ∧
      texts[snapshot.mark]? = some snapshot ∧
      seat.written.filter Item.fromFanout <+: merged texts seat.joined read snapshot ∧
      (listens seat.session.phase = true → Item.snapshot snapshot ∈ seat.written →
        seat.got ++ ahead.coming.map .broadcast = merged texts seat.joined read snapshot) := by
  have part : seat.written.filter Item.fromFanout <+: seat.got ++ ahead.coming.map .broadcast := by
    rw [Seat.got, List.filter_append, List.append_assoc]
    exact List.prefix_append _ _
  have unread : seat.joined < texts.length →
      seat.got ++ ahead.coming.map .broadcast = course texts seat.joined →
      ∃ read snapshot, seat.joined ≤ read ∧ read ≤ snapshot.mark ∧
        texts[snapshot.mark]? = some snapshot ∧
        seat.written.filter Item.fromFanout <+: merged texts seat.joined read snapshot ∧
        (listens seat.session.phase = true → Item.snapshot snapshot ∈ seat.written →
          seat.got ++ ahead.coming.map .broadcast = merged texts seat.joined read snapshot) := by
    intro known whole
    rw [whole] at part
    rcases exists_last numbered known with ⟨last, there, newest⟩
    refine ⟨last.mark, last, by omega, Nat.le_refl _, there,
      part.trans (course_prefix_merged known newest), fun _ member => ?_⟩
    have shown := part.subset (List.mem_filter.mpr ⟨member, rfl⟩)
    exact absurd shown (snapshot_not_mem_course texts seat.joined last)
  cases stage with
  | fresh begins => exact absurd begins begun
  | reading _ known whole => exact unread known whole
  | answered _ there whole late =>
    have known := mark_lt there
    exact unread (by omega) whole
  | @merging read snapshot _ there early late whole =>
    exact ⟨read, snapshot, early, late, there, whole ▸ part, fun _ _ => whole⟩
  | @past read snapshot gone there early late before =>
    refine ⟨read, snapshot, early, late, there, before, fun live => ?_⟩
    rw [gone.1] at live
    cases live

/-- When nothing is in hand and nothing is on its way, the last that was written
from the fanout is the last text. -/
theorem last_written (stage : Stage texts seat ahead)
    (live : listens seat.session.phase = true) (done : seat.hand = [])
    (still : ahead.coming = []) {item : Item}
    (last : (seat.written.filter Item.fromFanout).getLast? = some item) :
    ∃ shown, texts.getLast? = some shown ∧ item.message = .text shown.text := by
  have all : seat.got ++ ahead.coming.map .broadcast = seat.written.filter Item.fromFanout := by
    rw [Seat.got, done, still, List.append_nil, List.map_nil, List.append_nil]
  rw [← all] at last
  cases stage with
  | fresh begins =>
    rw [begins] at live
    cases live
  | past gone =>
    rw [gone.1] at live
    cases live
  | reading _ _ whole | answered _ _ whole => exact course_getLast? (whole ▸ last)
  | merging _ there _ _ whole => exact merged_getLast? there (whole ▸ last)

/-- Less is still to come to a session than has been written down. -/
theorem coming_length_lt (stage : Stage texts seat ahead)
    (live : listens seat.session.phase = true) : ahead.coming.length < texts.length := by
  have short : ∀ {joined : Nat}, (course texts joined).length = texts.length - (joined + 1) := by
    intro joined
    rw [course, List.length_map, List.length_drop]
  cases stage with
  | fresh begins =>
    rw [begins] at live
    cases live
  | past gone =>
    rw [gone.1] at live
    cases live
  | reading _ known whole =>
    have counted := congrArg List.length whole
    rw [List.length_append, List.length_map, short] at counted
    omega
  | answered _ there whole =>
    have known := mark_lt there
    have counted := congrArg List.length whole
    rw [List.length_append, List.length_map, short] at counted
    omega
  | @merging read snapshot _ there early late whole =>
    have known := mark_lt there
    have taken : Item.snapshot snapshot ∈ seat.got := by
      have member : Item.snapshot snapshot ∈ seat.got ++ ahead.coming.map .broadcast := by
        rw [whole]
        simp [merged]
      rcases List.mem_append.mp member with got | coming
      · exact got
      · rcases List.mem_map.mp coming with ⟨shown, -, same⟩
        cases same
    have some_taken := List.length_pos_of_mem taken
    have counted := congrArg List.length whole
    simp only [merged, List.length_append, List.length_map, List.length_cons, List.length_take,
      List.length_drop, short] at counted
    omega

theorem leaves (stage : Stage texts seat ahead) (numbered : Numbered texts)
    (begun : seat.session.phase ≠ .fresh)
    (gone : listens after.session.phase = false ∧ after.session.phase ≠ .fresh)
    (joined : after.joined = seat.joined) (written : after.written = seat.written) :
    Stage texts after later := by
  rcases stage.merges numbered begun with ⟨read, snapshot, early, late, there, part, -⟩
  exact .past gone there (joined ▸ early) late (by rw [written, joined]; exact part)

theorem answers (stage : Stage texts seat ahead) {last : Broadcast}
    (numbered : Numbered texts) (newest : texts.getLast? = some last)
    (fewer : later.requests + 1 ≤ ahead.requests) (coming : later.coming = ahead.coming)
    (calm : later.calm) (mail : later.mail = ahead.mail ∨ later.mail = some last) :
    Stage texts seat later := by
  cases stage with
  | fresh _ _ unasked | answered _ _ _ _ _ unasked | merging _ _ _ _ _ unasked => omega
  | past gone there early late part => exact .past gone there early late part
  | reading live known whole once unanswered =>
    rcases mail with same | ready
    · exact .reading live known (by rw [coming]; exact whole) (by omega) (same.trans unanswered)
    · rw [List.getLast?_eq_getElem?] at newest
      have mark := numbered _ _ newest
      have there : texts[last.mark]? = some last := by
        rw [mark]
        exact newest
      have counted := congrArg List.length whole
      simp only [List.length_append, course, List.length_map, List.length_drop] at counted
      exact .answered live there (by rw [coming]; exact whole) (by omega) (.inr calm) (by omega)
        ready

end Stage

end Server
end Ventilation
