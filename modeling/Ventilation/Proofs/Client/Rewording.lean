import Ventilation.Client.Message
import Ventilation.Proofs.Json.Members

namespace Ventilation

/-!
# Rewordings of a request

Clients may put interlock flags into the states that they ask for.  A rewording
changes, adds and leaves out such flags, and nothing else.  As long as both
messages are understood, they ask for the same dampers and the same fan: what a
flag says is read, so it can make a message fail, but it ends up in the flags
only.
-/

open Json (Document Member Mismatch Value text?)

namespace State

/-- Whether a key names an output, or nothing that a state has, but no interlock. -/
def isOutput (key : String) : Bool := key ≠ "LaserLock" && key ≠ "OLGALock"

/-- Two records of a state that differ in their flags at most.  In an array the
flags come after the four outputs. -/
inductive Reflagged : Document → Document → Prop
  | object {first second : List Member}
      (same : first.filter (Document.stays isOutput) = second.filter (Document.stays isOutput)) :
      Reflagged (.object first) (.object second)
  | array {first second : List Document} (same : first.take 4 = second.take 4) :
      Reflagged (.array first) (.array second)

/-! ## Fields one after another -/

/-- Read one field of a state from a value. -/
def putValue (draft : Draft) (field : String × Value) : Except Mismatch Draft :=
  draft.put Damper.choice.read Fan.choice.read Value.readBool field.1 field.2

def fields : Value → List (String × Value)
  | .object members => members
  | .array items => layout.fields.zip items
  | _ => []

/-- A draft without its flags. -/
def Draft.unflagged (draft : Draft) : Draft := { draft with laser := none, olga := none }

theorem putValue_of_notMem {draft : Draft} {field : String × Value}
    (unknown : field.1 ∉ layout.fields) : putValue draft field = .ok draft := by
  unfold putValue Draft.put
  split
  case h_7 => rfl
  all_goals
    next same =>
      rw [same] at unknown
      exact absurd (by decide) unknown

/-- A flag leaves the outputs. -/
theorem unflagged_of_flag {draft next : Draft} {field : String × Value}
    (flag : isOutput field.1 = false) (read : putValue draft field = .ok next) :
    next.unflagged = draft.unflagged := by
  rcases field with ⟨key, value⟩
  have lock : key = "LaserLock" ∨ key = "OLGALock" := by
    by_contra others
    rw [not_or] at others
    simp [isOutput, others.1, others.2] at flag
  rcases lock with rfl | rfl
  all_goals
    cases said : value.readBool with
    | error mismatch => simp [putValue, Draft.put, said, bind, Except.bind] at read
    | ok active =>
      simp only [putValue, Draft.put, said, bind, Except.bind, pure, Except.pure,
        Except.ok.injEq] at read
      exact read ▸ rfl

/-- Reading an output does not depend on the flags. -/
theorem putValue_unflagged (draft : Draft) {field : String × Value}
    (output : isOutput field.1 = true) :
    putValue draft.unflagged field = (putValue draft field).map Draft.unflagged := by
  rcases field with ⟨key, value⟩
  by_cases known : key ∈ layout.fields
  · simp only [layout, List.mem_cons, List.not_mem_nil, or_false] at known
    rcases known with rfl | rfl | rfl | rfl | rfl | rfl
    case inr.inr.inr.inr.inl | inr.inr.inr.inr.inr => simp [isOutput] at output
    case inr.inr.inr.inl =>
      simp only [putValue, Draft.put]
      cases Fan.choice.read value with
      | error mismatch => rfl
      | ok fan => rfl
    all_goals
      simp only [putValue, Draft.put]
      cases Damper.choice.read value with
      | error mismatch => rfl
      | ok damper => rfl
  · rw [putValue_of_notMem known, putValue_of_notMem known]
    rfl

theorem foldlM_unflagged {members : List (String × Value)} {draft final : Draft}
    (read : members.foldlM putValue draft = .ok final) :
    (members.filter fun member => isOutput member.1).foldlM putValue draft.unflagged =
      .ok final.unflagged := by
  induction members generalizing draft with
  | nil =>
    rcases Except.ok.inj read with rfl
    rfl
  | cons field rest inductionHypothesis =>
    rw [List.foldlM_cons] at read
    cases put : putValue draft field with
    | error mismatch =>
      rw [put] at read
      cases read
    | ok next =>
      rw [put] at read
      have later := inductionHypothesis read
      rw [List.filter_cons]
      cases output : isOutput field.1 with
      | false =>
        rw [← unflagged_of_flag output put]
        exact later
      | true =>
        rw [if_pos rfl, List.foldlM_cons, putValue_unflagged draft output, put]
        exact later

/-- The state of a value is read from its fields. -/
theorem exists_draft_of_ofValue {value : Value} {state : State}
    (read : ofValue value = .ok state) :
    ∃ draft, (fields value).foldlM putValue .empty = .ok draft ∧ draft.finish = .ok state := by
  unfold ofValue at read
  cases drawn : layout.read (Draft.put Damper.choice.read Fan.choice.read Value.readBool) .empty
      value with
  | error mismatch =>
    rw [drawn] at read
    cases read
  | ok draft =>
    rw [drawn] at read
    refine ⟨draft, ?_, read⟩
    cases value with
    | object members =>
      refine Eq.trans (congrArg (fun put => members.foldlM put Draft.empty) ?_) drawn
      funext draft field
      by_cases known : field.1 ∈ layout.fields
      · exact (if_pos known).symm
      · exact (putValue_of_notMem known).trans (if_neg known).symm
    | array items =>
      change ((layout.fields.zip items).foldlM putValue Draft.empty >>= fun draft => do
        if items.length < layout.leading then throw (.tooShort items.length layout.arrayName)
        if layout.fields.length < items.length then throw (.tooLong items.length)
        return draft) = .ok draft at drawn
      cases folded : (layout.fields.zip items).foldlM putValue Draft.empty with
      | error mismatch =>
        rw [folded] at drawn
        cases drawn
      | ok other =>
        rw [folded] at drawn
        simp only [bind, Except.bind, pure, Except.pure, throw, throwThe, MonadExceptOf.throw]
          at drawn
        split at drawn
        · cases drawn
        · split at drawn
          · cases drawn
          · rw [← Except.ok.inj drawn]
            exact folded
    | null | bool | number | string => cases drawn

theorem finish_unflagged {draft : Draft} {state : State} (finished : draft.finish = .ok state) :
    draft.unflagged.finish = .ok (state.withLocks .none) := by
  rcases draft with ⟨damper1, damper2, damper3, fan, laser, olga⟩
  rcases damper1 with - | damper1
  · cases finished
  rcases damper2 with - | damper2
  · cases finished
  rcases damper3 with - | damper3
  · cases finished
  rcases fan with - | fan
  · cases finished
  rcases Except.ok.inj finished with rfl
  rfl

/-- Values with the same fields apart from flags are states with the same outputs. -/
theorem outputs_eq_of_fields {first second : Value} {one two : State}
    (same : (fields first).filter (fun member => isOutput member.1) =
      (fields second).filter fun member => isOutput member.1)
    (readOne : ofValue first = .ok one) (readTwo : ofValue second = .ok two) :
    one.withLocks .none = two.withLocks .none := by
  rcases exists_draft_of_ofValue readOne with ⟨draftOne, foldOne, finishOne⟩
  rcases exists_draft_of_ofValue readTwo with ⟨draftTwo, foldTwo, finishTwo⟩
  have unflaggedOne := foldlM_unflagged foldOne
  rw [same, foldlM_unflagged foldTwo] at unflaggedOne
  have finished := finish_unflagged finishOne
  rw [← Except.ok.inj unflaggedOne, finish_unflagged finishTwo] at finished
  exact (Except.ok.inj finished).symm

/-- In an array the first four fields are the outputs. -/
theorem filter_zip (items : List Value) :
    (layout.fields.zip items).filter (fun field => isOutput field.1) =
      layout.fields.zip (items.take 4) := by
  rcases items with - | ⟨first, - | ⟨second, - | ⟨third, - | ⟨fourth, - | ⟨fifth, - | rest⟩⟩⟩⟩⟩
  all_goals simp [layout, isOutput]

/-- Records that differ in their flags at most have the same other fields. -/
theorem Reflagged.fields_eq {first second : Document} (reflagged : Reflagged first second)
    {depth : Nat} {one two : Value} (meansOne : first.value? depth = some one)
    (meansTwo : second.value? depth = some two) :
    (fields one).filter (fun member => isOutput member.1) =
      (fields two).filter fun member => isOutput member.1 := by
  cases reflagged with
  | object same =>
    simp only [Document.value?, Option.ite_none_left_eq_some, Option.map_eq_some_iff]
      at meansOne meansTwo
    rcases meansOne with ⟨-, found, understood, rfl⟩
    rcases meansTwo with ⟨-, others, understoodToo, rfl⟩
    have left := Document.memberValues?_filter isOutput understood
    rw [same, Document.memberValues?_filter isOutput understoodToo] at left
    simp only [fields, Value.filter_sorted]
    rw [Option.some.inj left]
  | array same =>
    simp only [Document.value?, Option.ite_none_left_eq_some, Option.map_eq_some_iff]
      at meansOne meansTwo
    rcases meansOne with ⟨-, values, understood, rfl⟩
    rcases meansTwo with ⟨-, others, understoodToo, rfl⟩
    have left := Document.itemValues?_take understood 4
    rw [same, Document.itemValues?_take understoodToo 4] at left
    simp only [fields, filter_zip]
    rw [Option.some.inj left]

end State

namespace Client

/-- Two messages that differ at most in the flags of their data. -/
inductive Reworded : Document → Document → Prop
  | object {before after : List Member} {key : List Text.Glyph} {first second : Document}
      (named : text? key = some "data") (reflagged : State.Reflagged first second) :
      Reworded (.object (before ++ (key, first) :: after))
        (.object (before ++ (key, second) :: after))
  | array {context first second : Document} (reflagged : State.Reflagged first second) :
      Reworded (.array [context, first]) (.array [context, second])

namespace Envelope

variable {draft final : Draft} {seen : List String} {members : List Member}

/-- Data that have been read stay, and nothing else depends on them. -/
theorem members?_of_seen (known : "data" ∈ seen)
    (read : layout.members? Draft.put draft seen members = some final) :
    final.data = draft.data ∧
      ∀ data, layout.members? Draft.put { draft with data := data } seen members =
        some { final with data := data } := by
  induction members generalizing draft seen with
  | nil =>
    rcases Option.some.inj read with rfl
    exact ⟨rfl, fun data => rfl⟩
  | cons member rest inductionHypothesis =>
    rcases member with ⟨key, document⟩
    simp only [Json.Layout.members?, Option.bind_eq_bind, Option.bind_eq_some_iff] at read
    rcases read with ⟨name, named, read⟩
    simp only [Json.Layout.members?, named, Option.bind_eq_bind, Option.bind_some]
    by_cases field : name ∈ layout.fields
    · simp only [field, if_true] at read ⊢
      by_cases again : name ∈ seen
      · simp [again] at read
      · simp only [again, if_false] at read ⊢
        have context : name = "ctx" := by
          simp only [layout, List.mem_cons, List.not_mem_nil, or_false] at field
          rcases field with same | same
          · exact same
          · exact absurd (same ▸ known) again
        subst context
        rcases Option.bind_eq_some_iff.mp read with ⟨next, put, later⟩
        rcases Option.map_eq_some_iff.mp put with ⟨context, said, rfl⟩
        rcases inductionHypothesis (List.mem_cons_of_mem _ known) later with ⟨stays, others⟩
        refine ⟨stays, fun data => ?_⟩
        rw [← others data]
        simp only [Draft.put, said, Option.map_some, Option.bind_some]
    · simp only [field, if_false] at read ⊢
      exact inductionHypothesis known read

variable {key : List Text.Glyph} {first second : Document} {one two : Draft}

/-- What comes of two objects that differ in their data. -/
theorem members?_reworded {before after : List Member} (named : text? key = some "data")
    (readOne : layout.members? Draft.put draft seen (before ++ (key, first) :: after) = some one)
    (readTwo : layout.members? Draft.put draft seen (before ++ (key, second) :: after) = some two) :
    one.context = two.context ∧
      (∃ value, first.value? (Json.maxDepth - 1) = some value ∧ one.data = some value) ∧
      ∃ value, second.value? (Json.maxDepth - 1) = some value ∧ two.data = some value := by
  induction before generalizing draft seen with
  | nil =>
    simp only [List.nil_append, Json.Layout.members?, named, Option.bind_eq_bind,
      Option.bind_some] at readOne readTwo
    have field : "data" ∈ layout.fields := by decide
    rw [if_pos field] at readOne readTwo
    by_cases again : "data" ∈ seen
    · simp [again] at readOne
    · rw [if_neg again] at readOne readTwo
      rcases Option.bind_eq_some_iff.mp readOne with ⟨nextOne, putOne, laterOne⟩
      rcases Option.bind_eq_some_iff.mp readTwo with ⟨nextTwo, putTwo, laterTwo⟩
      rcases Option.map_eq_some_iff.mp putOne with ⟨valueOne, meansOne, rfl⟩
      rcases Option.map_eq_some_iff.mp putTwo with ⟨valueTwo, meansTwo, rfl⟩
      -- No second data can follow, so what follows is read alike in both.
      rcases members?_of_seen List.mem_cons_self laterOne with ⟨dataOne, others⟩
      rcases members?_of_seen List.mem_cons_self laterTwo with ⟨dataTwo, -⟩
      have same := (others (some valueTwo)).symm.trans laterTwo
      refine ⟨?_, ⟨valueOne, meansOne, dataOne⟩, valueTwo, meansTwo, dataTwo⟩
      rw [← Option.some.inj same]
  | cons member rest inductionHypothesis =>
    rcases member with ⟨other, document⟩
    simp only [List.cons_append, Json.Layout.members?, Option.bind_eq_bind,
      Option.bind_eq_some_iff] at readOne readTwo
    rcases readOne with ⟨name, called, readOne⟩
    rcases readTwo with ⟨same, calledToo, readTwo⟩
    cases called.symm.trans calledToo
    by_cases field : name ∈ layout.fields
    · rw [if_pos field] at readOne readTwo
      by_cases again : name ∈ seen
      · simp [again] at readOne
      · rw [if_neg again] at readOne readTwo
        rcases Option.bind_eq_some_iff.mp readOne with ⟨next, put, laterOne⟩
        rcases Option.bind_eq_some_iff.mp readTwo with ⟨nextToo, putToo, laterTwo⟩
        cases put.symm.trans putToo
        exact inductionHypothesis laterOne laterTwo
    · rw [if_neg field] at readOne readTwo
      exact inductionHypothesis readOne readTwo

theorem read?_pair {context item : Document}
    (read : layout.read? Draft.put ⟨none, none⟩ (.array [context, item]) = some final) :
    ∃ name value, context.string? = some name ∧ item.value? (Json.maxDepth - 1) = some value ∧
      final = ⟨some name, some value⟩ := by
  have fits : ¬ (2 < 1 ∨ 2 < 2) := by decide
  simp only [Json.Layout.read?, layout, List.length_cons, List.length_nil, Nat.zero_add,
    Nat.reduceAdd, if_neg fits, List.zip_cons_cons, List.zip_nil_right, List.foldlM_cons,
    List.foldlM_nil, Draft.put, Option.bind_eq_bind, Option.bind_eq_some_iff,
    Option.map_eq_some_iff, Option.pure_def, Option.some.injEq] at read
  rcases read with ⟨named, ⟨name, said, rfl⟩, whole, ⟨value, means, rfl⟩, rfl⟩
  exact ⟨name, value, said, means, rfl⟩

/-- Envelopes of messages that differ in the flags of their data have the same
context, and data with the same other fields. -/
theorem alike_of_reworded {documentOne documentTwo : Document} {one two : Envelope}
    (reworded : Reworded documentOne documentTwo) (readOne : ofDocument? documentOne = some one)
    (readTwo : ofDocument? documentTwo = some two) :
    one.context = two.context ∧
      (State.fields one.data).filter (fun member => State.isOutput member.1) =
        (State.fields two.data).filter fun member => State.isOutput member.1 := by
  simp only [ofDocument?, Option.bind_eq_bind, Option.bind_eq_some_iff, Option.pure_def,
    Option.some.injEq] at readOne readTwo
  rcases readOne with ⟨draftOne, drawnOne, contextOne, namedOne, rfl⟩
  rcases readTwo with ⟨draftTwo, drawnTwo, contextTwo, namedTwo, rfl⟩
  cases reworded with
  | object named reflagged =>
    rcases members?_reworded named drawnOne drawnTwo with
      ⟨same, ⟨valueOne, meansOne, dataOne⟩, valueTwo, meansTwo, dataTwo⟩
    rw [namedOne, namedTwo] at same
    refine ⟨Option.some.inj same, ?_⟩
    rw [dataOne, dataTwo]
    exact reflagged.fields_eq meansOne meansTwo
  | @array context first second reflagged =>
    rcases read?_pair drawnOne with ⟨nameOne, valueOne, saidOne, meansOne, rfl⟩
    rcases read?_pair drawnTwo with ⟨nameTwo, valueTwo, saidTwo, meansTwo, rfl⟩
    cases saidOne.symm.trans saidTwo
    rw [← Option.some.inj namedOne, ← Option.some.inj namedTwo]
    exact ⟨rfl, reflagged.fields_eq meansOne meansTwo⟩

end Envelope

namespace Command

theorem exists_envelope_of_read {text : String} {command : Command}
    (understood : read text = .ok command) :
    ∃ document envelope, Document.ofChars? text.toList = some document ∧
      Envelope.ofDocument? document = some envelope ∧ ofEnvelope envelope = .ok command := by
  unfold read at understood
  split at understood
  · cases understood
  · split at understood
    · cases understood
    · next envelope found =>
      rcases Option.bind_eq_some_iff.mp found with ⟨document, parsed, drawn⟩
      exact ⟨document, envelope, parsed, drawn, understood⟩

/-- A message asks for a state just when its context says so. -/
theorem ofEnvelope_change {envelope : Envelope} {state : State}
    (understood : ofEnvelope envelope = .ok (.change state)) :
    envelope.context = "ventchange" ∧ State.ofValue envelope.data = .ok state := by
  unfold ofEnvelope at understood
  split at understood
  · next context =>
    split at understood
    · next read =>
      cases understood
      exact ⟨context, read⟩
    · cases understood
  · split at understood <;> cases understood
  · cases understood

/-- If a request for a state is reworded so that it is still understood, it asks
for the same outputs. -/
theorem change_of_reworded {first second : String} {documentOne documentTwo : Document}
    {state : State} {command : Command}
    (parsedOne : Document.ofChars? first.toList = some documentOne)
    (parsedTwo : Document.ofChars? second.toList = some documentTwo)
    (reworded : Reworded documentOne documentTwo) (asked : read first = .ok (.change state))
    (understood : read second = .ok command) :
    ∃ other, command = .change other ∧ other.withLocks .none = state.withLocks .none := by
  rcases exists_envelope_of_read asked with ⟨document, one, parsed, drawnOne, meansOne⟩
  cases parsedOne.symm.trans parsed
  rcases exists_envelope_of_read understood with ⟨document, two, parsed, drawnTwo, meansTwo⟩
  cases parsedTwo.symm.trans parsed
  rcases Envelope.alike_of_reworded reworded drawnOne drawnTwo with ⟨context, fields⟩
  rcases ofEnvelope_change meansOne with ⟨named, readOne⟩
  rw [named] at context
  simp only [ofEnvelope, ← context] at meansTwo
  cases readTwo : State.ofValue two.data with
  | error mismatch =>
    rw [readTwo] at meansTwo
    cases meansTwo
  | ok other =>
    rw [readTwo] at meansTwo
    rcases Except.ok.inj meansTwo with rfl
    exact ⟨other, rfl, (State.outputs_eq_of_fields fields readOne readTwo).symm⟩

end Command

end Client
end Ventilation
