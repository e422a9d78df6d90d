import Ventilation.Client.Message
import Ventilation.Proofs.Json.Meaning
import Ventilation.Proofs.Json.Spelling

namespace Ventilation

/-!
# States in envelopes

The text of a state is read as it stands, or it comes in the envelope of a
client.  Then it is understood first and read from what it means: keys have been
sorted by then, only the last member with a key is left, and text that means
nothing has been turned away.  Apart from that the envelope makes no difference.
-/

open Json

namespace State

section Put

variable {Source ε : Type}

theorem independent_put {damper : Source → Option Damper} {fan : Source → Option Fan}
    {flag : Source → Option Bool} : Independent (Draft.put damper fan flag) := by
  intro draft one two first second apart
  unfold Draft.put
  split <;> split
  all_goals first
    | exact absurd rfl apart
    | simp only [Option.bind_eq_bind, Option.pure_def, Option.bind_assoc, Option.bind_some,
        Option.bind_fun_some]
  all_goals exact Option.bind_comm ..

theorem toOption_put {damper : Source → Except ε Damper} {fan : Source → Except ε Fan}
    {flag : Source → Except ε Bool} (draft : Draft) (key : String) (source : Source) :
    (draft.put damper fan flag key source).toOption =
      draft.put (fun source => (damper source).toOption) (fun source => (fan source).toOption)
        (fun source => (flag source).toOption) key source := by
  unfold Draft.put
  split
  case h_7 => rfl
  all_goals
    rw [toOption_bind]
    rfl

/-- What reads no less than another one reads no less into a draft. -/
theorem put_mono {Other : Type} {damper : Source → Option Damper} {fan : Source → Option Fan}
    {flag : Source → Option Bool} {damperToo : Other → Option Damper}
    {fanToo : Other → Option Fan} {flagToo : Other → Option Bool} (source : Source)
    (other : Other) (dampers : ∀ position, damper source = some position →
      damperToo other = some position)
    (fans : ∀ state, fan source = some state → fanToo other = some state)
    (flags : ∀ active, flag source = some active → flagToo other = some active)
    {draft next : Draft} {key : String} (put : draft.put damper fan flag key source = some next) :
    draft.put damperToo fanToo flagToo key other = some next := by
  unfold Draft.put at put
  split at put
  case h_7 damper1 damper2 damper3 fan laser olga =>
    rw [Draft.put]
    · exact put
    all_goals assumption
  all_goals
    simp only [Draft.put, Option.bind_eq_bind, Option.pure_def, Option.bind_eq_some_iff] at put ⊢
    rcases put with ⟨part, read, same⟩
    first
      | exact ⟨part, dampers part read, same⟩
      | exact ⟨part, fans part read, same⟩
      | exact ⟨part, flags part read, same⟩

end Put

variable {depth : Nat} {document : Document} {value : Value} {state : State}

/-- A state that can be read from a document can be read from what it means. -/
theorem ofValue_of_ofDocument? (means : document.value? depth = some value)
    (read : ofDocument? document = some state) : ofValue value = .ok state := by
  rcases Option.bind_eq_some_iff.mp read with ⟨draft, drawn, finished⟩
  rw [← toOption_eq_some_iff, ofValue, toOption_bind, Option.bind_eq_some_iff]
  refine ⟨draft, Layout.read_of_read? ?_ ?_ means drawn, finished⟩
  · simp only [toOption_put]
    exact independent_put
  · intro draft name next document value means put
    rw [toOption_put]
    refine put_mono document value (fun position => Choice.read_of_read? means)
      (fun fan => Choice.read_of_read? means) (fun active said => ?_) put
    rwa [Document.toOption_readBool means]

/-- A state that can be read from what a document means can be read from the
document, unless an object repeats a key. -/
theorem ofDocument?_of_ofValue (distinct : document.Distinct)
    (means : document.value? depth = some value) (read : ofValue value = .ok state) :
    ofDocument? document = some state := by
  rw [← toOption_eq_some_iff, ofValue, toOption_bind, Option.bind_eq_some_iff] at read
  rcases read with ⟨draft, drawn, finished⟩
  refine Option.bind_eq_some_iff.mpr
    ⟨draft, Layout.read?_of_read ?_ ?_ distinct means drawn, finished⟩
  · simp only [toOption_put]
    exact independent_put
  · rintro draft name next value document ⟨apart, means⟩ put
    rw [toOption_put] at put
    refine put_mono value document (fun position => Choice.read?_of_read apart means)
      (fun fan => Choice.read?_of_read apart means) (fun active said => ?_) put
    rwa [Document.toOption_readBool means] at said

end State

namespace Client

variable {document : Document} {text : String} {state : State}

def opening : String := "\x7b\"ctx\":\"ventchange\",\"data\":"

/-- The text of an envelope around the text of a state. -/
def wrapped (text : String) : String := opening ++ text ++ "\x7d"

/-- The text in which a client asks for a state of the first damper and the fan,
with whatever flags. -/
def wish (damper fan flags : String) : String :=
  wrapped ("\x7b\"Damper1\":\"" ++ damper ++
    "\",\"Damper2\":\"closed\",\"Damper3\":\"closed\",\"Fan\":\"" ++ fan ++ "\"" ++ flags ++
    "\x7d")

/-- The tokens before the data of an envelope. -/
def wrapping : List Token :=
  [.openObject, .string (glyphs "ctx".toList), .colon, .string (glyphs "ventchange".toList),
    .comma, .string (glyphs "data".toList), .colon]

/-- A wrapped text says what the text says, in an envelope. -/
theorem ofChars?_wrapped (json : Document.ofChars? text.toList = some document) :
    Document.ofChars? (wrapped text).toList = some (envelope "ventchange" document) := by
  rw [Document.ofChars?_eq_some_iff] at json ⊢
  have before : Spelled wrapping (glyphs opening.toList) :=
    tokens?_eq_some_iff.mp (by decide +kernel)
  have after : Spelled [.closeObject] (glyphs "\x7d".toList) :=
    tokens?_eq_some_iff.mp (by decide +kernel)
  have both := (before.append json fun token isLast => by
    cases isLast
    trivial).append after fun token _ => token.endsBefore_closing []
  have tokens : (envelope "ventchange" document).tokens =
      wrapping ++ document.tokens ++ [.closeObject] := by
    rw [List.append_assoc]
    rfl
  rw [tokens, wrapped, @String.toList_append (opening ++ text), @String.toList_append opening,
    glyphs_append, glyphs_append]
  exact both

/-- An envelope is read by what its data mean. -/
theorem ofDocument?_envelope (document : Document) :
    Envelope.ofDocument? (envelope "ventchange" document) =
      (document.value? (maxDepth - 1)).map fun data => ⟨"ventchange", data⟩ := by
  have context : "ctx" ∈ Envelope.layout.fields := by decide
  have data : "data" ∈ Envelope.layout.fields := by decide
  have other : "data" ∉ ["ctx"] := by decide
  rw [Envelope.ofDocument?, envelope, Layout.read?, Layout.members?_field, if_pos context,
    if_neg List.not_mem_nil, Envelope.Draft.put, Document.ofText, Document.string?, text?_chars,
    Option.map_some, Option.bind_some, Layout.members?_field, if_pos data, if_neg other,
    Envelope.Draft.put]
  cases document.value? (maxDepth - 1) <;> rfl

/-- A wrapped text is read as a state if its document means one. -/
theorem read_wrapped (json : Document.ofChars? text.toList = some document)
    (fits : (wrapped text).utf8ByteSize ≤ maxSize) :
    Command.read (wrapped text) = .ok (.change state) ↔
      ∃ value, document.value? (maxDepth - 1) = some value ∧ State.ofValue value = .ok state := by
  rw [Command.read, if_neg (Nat.not_lt.mpr fits), ofChars?_wrapped json, Option.bind_eq_bind,
    Option.bind_some, ofDocument?_envelope]
  cases means : document.value? (maxDepth - 1) with
  | none => simp
  | some value =>
    cases read : State.ofValue value with
    | error mismatch => simp [Command.ofEnvelope, read]
    | ok other => simp [Command.ofEnvelope, read]

/-- A text that says a state says it with and without an envelope, as long as the
envelope is not too long.  If no object repeats a key, a state that is asked for
in an envelope can be read from its text as it stands; and if the text means
something within an envelope, a state that can be read as it stands is asked for
in the envelope. -/
theorem states_are_read_alike (json : Document.ofChars? text.toList = some document)
    (fits : (wrapped text).utf8ByteSize ≤ maxSize) :
    (∀ state, document.Distinct → Command.read (wrapped text) = .ok (.change state) →
        State.ofText? text = some state) ∧
      ∀ state, document.Admissible (maxDepth - 1) → State.ofText? text = some state →
        Command.read (wrapped text) = .ok (.change state) := by
  have direct : State.ofText? text = State.ofDocument? document := by
    rw [State.ofText?, json]
    rfl
  simp only [read_wrapped json fits, direct]
  constructor
  · rintro state distinct ⟨value, means, read⟩
    exact State.ofDocument?_of_ofValue distinct means read
  · intro state admissible read
    rcases (Document.exists_value_iff document _).mpr admissible with ⟨value, means⟩
    exact ⟨value, means, State.ofValue_of_ofDocument? means read⟩

/-- A state in which a letter is escaped, a word stands in an object, a flag is
left out and a member is not known. -/
def playful : String :=
  "\x7b\"Fan\":\"o\\u006e\", \"Damper1\":\x7b\"open\":null\x7d, \"note\":[1.5], " ++
    "\"Damper3\":\"halfopen\", \"OLGALock\":true, \"Damper2\":\"closed\"\x7d"

def playfulDocument : Document :=
  .object [Document.field "Fan" (.ofText "on"),
    Document.field "Damper1" (.object [Document.field "open" .null]),
    Document.field "note" (.array [.numeral ⟨false, ['1'], some ['5'], none⟩]),
    Document.field "Damper3" (.ofText "halfopen"), Document.field "OLGALock" (.bool true),
    Document.field "Damper2" (.ofText "closed")]

/-- A fan that is given twice. -/
def repetitive : String :=
  "\x7b\"Fan\":\"off\",\"Damper1\":\"open\",\"Damper2\":\"open\",\"Damper3\":\"open\"," ++
    "\"Fan\":\"on\"\x7d"

/-- A member that means nothing. -/
def excessive : String :=
  "\x7b\"Fan\":\"on\",\"Damper1\":\"open\",\"Damper2\":\"open\",\"Damper3\":\"open\"," ++
    "\"note\":1e999\x7d"

/-- The state is read in both ways; a repetition is read in the envelope only, and
what means nothing is read without the envelope only. -/
theorem states_are_read_alike_but_for_repetition_and_excess :
    State.ofText? playful = some ⟨.full, .closed, .half, .on, ⟨false, true⟩⟩ ∧
      Command.read (wrapped playful) = .ok (.change ⟨.full, .closed, .half, .on, ⟨false, true⟩⟩) ∧
      State.ofText? repetitive = none ∧
      Command.read (wrapped repetitive) = .ok (.change ⟨.full, .full, .full, .on, .none⟩) ∧
      State.ofText? excessive = some ⟨.full, .full, .full, .on, .none⟩ ∧
      Command.read (wrapped excessive) = .error .notEnvelope := by
  have json : Document.ofChars? playful.toList = some playfulDocument :=
    Document.ofChars?_eq_some_iff.mpr (tokens?_eq_some_iff.mp (by decide +kernel))
  have distinct : playfulDocument.Distinct := by
    refine .object (by decide +kernel) ?_
    simp only [List.forall_mem_cons, List.not_mem_nil, false_imp_iff, implies_true, and_true]
    refine ⟨.string, .object (by decide) ?_, .array ?_, .string, .bool, .string⟩
    · exact List.forall_mem_singleton.mpr .null
    · exact List.forall_mem_singleton.mpr .numeral
  have admissible : playfulDocument.Admissible (maxDepth - 1) := by
    refine .object (by decide +kernel) ?_
    simp only [List.forall_mem_cons, List.not_mem_nil, false_imp_iff, implies_true, and_true]
    refine ⟨.string (by decide), .object (by decide) ?_, .array ?_, .string (by decide), .bool,
      .string (by decide)⟩
    · exact List.forall_mem_singleton.mpr .null
    · exact List.forall_mem_singleton.mpr (.numeral (by decide +kernel))
  rcases states_are_read_alike json (by decide +kernel) with ⟨unwraps, wraps⟩
  have asked : Command.read (wrapped playful) =
      .ok (.change ⟨.full, .closed, .half, .on, ⟨false, true⟩⟩) :=
    wraps _ admissible (by decide +kernel)
  exact ⟨unwraps _ distinct asked, asked, by decide +kernel, by decide +kernel, by decide +kernel,
    by decide +kernel⟩

end Client
end Ventilation
