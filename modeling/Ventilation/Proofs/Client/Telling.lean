import Ventilation.Feed.Event
import Ventilation.Proofs.Client.Wrapping
import Ventilation.Proofs.Json.Writing

namespace Ventilation

/-!
# What is told reads back

Clients are told states and refusals, and the broker is told states with a time.
All of it is JSON, and whoever reads it finds what was meant: a client that sends
back the state that it was told asks for that state, a refusal says its kind and
its reason character for character, and a report gives back its state and its
time.

The text of a state is far below the limit on messages, whatever the state is.
-/

open Json (Document Layout Member Value maxDepth)

/-! ## Sizes -/

namespace Json

/-- The bytes that a member takes in an object, with the marks around it. -/
def Member.size (member : Member) : Nat :=
  String.utf8Len (quoted (member.1.map Text.Glyph.toChar)) + String.utf8Len member.2.chars + 2

theorem Document.utf8Len_laterMemberChars_le {members : List Member} {most : Nat}
    (each : ∀ member ∈ members, member.size ≤ most) :
    String.utf8Len (laterMemberChars members) ≤ members.length * most + 1 := by
  induction members with
  | nil => exact Nat.le_add_left 1 _
  | cons member rest inductionHypothesis =>
    rcases List.forall_mem_cons.mp each with ⟨first, others⟩
    have later := inductionHypothesis others
    rcases member with ⟨key, document⟩
    simp only [laterMemberChars, String.utf8Len_cons, String.utf8Len_append, List.length_cons,
      Nat.succ_mul]
    have comma : ','.utf8Size = 1 := rfl
    have colon : ':'.utf8Size = 1 := rfl
    simp only [Member.size] at first
    omega

/-- An object is no longer than its members together, if none of them exceeds a size. -/
theorem Document.utf8Len_object_le {members : List Member} {most : Nat}
    (each : ∀ member ∈ members, member.size ≤ most) :
    String.utf8Len (object members).chars ≤ members.length * most + 2 := by
  have brace : '\x7b'.utf8Size = 1 := rfl
  cases members with
  | nil => exact Nat.le_add_left 2 _
  | cons member rest =>
    have all := utf8Len_laterMemberChars_le each
    have comma : ','.utf8Size = 1 := rfl
    rcases member with ⟨key, document⟩
    rw [laterMemberChars, String.utf8Len_cons] at all
    rw [chars, memberChars, String.utf8Len_cons]
    omega

namespace Document

variable {depth : Nat}

theorem value?_ofText (text : String) : (ofText text).value? depth = some (.string text) := by
  rw [ofText, value?, text?_chars, Option.map_some]

theorem memberValues?_field (name : String) (document : Document) (rest : List Member) :
    memberValues? depth (field name document :: rest) =
      (document.value? depth).bind fun value =>
        (memberValues? depth rest).map ((name, value) :: ·) := by
  rw [field, memberValues?, text?_chars]
  cases document.value? depth with
  | none => rfl
  | some value => cases memberValues? depth rest <;> rfl

end Document
end Json

/-! ## States -/

namespace Damper

theorem read?_name (position : Damper) :
    choice.read? (Document.ofText position.name) = some position := by
  cases position <;> rfl

end Damper

namespace Fan

theorem read?_name (fan : Fan) : choice.read? (Document.ofText fan.name) = some fan := by
  cases fan <;> rfl

end Fan

namespace State

/-- A state is read from its members, and what follows them is skipped. -/
theorem ofDocument?_members (state : State) {more : List Member}
    (skipped : ∀ put : Draft → String → Document → Option Draft, ∀ draft seen,
      layout.members? put draft seen more = some draft) :
    ofDocument? (.object (state.members ++ more)) = some state := by
  have fields : layout.fields =
      ["Damper1", "Damper2", "Damper3", "Fan", "LaserLock", "OLGALock"] := rfl
  simp only [ofDocument?, Layout.read?, members, List.cons_append, List.nil_append,
    Layout.members?_field]
  simp [fields, Draft.put, Damper.read?_name, Fan.read?_name, Document.bool?, skipped]
  rfl

theorem ofDocument?_document (state : State) : ofDocument? state.document = some state := by
  have read := @ofDocument?_members state [] fun _ _ _ => rfl
  rwa [List.append_nil] at read

theorem sound_of_mem {state : State} {member : Member} (among : member ∈ state.members) :
    .junk ∉ member.1 ∧ member.2.Printable ∧ ∀ depth, member.2.Admissible depth := by
  have text : ∀ text, (Document.ofText text).Printable ∧
      ∀ depth, (Document.ofText text).Admissible depth :=
    fun text => ⟨Document.printable_ofText text, fun _ => .string (by simp)⟩
  have flag : ∀ flag, (Document.bool flag).Printable ∧
      ∀ depth, (Document.bool flag).Admissible depth :=
    fun flag => ⟨.bool, fun _ => .bool⟩
  simp only [members, List.mem_cons, List.not_mem_nil, or_false] at among
  rcases among with rfl | rfl | rfl | rfl | rfl | rfl
  · exact ⟨by simp [Document.field], text _⟩
  · exact ⟨by simp [Document.field], text _⟩
  · exact ⟨by simp [Document.field], text _⟩
  · exact ⟨by simp [Document.field], text _⟩
  · exact ⟨by simp [Document.field], flag _⟩
  · exact ⟨by simp [Document.field], flag _⟩

theorem size_le {state : State} {member : Member} (among : member ∈ state.members) :
    member.size ≤ 21 := by
  simp only [members, List.mem_cons, List.not_mem_nil, or_false] at among
  rcases among with rfl | rfl | rfl | rfl | rfl | rfl
  · cases state.damper1 <;> decide
  · cases state.damper2 <;> decide
  · cases state.damper3 <;> decide
  · cases state.fan <;> decide
  · cases state.locks.laser <;> decide
  · cases state.locks.olga <;> decide

theorem printable_document (state : State) : state.document.Printable :=
  .object (fun _ among => (sound_of_mem among).1) fun _ among => (sound_of_mem among).2.1

theorem admissible_document (state : State) (depth : Nat) :
    state.document.Admissible (depth + 1) :=
  .object (fun _ among => (sound_of_mem among).1) fun _ among => (sound_of_mem among).2.2 depth

theorem utf8Len_document_le (state : State) : String.utf8Len state.document.chars ≤ 128 :=
  Document.utf8Len_object_le fun _ among => size_le among

end State

/-! ## Messages to clients -/

namespace Client

theorem printable_envelope (context : String) {data : Document} (printable : data.Printable) :
    (envelope context data).Printable := by
  refine @Document.printable_fields [("ctx", .ofText context), ("data", data)] ?_
  simp only [List.forall_mem_cons, List.not_mem_nil, false_imp_iff, implies_true, and_true]
  exact ⟨Document.printable_ofText context, printable⟩

/-- A state that is told is small enough to be sent back. -/
theorem utf8ByteSize_stateText_le (state : State) : (stateText state).utf8ByteSize ≤ maxSize := by
  have key : String.utf8Len
      (Json.quoted ((Document.field "data" .null).1.map Text.Glyph.toChar)) = 6 := by decide
  have data : Member.size (Document.field "data" state.document) ≤ 6 + 128 + 2 :=
    Nat.add_le_add_right (Nat.add_le_add (Nat.le_of_eq key) state.utf8Len_document_le) 2
  have context : Member.size (Document.field "ctx" (.ofText "ventchange")) ≤ 6 + 128 + 2 := by
    decide
  have whole := @Document.utf8Len_object_le
    [Document.field "ctx" (.ofText "ventchange"), Document.field "data" state.document] _
    (List.forall_mem_cons.mpr ⟨context, List.forall_mem_singleton.mpr data⟩)
  rw [stateText, Document.write, String.utf8ByteSize_ofList, envelope]
  exact whole.trans (show 2 * (6 + 128 + 2) + 2 ≤ maxSize by decide)

theorem ofChars?_envelope (context : String) {data : Document} (printable : data.Printable) :
    Document.ofChars? (envelope context data).write.toList = some (envelope context data) := by
  rw [Document.write, String.toList_ofList]
  exact Document.ofChars?_chars (printable_envelope context printable)

/-- A client that sends back the state that it was told asks for that state. -/
theorem read_stateText (state : State) : Command.read (stateText state) = .ok (.change state) := by
  have json := ofChars?_envelope "ventchange" state.printable_document
  obtain ⟨value, means⟩ :=
    (Document.exists_value_iff state.document (maxDepth - 1)).mpr (state.admissible_document _)
  have read := State.ofValue_of_ofDocument? means state.ofDocument?_document
  rw [Command.read, if_neg (Nat.not_lt.mpr (utf8ByteSize_stateText_le state)), stateText, json,
    Option.bind_eq_bind, Option.bind_some, ofDocument?_envelope, means]
  simp [Command.ofEnvelope, read]

def refusalData (refusal : Refusal) : Document :=
  .object [Document.field "Type" (.ofText refusal.kind.wireName),
    Document.field "Msg" (.ofText refusal.reason)]

/-- A refusal is read as what it means, its members sorted by their names. -/
theorem value?_refusal (refusal : Refusal) :
    Document.ofChars? (refusalText refusal).toList >>= Document.value? maxDepth =
      some (.object [("ctx", .string "error"), ("data", .object
        [("Msg", .string refusal.reason), ("Type", .string refusal.kind.wireName)])]) := by
  have printable : (refusalData refusal).Printable := by
    refine @Document.printable_fields
      [("Type", .ofText refusal.kind.wireName), ("Msg", .ofText refusal.reason)] ?_
    simp only [List.forall_mem_cons, List.not_mem_nil, false_imp_iff, implies_true, and_true]
    exact ⟨Document.printable_ofText _, Document.printable_ofText _⟩
  have inner : Value.sorted [("Type", .string refusal.kind.wireName),
      ("Msg", .string refusal.reason)] = [("Msg", .string refusal.reason),
        ("Type", .string refusal.kind.wireName)] := by
    simp [Value.sorted, Value.insert, show "Msg" < "Type" by decide]
  have outer : ∀ data, Value.sorted [("ctx", .string "error"), ("data", data)] =
      [("ctx", .string "error"), ("data", data)] := by
    intro data
    simp [Value.sorted, Value.insert, show ¬ "data" < "ctx" by decide]
  change Document.ofChars? (envelope "error" (refusalData refusal)).write.toList >>= _ = _
  rw [ofChars?_envelope "error" printable, Option.bind_eq_bind, Option.bind_some, envelope,
    refusalData, Document.value?, if_neg (by decide), Document.memberValues?_field,
    Document.value?_ofText, Option.bind_some, Document.memberValues?_field, Document.value?,
    if_neg (by decide), Document.memberValues?_field, Document.value?_ofText, Option.bind_some,
    Document.memberValues?_field, Document.value?_ofText, Option.bind_some]
  simp only [Document.memberValues?, Option.map_some, inner, Option.bind_some, outer]

end Client

/-! ## Reports to the broker -/

namespace Json

/-- The integer of 64 bits, one of them for the sign, that a number is. -/
def Number.integer? : Number → Option Int
  | natural value => if value < Nat.pow 2 63 then some value else none
  | negative magnitude => if magnitude ≤ Nat.pow 2 63 then some (-magnitude) else none
  | double _ _ => none

def Document.integer? : Document → Option Int
  | numeral spelling => spelling.number? >>= Number.integer?
  | _ => none

theorem Document.integer?_ofInt (value : Int64) :
    (numeral (.ofInt value.toInt)).integer? = some value.toInt := by
  have least := value.le_toInt
  have most := value.toInt_lt
  have power : Nat.pow 2 63 = 2 ^ 63 := rfl
  rw [integer?, Numeral.number?_ofInt least most]
  by_cases below : value.toInt < 0
  · have range : value.toInt.natAbs ≤ Nat.pow 2 63 := by omega
    have same : -(value.toInt.natAbs : Int) = value.toInt := by omega
    rw [if_pos below, Option.bind_eq_bind, Option.bind_some, Number.integer?, if_pos range, same]
  · have range : value.toInt.natAbs < Nat.pow 2 63 := by omega
    have same : (value.toInt.natAbs : Int) = value.toInt := by omega
    rw [if_neg below, Option.bind_eq_bind, Option.bind_some, Number.integer?, if_pos range, same]

end Json

namespace Feed

def time? (document : Document) : Option Int := do
  let found ← (Layout.mk "Report" ["Ts"] 1).read?
    (fun (_ : Option Int) _ item => item.integer?.map some) none document
  found

theorem ofChars?_reportText (state : State) (time : Int) :
    Document.ofChars? (reportText state time).toList =
      some (.object (state.members ++ [Document.field "Ts" (.numeral (.ofInt time))])) := by
  rw [reportText, Document.write, String.toList_ofList]
  refine Document.ofChars?_chars (.object ?_ ?_)
  · intro member among
    rcases List.mem_append.mp among with own | stamp
    · exact (State.sound_of_mem own).1
    · rw [List.mem_singleton.mp stamp]
      simp [Document.field]
  · intro member among
    rcases List.mem_append.mp among with own | stamp
    · exact (State.sound_of_mem own).2.1
    · rw [List.mem_singleton.mp stamp]
      exact .numeral (Json.Numeral.proper_ofInt time)

/-- The time of a report stands behind the members of its state. -/
theorem time?_report (state : State) (time : Int64) :
    time? (.object (state.members ++ [Document.field "Ts" (.numeral (.ofInt time.toInt))])) =
      some time.toInt := by
  simp only [time?, Layout.read?, State.members, List.cons_append, List.nil_append,
    Layout.members?_field]
  simp [Layout.members?, Json.Document.integer?_ofInt]

end Feed

/-- What is told reads back as what was meant.  The text of a state is read as a
request for that state.  The text of a refusal is an envelope of an error that
names the kind and gives the reason, character for character, and nothing else.
The text of a report is read as its state, and its time can be read from it. -/
theorem tellings_read_back :
    (∀ state, Client.Command.read (Client.stateText state) = .ok (.change state)) ∧
    (∀ refusal : Refusal,
      Document.ofChars? (Client.refusalText refusal).toList >>= Document.value? maxDepth =
        some (.object [("ctx", .string "error"), ("data", .object
          [("Msg", .string refusal.reason), ("Type", .string (match refusal.kind with
            | .prohibited => "prohibited"
            | .notAuthorized => "notauthorized"))])])) ∧
    ∀ state, ∀ time : Int64,
      State.ofText? (Feed.reportText state time.toInt) = some state ∧
        Document.ofChars? (Feed.reportText state time.toInt).toList >>= Feed.time? =
          some time.toInt := by
  refine ⟨Client.read_stateText, ?_, ?_⟩
  · intro refusal
    rw [Client.value?_refusal]
    cases refusal.kind <;> rfl
  · intro state time
    rw [State.ofText?, Feed.ofChars?_reportText, Option.bind_eq_bind, Option.bind_some,
      Option.bind_eq_bind, Option.bind_some]
    refine ⟨state.ofDocument?_members fun put draft seen => ?_, Feed.time?_report state time⟩
    rw [Layout.members?_field, if_neg (by decide)]
    rfl

end Ventilation
