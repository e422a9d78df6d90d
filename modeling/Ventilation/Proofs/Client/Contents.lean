import Ventilation.Proofs.Client.Rewording
import Ventilation.Proofs.Json.Arrangement
import Ventilation.Proofs.Json.Spelling

namespace Ventilation
namespace Client

/-!
# What a message is read by

A message is read by what its members say.  The order in which they come, the
blanks between them, the spelling of their strings and members that nobody asks
for make no difference, neither in the envelope nor in an object that it carries.
Only the size of the whole matters, and it is looked at before anything else.
-/

open Json
open Text (Glyph)

/-! ## Envelopes -/

namespace Envelope

variable {document : Document} {envelope : Envelope}

theorem independent_put : Independent Draft.put := by
  intro draft one two first second apart
  unfold Draft.put
  split <;> split
  all_goals first
    | exact absurd rfl apart
    | simp only [Option.map_eq_bind, Option.bind_assoc, Option.bind_some, Option.bind_fun_some,
        Function.comp_def]
  all_goals exact Option.bind_comm ..

/-- An envelope says what its last context and its last data say; data that are
left out are null. -/
theorem ofDocument?_eq_some_iff :
    ofDocument? document = some envelope ↔
      (layout.offered? document).isSome ∧
        (layout.field? "ctx" document).bind Document.string? = some envelope.context ∧
        ((layout.field? "data" document).elim (some .null) fun data =>
          data.value? (maxDepth - 1)) = some envelope.data := by
  have different : layout.fields.Nodup := by decide
  have fields : layout.fields = ["ctx", "data"] := rfl
  simp only [ofDocument?, Option.bind_eq_bind, Option.bind_eq_some_iff,
    Layout.read?_eq_some_iff independent_put different, Option.pure_def, Option.some.injEq,
    Layout.fieldsOf, fields, Layout.putAll_find_cons, List.filterMap_nil, putAll_nil,
    Option.bind_fun_some]
  rcases envelope with ⟨context, data⟩
  generalize layout.field? "ctx" document = naming, layout.field? "data" document = carrying
  cases naming with
  | none =>
    constructor
    · rintro ⟨draft, ⟨-, named, one, two⟩, context, said, -⟩
      cases one
      cases carrying with
      | none =>
        cases two
        cases said
      | some item =>
        rcases Option.map_eq_some_iff.mp two with ⟨content, -, rfl⟩
        cases said
    · rintro ⟨-, ⟨name, said, -⟩, -⟩
      cases said
  | some name =>
    cases carrying with
    | none => simp [Draft.put, and_assoc]
    | some item => simp [Draft.put, and_assoc]

end Envelope

/-! ## Other arrangements -/

/-- Two envelopes with the same members, and data with the same members, in any
order.  The second one may have more of them: in the envelope whatever it does not
know, in the data what a record does not know, as long as it means something. -/
inductive Rearranged (layout : Layout) : Document → Document → Prop
  | object {first second others more data arranged added : List Member} {key : List Glyph}
      (named : text? key = some "data") (before : first.Perm ((key, .object data) :: others))
      (after : second.Perm ((key, .object arranged) :: (others ++ more)))
      (ignored : ∀ member ∈ more, Envelope.layout.Foreign member)
      (keys : (data.map Prod.fst).Nodup) (moved : arranged.Perm (data ++ added))
      (foreign : ∀ member ∈ added, layout.Foreign member)
      (admissible : ∀ member ∈ added, member.2.Admissible (maxDepth - 2)) :
      Rearranged layout (.object first) (.object second)

/-- Another arrangement has the same context, and data that a record reads alike. -/
theorem Rearranged.exists_envelope {layout : Layout} {first second : Document}
    {envelope : Envelope} (rearranged : Rearranged layout first second)
    (read : Envelope.ofDocument? first = some envelope) :
    ∃ other, Envelope.ofDocument? second = some other ∧ other.context = envelope.context ∧
      ∀ {Draft : Type} (put : Draft → String → Value → Except Mismatch Draft) (empty : Draft),
        layout.read put empty other.data = layout.read put empty envelope.data := by
  rcases Envelope.ofDocument?_eq_some_iff.mp read with ⟨offered, context, carried⟩
  rcases Option.isSome_iff_exists.mp offered with ⟨fields, offered⟩
  have different : Envelope.layout.fields.Nodup := by decide
  have knowsData : Envelope.layout.knows "data" = true := by decide
  have knowsContext : Envelope.layout.knows "ctx" = true := by decide
  cases rearranged with
  | @object first second others more data arranged added key named before after ignored keys moved
      foreign admissible =>
    rcases Layout.offered?_arranged named knowsData before after ignored offered with
      ⟨rest, replaced, offeredToo, perm, permToo⟩
    -- Whatever an arrangement says for the context is among the rest, which is the same in both.
    have contexts : Envelope.layout.field? "ctx" (.object second) =
        Envelope.layout.field? "ctx" (.object first) := by
      rw [Layout.field?_of_perm different offeredToo permToo knowsContext,
        Layout.field?_of_perm different offered perm knowsContext]
      rfl
    rw [Layout.field?_of_perm different offered perm knowsData, if_pos rfl] at carried
    rcases Layout.read_arranged keys moved foreign admissible carried with ⟨value, means, alike⟩
    refine ⟨⟨envelope.context, value⟩, Envelope.ofDocument?_eq_some_iff.mpr ⟨?_, ?_, ?_⟩, rfl,
      alike⟩
    · rw [offeredToo, Option.isSome_some]
    · rw [contexts]
      exact context
    · rw [Layout.field?_of_perm different offeredToo permToo knowsData, if_pos rfl]
      exact means

/-! ## Commands -/

namespace Command

/-- The record that a command is read from. -/
def layout : Command → Layout
  | change _ => State.layout
  | lock _ => lockLayout

theorem ofEnvelope_lock {envelope : Envelope} {changes : List (Lock × Bool)}
    (understood : ofEnvelope envelope = .ok (.lock changes)) :
    envelope.context = "lockchange" ∧ changes ≠ [] ∧ lockChanges envelope.data = .ok changes := by
  unfold ofEnvelope at understood
  split at understood
  · split at understood <;> cases understood
  · next context =>
    split at understood
    · cases understood
    · next found some read =>
      cases understood
      exact ⟨context, some, read⟩
    · cases understood
  · cases understood

/-- Of data that are read alike comes the same command. -/
theorem ofEnvelope_of_alike {command : Command} {envelope other : Envelope}
    (context : other.context = envelope.context)
    (alike : ∀ {Draft : Type} (put : Draft → String → Value → Except Mismatch Draft)
      (empty : Draft), command.layout.read put empty other.data =
        command.layout.read put empty envelope.data)
    (understood : ofEnvelope envelope = .ok command) : ofEnvelope other = .ok command := by
  cases command with
  | change state =>
    rcases ofEnvelope_change understood with ⟨named, read⟩
    have readToo : State.ofValue other.data = .ok state := by
      rw [← read, State.ofValue, State.ofValue]
      exact congrArg (· >>= State.Draft.finish) (alike ..)
    simp only [ofEnvelope, context, named, readToo]
  | lock changes =>
    rcases ofEnvelope_lock understood with ⟨named, some, read⟩
    have readToo : lockChanges other.data = .ok changes := by
      rw [← read, lockChanges, lockChanges]
      exact congrArg (· >>= _) (alike ..)
    cases changes with
    | nil => exact absurd rfl some
    | cons change rest => simp only [ofEnvelope, context, named, readToo]

theorem read_of_rearranged {text other : String} {command : Command} {first second : Document}
    (spelled : Spelled first.tokens (glyphs text.toList))
    (respelled : Spelled second.tokens (glyphs other.toList))
    (rearranged : Rearranged command.layout first second) (fits : other.utf8ByteSize ≤ maxSize)
    (understood : read text = .ok command) : read other = .ok command := by
  rcases exists_envelope_of_read understood with ⟨document, envelope, parsed, drawn, meant⟩
  cases (Document.ofChars?_eq_some_iff.mpr spelled).symm.trans parsed
  rcases rearranged.exists_envelope drawn with ⟨another, drawnToo, context, alike⟩
  rw [read, if_neg (Nat.not_lt.mpr fits), Document.ofChars?_eq_some_iff.mpr respelled,
    Option.bind_eq_bind, Option.bind_some, drawnToo]
  exact ofEnvelope_of_alike context alike meant

end Command

/-! ## Interlocks -/

def lockKey : Lock → String
  | .laser => "LaserLock"
  | .olga => "OLGALock"

/-- A draft with what is said under a key. -/
def noted (draft : PerLock (Option Bool)) (key : String) (flag : Option Bool) :
    PerLock (Option Bool) :=
  match key with
  | "LaserLock" => { draft with laser := flag }
  | "OLGALock" => { draft with olga := flag }
  | _ => draft

theorem noted_lockKey (draft : PerLock (Option Bool)) (lock : Lock) (flag : Option Bool) :
    noted draft (lockKey lock) flag = draft.set lock flag := by
  cases lock <;> rfl

theorem noted_comm (draft : PerLock (Option Bool)) {one two : String} (apart : one ≠ two)
    (first second : Option Bool) :
    noted (noted draft one first) two second = noted (noted draft two second) one first := by
  unfold noted
  split <;> split
  all_goals first
    | exact absurd rfl apart
    | rfl

theorem toOption_putLock (draft : PerLock (Option Bool)) (key : String) (value : Value) :
    (putLock draft key value).toOption = value.readOptionalBool.toOption.map (noted draft key) := by
  rw [putLock, toOption_bind, Option.map_eq_bind]
  congr 1
  funext flag
  rw [Function.comp_apply]
  split
  · rfl
  · rfl
  · next laser olga =>
    rw [noted]
    · rfl
    · exact laser
    · exact olga

theorem independent_putLock :
    Independent fun draft key value => (putLock draft key value).toOption := by
  intro draft one two first second apart
  simp only [toOption_putLock]
  cases first.readOptionalBool.toOption with
  | none => simp
  | some earlier =>
    cases second.readOptionalBool.toOption with
    | none => simp
    | some later => simp [noted_comm draft apart]

/-- One interlock is read from what the document says under its key. -/
theorem putLock_field {depth : Nat} {document : Document} {value : Value}
    (means : document.value? depth = some value) {given : List (String × Value)}
    (gives : lockLayout.given? value = some given) (draft : PerLock (Option Bool)) {key : String}
    (known : lockLayout.knows key = true) :
    (given.lookup key).elim (some draft) (fun value => (putLock draft key value).toOption) =
      (lockLayout.field? key document).elim (some draft) fun content =>
        (content.optional? Document.bool?).map (noted draft key) := by
  rw [Layout.given?_lookup means gives known]
  cases said : lockLayout.field? key document with
  | none => rfl
  | some content =>
    rcases Layout.exists_value_of_field? means said with ⟨inner, meant⟩
    rw [Option.bind_some, meant, Option.elim_some, Option.elim_some, toOption_putLock,
      Document.toOption_readOptionalBool meant]

/-- An interlock that has not been read yet is what is said for it, and the other
one stays. -/
theorem get_of_noted {said : Option Document} {draft next : PerLock (Option Bool)} {lock : Lock}
    (blank : draft.get lock = none)
    (put : (said.elim (some draft) fun content =>
      (content.optional? Document.bool?).map (noted draft (lockKey lock))) = some next) :
    said.elim (some none) (Document.optional? Document.bool?) = some (next.get lock) ∧
      ∀ other, other ≠ lock → next.get other = draft.get other := by
  cases said with
  | none =>
    cases put
    exact ⟨congrArg some blank.symm, fun other _ => rfl⟩
  | some content =>
    rcases Option.map_eq_some_iff.mp put with ⟨flag, read, rfl⟩
    rw [noted_lockKey]
    refine ⟨?_, fun other apart => ?_⟩
    · rw [PerLock.get_set, if_pos rfl]
      exact read
    · rw [PerLock.get_set, if_neg apart]

/-- The interlocks are read from what a document says under their keys; an
interlock that is left out is read as null. -/
theorem readLocks_field {depth : Nat} {document : Document} {value : Value}
    {draft : PerLock (Option Bool)} (means : document.value? depth = some value)
    (read : lockLayout.read putLock ⟨none, none⟩ value = .ok draft) (lock : Lock) :
    (lockLayout.field? (lockKey lock) document).elim (some none)
      (Document.optional? Document.bool?) = some (draft.get lock) := by
  rw [← toOption_eq_some_iff, Layout.toOption_read, Option.bind_eq_some_iff] at read
  rcases read with ⟨given, gives, all⟩
  have different : lockLayout.fields.Nodup := by decide
  have fields : lockLayout.fields = ["LaserLock", "OLGALock"] := rfl
  have knowsLaser : lockLayout.knows "LaserLock" = true := by decide
  have knowsOlga : lockLayout.knows "OLGALock" = true := by decide
  rcases Layout.given?_apart different means gives with ⟨apart, known⟩
  simp only [putAll_inOrder independent_putLock different apart known, inOrder, fields,
    Layout.putAll_find_cons, putLock_field means gives _ knowsLaser,
    putLock_field means gives _ knowsOlga, List.filterMap_nil, putAll_nil,
    Option.bind_fun_some] at all
  rcases Option.bind_eq_some_iff.mp all with ⟨next, one, two⟩
  rcases @get_of_noted _ _ _ .laser rfl one with ⟨laser, others⟩
  rcases @get_of_noted _ _ _ .olga (others .olga (by decide)) two with ⟨olga, stays⟩
  cases lock with
  | laser =>
    rw [stays .laser (by decide)]
    exact laser
  | olga => exact olga

/-! ## Changes -/

/-- The changes are those interlocks that have been read, in their order. -/
theorem mem_changes {draft : PerLock (Option Bool)} {value : Value} {changes : List (Lock × Bool)}
    (read : lockLayout.read putLock ⟨none, none⟩ value = .ok draft)
    (named : lockChanges value = .ok changes) :
    (changes.map Prod.fst).Sublist Lock.all ∧
      ∀ lock flag, (lock, flag) ∈ changes ↔ draft.get lock = some flag := by
  rw [lockChanges, read] at named
  rcases Except.ok.inj named with rfl
  rcases draft with ⟨_ | laser, _ | olga⟩
  all_goals
    refine ⟨by simp [Lock.all], fun lock flag => ?_⟩
    cases lock <;> simp [PerLock.get, eq_comm]

/-- What is said for an interlock is a flag, or it is null or nothing. -/
theorem said_iff {said : Option Document} {flag : Option Bool}
    (read : said.elim (some none) (Document.optional? Document.bool?) = some flag) :
    (∀ active, flag = some active ↔ said = some (.bool active)) ∧
      (flag = none → said = none ∨ said = some .null) := by
  rcases said with - | (- | active | spelling | glyphs | items | members)
  case none =>
    rcases Option.some.inj read with rfl
    exact ⟨by simp, fun _ => .inl rfl⟩
  case some.null =>
    rcases Option.some.inj read with rfl
    exact ⟨by simp, fun _ => .inr rfl⟩
  case some.bool =>
    rcases Option.some.inj read with rfl
    exact ⟨by simp, nofun⟩
  all_goals cases read

/-- Interlocks are changed by those members of the data that are not null. -/
theorem lockChanges_field {depth : Nat} {document : Document} {value : Value}
    {changes : List (Lock × Bool)} (means : document.value? depth = some value)
    (named : lockChanges value = .ok changes) :
    (changes.map Prod.fst).Sublist Lock.all ∧ ∀ lock,
      (∀ flag, (lock, flag) ∈ changes ↔
        lockLayout.field? (lockKey lock) document = some (.bool flag)) ∧
      (lock ∉ changes.map Prod.fst → lockLayout.field? (lockKey lock) document = none ∨
        lockLayout.field? (lockKey lock) document = some .null) := by
  cases read : lockLayout.read putLock ⟨none, none⟩ value with
  | error mismatch =>
    rw [lockChanges, read] at named
    cases named
  | ok draft =>
    rcases mem_changes read named with ⟨ordered, among⟩
    refine ⟨ordered, fun lock => ?_⟩
    rcases said_iff (readLocks_field means read lock) with ⟨flags, left⟩
    refine ⟨fun flag => (among lock flag).trans (flags flag), fun absent => left ?_⟩
    refine Option.eq_none_iff_forall_ne_some.mpr fun flag found => absent ?_
    exact List.mem_map_of_mem ((among lock flag).mpr found)

/-- Messages are read by what they say.  A text that is too long is refused
whatever it says.  If a message is understood whose envelope and data are objects
without repetitions, any other text with the same members, in any order and
spelling and with others that nobody knows, is the same command.  And what is
understood as a change of interlocks names one at least, each of them once and in
their order, by just those members of the data that are not null. -/
theorem messages_are_read_by_content (text : String) :
    (maxSize < text.utf8ByteSize → Command.read text = .error (.tooLarge text.utf8ByteSize)) ∧
      (∀ command first second (other : String), Command.read text = .ok command →
        Spelled first.tokens (glyphs text.toList) → Spelled second.tokens (glyphs other.toList) →
        Rearranged command.layout first second → other.utf8ByteSize ≤ maxSize →
        Command.read other = .ok command) ∧
      ∀ changes, Command.read text = .ok (.lock changes) →
        changes ≠ [] ∧ (changes.map Prod.fst).Sublist Lock.all ∧
          ∃ document data, Spelled document.tokens (glyphs text.toList) ∧
            Envelope.layout.field? "data" document = some data ∧ ∀ lock,
              (∀ flag, (lock, flag) ∈ changes ↔
                lockLayout.field? (lockKey lock) data = some (.bool flag)) ∧
              (lock ∉ changes.map Prod.fst → lockLayout.field? (lockKey lock) data = none ∨
                lockLayout.field? (lockKey lock) data = some .null) := by
  refine ⟨fun large => if_pos large, ?_, ?_⟩
  · intro command first second other understood spelled respelled rearranged fits
    exact Command.read_of_rearranged spelled respelled rearranged fits understood
  · intro changes understood
    rcases Command.exists_envelope_of_read understood with
      ⟨document, envelope, parsed, drawn, meant⟩
    rcases Command.ofEnvelope_lock meant with ⟨-, filled, named⟩
    rcases Envelope.ofDocument?_eq_some_iff.mp drawn with ⟨-, -, carried⟩
    cases said : Envelope.layout.field? "data" document with
    | none =>
      rw [said, Option.elim_none, Option.some.injEq] at carried
      rw [← carried] at named
      cases named
    | some data =>
      rw [said, Option.elim_some] at carried
      rcases lockChanges_field carried named with ⟨ordered, members⟩
      have spelled := Document.ofChars?_eq_some_iff.mp parsed
      exact ⟨filled, ordered, document, data, spelled, said, members⟩

/-- A request for the workplace alone. -/
def plainText : String :=
  "\x7b\"ctx\":\"lockchange\",\"data\":\x7b\"OLGALock\":true,\"LaserLock\":null\x7d\x7d"

def plainData : List Member :=
  [Document.field "OLGALock" (.bool true), Document.field "LaserLock" .null]

/-- The same request with blanks, letters that are escaped and members that nobody
knows; the one in the envelope means nothing. -/
def dressedText : String :=
  " \x7b\"note\" : \"\\ud800\", \"d\\u0061ta\" : \x7b\"speed\":[1.5e3], \"LaserLock\":null , " ++
    "\"OLG\\u0041Lock\":true\x7d,\"ctx\":\"lock\\u0063hange\"\x7d\n"

/-- A member that an interlock change does not know. -/
def speed : Member :=
  Document.field "speed" (.array [.numeral ⟨false, ['1'], some ['5'], some (false, ['3'])⟩])

/-- The members of its data. -/
def dressedData : List Member :=
  [speed, Document.field "LaserLock" .null, Document.field "OLGALock" (.bool true)]

def dressed : Document :=
  .object [Document.field "note" (.string [.junk]), Document.field "data" (.object dressedData),
    Document.field "ctx" (.ofText "lockchange")]

/-- Both texts are the same request, one names the workplace once, and blanks alone
are too much if there are too many of them. -/
theorem plain_and_dressed_messages_are_alike :
    Command.read plainText = .ok (.lock [(.olga, true)]) ∧
      Command.read dressedText = .ok (.lock [(.olga, true)]) ∧
      (∃ data, Envelope.layout.field? "data" dressed = some data ∧
        lockLayout.field? "OLGALock" data = some (.bool true)) ∧
      Command.read (String.ofList (List.replicate 513 ' ')) = .error (.tooLarge 513) := by
  have understood : Command.read plainText = .ok (.lock [(.olga, true)]) := by decide +kernel
  have spelled : Spelled (envelope "lockchange" (.object plainData)).tokens
      (glyphs plainText.toList) := tokens?_eq_some_iff.mp (by decide +kernel)
  have respelled : Spelled dressed.tokens (glyphs dressedText.toList) :=
    tokens?_eq_some_iff.mp (by decide +kernel)
  have rearranged : Rearranged lockLayout (envelope "lockchange" (.object plainData)) dressed := by
    refine .object (text?_chars "data") (.swap ..)
      ((List.Perm.swap ..).trans (.cons _ (.swap ..))) ?_ (by decide +kernel)
      (List.reverse_perm (plainData ++ [speed])) ?_ ?_
    · exact List.forall_mem_singleton.mpr ⟨"note", text?_chars "note", by decide⟩
    · exact List.forall_mem_singleton.mpr ⟨"speed", text?_chars "speed", by decide⟩
    · refine List.forall_mem_singleton.mpr (.array (List.forall_mem_singleton.mpr ?_))
      exact .numeral (by decide +kernel)
  have dressedToo : Command.read dressedText = .ok (.lock [(.olga, true)]) :=
    (messages_are_read_by_content plainText).2.1 _ _ _ _ understood spelled respelled rearranged
      (by decide +kernel)
  rcases (messages_are_read_by_content dressedText).2.2 _ dressedToo with
    ⟨-, -, document, data, spelledToo, said, locks⟩
  have same := (Document.ofChars?_eq_some_iff.mpr spelledToo).symm.trans
    (Document.ofChars?_eq_some_iff.mpr respelled)
  cases same
  refine ⟨understood, dressedToo, ⟨data, said, ?_⟩, ?_⟩
  · exact ((locks .olga).1 true).mp List.mem_cons_self
  · have size : (String.ofList (List.replicate 513 ' ')).utf8ByteSize = 513 := by decide +kernel
    have refused := (messages_are_read_by_content (String.ofList (List.replicate 513 ' '))).1
    rw [size] at refused
    exact refused (by decide)

end Client
end Ventilation
