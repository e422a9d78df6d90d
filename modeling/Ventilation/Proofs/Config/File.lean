import Ventilation.Proofs.Config.Layers
import Ventilation.Proofs.Json.Arrangement
import Ventilation.Proofs.Json.Writing

namespace Ventilation

/-!
# Configuration files

A file says what a configuration says if it has the values of the configuration
under the names of their keys, in any order and spelling.  Keys without a value
are null or left out, and members that are no keys may say anything.  Whatever
else it looks like, such a file is read as the configuration.
-/

open Json
open Text (Glyph)

namespace Key

@[simp] theorem ofField?_field (key : Key) : ofField? key.field = some key := by
  cases key <;> decide

/-- Every number of a configuration has 64 bits at most. -/
theorem bits_le {key : Key} {bits : Nat} (natural : key.kind = .natural bits) : bits ≤ 64 := by
  cases key <;> cases natural <;> decide

theorem field_injective {key other : Key} (same : key.field = other.field) : key = other := by
  have found := ofField?_field key
  rw [same, ofField?_field] at found
  exact (Option.some.inj found).symm

end Key

namespace Config

variable {config draft : Config} {keys : List Key} {members more : List Member}

/-! ## Values -/

theorem readValue?_valueDocument {kind : Kind} (narrow : ∀ bits, kind = .natural bits → bits ≤ 64)
    (value : kind.Value) : readValue? kind (valueDocument kind value) = some value := by
  cases kind with
  | natural bits =>
    have fits : value.val < Nat.pow 2 64 :=
      Nat.lt_of_lt_of_le value.isLt (Nat.pow_le_pow_right (by decide) (narrow bits rfl))
    have number : (valueDocument (.natural bits) value).natural? (Nat.pow 2 bits) =
        some value.val := by
      rw [valueDocument, Document.natural?, Numeral.number?_ofNat fits, Option.bind_eq_bind,
        Option.bind_some, Number.below?, if_pos value.isLt]
    rw [readValue?, number, Option.bind_eq_bind, Option.bind_some, dif_pos value.isLt]
  | text => exact text?_chars value
  | path => exact text?_chars value

theorem optional?_valueDocument {kind : Kind} (narrow : ∀ bits, kind = .natural bits → bits ≤ 64)
    (value : kind.Value) :
    (valueDocument kind value).optional? (readValue? kind) = some (some value) := by
  have read := readValue?_valueDocument narrow value
  cases kind with
  | natural bits => exact congrArg (Option.map some) read
  | text => exact congrArg (Option.map some) read
  | path => exact congrArg (Option.map some) read

/-- What a configuration says for a key. -/
def told (config : Config) (key : Key) : Document :=
  match config.get key with
  | some value => valueDocument key.kind value
  | none => .null

theorem put_told (config draft : Config) (key : Key) :
    ∃ next, put draft key.field (config.told key) = some next ∧
      next.get key = (config.get key).or (draft.get key) ∧
      ∀ other, other ≠ key → next.get other = draft.get other := by
  cases given : config.get key with
  | none =>
    refine ⟨draft, ?_, rfl, fun _ _ => rfl⟩
    simp [put, told, given, Document.optional?]
  | some value =>
    have said : config.told key = valueDocument key.kind value := by simp [told, given]
    refine ⟨draft.set key value, ?_, draft.get_set_self key value, fun other apart => ?_⟩
    · simp [put, said, optional?_valueDocument (fun _ => Key.bits_le) value]
    · exact draft.get_set_of_ne apart value

/-- Fields that are told by a configuration give their keys its values. -/
theorem putAll_told {fields : List (String × Document)}
    (own : ∀ field ∈ fields, ∃ key : Key, field = (key.field, config.told key)) :
    ∃ final, putAll put draft fields = some final ∧ ∀ key : Key, final.get key =
      if key.field ∈ fields.map Prod.fst then (config.get key).or (draft.get key)
      else draft.get key := by
  induction fields generalizing draft with
  | nil => exact ⟨draft, rfl, fun _ => rfl⟩
  | cons field rest inductionHypothesis =>
    rcases List.forall_mem_cons.mp own with ⟨⟨first, rfl⟩, later⟩
    rcases put_told config draft first with ⟨next, put, here, elsewhere⟩
    rcases @inductionHypothesis next later with ⟨final, all, gets⟩
    refine ⟨final, by rw [putAll_cons, put, Option.bind_some, all], fun key => ?_⟩
    rw [gets, List.map_cons]
    by_cases same : key = first
    · subst same
      rw [if_pos List.mem_cons_self, here, ← Option.or_assoc, Option.or_self, ite_self]
    · have apart : key.field ≠ first.field := mt Key.field_injective same
      simp only [elsewhere key same, List.mem_cons, apart, false_or]

/-! ## Files -/

/-- A member of a file for a key. -/
def member (config : Config) (key : Key) : Member := Document.field key.field (config.told key)

/-- Some members tell a configuration: each of its values once, under the name of
its key, in any order.  Keys that have none may be null or left out, and members
that are no keys may say anything. -/
inductive Tells (config : Config) (members : List Member) : Prop
  | intro {keys : List Key} {more : List Member} (once : keys.Nodup)
      (complete : ∀ key, (config.get key).isSome = true → key ∈ keys)
      (foreign : ∀ member ∈ more, layout.Foreign member)
      (arranged : members.Perm (keys.map config.member ++ more))

theorem knows_field (key : Key) : layout.knows key.field = true :=
  decide_eq_true (List.mem_map_of_mem key.mem_all)

theorem named?_members (config : Config) (keys : List Key) :
    Layout.named? (keys.map config.member) =
      some (keys.map fun key => (key.field, config.told key)) := by
  induction keys with
  | nil => rfl
  | cons key rest inductionHypothesis =>
    rw [List.map_cons, List.map_cons, Layout.named?_cons]
    exact ⟨key.field, _, text?_chars key.field, inductionHypothesis, rfl⟩

/-- A configuration is read from members that tell it. -/
theorem ofDocument?_of_tells (tells : config.Tells members) :
    ofDocument? (.object members) = some config := by
  rcases tells with @⟨keys, more, once, complete, foreign, arranged⟩
  rcases Layout.named?_of_foreign foreign with ⟨added, calledMore, nothing⟩
  rcases mapM_perm arranged.symm (mapM_append_of (named?_members config keys) calledMore) with
    ⟨named, called, moved⟩
  -- Of all the members, the record looks at those of the configuration.
  have known : (named.filter fun field => layout.knows field.1).Perm
      (keys.map fun key => (key.field, config.told key)) := by
    have all : ∀ field ∈ keys.map fun key => (key.field, config.told key),
        layout.knows field.1 = true := by
      intro field among
      rcases List.mem_map.mp among with ⟨key, -, rfl⟩
      exact knows_field key
    have kept := (moved.filter fun field => layout.knows field.1).symm
    rwa [List.filter_append, nothing, List.append_nil, List.filter_eq_self.mpr all] at kept
  have names : (named.filter fun field => layout.knows field.1).map Prod.fst |>.Perm
      (keys.map Key.field) := by
    simpa [Function.comp_def] using known.map Prod.fst
  have apart := names.nodup_iff.mpr (once.map fun _ _ => Key.field_injective)
  have offered := Layout.offered?_object.mpr ⟨named, called, apart, rfl⟩
  have own : ∀ field ∈ named.filter fun field => layout.knows field.1,
      ∃ key : Key, field = (key.field, config.told key) := by
    intro field among
    rcases List.mem_map.mp (known.mem_iff.mp among) with ⟨key, -, rfl⟩
    exact ⟨key, rfl⟩
  rcases @putAll_told config empty _ own with ⟨final, all, gets⟩
  have same : final = config := by
    refine congrArg Config.mk (funext fun key => ?_)
    rw [gets]
    split
    · exact Option.or_none
    · next absent =>
      apply Eq.symm
      apply Option.not_isSome_iff_eq_none.mp
      intro given
      exact absent (names.mem_iff.mpr (List.mem_map_of_mem (complete key given)))
  rw [ofDocument?, Layout.read?_eq, offered, Option.bind_some, all, same]

/-- A file that spells such members is read as the configuration. -/
theorem ofBytes?_of_spelled (tells : config.Tells members) {text : List Char}
    (spelled : Spelled (Document.object members).tokens (glyphs text)) :
    ofBytes? (Text.Utf8.encode text) = some config := by
  rw [ofBytes?, Text.Utf8.decode?_eq_some_iff.mpr rfl, Option.bind_eq_bind, Option.bind_some,
    Document.ofChars?_eq_some_iff.mpr spelled]
  exact ofDocument?_of_tells tells

/-! ## What is written -/

theorem printable_told (config : Config) (key : Key) : (config.told key).Printable := by
  have written : ∀ (kind : Kind) (value : kind.Value), (valueDocument kind value).Printable := by
    intro kind value
    cases kind with
    | natural bits => exact .numeral (Numeral.proper_ofNat value.val)
    | text => exact Document.printable_ofText value
    | path => exact Document.printable_ofText value
  unfold told
  split
  · exact written _ _
  · exact .null

/-- A configuration is written with all its keys in their order. -/
theorem tells_document (config : Config) : config.Tells (Key.all.map config.member) :=
  .intro (by decide) (fun key _ => key.mem_all) (List.forall_mem_nil _) (by rw [List.append_nil])

theorem spelled_document (config : Config) :
    Spelled config.document.tokens (glyphs config.document.chars) := by
  apply Document.ofChars?_eq_some_iff.mp
  apply Document.ofChars?_chars
  refine .object ?_ ?_
  · intro member among
    rcases List.mem_map.mp among with ⟨key, -, rfl⟩
    simp [Document.field]
  · intro member among
    rcases List.mem_map.mp among with ⟨key, -, rfl⟩
    exact printable_told config key

/-- Configurations come back from their files.  What is written for a configuration
is read as that configuration, and so is every text with the same members in
whatever order and spelling, with any blanks, with or without the keys that have no
value, and with any members that are no keys.  Where such a file is in its place,
every key has the value of the command line, or else that of the configuration, or
else the standard value. -/
theorem configurations_come_back (config : Config) :
    ofBytes? (Text.Utf8.encode config.document.chars) = some config ∧
    ∀ members text, config.Tells members →
      Spelled (Document.object members).tokens (glyphs text) →
      ofBytes? (Text.Utf8.encode text) = some config ∧
      ∀ (line : Config) (contents : String → Option (List UInt8)),
        contents ((line.get .configPath).getD "server_ventilation.conf") =
          some (Text.Utf8.encode text) →
        ∀ key, (line.load contents).get key =
          (line.get key).or ((config.get key).or (standard.get key)) := by
  refine ⟨ofBytes?_of_spelled config.tells_document config.spelled_document, ?_⟩
  intro members text tells spelled
  have read := ofBytes?_of_spelled tells spelled
  refine ⟨read, fun line contents found key => ?_⟩
  have placed : contents line.file = some (Text.Utf8.encode text) := found
  rw [get_load, placed, Option.bind_some, read, Option.bind_some, Option.or_assoc]

/-- The longest pause, the highest bus id and a device with a quote in its name. -/
def extreme : Config :=
  ((empty.set .mqttReconnectBackoffSecs ⟨18446744073709551615, by decide⟩).set .tty "/dev/t\"y").set
    .targetId ⟨255, by decide⟩

/-- A file that tells it, with a key that has no value and a member that is no key
and whose value could not be read. -/
def extremeText : String :=
  "\x7b\"colour\": [1e999, \"\\ud800\"],\n \"targetId\" :255, \"localToken\": null,\t" ++
    "\"t\\u0074y\":\"\\/dev/t\\\"y\", \"mqttReconnectBackoffSecs\":18446744073709551615 \x7d\r\n"

def extremeKeys : List Key := [.mqttReconnectBackoffSecs, .tty, .localToken, .targetId]

def colour : Member :=
  Document.field "colour"
    (.array [.numeral ⟨false, ['1'], none, some (false, ['9', '9', '9'])⟩, .string [.junk]])

/-- The extreme configuration comes back, and stands between a command line that
gives a port and the standard values. -/
theorem configurations_come_back_from_their_limits :
    ofBytes? (Text.Utf8.encode extremeText.toList) = some extreme ∧
      let both := (empty.set .port ⟨9100, by decide⟩).load fun name =>
        if name = "server_ventilation.conf" then some (Text.Utf8.encode extremeText.toList) else none
      both.get .port = some ⟨9100, by decide⟩ ∧ both.get .targetId = some ⟨255, by decide⟩ ∧
        both.get .baud = some ⟨9600, by decide⟩ := by
  have tells : extreme.Tells (extremeKeys.map extreme.member ++ [colour]).reverse := by
    refine .intro (by decide) ?_ ?_ (List.reverse_perm _)
    · intro key
      cases key <;> decide
    · exact List.forall_mem_singleton.mpr ⟨"colour", text?_chars "colour", by decide⟩
  have spelled : Spelled
      (Document.object (extremeKeys.map extreme.member ++ [colour]).reverse).tokens
      (glyphs extremeText.toList) :=
    tokens?_eq_some_iff.mp (by decide +kernel)
  rcases (configurations_come_back extreme).2 _ _ tells spelled with ⟨read, layered⟩
  have layers := layered (empty.set .port ⟨9100, by decide⟩) (fun name =>
    if name = "server_ventilation.conf" then some (Text.Utf8.encode extremeText.toList) else none)
    rfl
  exact ⟨read, layers .port, layers .targetId, layers .baud⟩

end Config
end Ventilation
