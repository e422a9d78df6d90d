import Ventilation.Json.Printer
import Ventilation.Proofs.Json.Fields
import Ventilation.Proofs.Text.Utf8

namespace Ventilation
namespace Json

/-!
# Documents and what they mean

A document has a meaning if its strings are text, its numerals are numbers and
its brackets do not nest too deeply.  A record can be read from the document or
from what it means.  Whoever can read it from the document can read it from the
value too.  The other way round this holds if no object repeats a key: a
document with a key that comes twice may mean a value in which it comes once.
-/

open Text (Glyph)
open Text.Glyph (exists_chars mapM_char?_map mapM_char?_of_junk mapM_char?_eq_some_iff)

/-- Glyphs are a text if they are the characters of it. -/
theorem text?_eq_some_iff {glyphs : List Glyph} {text : String} :
    text? glyphs = some text ↔ glyphs = text.toList.map .char := by
  rw [text?, Option.map_eq_some_iff]
  constructor
  · rintro ⟨chars, read, rfl⟩
    rw [String.toList_ofList]
    exact mapM_char?_eq_some_iff.mp read
  · intro same
    exact ⟨_, mapM_char?_eq_some_iff.mpr same, String.ofList_toList⟩

theorem text?_chars (text : String) : text? (text.toList.map .char) = some text :=
  text?_eq_some_iff.mpr rfl

theorem text?_inj {first second : List Glyph} {text : String} (one : text? first = some text)
    (two : text? second = some text) : first = second :=
  (text?_eq_some_iff.mp one).trans (text?_eq_some_iff.mp two).symm

theorem exists_text_iff {glyphs : List Glyph} :
    (∃ text, text? glyphs = some text) ↔ .junk ∉ glyphs := by
  constructor
  · rintro ⟨text, said⟩ junk
    rw [text?, mapM_char?_of_junk junk] at said
    cases said
  · intro clean
    rcases exists_chars clean with ⟨chars, rfl⟩
    exact ⟨_, by rw [text?, mapM_char?_map]; rfl⟩

namespace Document

variable {depth : Nat} {document : Document} {value : Value}

/-- No object repeats a key, however deep it lies. -/
inductive Distinct : Document → Prop
  | null : Distinct .null
  | bool {value : Bool} : Distinct (.bool value)
  | numeral {spelling : Numeral} : Distinct (.numeral spelling)
  | string {glyphs : List Glyph} : Distinct (.string glyphs)
  | array {items : List Document} (inner : ∀ item ∈ items, Distinct item) :
      Distinct (.array items)
  | object {members : List Member} (keys : (members.map Prod.fst).Nodup)
      (inner : ∀ member ∈ members, Distinct member.2) : Distinct (.object members)

/-- All strings are text, all numerals are numbers, and at most so many brackets
are open at one place. -/
inductive Admissible : Document → Nat → Prop
  | null {depth : Nat} : Admissible .null depth
  | bool {depth : Nat} {value : Bool} : Admissible (.bool value) depth
  | numeral {depth : Nat} {spelling : Numeral} (number : spelling.number?.isSome) :
      Admissible (.numeral spelling) depth
  | string {depth : Nat} {glyphs : List Glyph} (text : .junk ∉ glyphs) :
      Admissible (.string glyphs) depth
  | array {depth : Nat} {items : List Document} (inner : ∀ item ∈ items, Admissible item depth) :
      Admissible (.array items) (depth + 1)
  | object {depth : Nat} {members : List Member} (keys : ∀ member ∈ members, .junk ∉ member.1)
      (inner : ∀ member ∈ members, Admissible member.2 depth) :
      Admissible (.object members) (depth + 1)

/-! ## Meanings -/

theorem itemValues?_cons {item : Document} {rest : List Document} {values : List Value} :
    itemValues? depth (item :: rest) = some values ↔
      ∃ value later, item.value? depth = some value ∧ itemValues? depth rest = some later ∧
        values = value :: later := by
  simp only [itemValues?, Option.bind_eq_bind, Option.bind_eq_some_iff, Option.pure_def,
    Option.some.injEq]
  constructor
  · rintro ⟨value, means, later, others, rfl⟩
    exact ⟨value, later, means, others, rfl⟩
  · rintro ⟨value, later, means, others, rfl⟩
    exact ⟨value, means, later, others, rfl⟩

theorem memberValues?_cons {member : Member} {rest : List Member}
    {found : List (String × Value)} :
    memberValues? depth (member :: rest) = some found ↔
      ∃ name value later, text? member.1 = some name ∧ member.2.value? depth = some value ∧
        memberValues? depth rest = some later ∧ found = (name, value) :: later := by
  rcases member with ⟨key, document⟩
  simp only [memberValues?, Option.bind_eq_bind, Option.bind_eq_some_iff, Option.pure_def,
    Option.some.injEq]
  constructor
  · rintro ⟨name, said, value, means, later, others, rfl⟩
    exact ⟨name, value, later, said, means, others, rfl⟩
  · rintro ⟨name, value, later, said, means, others, rfl⟩
    exact ⟨name, said, value, means, later, others, rfl⟩

theorem value?_array {items : List Document} :
    (Document.array items).value? depth = some value ↔
      0 < depth ∧ ∃ values, itemValues? (depth - 1) items = some values ∧
        Value.array values = value := by
  simp only [value?, Option.ite_none_left_eq_some, Option.map_eq_some_iff, Nat.pos_iff_ne_zero]

theorem value?_object {members : List Member} :
    (Document.object members).value? depth = some value ↔
      0 < depth ∧ ∃ found, memberValues? (depth - 1) members = some found ∧
        Value.object (Value.sorted found) = value := by
  simp only [value?, Option.ite_none_left_eq_some, Option.map_eq_some_iff, Nat.pos_iff_ne_zero]

theorem members_of_single {members : List Member} {name : String}
    (understood : memberValues? depth members = some [(name, value)]) :
    ∃ key document, members = [(key, document)] ∧ text? key = some name ∧
      document.value? depth = some value := by
  cases members with
  | nil => cases understood
  | cons member rest =>
    rcases memberValues?_cons.mp understood with ⟨name, value, later, said, means, others, same⟩
    cases same
    cases rest with
    | nil => exact ⟨member.1, member.2, rfl, said, means⟩
    | cons another rest =>
      rcases memberValues?_cons.mp others with ⟨_, _, _, _, _, _, nothing⟩
      cases nothing

theorem eq_null_of_value? (means : document.value? depth = some .null) : document = .null := by
  cases document with
  | null => rfl
  | bool => cases means
  | numeral | string =>
    rcases Option.map_eq_some_iff.mp means with ⟨content, -, same⟩
    cases same
  | array =>
    rcases value?_array.mp means with ⟨-, values, -, same⟩
    cases same
  | object =>
    rcases value?_object.mp means with ⟨-, found, -, same⟩
    cases same

mutual

/-- Just what is admissible has a meaning. -/
theorem exists_value_iff : (document : Document) → (depth : Nat) →
    ((∃ value, document.value? depth = some value) ↔ document.Admissible depth)
  | .null, _ => ⟨fun _ => .null, fun _ => ⟨_, rfl⟩⟩
  | .bool _, _ => ⟨fun _ => .bool, fun _ => ⟨_, rfl⟩⟩
  | .numeral spelling, depth => by
    constructor
    · rintro ⟨value, means⟩
      rcases Option.map_eq_some_iff.mp means with ⟨number, worth, -⟩
      exact .numeral (Option.isSome_of_eq_some worth)
    · rintro ⟨⟩
      next number =>
      rcases Option.isSome_iff_exists.mp number with ⟨number, worth⟩
      exact ⟨_, Option.map_eq_some_iff.mpr ⟨number, worth, rfl⟩⟩
  | .string glyphs, depth => by
    constructor
    · rintro ⟨value, means⟩
      rcases Option.map_eq_some_iff.mp means with ⟨text, said, -⟩
      exact .string (exists_text_iff.mp ⟨text, said⟩)
    · rintro ⟨⟩
      next clean =>
      rcases exists_text_iff.mpr clean with ⟨text, said⟩
      exact ⟨_, Option.map_eq_some_iff.mpr ⟨text, said, rfl⟩⟩
  | .array items, depth => by
    constructor
    · rintro ⟨value, means⟩
      rcases value?_array.mp means with ⟨deep, values, understood, -⟩
      rcases Nat.exists_eq_add_one.mpr deep with ⟨depth, rfl⟩
      exact .array ((exists_items_iff items depth).mp ⟨values, understood⟩)
    · rintro ⟨⟩
      next inner =>
      rcases (exists_items_iff items _).mpr inner with ⟨values, understood⟩
      exact ⟨_, value?_array.mpr ⟨Nat.succ_pos _, values, understood, rfl⟩⟩
  | .object members, depth => by
    constructor
    · rintro ⟨value, means⟩
      rcases value?_object.mp means with ⟨deep, found, understood, -⟩
      rcases Nat.exists_eq_add_one.mpr deep with ⟨depth, rfl⟩
      rcases (exists_members_iff members depth).mp ⟨found, understood⟩ with ⟨keys, inner⟩
      exact .object keys inner
    · rintro ⟨⟩
      next keys inner =>
      rcases (exists_members_iff members _).mpr ⟨keys, inner⟩ with ⟨found, understood⟩
      exact ⟨_, value?_object.mpr ⟨Nat.succ_pos _, found, understood, rfl⟩⟩

theorem exists_items_iff : (items : List Document) → (depth : Nat) →
    ((∃ values, itemValues? depth items = some values) ↔ ∀ item ∈ items, item.Admissible depth)
  | [], _ => ⟨fun _ => nofun, fun _ => ⟨[], rfl⟩⟩
  | item :: rest, depth => by
    rw [List.forall_mem_cons, ← exists_value_iff item depth, ← exists_items_iff rest depth]
    constructor
    · rintro ⟨values, understood⟩
      rcases itemValues?_cons.mp understood with ⟨value, later, means, others, -⟩
      exact ⟨⟨value, means⟩, later, others⟩
    · rintro ⟨⟨value, means⟩, later, others⟩
      exact ⟨_, itemValues?_cons.mpr ⟨value, later, means, others, rfl⟩⟩

theorem exists_members_iff : (members : List Member) → (depth : Nat) →
    ((∃ found, memberValues? depth members = some found) ↔
      (∀ member ∈ members, .junk ∉ member.1) ∧ ∀ member ∈ members, member.2.Admissible depth)
  | [], _ => ⟨fun _ => ⟨nofun, nofun⟩, fun _ => ⟨[], rfl⟩⟩
  | (key, document) :: rest, depth => by
    have later := exists_members_iff rest depth
    have here := exists_value_iff document depth
    rw [List.forall_mem_cons, List.forall_mem_cons, and_and_and_comm, ← later, ← here,
      ← exists_text_iff]
    constructor
    · rintro ⟨found, understood⟩
      rcases memberValues?_cons.mp understood with ⟨name, value, later, said, means, others, -⟩
      exact ⟨⟨⟨name, said⟩, value, means⟩, later, others⟩
    · rintro ⟨⟨⟨name, said⟩, value, means⟩, later, others⟩
      exact ⟨_, memberValues?_cons.mpr ⟨name, value, later, said, means, others, rfl⟩⟩

end

theorem named?_of_memberValues? {members : List Member} {found : List (String × Value)}
    (understood : memberValues? depth members = some found) :
    ∃ named, Layout.named? members = some named ∧
      Alike (fun document value => document.value? depth = some value) named found := by
  induction members generalizing found with
  | nil =>
    cases understood
    exact ⟨[], rfl, .nil⟩
  | cons member rest inductionHypothesis =>
    rcases memberValues?_cons.mp understood with ⟨name, value, later, said, means, others, rfl⟩
    rcases inductionHypothesis others with ⟨named, called, alike⟩
    exact ⟨_, Layout.named?_cons.mpr ⟨name, named, said, called, rfl⟩, .cons ⟨rfl, means⟩ alike⟩

theorem alike_of_itemValues? {items : List Document} {values : List Value}
    (understood : itemValues? depth items = some values) (names : List String) :
    Alike (fun document value => document.value? depth = some value) (names.zip items)
      (names.zip values) := by
  induction items generalizing values names with
  | nil =>
    cases understood
    rw [List.zip_nil_right, List.zip_nil_right]
    exact .nil
  | cons item rest inductionHypothesis =>
    rcases itemValues?_cons.mp understood with ⟨value, later, means, others, rfl⟩
    cases names with
    | nil => exact .nil
    | cons name names => exact .cons ⟨rfl, means⟩ (inductionHypothesis others names)

theorem length_eq_of_itemValues? {items : List Document} {values : List Value}
    (understood : itemValues? depth items = some values) : values.length = items.length := by
  induction items generalizing values with
  | nil =>
    cases understood
    rfl
  | cons item rest inductionHypothesis =>
    rcases itemValues?_cons.mp understood with ⟨value, later, -, others, rfl⟩
    rw [List.length_cons, List.length_cons, inductionHypothesis others]

theorem mem_of_named? {members : List Member} {named : List (String × Document)}
    (called : Layout.named? members = some named) {field : String × Document}
    (among : field ∈ named) : ∃ key, (key, field.2) ∈ members ∧ text? key = some field.1 := by
  induction members generalizing named with
  | nil =>
    cases called
    cases among
  | cons member rest inductionHypothesis =>
    rcases Layout.named?_cons.mp called with ⟨name, later, said, others, rfl⟩
    rcases List.mem_cons.mp among with rfl | further
    · exact ⟨member.1, List.mem_cons_self, said⟩
    · rcases inductionHypothesis others further with ⟨key, here, said⟩
      exact ⟨key, List.mem_cons_of_mem _ here, said⟩

theorem nodup_of_named? {members : List Member} {named : List (String × Document)}
    (called : Layout.named? members = some named) (keys : (members.map Prod.fst).Nodup) :
    (named.map Prod.fst).Nodup := by
  induction members generalizing named with
  | nil =>
    cases called
    exact List.nodup_nil
  | cons member rest inductionHypothesis =>
    rcases Layout.named?_cons.mp called with ⟨name, later, said, others, rfl⟩
    rw [List.map_cons, List.nodup_cons] at keys ⊢
    refine ⟨fun again => ?_, inductionHypothesis others keys.2⟩
    rcases List.mem_map.mp again with ⟨field, among, rfl⟩
    rcases mem_of_named? others among with ⟨key, here, alsoSaid⟩
    exact keys.1 (text?_inj said alsoSaid ▸ List.mem_map_of_mem here)

end Document

/-! ## Two ways to read a record -/

namespace Layout

open Document (Distinct)

variable {Draft : Type} {layout : Layout} {depth : Nat} {document : Document} {value : Value}
  {empty draft : Draft} {putDocument : Draft → String → Document → Option Draft}
  {putValue : Draft → String → Value → Except Mismatch Draft}

/-- A member whose key is a text is put into the draft, or it is skipped. -/
theorem members?_field (put : Draft → String → Document → Option Draft) (draft : Draft)
    (seen : List String) (name : String) (document : Document) (rest : List Member) :
    layout.members? put draft seen (Document.field name document :: rest) =
      if name ∈ layout.fields then
        if name ∈ seen then none
        else (put draft name document).bind fun next =>
          layout.members? put next (name :: seen) rest
      else layout.members? put draft seen rest := by
  rw [Document.field, members?, text?_chars]
  rfl

/-- A value gives the fields what its document offers, though in another order. -/
def Serves (depth : Nat) (fields : List (String × Document))
    (given : List (String × Value)) : Prop :=
  ∃ meant, Alike (fun document value => document.value? depth = some value) fields meant ∧
    (given = meant ∨ given.Perm meant ∧ (given.map Prod.fst).Nodup)

theorem Serves.putAll_eq {put : Draft → String → Value → Option Draft}
    (independent : Independent put) {given meant : List (String × Value)}
    (reordered : given = meant ∨ given.Perm meant ∧ (given.map Prod.fst).Nodup) :
    putAll put empty given = putAll put empty meant := by
  rcases reordered with rfl | ⟨perm, apart⟩
  · rfl
  · exact putAll_perm independent perm apart

theorem serves_sorted {named : List (String × Document)} {found : List (String × Value)}
    (alike : Alike (fun document value => document.value? depth = some value) named found)
    (apart : ((named.filter fun member => layout.knows member.1).map Prod.fst).Nodup) :
    Serves depth (named.filter fun member => layout.knows member.1)
      ((Value.sorted found).filter fun member => layout.knows member.1) := by
  have known := alike.filter layout.knows
  rw [known.names] at apart
  have perm := Value.sorted_perm apart
  rw [← Value.filter_sorted] at perm
  exact ⟨_, known, .inr ⟨perm, (perm.map Prod.fst).nodup_iff.mpr apart⟩⟩

theorem given?_of_offered? (means : document.value? depth = some value)
    {fields : List (String × Document)} (offered : layout.offered? document = some fields) :
    ∃ given, layout.given? value = some given ∧ Serves (depth - 1) fields given := by
  cases document with
  | object members =>
    rcases Document.value?_object.mp means with ⟨-, found, understood, rfl⟩
    rcases Document.named?_of_memberValues? understood with ⟨named, called, alike⟩
    rcases offered?_object.mp offered with ⟨same, calledToo, apart, rfl⟩
    cases called.symm.trans calledToo
    exact ⟨_, rfl, serves_sorted alike apart⟩
  | array items =>
    rcases Document.value?_array.mp means with ⟨-, values, understood, rfl⟩
    rcases Option.ite_none_right_eq_some.mp offered with ⟨fitting, same⟩
    cases same
    rw [← Document.length_eq_of_itemValues? understood] at fitting
    exact ⟨_, if_pos fitting, _, Document.alike_of_itemValues? understood _, .inl rfl⟩
  | null | bool | numeral | string => cases offered

/-- What is given was offered, unless a key came twice. -/
theorem offered?_of_given? (distinct : document.Distinct)
    (means : document.value? depth = some value) {given : List (String × Value)}
    (gives : layout.given? value = some given) :
    ∃ fields, layout.offered? document = some fields ∧ Serves (depth - 1) fields given ∧
      ∀ field ∈ fields, Distinct field.2 := by
  cases distinct with
  | @object members keys inner =>
    rcases Document.value?_object.mp means with ⟨-, found, understood, rfl⟩
    rcases Document.named?_of_memberValues? understood with ⟨named, called, alike⟩
    cases gives
    have apart : ((named.filter fun member => layout.knows member.1).map Prod.fst).Nodup :=
      (Document.nodup_of_named? called keys).sublist (List.filter_sublist.map _)
    refine ⟨_, offered?_object.mpr ⟨named, called, apart, rfl⟩,
      serves_sorted alike apart, ?_⟩
    intro field among
    rcases Document.mem_of_named? called (List.mem_of_mem_filter among) with ⟨key, here, -⟩
    exact inner _ here
  | @array items inner =>
    rcases Document.value?_array.mp means with ⟨-, values, understood, rfl⟩
    rcases Option.ite_none_right_eq_some.mp gives with ⟨fitting, same⟩
    cases same
    rw [Document.length_eq_of_itemValues? understood] at fitting
    refine ⟨_, if_pos fitting, ⟨_, Document.alike_of_itemValues? understood _, .inl rfl⟩, ?_⟩
    exact fun field among => inner _ (List.of_mem_zip among).2
  | null | bool =>
    cases means
    cases gives
  | numeral | string =>
    rcases Option.map_eq_some_iff.mp means with ⟨content, -, rfl⟩
    cases gives

/-- What can be read from a document can be read from what it means. -/
theorem read_of_read?
    (independent : Independent fun draft name value => (putValue draft name value).toOption)
    (imitates : ∀ draft name next document value, document.value? (depth - 1) = some value →
      putDocument draft name document = some next →
      (putValue draft name value).toOption = some next)
    (means : document.value? depth = some value)
    (read : layout.read? putDocument empty document = some draft) :
    (layout.read putValue empty value).toOption = some draft := by
  rw [read?_eq, Option.bind_eq_some_iff] at read
  rcases read with ⟨fields, offered, all⟩
  rcases given?_of_offered? means offered with ⟨given, gives, meant, alike, reordered⟩
  rw [toOption_read, gives, Option.bind_some, Serves.putAll_eq independent reordered]
  exact putAll_of_alike alike imitates all

/-- What can be read from the meaning of a document can be read from the document
itself, unless a key comes twice. -/
theorem read?_of_read
    (independent : Independent fun draft name value => (putValue draft name value).toOption)
    (imitates : ∀ draft name next value document,
      Distinct document ∧ document.value? (depth - 1) = some value →
      (putValue draft name value).toOption = some next →
      putDocument draft name document = some next)
    (distinct : document.Distinct) (means : document.value? depth = some value)
    (read : (layout.read putValue empty value).toOption = some draft) :
    layout.read? putDocument empty document = some draft := by
  rw [toOption_read, Option.bind_eq_some_iff] at read
  rcases read with ⟨given, gives, all⟩
  rcases offered?_of_given? distinct means gives with
    ⟨fields, offered, ⟨meant, alike, reordered⟩, inner⟩
  rw [Serves.putAll_eq independent reordered] at all
  rw [read?_eq, offered, Option.bind_some]
  exact putAll_of_alike (alike.turn inner) imitates all

end Layout

/-! ## Two ways to read a choice -/

namespace Choice

variable {α : Type} {choice : Choice α} {depth : Nat} {document : Document} {value : Value}
  {meaning : α}

theorem toOption_ofWord (choice : Choice α) (word : String) :
    (choice.ofWord word).toOption = choice.ofWord? word := by
  unfold ofWord
  cases choice.ofWord? word <;> rfl

/-- A choice that can be made from a document can be made from what it means. -/
theorem read_of_read? (means : document.value? depth = some value)
    (read : choice.read? document = some meaning) :
    (choice.read value).toOption = some meaning := by
  unfold read? at read
  split at read
  · rcases Option.map_eq_some_iff.mp means with ⟨text, said, rfl⟩
    rw [said] at read
    exact (choice.toOption_ofWord text).trans read
  · next key =>
    rcases Document.value?_object.mp means with ⟨-, found, understood, rfl⟩
    rcases Document.memberValues?_cons.mp understood with
      ⟨name, nothing, later, said, same, others, rfl⟩
    cases same
    cases others
    rw [said] at read
    change (choice.ofWord name >>= fun meaning => pure meaning).toOption = some meaning
    rw [bind_pure, toOption_ofWord]
    exact read
  · cases read

/-- A choice that can be made from the meaning of a document can be made from the
document itself, unless a key comes twice. -/
theorem read?_of_read (distinct : document.Distinct) (means : document.value? depth = some value)
    (read : (choice.read value).toOption = some meaning) :
    choice.read? document = some meaning := by
  cases distinct with
  | string =>
    rcases Option.map_eq_some_iff.mp means with ⟨text, said, rfl⟩
    rw [read?, said]
    exact (choice.toOption_ofWord text).symm.trans read
  | @object members keys inner =>
    rcases Document.value?_object.mp means with ⟨-, found, understood, rfl⟩
    rcases Document.named?_of_memberValues? understood with ⟨named, called, alike⟩
    have apart : (found.map Prod.fst).Nodup := alike.names ▸ Document.nodup_of_named? called keys
    have perm := Value.sorted_perm apart
    unfold Choice.read at read
    split at read
    · next same => cases same
    · next word content same =>
      rw [Value.object.inj same, List.singleton_perm] at perm
      subst perm
      rcases Document.members_of_single understood with ⟨key, document, rfl, said, means⟩
      rw [toOption_bind, Option.bind_eq_some_iff] at read
      rcases read with ⟨chosen, worded, nothing⟩
      split at nothing
      · next meant =>
        cases Document.eq_null_of_value? means
        cases nothing
        rw [read?, said]
        exact (choice.toOption_ofWord word).symm.trans worded
      · cases nothing
    · cases read
    · cases read
  | array =>
    rcases Document.value?_array.mp means with ⟨-, values, -, rfl⟩
    cases read
  | null | bool =>
    cases means
    cases read
  | numeral =>
    rcases Option.map_eq_some_iff.mp means with ⟨number, -, rfl⟩
    cases read

end Choice

theorem Document.toOption_readBool {depth : Nat} {document : Document} {value : Value}
    (means : document.value? depth = some value) : value.readBool.toOption = document.bool? := by
  cases document with
  | null | bool =>
    cases means
    rfl
  | numeral | string =>
    rcases Option.map_eq_some_iff.mp means with ⟨content, -, rfl⟩
    rfl
  | array =>
    rcases Document.value?_array.mp means with ⟨-, values, -, rfl⟩
    rfl
  | object =>
    rcases Document.value?_object.mp means with ⟨-, found, -, rfl⟩
    rfl

theorem Document.toOption_readOptionalBool {depth : Nat} {document : Document} {value : Value}
    (means : document.value? depth = some value) :
    value.readOptionalBool.toOption = document.optional? Document.bool? := by
  cases document with
  | null | bool =>
    cases means
    rfl
  | numeral | string =>
    rcases Option.map_eq_some_iff.mp means with ⟨content, -, rfl⟩
    rfl
  | array =>
    rcases Document.value?_array.mp means with ⟨-, values, -, rfl⟩
    rfl
  | object =>
    rcases Document.value?_object.mp means with ⟨-, found, -, rfl⟩
    rfl

end Json
end Ventilation
