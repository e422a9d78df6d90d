import Ventilation.Json.Printer
import Ventilation.Proofs.Json.Spelling
import Ventilation.Proofs.Text.Utf8

namespace Ventilation
namespace Json

/-!
# What is written is read

Writing spells every token in one of the ways in which it may be spelled, and
puts nothing between them.  So a document is read from the text that is written
for it, whatever its strings hold, as long as they are text and its numerals are
made of digits.

Whole numbers of up to 64 bits are written so that they are worth themselves.
-/

open Text (Glyph)

/-! ## Whole numbers -/

/-- The digits of a whole number begin with a zero only if it is zero. -/
theorem whole_toDigits (value : Nat) : Whole (Nat.toDigits 10 value) := by
  have digits := fun c => @Nat.isDigit_of_mem_toDigits 10 value c (by decide) (Nat.le_refl 10)
  have first : ∀ value > 0, ∀ c rest, Nat.toDigits 10 value = c :: rest → c ≠ '0' := by
    intro value
    induction value using Nat.strongRecOn with
    | ind value inductionHypothesis =>
      intro positive c rest same
      rw [Nat.toDigits_eq_if (by decide)] at same
      split at same
      · next small =>
        rcases List.cons.inj same with ⟨rfl, -⟩
        intro zero
        have worth := Nat.toNat_digitChar_of_lt_ten small
        rw [zero] at worth
        change 48 = 48 + value at worth
        omega
      · next large =>
        obtain ⟨d, more, shorter⟩ :=
          List.exists_cons_of_ne_nil (@Nat.toDigits_ne_nil (value / 10) 10)
        rw [shorter] at same
        rcases List.cons.inj same with ⟨rfl, -⟩
        exact inductionHypothesis (value / 10) (by omega) (by omega) d more shorter
  cases value with
  | zero => exact .zero
  | succ value =>
    rcases List.exists_cons_of_ne_nil (@Nat.toDigits_ne_nil (value + 1) 10) with ⟨c, rest, whole⟩
    rw [whole] at digits ⊢
    rcases List.forall_mem_cons.mp digits with ⟨digit, more⟩
    exact .digits digit (first _ (Nat.succ_pos value) c rest whole) more

namespace Numeral

theorem le_natural (value : Nat) (digits : List Char) :
    value ≤ digits.foldl (fun value c => value * 10 + digitValue c) value := by
  induction digits generalizing value with
  | nil => exact Nat.le_refl _
  | cons c rest inductionHypothesis =>
    exact Nat.le_trans (by omega) (inductionHypothesis (value * 10 + digitValue c))

/-- Digits whose number fits 64 bits are all taken. -/
theorem extend_eq (value : Nat) (digits : List Char)
    (fits : digits.foldl (fun value c => value * 10 + digitValue c) value < Nat.pow 2 64) :
    extend value digits = (digits.foldl (fun value c => value * 10 + digitValue c) value, []) := by
  induction digits generalizing value with
  | nil => rfl
  | cons c rest inductionHypothesis =>
    have next : value * 10 + digitValue c < Nat.pow 2 64 :=
      Nat.lt_of_le_of_lt (le_natural _ rest) fits
    rw [extend]
    exact (if_pos next).trans (inductionHypothesis _ fits)

/-- The digits of a number are worth the number. -/
theorem natural_toDigits (value : Nat) : natural (Nat.toDigits 10 value) = value := by
  have worth := @Nat.ofDigitChars_toDigits 10 value (by decide) (Nat.le_refl 10)
  unfold Nat.ofDigitChars at worth
  simpa only [natural, digitValue, Nat.mul_comm] using worth

theorem extend_toDigits {value : Nat} (fits : value < Nat.pow 2 64) :
    extend 0 (Nat.toDigits 10 value) = (value, []) := by
  have same := extend_eq 0 (Nat.toDigits 10 value)
  rw [show (Nat.toDigits 10 value).foldl _ 0 = value from natural_toDigits value] at same
  exact same fits

theorem number?_ofNat {value : Nat} (fits : value < Nat.pow 2 64) :
    (ofNat value).number? = some (.natural value) := by
  simp [number?, ofNat, extend_toDigits fits]

theorem number?_ofInt {value : Int} (least : -Nat.pow 2 63 ≤ value) (most : value < Nat.pow 2 63) :
    (ofInt value).number? =
      some (if value < 0 then .negative value.natAbs else .natural value.natAbs) := by
  have bound : Nat.pow 2 63 + Nat.pow 2 63 = Nat.pow 2 64 := by decide
  have fits : value.natAbs < Nat.pow 2 64 := by omega
  simp only [number?, ofInt, extend_toDigits fits]
  by_cases below : value < 0
  · have range : 0 < value.natAbs ∧ value.natAbs ≤ Nat.pow 2 63 := by omega
    simp [below, range]
  · simp [below]

/-- Every part of a numeral consists of digits. -/
structure Proper (numeral : Numeral) : Prop where
  whole : Whole numeral.whole
  fraction : ∀ digits, numeral.fraction = some digits → SomeDigits digits
  exponent : ∀ negative digits, numeral.exponent = some (negative, digits) → SomeDigits digits

theorem proper_ofNat (value : Nat) : (ofNat value).Proper := ⟨whole_toDigits value, nofun, nofun⟩

theorem proper_ofInt (value : Int) : (ofInt value).Proper :=
  ⟨whole_toDigits value.natAbs, nofun, nofun⟩

theorem signs (negative : Bool) : SpellsSign negative (if negative then ['-'] else []) := by
  cases negative
  · exact .bare
  · exact .minus

/-- A numeral is written as it may be spelled. -/
theorem Proper.spells {numeral : Numeral} (proper : numeral.Proper) :
    (Token.numeral numeral).Spells (glyphs numeral.chars) := by
  have mark : isMark 'e' = true := rfl
  have spelled : ∃ point power, SpellsNumeral numeral (numeral.whole ++ point ++ power) ∧
      numeral.chars =
        (if numeral.negative then ['-'] else []) ++ (numeral.whole ++ point ++ power) := by
    rcases numeral with ⟨negative, whole, fraction, exponent⟩
    rcases proper with ⟨wholly, partly, raised⟩
    rcases fraction with - | fraction <;> rcases exponent with - | ⟨minus, digits⟩
    · exact ⟨_, _, .parts wholly .none .none, by simp [chars]⟩
    · exact ⟨_, _, .parts wholly .none (.some mark (signs minus) (raised _ _ rfl)),
        by simp [chars]⟩
    · exact ⟨_, _, .parts wholly (.some (partly _ rfl)) .none, by simp [chars]⟩
    · exact ⟨_, _, .parts wholly (.some (partly _ rfl))
        (.some mark (signs minus) (raised _ _ rfl)), by simp [chars]⟩
  rcases spelled with ⟨point, power, spelled, same⟩
  rw [same]
  cases sign : numeral.negative with
  | false => exact .positive sign spelled
  | true => exact .negative sign spelled

end Numeral

/-! ## Strings -/

/-- A character of a string is escaped by a letter, by a code unit or not at all. -/
theorem escaped_cases (c : Char) :
    (∃ e, escape? e = some c ∧ escaped c = ['\\', e]) ∨
      (c.toNat < 0x20 ∧ escaped c = ['\\', 'u', '0', '0', Text.Hex.digit (c.toNat / 16),
        Text.Hex.digit (c.toNat % 16)]) ∨
      c ≠ '"' ∧ c ≠ '\\' ∧ 0x20 ≤ c.toNat ∧ escaped c = [c] := by
  by_cases short : c ∈ ['"', '\\', '\x08', '\x0c', '\n', '\r', '\t']
  · refine .inl ?_
    simp only [List.mem_cons, List.not_mem_nil, or_false] at short
    rcases short with rfl | rfl | rfl | rfl | rfl | rfl | rfl
    · exact ⟨'"', rfl, rfl⟩
    · exact ⟨'\\', rfl, rfl⟩
    · exact ⟨'b', rfl, rfl⟩
    · exact ⟨'f', rfl, rfl⟩
    · exact ⟨'n', rfl, rfl⟩
    · exact ⟨'r', rfl, rfl⟩
    · exact ⟨'t', rfl, rfl⟩
  · simp only [List.mem_cons, List.not_mem_nil, or_false, not_or] at short
    rcases short with ⟨quote, backslash, back, feed, line, carriage, tab⟩
    simp only [escaped, quote, backslash, back, feed, line, carriage, tab, if_false]
    by_cases control : c.toNat < 0x20
    · exact .inr (.inl ⟨control, if_pos control⟩)
    · exact .inr (.inr ⟨quote, backslash, Nat.not_lt.mp control, if_neg control⟩)

/-- The code unit of a control character. -/
theorem unit?_digits : ∀ code < 0x20, unit? (.char '0') (.char '0')
    (.char (Text.Hex.digit (code / 16))) (.char (Text.Hex.digit (code % 16))) = some code := by
  decide

/-- A code unit below the surrogates is joined with nothing. -/
theorem join_unit {code : Nat} (low : code < 0xD800) (rest : List Piece) :
    join (.unit code :: rest) = .char (Char.ofNat code) :: join rest := by
  have apart : isLeading code = false ∧ isTrailing code = false := by
    simp only [isLeading, isTrailing, Bool.and_eq_false_iff, decide_eq_false_iff_not]
    omega
  have alone : single code = .char (Char.ofNat code) := by simp [single, apart]
  rcases rest with - | ⟨glyph | next, rest⟩
  · simp [join, alone]
  · simp [join, alone]
  · rw [join]
    simp [apart, alone]

/-- The inside of a written string is cut into its characters. -/
theorem exists_pieces (chars : List Char) :
    ∃ pieces, SpellsPieces pieces (glyphs (chars.flatMap escaped)) ∧
      join pieces = glyphs chars := by
  induction chars with
  | nil => exact ⟨[], .nil, rfl⟩
  | cons c rest inductionHypothesis =>
    rcases inductionHypothesis with ⟨pieces, spelled, joined⟩
    rw [List.flatMap_cons, glyphs_append]
    rcases escaped_cases c with ⟨e, escapes, same⟩ | ⟨control, same⟩ |
      ⟨quote, backslash, printed, same⟩
    · rw [same]
      exact ⟨_, .short escapes spelled, by rw [join, joined, glyphs_cons]⟩
    · rw [same]
      refine ⟨_, .unit (unit?_digits c.toNat control) spelled, ?_⟩
      rw [join_unit (Nat.lt_trans control (by decide)), joined, Char.ofNat_toNat, glyphs_cons]
    · rw [same]
      exact ⟨_, .plain quote backslash printed spelled, by rw [join, joined, glyphs_cons]⟩

theorem spells_quoted (chars : List Char) :
    (Token.string (glyphs chars)).Spells (glyphs (quoted chars)) := by
  rcases exists_pieces chars with ⟨pieces, spelled, joined⟩
  rw [← joined, quoted, glyphs_cons, glyphs_append]
  exact .string spelled

theorem spells_string {content : List Glyph} (clean : .junk ∉ content) :
    (Token.string content).Spells (glyphs (quoted (content.map Glyph.toChar))) := by
  rcases Glyph.exists_chars clean with ⟨chars, rfl⟩
  have same : (chars.map Glyph.char).map Glyph.toChar = chars := by
    rw [List.map_map]
    exact List.map_id chars
  rw [same]
  exact spells_quoted chars

/-! ## Documents -/

/-- No token goes on with what follows it. -/
def Stops (text : List Glyph) : Prop := ∀ token : Token, token.EndsBefore text

theorem stops_nil : Stops [] := by
  intro token
  cases token with
  | numeral spelling => exact clear_nil
  | _ => trivial

/-- No token goes on with a mark that may follow a document. -/
theorem stops_mark {mark : Char} (marks : mark ∈ [',', ']', '\x7d']) (rest : List Glyph) :
    Stops (.char mark :: rest) := by
  intro token
  simp only [List.mem_cons, List.not_mem_nil, or_false] at marks
  cases token with
  | numeral spelling =>
    refine clear_char.mpr ?_
    rcases spelling with ⟨negative, whole, - | fraction, - | exponent⟩ <;>
      rcases marks with rfl | rfl | rfl <;> rfl
  | _ => trivial

namespace Document

/-- All strings are text, and all numerals consist of digits. -/
inductive Printable : Document → Prop
  | null : Printable .null
  | bool {value : Bool} : Printable (.bool value)
  | numeral {spelling : Numeral} (proper : spelling.Proper) : Printable (.numeral spelling)
  | string {content : List Glyph} (text : .junk ∉ content) : Printable (.string content)
  | array {items : List Document} (inner : ∀ item ∈ items, Printable item) :
      Printable (.array items)
  | object {members : List Member} (keys : ∀ member ∈ members, .junk ∉ member.1)
      (inner : ∀ member ∈ members, Printable member.2) : Printable (.object members)

theorem stops_laterItems (items : List Document) (rest : List Glyph) :
    Stops (glyphs (laterItemChars items) ++ rest) := by
  cases items with
  | nil => exact stops_mark (by decide) _
  | cons item items => exact stops_mark (by decide) _

theorem stops_laterMembers (members : List Member) (rest : List Glyph) :
    Stops (glyphs (laterMemberChars members) ++ rest) := by
  cases members with
  | nil => exact stops_mark (by decide) _
  | cons member members => exact stops_mark (by decide) _

mutual

/-- A document is written as it may be spelled, in front of anything that no
token goes on with. -/
theorem spelled_chars : (document : Document) → document.Printable →
    ∀ {tokens text}, Spelled tokens text → Stops text →
      Spelled (document.tokens ++ tokens) (glyphs document.chars ++ text)
  | .null, _, _, _, rest, stops => .token .null (stops _) rest
  | .bool true, _, _, _, rest, stops => .token .yes (stops _) rest
  | .bool false, _, _, _, rest, stops => .token .no (stops _) rest
  | .numeral _, .numeral proper, _, _, rest, stops => .token proper.spells (stops _) rest
  | .string _, .string clean, _, _, rest, stops => .token (spells_string clean) (stops _) rest
  | .array items, .array inner, _, _, rest, _ => by
    change Spelled _ (glyphs ['['] ++ (glyphs (itemChars items) ++ _))
    exact .token .openArray trivial (spelled_itemChars items inner rest)
  | .object members, .object keys inner, _, _, rest, _ => by
    change Spelled _ (glyphs ['\x7b'] ++ (glyphs (memberChars members) ++ _))
    exact .token .openObject trivial (spelled_memberChars members keys inner rest)

theorem spelled_itemChars : (items : List Document) → (∀ item ∈ items, item.Printable) →
    ∀ {tokens text}, Spelled tokens text →
      Spelled (itemTokens items ++ tokens) (glyphs (itemChars items) ++ text)
  | [], _, _, _, rest => .token .closeArray trivial rest
  | item :: items, inner, _, _, rest => by
    rcases List.forall_mem_cons.mp inner with ⟨first, others⟩
    have later := spelled_laterItemChars items others rest
    rw [itemTokens, itemChars, glyphs_append, List.append_assoc, List.append_assoc]
    exact spelled_chars item first later (stops_laterItems items _)

theorem spelled_laterItemChars : (items : List Document) → (∀ item ∈ items, item.Printable) →
    ∀ {tokens text}, Spelled tokens text →
      Spelled (laterItemTokens items ++ tokens) (glyphs (laterItemChars items) ++ text)
  | [], _, _, _, rest => .token .closeArray trivial rest
  | item :: items, inner, _, _, rest => by
    rcases List.forall_mem_cons.mp inner with ⟨first, others⟩
    have later := spelled_laterItemChars items others rest
    simp only [laterItemTokens, laterItemChars, glyphs_cons, glyphs_append, List.cons_append,
      List.append_assoc]
    exact .token .comma trivial (spelled_chars item first later (stops_laterItems items _))

theorem spelled_memberChars : (members : List Member) → (∀ member ∈ members, .junk ∉ member.1) →
    (∀ member ∈ members, member.2.Printable) → ∀ {tokens text}, Spelled tokens text →
      Spelled (memberTokens members ++ tokens) (glyphs (memberChars members) ++ text)
  | [], _, _, _, _, rest => .token .closeObject trivial rest
  | (key, document) :: members, keys, inner, _, _, rest => by
    rcases List.forall_mem_cons.mp keys with ⟨clean, keys⟩
    rcases List.forall_mem_cons.mp inner with ⟨first, others⟩
    have later := spelled_laterMemberChars members keys others rest
    have own := spelled_chars document first later (stops_laterMembers members _)
    simp only [memberTokens, memberChars, glyphs_cons, glyphs_append, List.cons_append,
      List.append_assoc]
    exact .token (spells_string clean) trivial (.token .colon trivial own)

theorem spelled_laterMemberChars : (members : List Member) →
    (∀ member ∈ members, .junk ∉ member.1) → (∀ member ∈ members, member.2.Printable) →
    ∀ {tokens text}, Spelled tokens text →
      Spelled (laterMemberTokens members ++ tokens) (glyphs (laterMemberChars members) ++ text)
  | [], _, _, _, _, rest => .token .closeObject trivial rest
  | (key, document) :: members, keys, inner, _, _, rest => by
    rcases List.forall_mem_cons.mp keys with ⟨clean, keys⟩
    rcases List.forall_mem_cons.mp inner with ⟨first, others⟩
    have later := spelled_laterMemberChars members keys others rest
    have own := spelled_chars document first later (stops_laterMembers members _)
    simp only [laterMemberTokens, laterMemberChars, glyphs_cons, glyphs_append, List.cons_append,
      List.append_assoc]
    exact .token .comma trivial
      (.token (spells_string clean) trivial (.token .colon trivial own))

end

/-- What is written for a document is read as that document. -/
theorem ofChars?_chars {document : Document} (printable : document.Printable) :
    ofChars? document.chars = some document := by
  have spelled := spelled_chars document printable .nil stops_nil
  rw [List.append_nil, List.append_nil] at spelled
  exact ofChars?_eq_some_iff.mpr spelled

/-! ## Parts of documents -/

theorem printable_ofText (text : String) : (ofText text).Printable := .string (by simp)

/-- An object whose keys are names is written as it may be spelled if its members
are. -/
theorem printable_fields {fields : List (String × Document)}
    (inner : ∀ entry ∈ fields, entry.2.Printable) :
    (object (fields.map fun entry => field entry.1 entry.2)).Printable := by
  refine .object ?_ ?_
  · intro member among
    rcases List.mem_map.mp among with ⟨entry, -, rfl⟩
    simp [field]
  · intro member among
    rcases List.mem_map.mp among with ⟨entry, own, rfl⟩
    exact inner entry own

end Document
end Json
end Ventilation
