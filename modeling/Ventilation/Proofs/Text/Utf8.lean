import Ventilation.Text.Utf8
import Mathlib.Data.List.Basic

namespace Ventilation
namespace Text

/-!
# Bytes and the text that they read as

Bytes fall into pieces, and each piece is read as one glyph: the bytes of a
character as that character, and anything else as junk.  Where there is no junk,
the bytes can be told from what they are read as.

Main statement: bytes are well-formed exactly if they are the bytes of the text
that they are read as.
-/

/-! ## Glyphs and characters -/

namespace Glyph

theorem mapM_char?_map (chars : List Char) :
    (chars.map char).mapM char? = some chars := by
  induction chars with
  | nil => rfl
  | cons c rest inductionHypothesis => simp [char?, inductionHypothesis]

theorem exists_chars {glyphs : List Glyph} (clean : .junk ∉ glyphs) :
    ∃ chars, glyphs = List.map char chars := by
  induction glyphs with
  | nil => exact ⟨[], rfl⟩
  | cons glyph rest inductionHypothesis =>
    rcases inductionHypothesis fun later => clean (List.mem_cons_of_mem _ later) with ⟨chars, rfl⟩
    cases glyph with
    | junk => exact absurd List.mem_cons_self clean
    | char c => exact ⟨c :: chars, rfl⟩

theorem mapM_char?_of_junk {glyphs : List Glyph} (junk : .junk ∈ glyphs) :
    glyphs.mapM char? = none := by
  induction glyphs with
  | nil => cases junk
  | cons glyph rest inductionHypothesis =>
    rw [List.mapM_cons]
    cases glyph with
    | junk => rfl
    | char c =>
      have later : .junk ∈ rest := by simpa using junk
      rw [inductionHypothesis later]
      rfl

theorem mapM_char?_eq_some_iff {glyphs : List Glyph} {chars : List Char} :
    glyphs.mapM char? = some chars ↔ glyphs = chars.map char := by
  constructor
  · intro read
    by_cases junk : .junk ∈ glyphs
    · rw [mapM_char?_of_junk junk] at read
      cases read
    · rcases exists_chars junk with ⟨found, rfl⟩
      rw [mapM_char?_map] at read
      rw [Option.some.inj read]
  · rintro rfl
    exact mapM_char?_map chars

end Glyph

/-! ## Pieces -/

namespace Utf8

/-- How bytes fall into pieces. -/
inductive Pieces : List UInt8 → List Glyph → Prop
  | nil : Pieces [] []
  | char (c : Char) {rest : List UInt8} {glyphs : List Glyph} (later : Pieces rest glyphs) :
      Pieces (String.utf8EncodeChar c ++ rest) (.char c :: glyphs)
  | junk (piece : List UInt8) {rest : List UInt8} {glyphs : List Glyph}
      (later : Pieces rest glyphs) : Pieces (piece ++ rest) (.junk :: glyphs)

/-! ## Characters and their bytes -/

theorem toNat_ofNat {value : Nat} (valid : value.isValidChar) :
    (Char.ofNat value).toNat = value := by
  rw [Char.ofNat, dif_pos valid]
  rfl

theorem utf8EncodeChar_ofNat {value : Nat} (valid : value.isValidChar) :
    String.utf8EncodeChar (Char.ofNat value) =
      if value ≤ 0x7F then [UInt8.ofNat value]
      else if value ≤ 0x7FF then
        [UInt8.ofNat (value / 64 % 32 + 192), UInt8.ofNat (value % 64 + 128)]
      else if value ≤ 0xFFFF then
        [UInt8.ofNat (value / 4096 % 16 + 224), UInt8.ofNat (value / 64 % 64 + 128),
          UInt8.ofNat (value % 64 + 128)]
      else
        [UInt8.ofNat (value / 262144 % 8 + 240), UInt8.ofNat (value / 4096 % 64 + 128),
          UInt8.ofNat (value / 64 % 64 + 128), UInt8.ofNat (value % 64 + 128)] := by
  have same : (Char.ofNat value).val.toNat = value := toNat_ofNat valid
  unfold String.utf8EncodeChar
  simp only [same]

theorem ofNat_eq (byte : UInt8) {value : Nat} (same : value % 256 = byte.toNat) :
    UInt8.ofNat value = byte :=
  UInt8.toNat_inj.mp (UInt8.toNat_ofNat'.trans same)

/-- A byte that continues a character. -/
def Continues (byte : UInt8) : Prop := 0x80 ≤ byte.toNat ∧ byte.toNat ≤ 0xBF

/-- What may be the second of three bytes: no shorter form would do, and no
surrogate comes out. -/
def Second (first byte : UInt8) : Prop :=
  Continues byte ∧ (first.toNat = 0xE0 → 0xA0 ≤ byte.toNat) ∧
    (first.toNat = 0xED → byte.toNat ≤ 0x9F)

/-- What may be the second of four bytes: no shorter form would do, and the last
character is not passed. -/
def SecondOfFour (first byte : UInt8) : Prop :=
  Continues byte ∧ (first.toNat = 0xF0 → 0x90 ≤ byte.toNat) ∧
    (first.toNat = 0xF4 → byte.toNat ≤ 0x8F)

section Spelling

variable {first second third last : UInt8}

theorem spells_one (below : first.toNat < 0x80) :
    String.utf8EncodeChar (Char.ofNat first.toNat) = [first] := by
  rw [utf8EncodeChar_ofNat (.inl (by omega)), if_pos (by omega), UInt8.ofNat_toNat]

theorem spells_two (above : 0xC2 ≤ first.toNat) (below : first.toNat < 0xE0)
    (follows : Continues last) :
    String.utf8EncodeChar (Char.ofNat ((first.toNat - 0xC0) * 64 + last.toNat % 64)) =
      [first, last] := by
  rcases follows with ⟨low, high⟩
  rw [utf8EncodeChar_ofNat (.inl (by omega)), if_neg (by omega), if_pos (by omega),
    ofNat_eq first (by omega), ofNat_eq last (by omega)]

theorem spells_three (above : 0xE0 ≤ first.toNat) (below : first.toNat < 0xF0)
    (follows : Second first second) (ends : Continues last) :
    String.utf8EncodeChar (Char.ofNat
      (((first.toNat - 0xE0) * 64 + second.toNat % 64) * 64 + last.toNat % 64)) =
        [first, second, last] := by
  rcases follows with ⟨⟨low, high⟩, least, most⟩
  rcases ends with ⟨lowest, highest⟩
  have valid : (((first.toNat - 0xE0) * 64 + second.toNat % 64) * 64 +
      last.toNat % 64).isValidChar := by
    unfold Nat.isValidChar
    omega
  rw [utf8EncodeChar_ofNat valid, if_neg (by omega), if_neg (by omega), if_pos (by omega),
    ofNat_eq first (by omega), ofNat_eq second (by omega),
    ofNat_eq last (by omega)]

theorem spells_four (above : 0xF0 ≤ first.toNat) (below : first.toNat ≤ 0xF4)
    (follows : SecondOfFour first second) (continued : Continues third) (ends : Continues last) :
    String.utf8EncodeChar (Char.ofNat
      ((((first.toNat - 0xF0) * 64 + second.toNat % 64) * 64 + third.toNat % 64) * 64 +
        last.toNat % 64)) = [first, second, third, last] := by
  rcases follows with ⟨⟨low, high⟩, least, most⟩
  rcases continued with ⟨lower, higher⟩
  rcases ends with ⟨lowest, highest⟩
  have valid : ((((first.toNat - 0xF0) * 64 + second.toNat % 64) * 64 + third.toNat % 64) * 64 +
      last.toNat % 64).isValidChar := .inr (by omega)
  rw [utf8EncodeChar_ofNat valid, if_neg (by omega), if_neg (by omega), if_neg (by omega),
    ofNat_eq first (by omega), ofNat_eq second (by omega),
    ofNat_eq third (by omega), ofNat_eq last (by omega)]

end Spelling

/-! ## Bytes that begin a character -/

theorem between_iff (least most : Nat) {low high : UInt8} (lowest : low.toNat = least)
    (highest : high.toNat = most) (byte : UInt8) :
    low ≤ byte ∧ byte ≤ high ↔ least ≤ byte.toNat ∧ byte.toNat ≤ most := by
  rw [UInt8.le_iff_toNat_le, UInt8.le_iff_toNat_le, lowest, highest]

theorem continues_iff (byte : UInt8) : 0x80 ≤ byte ∧ byte ≤ 0xBF ↔ Continues byte :=
  between_iff 0x80 0xBF rfl rfl byte

/-- What a byte means at the beginning of a character, by how many bytes that
character has. -/
inductive Begins (byte : UInt8) : Lead → Prop
  | one (below : byte.toNat < 0x80) : Begins byte (.ascii (Char.ofNat byte.toNat))
  | two (above : 0xC2 ≤ byte.toNat) (below : byte.toNat < 0xE0) {low high : UInt8}
      (bounds : ∀ next : UInt8, low ≤ next ∧ next ≤ high ↔ Continues next) :
      Begins byte (.opens ⟨byte.toNat - 0xC0, 0, low, high⟩)
  | three (above : 0xE0 ≤ byte.toNat) (below : byte.toNat < 0xF0) {low high : UInt8}
      (bounds : ∀ next : UInt8, low ≤ next ∧ next ≤ high ↔ Second byte next) :
      Begins byte (.opens ⟨byte.toNat - 0xE0, 1, low, high⟩)
  | four (above : 0xF0 ≤ byte.toNat) (below : byte.toNat ≤ 0xF4) {low high : UInt8}
      (bounds : ∀ next : UInt8, low ≤ next ∧ next ≤ high ↔ SecondOfFour byte next) :
      Begins byte (.opens ⟨byte.toNat - 0xF0, 2, low, high⟩)
  | nothing (foreign : 0x80 ≤ byte.toNat) (apart : byte.toNat < 0xC2 ∨ 0xF4 < byte.toNat) :
      Begins byte .stray

theorem begins_lead (byte : UInt8) : Begins byte (lead byte) := by
  unfold lead
  dsimp only
  by_cases ascii : byte.toNat < 0x80
  · rw [if_pos ascii]
    exact .one ascii
  rw [if_neg ascii]
  by_cases continued : byte.toNat < 0xC2
  · rw [if_pos continued]
    exact .nothing (by omega) (.inl continued)
  rw [if_neg continued]
  by_cases two : byte.toNat < 0xE0
  · rw [if_pos two]
    exact .two (by omega) two continues_iff
  rw [if_neg two]
  by_cases least : byte.toNat = 0xE0
  · have begins : Begins byte (.opens ⟨byte.toNat - 0xE0, 1, 0xA0, 0xBF⟩) :=
      .three (by omega) (by omega) fun next => (between_iff 0xA0 0xBF rfl rfl next).trans
        (by unfold Second Continues; omega)
    rw [least] at begins
    rw [if_pos least]
    exact begins
  rw [if_neg least]
  by_cases surrogates : byte.toNat = 0xED
  · have begins : Begins byte (.opens ⟨byte.toNat - 0xE0, 1, 0x80, 0x9F⟩) :=
      .three (by omega) (by omega) fun next => (between_iff 0x80 0x9F rfl rfl next).trans
        (by unfold Second Continues; omega)
    rw [surrogates] at begins
    rw [if_pos surrogates]
    exact begins
  rw [if_neg surrogates]
  by_cases three : byte.toNat < 0xF0
  · rw [if_pos three]
    exact .three (by omega) three fun next =>
      (continues_iff next).trans (by unfold Second Continues; omega)
  rw [if_neg three]
  by_cases leastOfFour : byte.toNat = 0xF0
  · have begins : Begins byte (.opens ⟨byte.toNat - 0xF0, 2, 0x90, 0xBF⟩) :=
      .four (by omega) (by omega) fun next => (between_iff 0x90 0xBF rfl rfl next).trans
        (by unfold SecondOfFour Continues; omega)
    rw [leastOfFour] at begins
    rw [if_pos leastOfFour]
    exact begins
  rw [if_neg leastOfFour]
  by_cases four : byte.toNat < 0xF4
  · rw [if_pos four]
    exact .four (by omega) (by omega) fun next =>
      (continues_iff next).trans (by unfold SecondOfFour Continues; omega)
  rw [if_neg four]
  by_cases most : byte.toNat = 0xF4
  · have begins : Begins byte (.opens ⟨byte.toNat - 0xF0, 2, 0x80, 0x8F⟩) :=
      .four (by omega) (by omega) fun next => (between_iff 0x80 0x8F rfl rfl next).trans
        (by unfold SecondOfFour Continues; omega)
    rw [most] at begins
    rw [if_pos most]
    exact begins
  rw [if_neg most]
  exact .nothing (by omega) (.inr (by omega))

/-! ## Bytes fall into pieces -/

/-- The bytes seen so far and any that may follow, so many after the next one,
are those of a character. -/
def Starts : Nat → List UInt8 → Nat → (UInt8 → Prop) → Prop
  | 0, seen, value, follows => ∀ next : UInt8, follows next →
      String.utf8EncodeChar (Char.ofNat (value * 64 + next.toNat % 64)) = seen ++ [next]
  | owed + 1, seen, value, follows => ∀ next : UInt8, follows next →
      Starts owed (seen ++ [next]) (value * 64 + next.toNat % 64) Continues

/-- Some bytes are those that have been seen of a pending character. -/
def Seen (pending : Partial) (bytes : List UInt8) : Prop :=
  Starts pending.owed bytes pending.value fun next => pending.low ≤ next ∧ next ≤ pending.high

theorem seen_of_begins {byte : UInt8} {meaning : Lead} (begins : Begins byte meaning)
    {pending : Partial} (opened : meaning = .opens pending) : Seen pending [byte] := by
  cases begins with
  | one => cases opened
  | two above below bounds =>
    rcases Lead.opens.inj opened with rfl
    intro next inside
    exact spells_two above below ((bounds next).mp inside)
  | three above below bounds =>
    rcases Lead.opens.inj opened with rfl
    intro next inside last ends
    exact spells_three above below ((bounds next).mp inside) ends
  | four above below bounds =>
    rcases Lead.opens.inj opened with rfl
    intro next inside third continued last ends
    exact spells_four above below ((bounds next).mp inside) continued ends
  | nothing => cases opened

/-- Where a character breaks off, reading begins anew. -/
theorem glyphsAfter_broken {pending : Partial} {byte : UInt8} (rest : List UInt8)
    (outside : ¬(pending.low ≤ byte ∧ byte ≤ pending.high)) :
    glyphsAfter (some pending) (byte :: rest) = .junk :: glyphsAfter none (byte :: rest) := by
  unfold glyphsAfter
  rw [if_neg outside]
  cases lead byte <;> rfl

theorem pieces_glyphsAfter (bytes : List UInt8) :
    Pieces bytes (glyphsAfter none bytes) ∧
      ∀ pending seen, Seen pending seen →
        Pieces (seen ++ bytes) (glyphsAfter (some pending) bytes) := by
  induction bytes with
  | nil => exact ⟨.nil, fun _ seen _ => .junk seen .nil⟩
  | cons byte rest inductionHypothesis =>
    rcases inductionHypothesis with ⟨anew, goesOn⟩
    have begins : Pieces (byte :: rest) (glyphsAfter none (byte :: rest)) := by
      rw [glyphsAfter]
      have begins := begins_lead byte
      generalize lead byte = meaning at begins ⊢
      cases meaning with
      | ascii c =>
        cases begins with
        | one below =>
          have piece := Pieces.char (Char.ofNat byte.toNat) anew
          rw [spells_one below] at piece
          exact piece
      | opens pending => exact goesOn pending [byte] (seen_of_begins begins rfl)
      | stray => exact .junk [byte] anew
    -- A byte that does not continue the pending character is the first of what comes next, which
    -- is why both halves go by one induction.
    refine ⟨begins, fun pending seen begun => ?_⟩
    unfold Seen at begun
    by_cases inside : pending.low ≤ byte ∧ byte ≤ pending.high
    · rw [glyphsAfter, if_pos inside, List.append_cons]
      dsimp only
      split
      · next owed =>
        rw [owed] at begun
        rw [← begun byte inside]
        exact .char _ anew
      · next owed more =>
        rw [more] at begun
        have continued : (fun next : UInt8 => 0x80 ≤ next ∧ next ≤ 0xBF) = Continues :=
          funext fun next => propext (continues_iff next)
        apply goesOn
        unfold Seen
        rw [continued]
        exact begun byte inside
    · rw [glyphsAfter_broken rest inside]
      exact .junk seen begins

theorem pieces_glyphs (bytes : List UInt8) : Pieces bytes (glyphs bytes) :=
  (pieces_glyphsAfter bytes).1

/-! ## The bytes of a text -/

section Reading

variable {first second third last : UInt8}

theorem glyphs_two (above : 0xC2 ≤ first.toNat) (below : first.toNat < 0xE0)
    (follows : Continues last) (rest : List UInt8) :
    glyphs (first :: last :: rest) =
      .char (Char.ofNat ((first.toNat - 0xC0) * 64 + last.toNat % 64)) :: glyphs rest := by
  rw [glyphs, glyphsAfter]
  have begins := begins_lead first
  generalize lead first = meaning at begins ⊢
  cases begins with
  | two _ _ bounds =>
    dsimp only
    rw [glyphsAfter, if_pos ((bounds last).mpr follows)]
    rfl
  | one => omega
  | three => omega
  | four => omega
  | nothing => omega

theorem glyphs_three (above : 0xE0 ≤ first.toNat) (below : first.toNat < 0xF0)
    (follows : Second first second) (ends : Continues last) (rest : List UInt8) :
    glyphs (first :: second :: last :: rest) =
      .char (Char.ofNat (((first.toNat - 0xE0) * 64 + second.toNat % 64) * 64 +
        last.toNat % 64)) :: glyphs rest := by
  rw [glyphs, glyphsAfter]
  have begins := begins_lead first
  generalize lead first = meaning at begins ⊢
  cases begins with
  | three _ _ bounds =>
    dsimp only
    rw [glyphsAfter, if_pos ((bounds second).mpr follows)]
    dsimp only
    rw [glyphsAfter, if_pos ((continues_iff last).mpr ends)]
    rfl
  | one => omega
  | two => omega
  | four => omega
  | nothing => omega

theorem glyphs_four (above : 0xF0 ≤ first.toNat) (below : first.toNat ≤ 0xF4)
    (follows : SecondOfFour first second) (continued : Continues third) (ends : Continues last)
    (rest : List UInt8) :
    glyphs (first :: second :: third :: last :: rest) =
      .char (Char.ofNat ((((first.toNat - 0xF0) * 64 + second.toNat % 64) * 64 +
        third.toNat % 64) * 64 + last.toNat % 64)) :: glyphs rest := by
  rw [glyphs, glyphsAfter]
  have begins := begins_lead first
  generalize lead first = meaning at begins ⊢
  cases begins with
  | four _ _ bounds =>
    dsimp only
    rw [glyphsAfter, if_pos ((bounds second).mpr follows)]
    dsimp only
    rw [glyphsAfter, if_pos ((continues_iff third).mpr continued)]
    dsimp only
    rw [glyphsAfter, if_pos ((continues_iff last).mpr ends)]
    rfl
  | one => omega
  | two => omega
  | three => omega
  | nothing => omega

end Reading

/-- The bytes of a character are read as that character, whatever follows. -/
theorem glyphs_utf8EncodeChar (c : Char) (rest : List UInt8) :
    glyphs (String.utf8EncodeChar c ++ rest) = .char c :: glyphs rest := by
  have valid : c.toNat.isValidChar := c.valid
  have whole : Char.ofNat c.toNat = c := Char.ofNat_toNat c
  generalize c.toNat = value at valid whole
  subst whole
  unfold Nat.isValidChar at valid
  have bound : ∀ number, (UInt8.ofNat number).toNat = number % 256 := fun _ => UInt8.toNat_ofNat'
  rw [utf8EncodeChar_ofNat valid]
  by_cases one : value ≤ 0x7F
  · rw [if_pos one, List.singleton_append, glyphs, glyphsAfter]
    have begins := begins_lead (UInt8.ofNat value)
    have same : (UInt8.ofNat value).toNat = value :=
      (bound value).trans (Nat.mod_eq_of_lt (by omega))
    generalize UInt8.ofNat value = byte at begins same
    subst same
    generalize lead byte = meaning at begins ⊢
    cases begins with
    | one => rfl
    | two => omega
    | three => omega
    | four => omega
    | nothing => omega
  rw [if_neg one]
  by_cases two : value ≤ 0x7FF
  · rw [if_pos two, List.cons_append, List.singleton_append, glyphs_two]
    · refine congrArg (fun number => Glyph.char (Char.ofNat number) :: glyphs rest) ?_
      rw [bound, bound]
      omega
    · rw [bound]; omega
    · rw [bound]; omega
    · unfold Continues; rw [bound]; omega
  rw [if_neg two]
  by_cases three : value ≤ 0xFFFF
  · rw [if_pos three, List.cons_append, List.cons_append, List.singleton_append, glyphs_three]
    · refine congrArg (fun number => Glyph.char (Char.ofNat number) :: glyphs rest) ?_
      rw [bound, bound, bound]
      omega
    · rw [bound]; omega
    · rw [bound]; omega
    · unfold Second Continues; rw [bound, bound]; omega
    · unfold Continues; rw [bound]; omega
  rw [if_neg three, List.cons_append, List.cons_append, List.cons_append, List.singleton_append,
    glyphs_four]
  · refine congrArg (fun number => Glyph.char (Char.ofNat number) :: glyphs rest) ?_
    rw [bound, bound, bound, bound]
    omega
  · rw [bound]; omega
  · rw [bound]; omega
  · unfold SecondOfFour Continues; rw [bound, bound]; omega
  · unfold Continues; rw [bound]; omega
  · unfold Continues; rw [bound]; omega

theorem glyphs_encode (text : List Char) : glyphs (encode text) = text.map .char := by
  induction text with
  | nil => rfl
  | cons c rest inductionHypothesis =>
    have cut : encode (c :: rest) = String.utf8EncodeChar c ++ encode rest := List.flatMap_cons
    rw [cut, glyphs_utf8EncodeChar, inductionHypothesis, List.map_cons]

theorem lossy_encode (text : List Char) : lossy (encode text) = text := by
  rw [lossy, glyphs_encode, List.map_map]
  exact List.map_id text

/-- Bytes that read as glyphs without junk are those of the text. -/
theorem Pieces.eq_encode {bytes : List UInt8} {read : List Glyph} (pieces : Pieces bytes read)
    {text : List Char} (clean : read = text.map .char) : bytes = encode text := by
  induction pieces generalizing text with
  | nil =>
    rcases List.map_eq_nil_iff.mp clean.symm with rfl
    rfl
  | char c later inductionHypothesis =>
    rcases List.map_eq_cons_iff.mp clean.symm with ⟨first, others, rfl, same, rest⟩
    rcases Glyph.char.inj same with rfl
    rw [inductionHypothesis rest.symm]
    rfl
  | junk piece later inductionHypothesis =>
    rcases List.map_eq_cons_iff.mp clean.symm with ⟨first, others, -, same, -⟩
    cases same

/-- Bytes are well-formed exactly if they are those of their text. -/
theorem decode?_eq_some_iff {bytes : List UInt8} {text : List Char} :
    decode? bytes = some text ↔ bytes = encode text := by
  rw [decode?, Glyph.mapM_char?_eq_some_iff]
  constructor
  · exact (pieces_glyphs bytes).eq_encode
  · rintro rfl
    exact glyphs_encode text

/-- Text without the mark for junk has been read from its own bytes. -/
theorem eq_encode_of_lossy {bytes : List UInt8} {text : List Char} (read : lossy bytes = text)
    (clean : '\uFFFD' ∉ text) : bytes = encode text := by
  have noJunk : .junk ∉ glyphs bytes := fun junk =>
    clean (read ▸ List.mem_map_of_mem junk)
  rcases Glyph.exists_chars noJunk with ⟨chars, same⟩
  have whole := (pieces_glyphs bytes).eq_encode same
  rw [← read, whole, lossy_encode]

end Utf8
end Text
end Ventilation
