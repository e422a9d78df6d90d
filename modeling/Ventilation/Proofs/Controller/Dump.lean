import Ventilation.Controller.Line
import Ventilation.Proofs.Text.Ends
import Ventilation.Proofs.Text.Utf8
import Mathlib.Data.List.Forall2

namespace Ventilation

/-!
# Dumps and free text

A dump is a mark with bytes in hexadecimal digits of either case behind it.  A
line is read as a packet exactly if it is a dump whose second byte counts the
bytes that follow it, at least one of them.  Every other line stays the text
that it is.

Nothing is lost in this: what a line is read as tells what the line was, up to
its end and the case of its digits.
-/

/-! ## Digits of either case -/

namespace Text
namespace Hex

theorem toNat_toLower (c : Char) :
    c.toLower.toNat = if 65 ≤ c.toNat ∧ c.toNat ≤ 90 then c.toNat + 32 else c.toNat := by
  have upper : c.val ≥ 'A'.val ∧ c.val ≤ 'Z'.val ↔ 65 ≤ c.toNat ∧ c.toNat ≤ 90 := by
    rw [ge_iff_le, UInt32.le_iff_toNat_le, UInt32.le_iff_toNat_le]
    rfl
  unfold Char.toLower
  split
  · next inside =>
    rw [if_pos (upper.mp inside)]
    have high := (upper.mp inside).2
    change (c.val + 32).toNat = c.val.toNat + 32
    change c.val.toNat ≤ 90 at high
    rw [UInt32.toNat_add]
    exact Nat.mod_eq_of_lt (by change c.val.toNat + 32 < _; omega)
  · next outside => rw [if_neg (mt upper.mpr outside)]

theorem toNat_digit {value : Nat} (small : value < 16) :
    (digit value).toNat = if value < 10 then 48 + value else 87 + value := by
  unfold digit
  split
  · exact Utf8.toNat_ofNat (.inl (by change 48 + value < _; omega))
  · rw [Utf8.toNat_ofNat (.inl (by change 97 + (value - 10) < _; omega))]
    change 97 + (value - 10) = _
    omega

/-- A character is a digit if its lower case is one that is written. -/
theorem value?_eq_some_iff {c : Char} {value : Nat} :
    value? c = some value ↔ value < 16 ∧ c.toLower = digit value := by
  have between : ∀ low high : Char,
      low ≤ c ∧ c ≤ high ↔ low.toNat ≤ c.toNat ∧ c.toNat ≤ high.toNat :=
    fun _ _ => and_congr UInt32.le_iff_toNat_le UInt32.le_iff_toNat_le
  have decimal : '0' ≤ c ∧ c ≤ '9' ↔ 48 ≤ c.toNat ∧ c.toNat ≤ 57 := between '0' '9'
  have small : 'a' ≤ c ∧ c ≤ 'f' ↔ 97 ≤ c.toNat ∧ c.toNat ≤ 102 := between 'a' 'f'
  have capital : 'A' ≤ c ∧ c ≤ 'F' ↔ 65 ≤ c.toNat ∧ c.toNat ≤ 70 := between 'A' 'F'
  have lower := toNat_toLower c
  have zero : '0'.toNat = 48 := rfl
  have first : 'a'.toNat = 97 := rfl
  have firstCapital : 'A'.toNat = 65 := rfl
  unfold value?
  simp only [decimal, small, capital, zero, first, firstCapital]
  constructor
  · intro found
    have least : value < 16 ∧ c.toLower.toNat = if value < 10 then 48 + value else 87 + value := by
      grind
    exact ⟨least.1, Char.toNat_inj.mp (least.2.trans (toNat_digit least.1).symm)⟩
  · rintro ⟨least, same⟩
    have written := (congrArg Char.toNat same).trans (toNat_digit least)
    grind

/-- Bytes can be read from their dump in digits of either case, and from nothing
else. -/
theorem decode?_eq_some_iff {digits : List Char} {bytes : List UInt8} :
    decode? digits = some bytes ↔ digits.map Char.toLower = encode bytes := by
  fun_induction decode? digits generalizing bytes with
  | case1 => cases bytes <;> simp [encode, pair]
  | case2 => cases bytes <;> simp [encode, pair]
  | case3 high low rest inductionHypothesis =>
    simp only [Option.bind_eq_bind, Option.bind_eq_some_iff, Option.pure_def, Option.some.injEq,
      value?_eq_some_iff, inductionHypothesis, List.map_cons]
    constructor
    · rintro ⟨upper, ⟨upperSmall, highest⟩, lower, ⟨lowerSmall, lowest⟩, later, same, rfl⟩
      have whole : (UInt8.ofNat (upper * 16 + lower)).toNat = upper * 16 + lower :=
        UInt8.toNat_ofNat'.trans (Nat.mod_eq_of_lt (by omega))
      rw [highest, lowest, same]
      change _ = pair _ ++ encode later
      rw [pair, whole, show (upper * 16 + lower) / 16 = upper by omega,
        show (upper * 16 + lower) % 16 = lower by omega]
      rfl
    · intro same
      cases bytes with
      | nil => cases same
      | cons byte later =>
        have bound := byte.toNat_lt
        change _ = digit (byte.toNat / 16) :: digit (byte.toNat % 16) :: encode later at same
        rw [List.cons.injEq, List.cons.injEq] at same
        refine ⟨byte.toNat / 16, ⟨by omega, same.1⟩, byte.toNat % 16, ⟨by omega, same.2.1⟩, later,
          same.2.2, ?_⟩
        rw [show byte.toNat / 16 * 16 + byte.toNat % 16 = byte.toNat by omega, UInt8.ofNat_toNat]

theorem exists_digit_of_mem {c : Char} {bytes : List UInt8} (member : c ∈ encode bytes) :
    ∃ value, value < 16 ∧ c = digit value := by
  rcases List.mem_flatMap.mp member with ⟨byte, -, own⟩
  have bound := byte.toNat_lt
  rcases List.mem_cons.mp own with high | low
  · exact ⟨_, by omega, high⟩
  · exact ⟨_, by omega, List.mem_singleton.mp low⟩

end Hex
end Text

namespace Controller

open Text (Hex.decode?_eq_some_iff Hex.value?_eq_some_iff)

namespace MessageType

theorem code_ofCode (code : UInt8) : (ofCode code).code = code := by
  unfold ofCode
  split
  all_goals first
    | rfl
    | next same => exact UInt8.toNat_inj.mp same.symm

end MessageType

namespace Line

open Text.Utf8 (encode lossy decode? lossy_encode decode?_eq_some_iff eq_encode_of_lossy)

/-! ## The ends of lines -/

/-- The bytes of carriage returns and line feeds. -/
def isLineEndByte (byte : UInt8) : Bool := byte = 13 || byte = 10

/-- A line without the carriage returns and line feeds at its end. -/
def body (bytes : List UInt8) : List UInt8 := bytes.rdropWhile isLineEndByte

theorem encode_append (first second : List Char) :
    encode (first ++ second) = encode first ++ encode second := List.flatMap_append

theorem encode_singleton (c : Char) : encode [c] = String.utf8EncodeChar c := List.append_nil _

/-- A line end has one byte, which is one too. -/
theorem encode_lineEnd {c : Char} (ends : isLineEnd c = true) :
    ∃ byte, isLineEndByte byte = true ∧ encode [c] = [byte] := by
  have which : c = '\r' ∨ c = '\n' := by simpa [isLineEnd] using ends
  rcases which with rfl | rfl
  · exact ⟨13, rfl, by decide⟩
  · exact ⟨10, rfl, by decide⟩

theorem isLineEndByte_eq_false {value : Nat} (carriageReturn : value % 256 ≠ 13)
    (lineFeed : value % 256 ≠ 10) : isLineEndByte (UInt8.ofNat value) = false := by
  have apart : ∀ byte : UInt8, value % 256 ≠ byte.toNat → UInt8.ofNat value ≠ byte :=
    fun _ differs same => differs (UInt8.toNat_ofNat'.symm.trans (congrArg UInt8.toNat same))
  unfold isLineEndByte
  rw [decide_eq_false (apart 13 carriageReturn), decide_eq_false (apart 10 lineFeed)]
  rfl

/-- Any other character has a last byte, which is no line end. -/
theorem encode_other {c : Char} (goesOn : isLineEnd c = false) :
    ∃ before last, isLineEndByte last = false ∧ encode [c] = before ++ [last] := by
  have valid : c.toNat.isValidChar := c.valid
  have carriageReturn : c.toNat ≠ 13 := by
    intro same
    obtain rfl : c = '\r' := Char.toNat_inj.mp same
    cases goesOn
  have lineFeed : c.toNat ≠ 10 := by
    intro same
    obtain rfl : c = '\n' := Char.toNat_inj.mp same
    cases goesOn
  rw [encode_singleton, ← Char.ofNat_toNat c, Text.Utf8.utf8EncodeChar_ofNat valid]
  split
  · exact ⟨[], _, isLineEndByte_eq_false (by omega) (by omega), rfl⟩
  split
  · exact ⟨[_], _, isLineEndByte_eq_false (by omega) (by omega), rfl⟩
  split
  · exact ⟨[_, _], _, isLineEndByte_eq_false (by omega) (by omega), rfl⟩
  · exact ⟨[_, _, _], _, isLineEndByte_eq_false (by omega) (by omega), rfl⟩

/-- The text of a line ends where its bytes end. -/
theorem body_encode (text : List Char) : body (encode text) = encode (trimEnd text) := by
  change _ = encode (text.rdropWhile isLineEnd)
  unfold body
  induction text using List.reverseRecOn with
  | nil => rfl
  | append_singleton text c inductionHypothesis =>
    rw [encode_append, List.rdropWhile_concat]
    cases ends : isLineEnd c with
    | true =>
      rcases encode_lineEnd ends with ⟨byte, isEnd, same⟩
      rw [same, List.rdropWhile_concat_pos _ _ _ isEnd, inductionHypothesis, if_pos rfl]
    | false =>
      rcases encode_other ends with ⟨before, last, notEnd, same⟩
      rw [if_neg Bool.false_ne_true, encode_append, same, ← List.append_assoc,
        List.rdropWhile_concat_neg _ _ _ (by simp [notEnd])]

theorem encode_injective {first second : List Char} (same : encode first = encode second) :
    first = second := by
  rw [← lossy_encode first, same, lossy_encode]

theorem exists_lineEnd {byte : UInt8} (isEnd : isLineEndByte byte = true) :
    ∃ c, isLineEnd c = true ∧ encode [c] = [byte] := by
  have which : byte = 13 ∨ byte = 10 := by simpa [isLineEndByte] using isEnd
  rcases which with rfl | rfl
  · exact ⟨'\r', rfl, by decide⟩
  · exact ⟨'\n', rfl, by decide⟩

/-- The bytes at the end of a line are those of line ends. -/
theorem exists_lineEnds (bytes : List UInt8) :
    ∃ ends, (∀ c ∈ ends, isLineEnd c = true) ∧ bytes = body bytes ++ encode ends := by
  induction bytes using List.reverseRecOn with
  | nil => exact ⟨[], nofun, rfl⟩
  | append_singleton bytes byte inductionHypothesis =>
    unfold body
    cases isEnd : isLineEndByte byte with
    | true =>
      rcases inductionHypothesis with ⟨ends, all, whole⟩
      rcases exists_lineEnd isEnd with ⟨c, last, same⟩
      refine ⟨ends ++ [c], fun other member => ?_, ?_⟩
      · rcases List.mem_append.mp member with before | own
        · exact all other before
        · rw [List.mem_singleton.mp own]
          exact last
      · rw [List.rdropWhile_concat_pos _ _ _ isEnd, encode_append, same, ← List.append_assoc]
        exact congrArg (· ++ [byte]) whole
    | false =>
      rw [List.rdropWhile_concat_neg _ _ _ (by simp [isEnd])]
      exact ⟨[], nofun, (List.append_nil _).symm⟩

theorem trimEnd_append (text : List Char) {ends : List Char}
    (all : ∀ c ∈ ends, isLineEnd c = true) : trimEnd (text ++ ends) = trimEnd text :=
  Text.rdropWhile_append_of_pos all text

/-- A line reads as a text without junk, up to its end, exactly if it consists of
the bytes of that text, up to its end. -/
theorem trimEnd_lossy_eq_iff {bytes : List UInt8} {text : List Char} (clean : '\uFFFD' ∉ text) :
    trimEnd (lossy bytes) = text ↔ body bytes = encode text := by
  constructor
  · rintro rfl
    -- Junk can only stand before the line ends, since it is none itself.
    have whole : bytes = encode (lossy bytes) := by
      refine eq_encode_of_lossy rfl fun junk => ?_
      rw [← List.rdropWhile_append_rtakeWhile (p := isLineEnd) (l := lossy bytes)] at junk
      rcases List.mem_append.mp junk with before | after
      · exact clean before
      · exact absurd (List.mem_rtakeWhile_imp after) (by decide)
    rw [← body_encode, ← whole]
  · intro same
    rcases exists_lineEnds bytes with ⟨ends, all, whole⟩
    rw [same, ← encode_append] at whole
    have trimmed : body (body bytes) = body bytes := List.rdropWhile_idempotent _ _
    rw [same, body_encode] at trimmed
    rw [whole, lossy_encode, trimEnd_append text all]
    exact encode_injective trimmed

/-! ## Dumps -/

/-- A line is the dump of a message from or to a peer: a mark, and then in digits
of either case the peer, the length of the message and the message, which is not
empty. -/
def Dumps (line : List UInt8) (direction : Direction) (peer : UInt8) (message : List UInt8) :
    Prop :=
  ∃ digits length, line = encode (direction.mark :: digits) ∧
    digits.map Char.toLower = Text.Hex.encode (peer :: length :: message) ∧
      length.toNat = message.length ∧ message ≠ []

theorem ofMark?_eq_some_iff {c : Char} {direction : Direction} :
    Direction.ofMark? c = some direction ↔ c = direction.mark := by
  unfold Direction.ofMark?
  cases direction <;> grind [Direction.mark]

theorem packet?_eq_some_iff {direction : Direction} {bytes : List UInt8} {line : Line} :
    packet? direction bytes = some line ↔ ∃ peer length code payload,
      bytes = peer :: length :: code :: payload ∧ length.toNat = payload.length + 1 ∧
        line = .packet direction peer (.ofCode code) payload := by
  constructor
  · intro found
    unfold packet? at found
    split at found
    · next peer length code payload =>
      rw [Option.ite_none_right_eq_some] at found
      exact ⟨peer, length, code, payload, rfl, found.1, (Option.some.inj found.2).symm⟩
    · cases found
  · rintro ⟨peer, length, code, payload, rfl, counted, rfl⟩
    exact if_pos counted

theorem not_mem_dump (direction : Direction) {digits : List Char} {bytes : List UInt8}
    (dumped : digits.map Char.toLower = Text.Hex.encode bytes) :
    '\uFFFD' ∉ direction.mark :: digits := by
  intro junk
  rcases List.mem_cons.mp junk with mark | digit
  · cases direction <;> exact absurd mark (by decide)
  · have written := List.mem_map_of_mem (f := Char.toLower) digit
    rw [dumped] at written
    rcases Text.Hex.exists_digit_of_mem written with ⟨value, small, same⟩
    have code := (congrArg Char.toNat same).trans (Text.Hex.toNat_digit small)
    rw [Text.Hex.toNat_toLower] at code
    change (if 65 ≤ 65533 ∧ 65533 ≤ 90 then 65533 + 32 else 65533) = _ at code
    grind

/-- A trimmed line dumps a packet if its bytes do. -/
theorem dump?_eq_some_iff {bytes : List UInt8} {line : Line} :
    dump? (trimEnd (lossy bytes)) = some line ↔ ∃ direction peer code payload,
      Dumps (body bytes) direction peer (code :: payload) ∧
        line = .packet direction peer (.ofCode code) payload := by
  constructor
  · intro found
    generalize trimmed : trimEnd (lossy bytes) = text at found
    cases text with
    | nil => cases found
    | cons mark digits =>
      simp only [dump?, Option.bind_eq_bind, Option.bind_eq_some_iff, ofMark?_eq_some_iff,
        Hex.decode?_eq_some_iff, packet?_eq_some_iff] at found
      rcases found with ⟨direction, rfl, _, dumped, peer, length, code, payload, rfl, counted, rfl⟩
      have same := (trimEnd_lossy_eq_iff (not_mem_dump direction dumped)).mp trimmed
      exact ⟨direction, peer, code, payload,
        ⟨digits, length, same, dumped, counted, List.cons_ne_nil _ _⟩, rfl⟩
  · rintro ⟨direction, peer, code, payload, ⟨digits, length, same, dumped, counted, -⟩, rfl⟩
    rw [(trimEnd_lossy_eq_iff (not_mem_dump direction dumped)).mpr same]
    simp only [dump?, Option.bind_eq_bind, Option.bind_eq_some_iff, ofMark?_eq_some_iff,
      Hex.decode?_eq_some_iff, packet?_eq_some_iff]
    exact ⟨direction, rfl, _, dumped, peer, length, code, payload, rfl, counted, rfl⟩

theorem read_eq_packet_iff {bytes : List UInt8} {direction : Direction} {peer : UInt8}
    {type : MessageType} {payload : List UInt8} :
    read bytes = .packet direction peer type payload ↔
      ∃ code, Dumps (body bytes) direction peer (code :: payload) ∧ type = .ofCode code := by
  have found := @dump?_eq_some_iff bytes
  unfold read
  dsimp only
  cases dumped : dump? (trimEnd (lossy bytes)) with
  | none =>
    refine iff_of_false nofun ?_
    rintro ⟨code, dumps, -⟩
    have some_line := found.mpr ⟨direction, peer, code, payload, dumps, rfl⟩
    rw [dumped] at some_line
    cases some_line
  | some line =>
    constructor
    · rintro rfl
      rcases found.mp dumped with ⟨_, _, code, _, dumps, same⟩
      cases same
      exact ⟨code, dumps, rfl⟩
    · rintro ⟨code, dumps, rfl⟩
      have same := found.mpr ⟨direction, peer, code, payload, dumps, rfl⟩
      rw [dumped] at same
      exact Option.some.inj same

theorem read_eq_text_iff {bytes : List UInt8} {text : List Char} :
    read bytes = .text text ↔
      (¬∃ direction peer message, Dumps (body bytes) direction peer message) ∧
        text = trimEnd (lossy bytes) := by
  have found := @dump?_eq_some_iff bytes
  unfold read
  dsimp only
  cases dumped : dump? (trimEnd (lossy bytes)) with
  | none =>
    have no_dump : ¬∃ direction peer message, Dumps (body bytes) direction peer message := by
      rintro ⟨direction, peer, message, dumps⟩
      cases message with
      | nil => exact dumps.choose_spec.choose_spec.2.2.2 rfl
      | cons code payload =>
        have some_line := found.mpr ⟨direction, peer, code, payload, dumps, rfl⟩
        rw [dumped] at some_line
        cases some_line
    constructor
    · intro same
      exact ⟨no_dump, (Line.text.inj same).symm⟩
    · rintro ⟨-, rfl⟩
      rfl
  | some line =>
    rcases found.mp dumped with ⟨direction, peer, code, payload, dumps, rfl⟩
    exact iff_of_false nofun fun none => none.1 ⟨direction, peer, _, dumps⟩

/-! ## What is read tells what was printed -/

/-- Two bytes are equal, or digits of one value. -/
def Alike (first second : UInt8) : Prop :=
  first = second ∨ ∃ value, Text.Hex.value? (Char.ofUInt8 first) = some value ∧
    Text.Hex.value? (Char.ofUInt8 second) = some value

theorem encode_digit {c : Char} {value : Nat} (digit : Text.Hex.value? c = some value) :
    ∃ byte, encode [c] = [byte] ∧ Char.ofUInt8 byte = c := by
  rcases Hex.value?_eq_some_iff.mp digit with ⟨small, lower⟩
  have code := (congrArg Char.toNat lower).trans (Text.Hex.toNat_digit small)
  rw [Text.Hex.toNat_toLower] at code
  have ascii : c.toNat ≤ 0x7F := by grind
  refine ⟨UInt8.ofNat c.toNat, ?_, ?_⟩
  · have valid : c.toNat.isValidChar := c.valid
    have spelled := Text.Utf8.utf8EncodeChar_ofNat valid
    rw [Char.ofNat_toNat, if_pos ascii] at spelled
    exact (encode_singleton c).trans spelled
  · apply Char.toNat_inj.mp
    change (UInt8.ofNat c.toNat).toUInt32.toNat = c.toNat
    rw [UInt8.toNat_toUInt32, UInt8.toNat_ofNat']
    omega

/-- What is written with the same digits of either case is alike. -/
theorem alike_of_toLower {first second written : List Char}
    (digits : ∀ c ∈ written, ∃ value, value < 16 ∧ c = Text.Hex.digit value)
    (one : first.map Char.toLower = written) (other : second.map Char.toLower = written) :
    List.Forall₂ Alike (encode first) (encode second) := by
  induction written generalizing first second with
  | nil =>
    rw [List.map_eq_nil_iff.mp one, List.map_eq_nil_iff.mp other]
    exact .nil
  | cons c written inductionHypothesis =>
    rcases List.map_eq_cons_iff.mp one with ⟨a, first, rfl, lower, restOne⟩
    rcases List.map_eq_cons_iff.mp other with ⟨b, second, rfl, lowerToo, restOther⟩
    rcases digits c List.mem_cons_self with ⟨value, small, digit⟩
    have left := Hex.value?_eq_some_iff.mpr ⟨small, lower.trans digit⟩
    have right := Hex.value?_eq_some_iff.mpr ⟨small, lowerToo.trans digit⟩
    rcases encode_digit left with ⟨x, byteOne, readOne⟩
    rcases encode_digit right with ⟨y, byteOther, readOther⟩
    have later := inductionHypothesis (fun d member => digits d (List.mem_cons_of_mem _ member))
      restOne restOther
    have cut := encode_append [a] first
    have cutToo := encode_append [b] second
    rw [byteOne] at cut
    rw [byteOther] at cutToo
    change List.Forall₂ Alike (encode ([a] ++ first)) (encode ([b] ++ second))
    rw [cut, cutToo]
    exact .cons (.inr ⟨value, readOne ▸ left, readOther ▸ right⟩) later

theorem Dumps.alike {line other : List UInt8} {direction : Direction} {peer : UInt8}
    {message : List UInt8} (dumps : Dumps line direction peer message)
    (dumpsToo : Dumps other direction peer message) : List.Forall₂ Alike line other := by
  rcases dumps with ⟨digits, length, rfl, dumped, counted, -⟩
  rcases dumpsToo with ⟨digitsToo, lengthToo, rfl, dumpedToo, countedToo, -⟩
  obtain rfl : length = lengthToo := UInt8.toNat_inj.mp (counted.trans countedToo.symm)
  have later := alike_of_toLower (fun _ => Text.Hex.exists_digit_of_mem) dumped dumpedToo
  have first : List.Forall₂ Alike (encode [direction.mark]) (encode [direction.mark]) :=
    List.forall₂_same.mpr fun _ _ => .inl rfl
  have cut := encode_append [direction.mark] digits
  have cutToo := encode_append [direction.mark] digitsToo
  exact cut ▸ cutToo ▸ List.rel_append first later

/-- A line is read as a packet exactly if it is a dump, and stays text otherwise;
and what two lines of well-formed text are read as tells them apart, but for
their ends and the case of their digits. -/
theorem lines_are_read_without_loss (bytes : List UInt8) :
    (∀ direction peer type payload,
      read bytes = .packet direction peer type payload ↔
        ∃ code, Dumps (body bytes) direction peer (code :: payload) ∧ type = .ofCode code) ∧
    (∀ text, read bytes = .text text ↔
      (¬∃ direction peer message, Dumps (body bytes) direction peer message) ∧
        text = trimEnd (lossy bytes)) ∧
    ∀ other, (decode? bytes).isSome → (decode? other).isSome → read other = read bytes →
      List.Forall₂ Alike (body bytes) (body other) := by
  refine ⟨fun _ _ _ _ => read_eq_packet_iff, fun _ => read_eq_text_iff, ?_⟩
  intro other formed formedToo same
  cases line : read bytes with
  | packet direction peer type payload =>
    rcases read_eq_packet_iff.mp line with ⟨code, dumps, rfl⟩
    rcases read_eq_packet_iff.mp (same.trans line) with ⟨codeToo, dumpsToo, sameType⟩
    have sameCode := congrArg MessageType.code sameType
    rw [MessageType.code_ofCode, MessageType.code_ofCode] at sameCode
    exact dumps.alike (sameCode ▸ dumpsToo)
  | text text =>
    rcases Option.isSome_iff_exists.mp formed with ⟨reading, read⟩
    rcases Option.isSome_iff_exists.mp formedToo with ⟨readingToo, readToo⟩
    rcases decode?_eq_some_iff.mp read with rfl
    rcases decode?_eq_some_iff.mp readToo with rfl
    have trimmed := (read_eq_text_iff.mp line).2
    have trimmedToo := (read_eq_text_iff.mp (same.trans line)).2
    rw [lossy_encode] at trimmed trimmedToo
    rw [body_encode, body_encode, ← trimmed, ← trimmedToo]
    exact List.forall₂_same.mpr fun _ _ => .inl rfl

/-- Two dumps of one message, of which one has a line end and each has a digit
that is a capital in the other. -/
theorem lines_are_read_without_loss_in_either_case :
    let first : List UInt8 := [60, 48, 50, 48, 51, 48, 50, 48, 65, 48, 98, 13, 10]
    let second : List UInt8 := [60, 48, 50, 48, 51, 48, 50, 48, 97, 48, 66]
    (decode? first).isSome = true ∧ (decode? second).isSome = true ∧
      read first = .packet .received 2 .error [10, 11] ∧ read second = read first ∧
        List.Forall₂ Alike (body first) (body second) := by
  refine ⟨by decide, by decide, by decide, by decide, ?_⟩
  exact (lines_are_read_without_loss _).2.2 _ (by decide) (by decide) (by decide)

end Line
end Controller
end Ventilation
