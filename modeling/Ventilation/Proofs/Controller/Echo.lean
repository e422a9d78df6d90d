import Ventilation.Proofs.Controller.Dump

namespace Ventilation
namespace Controller

/-!
# Frames and their echoes

The controller shows every packet that it sends as a dump of what stands behind
the start byte of a frame.  Frames are made by one rule and dumps are read by
another, each with its own idea of a length; here they are put together.  What
has been framed reads back from its echo, in digits of either case and with any
line ends, as long as there is a body whose first byte can be its type.

The command for dampers and fan is short enough for a frame, and its frame tells
dampers and fan and nothing else.
-/

open Text.Utf8 (encode)
open Line (body isLineEndByte Dumps)

/-- A line with which the controller shows that it has sent a frame: a mark, in
digits of either case what follows the start byte, and line ends. -/
def Frame.Echo (frame : Frame) (line : List UInt8) : Prop :=
  ∃ digits ends, digits.map Char.toLower = Text.Hex.encode frame.bytes.tail ∧
    (∀ byte ∈ ends, isLineEndByte byte = true) ∧
      line = encode ('>' :: digits) ++ ends

namespace Line

theorem body_append (bytes : List UInt8) {ends : List UInt8}
    (all : ∀ byte ∈ ends, isLineEndByte byte = true) : body (bytes ++ ends) = body bytes :=
  Text.rdropWhile_append_of_pos all bytes

theorem isLineEnd_eq_false_of_digit {digits : List Char} {bytes : List UInt8}
    (dumped : digits.map Char.toLower = Text.Hex.encode bytes) :
    ∀ c ∈ digits, isLineEnd c = false := by
  intro c member
  have written := List.mem_map_of_mem (f := Char.toLower) member
  rw [dumped] at written
  rcases Text.Hex.exists_digit_of_mem written with ⟨value, small, same⟩
  have code := (congrArg Char.toNat same).trans (Text.Hex.toNat_digit small)
  rw [Text.Hex.toNat_toLower] at code
  have other : c ≠ '\r' ∧ c ≠ '\n' := by
    constructor
    · rintro rfl
      change (if 65 ≤ 13 ∧ 13 ≤ 90 then 13 + 32 else 13) = _ at code
      grind
    · rintro rfl
      change (if 65 ≤ 10 ∧ 10 ≤ 90 then 10 + 32 else 10) = _ at code
      grind
  simp [isLineEnd, other]

/-- The line ends are what follows the dump. -/
theorem body_dump {digits : List Char} {bytes ends : List UInt8}
    (dumped : digits.map Char.toLower = Text.Hex.encode bytes)
    (all : ∀ byte ∈ ends, isLineEndByte byte = true) :
    body (encode ('>' :: digits) ++ ends) = encode ('>' :: digits) := by
  rw [body_append _ all, body_encode]
  congr 1
  refine List.rdropWhile_eq_self_iff.mpr fun some_text => ?_
  rw [Bool.not_eq_true]
  rcases List.mem_cons.mp (List.getLast_mem some_text) with mark | digit
  · rw [mark]
    rfl
  · exact isLineEnd_eq_false_of_digit dumped _ digit

end Line

namespace Frame

variable {target : UInt8} {message : List UInt8} {frame : Frame}

theorem make_eq_ok_iff :
    make target message = .ok frame ↔ frame.target = target ∧ frame.body = message := by
  unfold make
  split
  · next fits =>
    rw [Except.ok.injEq]
    constructor
    · rintro rfl
      exact ⟨rfl, rfl⟩
    · rintro ⟨rfl, rfl⟩
      rfl
  · next long =>
    refine iff_of_false nofun ?_
    rintro ⟨-, rfl⟩
    exact long frame.fits

/-- The length in a frame is exact, since no body exceeds a byte. -/
theorem toNat_length (frame : Frame) :
    (UInt8.ofNat frame.body.length).toNat = frame.body.length :=
  UInt8.toNat_ofNat'.trans
    (Nat.mod_eq_of_lt (Nat.lt_of_le_of_lt frame.fits (by decide)))

/-- A frame consists of the start byte, the target, the length of the body and
the body. -/
theorem bytes_eq_iff :
    (∃ length : UInt8, length.toNat = message.length ∧
        frame.bytes = startByte :: target :: length :: message) ↔
      frame.target = target ∧ frame.body = message := by
  constructor
  · rintro ⟨length, -, same⟩
    simp only [bytes, contents, List.cons.injEq, true_and] at same
    exact ⟨same.1, same.2.2⟩
  · rintro ⟨rfl, rfl⟩
    exact ⟨_, frame.toNat_length, rfl⟩

/-- The echo of a frame reads as the packet that was framed. -/
theorem Echo.read_eq {line : List UInt8} (echo : frame.Echo line) {code : UInt8}
    {payload : List UInt8} (framed : frame.body = code :: payload) :
    Line.read line = .packet .sent frame.target (.ofCode code) payload := by
  rcases echo with ⟨digits, ends, dumped, all, rfl⟩
  refine Line.read_eq_packet_iff.mpr ⟨code, ?_, rfl⟩
  rw [Line.body_dump dumped all]
  exact ⟨digits, _, rfl, framed ▸ dumped, framed ▸ frame.toNat_length, List.cons_ne_nil _ _⟩

end Frame

/-! ## The command for dampers and fan -/

theorem damperCode_inj {first second : Damper} :
    damperCode first = damperCode second ↔ first = second := by
  cases first <;> cases second <;> decide

theorem fanCode_inj {first second : Fan} : fanCode first = fanCode second ↔ first = second := by
  cases first <;> cases second <;> decide

/-- A command tells dampers and fan, and nothing else of a state. -/
theorem commandFrame_bytes_eq_iff {target : UInt8} {first second : State} :
    (commandFrame target first).bytes = (commandFrame target second).bytes ↔
      first.sameOutputs second = true := by
  simp [Frame.bytes, Frame.contents, commandFrame, commandBody, damperCode_inj, fanCode_inj,
    State.sameOutputs, State.sameDampers, and_assoc]

/-- Frames and echoes are inverse.  A body can be framed exactly if it has at most
sixteen bytes, and the frame then counts them.  The echo of a body that is not
empty reads as a packet that was sent to the target, with the first byte of the
body as its type and the others behind it, and type and payload give the body
back.  The command for a state can always be framed, echoes as such a command,
and is the same for two states exactly if dampers and fan are. -/
theorem frames_and_echoes_are_inverse (target : UInt8) :
    (∀ message, (∃ frame, Frame.make target message = .ok frame) ↔ message.length ≤ 16) ∧
    (∀ message frame, Frame.make target message = .ok frame ↔
      ∃ length : UInt8, length.toNat = message.length ∧
        frame.bytes = startByte :: target :: length :: message) ∧
    (∀ frame code payload line, Frame.make target (code :: payload) = .ok frame →
      frame.Echo line →
        Line.read line = .packet .sent target (.ofCode code) payload ∧
          (MessageType.ofCode code).code :: payload = code :: payload) ∧
    (∀ state, Frame.make target (commandBody state) = .ok (commandFrame target state) ∧
      ∀ line, (commandFrame target state).Echo line →
        Line.read line = .packet .sent target .damperCommand (commandBody state).tail) ∧
    ∀ first second, (commandFrame target first).bytes = (commandFrame target second).bytes ↔
      first.sameOutputs second = true := by
  refine ⟨?_, ?_, ?_, ?_, fun _ _ => commandFrame_bytes_eq_iff⟩
  · intro message
    constructor
    · rintro ⟨frame, made⟩
      exact (Frame.make_eq_ok_iff.mp made).2 ▸ frame.fits
    · intro fits
      exact ⟨⟨target, message, fits⟩, Frame.make_eq_ok_iff.mpr ⟨rfl, rfl⟩⟩
  · intro message frame
    rw [Frame.make_eq_ok_iff, Frame.bytes_eq_iff]
  · intro frame code payload line made echo
    rcases Frame.make_eq_ok_iff.mp made with ⟨rfl, framed⟩
    exact ⟨echo.read_eq framed, congrArg (· :: payload) (MessageType.code_ofCode code)⟩
  · intro state
    exact ⟨make_commandBody target state, fun line echo => echo.read_eq rfl⟩

/-- The echo of a body of five bytes, with digits of both cases and three line
ends. -/
theorem frames_and_echoes_are_inverse_in_either_case :
    let message : List UInt8 := [9, 0xAB, 0xCD, 0, 0xEF]
    let line : List UInt8 := ">fE0509Abcd00eF\r\r\n".toList.map fun c => UInt8.ofNat c.toNat
    ∃ frame, Frame.make 0xFE message = .ok frame ∧ frame.Echo line ∧
      Line.read line = .packet .sent 0xFE (.unknown 9) [0xAB, 0xCD, 0, 0xEF] := by
  intro message line
  have echo : (⟨0xFE, message, by decide⟩ : Frame).Echo line :=
    ⟨"fE0509Abcd00eF".toList, [13, 13, 10], by decide, by simp [isLineEndByte], by decide⟩
  refine ⟨_, rfl, echo, ?_⟩
  exact ((frames_and_echoes_are_inverse 0xFE).2.2.1 _ 9 _ _ rfl echo).1

end Controller
end Ventilation
