import TelemetryNode.Esp32.FrameScanner
import TelemetryNode.Stm32.UartHandshake

/-!
# The wire frame as the receiver sees it

What the STM32 sends for a payload is a window of the receiver's scanner, and the answer to it is an
ACK and the payload itself. More generally any 13 bytes after the header are answered, by the
comparison of their checksums.
-/

namespace TelemetryNode

open UartReceiver UartHandshake

/-- The 13 bytes after the header of a frame. -/
def frameBody (p : TelemetryPayload) : List Byte :=
  p.toBytes ++ LittleEndian.encode 2 (crc16 p.toBytes)

/-- The length of `frameBody`. -/
def bodySize : ℕ := TelemetryPayload.size + 2

/-- The answer to 13 bytes after a header. -/
def bodyVerdict (outQueue : Bool) (body : List Byte) : List Effect :=
  verdict outQueue (body.take TelemetryPayload.size)
    (LittleEndian.decode 16 (body.drop TelemetryPayload.size))

theorem wireFrame_eq (p : TelemetryPayload) : wireFrame p = frameHeader ++ frameBody p := rfl

@[simp]
theorem length_frameBody (p : TelemetryPayload) : (frameBody p).length = bodySize := by
  simp [frameBody, bodySize]

/-- A header and any 13 bytes are a complete window. -/
theorem viableFrame_body {body : List Byte} (h : body.length = bodySize) :
    viableFrame (frameHeader ++ body) = true ∧ (frameHeader ++ body).length = UartFrame.size := by
  refine ⟨?_, ?_⟩
  · rw [viableFrame_header, h]
    exact decide_eq_true (le_refl _)
  · rw [List.length_append, h]
    rfl

/-- A header and any 13 bytes, met with nothing collected, are answered by comparing their
checksums. -/
theorem frameScanner_body (outQueue : Bool) {body : List Byte} (h : body.length = bodySize) :
    (frameScanner outQueue).collected (frameHeader ++ body) = [] ∧
      (frameScanner outQueue).emitted (frameHeader ++ body) = bodyVerdict outQueue body := by
  obtain ⟨hv, hlen⟩ := viableFrame_body h
  obtain ⟨hcol, hemit⟩ := (frameScanner outQueue).window_answered (w := frameHeader ++ body) hv hlen
  refine ⟨hcol, hemit.trans ?_⟩
  have hsplit : body.take TelemetryPayload.size ++ body.drop TelemetryPayload.size = body :=
    List.take_append_drop _ _
  have htake : (body.take TelemetryPayload.size).length = TelemetryPayload.size := by
    rw [List.length_take, h, bodySize]
    omega
  have hdrop : (body.drop TelemetryPayload.size).length = 2 := by
    rw [List.length_drop, h, bodySize]
    omega
  -- the scanner reads the payload and the checksum back out of the window
  change verdict outQueue (framePayload _) (frameCrc _) = _
  conv_lhs => rw [← hsplit]
  rw [framePayload_append htake, frameCrc_append htake _ hdrop]
  rfl

/-- The checksum at the end of a body is that of the payload before it. -/
def BodyMatches (body : List Byte) : Prop :=
  crc16 (body.take TelemetryPayload.size) = LittleEndian.decode 16 (body.drop TelemetryPayload.size)

instance (body : List Byte) : Decidable (BodyMatches body) := by
  unfold BodyMatches
  infer_instance

/-- Whether a body is accepted depends on its checksum only. -/
theorem bodyVerdict_eq (outQueue : Bool) {body : List Byte} (h : body.length = bodySize) :
    bodyVerdict outQueue body =
      if BodyMatches body then
        .response protocolAckByte :: (if outQueue then
          [.queued (.ofBytes (body.take TelemetryPayload.size))] else [])
      else [.response protocolNackByte] := by
  have hlen : (body.take TelemetryPayload.size).length = TelemetryPayload.size := by
    rw [List.length_take, h, bodySize]
    omega
  rw [bodyVerdict, verdict, calculateCrc16_payload hlen]
  exact if_congr Option.some_inj rfl rfl

/-- The answer to an undamaged body: an ACK, and the payload is queued. -/
theorem bodyVerdict_frameBody (p : TelemetryPayload) :
    bodyVerdict true (frameBody p) = [.response protocolAckByte, .queued p] := by
  have htake : (frameBody p).take TelemetryPayload.size = p.toBytes :=
    List.take_left' p.length_toBytes
  have hdrop : (frameBody p).drop TelemetryPayload.size =
      LittleEndian.encode 2 (crc16 p.toBytes) := List.drop_left' p.length_toBytes
  rw [bodyVerdict, htake, hdrop, LittleEndian.decode_encode (by omega), verdict,
    calculateCrc16_payload p.length_toBytes, if_pos rfl, TelemetryPayload.ofBytes_toBytes]
  rfl

/-- The answer to a body that follows a header. -/
theorem uartReceiverTask_body (outQueue : Bool) {c : Context} (hc : c.state = .sync1)
    {body : List Byte} (hlen : body.length = bodySize) {reads : List UartRead}
    (hreads : received reads = frameHeader ++ body) :
    ∃ c', uartReceiverTask outQueue c reads = some (c', bodyVerdict outQueue body) := by
  obtain ⟨c', hrun, -⟩ := uartReceiverTask_spec outQueue hc reads
  rw [hreads, (frameScanner_body outQueue hlen).2] at hrun
  exact ⟨c', hrun⟩

/-- A frame, met with nothing collected, is acknowledged and its payload queued. -/
theorem frameScanner_wireFrame (p : TelemetryPayload) :
    (frameScanner true).collected (wireFrame p) = [] ∧
      (frameScanner true).emitted (wireFrame p) = [.response protocolAckByte, .queued p] := by
  obtain ⟨hcol, hemit⟩ := frameScanner_body true (length_frameBody p)
  exact ⟨hcol, hemit.trans (bodyVerdict_frameBody p)⟩

theorem answer_wireFrame (p : TelemetryPayload) :
    (frameScanner true).answer (wireFrame p) = [.response protocolAckByte, .queued p] := by
  obtain ⟨hv, hlen⟩ := viableFrame_body (length_frameBody p)
  obtain ⟨-, hemit⟩ := (frameScanner true).window_answered (w := wireFrame p) hv hlen
  exact hemit.symm.trans (frameScanner_wireFrame p).2

/-- A byte of a stream of frames either continues the frame that was begun, or completes it, and
then the frame is answered. -/
theorem frameScanner_byte {part more : List Byte} {b : Byte} {ps : List TelemetryPayload}
    (h : part ++ b :: more = ps.flatMap wireFrame) (hlen : part.length < UartFrame.size) :
    (part.length + 1 < UartFrame.size ∧ (frameScanner true).mealy.next part b = part ++ [b] ∧
        (frameScanner true).mealy.out part b = []) ∨
      ∃ p ps', ps = p :: ps' ∧ more = ps'.flatMap wireFrame ∧
        (frameScanner true).mealy.next part b = [] ∧
        (frameScanner true).mealy.out part b = [.response protocolAckByte, .queued p] := by
  cases ps with
  -- without frames there is no byte
  | nil => simp at h
  | cons p ps' =>
    have hlenb : (part ++ [b]).length = part.length + 1 := by simp
    rw [List.append_cons, List.flatMap_cons] at h
    have hprefix : part ++ [b] <+: wireFrame p := by
      refine List.prefix_of_prefix_length_le (List.prefix_append _ more)
        (h ▸ List.prefix_append _ _) ?_
      rw [hlenb, length_wireFrame]
      omega
    obtain ⟨left, hframe⟩ := hprefix
    have hmore : more = left ++ ps'.flatMap wireFrame := by
      rw [← hframe, List.append_assoc (part ++ [b])] at h
      exact List.append_cancel_left h
    have hviable : viableFrame (part ++ [b]) = true := by
      refine (frameScanner true).viable_of_append (t := left) ?_
      rw [hframe]
      exact (viableFrame_body (length_frameBody p)).1
    rcases Nat.lt_or_ge (part.length + 1) UartFrame.size with hshort | hfull
    -- the frame goes on
    · refine .inl ⟨hshort, if_pos ⟨hviable, hlenb ▸ hshort⟩, if_neg fun hdone => ?_⟩
      exact absurd (hlenb ▸ hdone.2) hshort.ne
    -- the frame is complete, and what follows are the other frames
    · have hlenw : part.length + 1 = UartFrame.size := by omega
      obtain rfl : left = [] := by
        have hlenl := congrArg List.length hframe
        rw [List.length_append, hlenb, length_wireFrame] at hlenl
        exact List.length_eq_zero_iff.mp (by omega)
      rw [List.append_nil] at hframe
      refine .inr ⟨p, ps', rfl, hmore, if_neg fun hopen => ?_, ?_⟩
      · exact absurd (hlenb ▸ hopen.2) (by rw [hlenw]; exact lt_irrefl _)
      · rw [← answer_wireFrame, ← hframe]
        exact if_pos ⟨hviable, hlenb.trans hlenw⟩

end TelemetryNode
