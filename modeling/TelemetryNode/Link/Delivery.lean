import TelemetryNode.Link.WireFrame

/-!
# Delivery of frames

What `uart_receiver_task` makes of a stream of frames whose bodies may be damaged, with noise
between them, and of a stream about which nothing is known.

## Main definitions

* `Transmission`: a frame as it arrives, with the noise before it.
* `crcMatches`, `payloadAt`: what the receiver reads at a position of the stream.

## Main results

* `transmissions_answered`: each frame is answered once, in order, and undamaged ones are delivered.
* `windows_answered`: on any stream, exactly the complete windows that the task meets in
  `STATE_SYNC1` are answered.
-/

namespace TelemetryNode

open UartReceiver UartHandshake

/-- A frame that was sent, as it arrives: the 13 bytes after the header may be overwritten, and
noise without `PROTOCOL_SYNC_BYTE_1` may come before it. -/
structure Transmission where
  noise : List Byte
  noise_quiet : protocolSyncByte1 ∉ noise
  payload : TelemetryPayload
  frame : List Byte
  frame_sent : transmitted payload = some frame
  /-- What arrives in place of the payload and checksum bytes. -/
  body : List Byte
  body_length : body.length = bodySize

namespace Transmission

/-- What arrives of a transmission. -/
def bytes (t : Transmission) : List Byte := t.noise ++ (t.frame.take 4 ++ t.body)

/-- Nothing of the frame was overwritten. -/
def Untouched (t : Transmission) : Prop := t.frame = t.frame.take 4 ++ t.body

theorem frame_eq (t : Transmission) : t.frame = frameHeader ++ frameBody t.payload := by
  have hsent := t.frame_sent
  rw [transmitted_eq, wireFrame_eq, Option.some_inj] at hsent
  exact hsent.symm

theorem header_eq (t : Transmission) : t.frame.take 4 = frameHeader := by
  rw [t.frame_eq]
  exact List.take_left' rfl

theorem Untouched.body_eq {t : Transmission} (h : t.Untouched) : t.body = frameBody t.payload := by
  have hframe : t.frame = frameHeader ++ t.body := by
    rw [← t.header_eq]
    exact h
  rw [t.frame_eq] at hframe
  exact (List.append_cancel_left hframe).symm

end Transmission

/-- Bytes other than `PROTOCOL_SYNC_BYTE_1` are skipped by the hunt for a frame. -/
theorem noise_skipped (outQueue : Bool) {noise : List Byte} (h : protocolSyncByte1 ∉ noise) :
    (frameScanner outQueue).collected noise = [] ∧ (frameScanner outQueue).emitted noise = [] := by
  apply (frameScanner outQueue).skipped
  intro b hb
  have hne : b ≠ protocolSyncByte1 := by
    rintro rfl
    exact h hb
  simp [frameScanner, viableFrame, hne]

/-- One transmission, met with nothing collected, is answered once and leaves nothing collected. -/
theorem frameScanner_transmission (outQueue : Bool) (t : Transmission) :
    (frameScanner outQueue).collected t.bytes = [] ∧
      (frameScanner outQueue).emitted t.bytes = bodyVerdict outQueue t.body := by
  obtain ⟨hquiet, hsilent⟩ := noise_skipped outQueue t.noise_quiet
  obtain ⟨hcol, hemit⟩ := frameScanner_body outQueue t.body_length
  rw [Transmission.bytes, t.header_eq, WindowScanner.collected_append_of_nil _ hquiet,
    WindowScanner.emitted_append_of_nil _ hquiet, hsilent, List.nil_append]
  exact ⟨hcol, hemit⟩

/-- Transmissions in a row are answered one by one. -/
theorem frameScanner_transmissions (outQueue : Bool) (ts : List Transmission) :
    (frameScanner outQueue).collected (ts.flatMap Transmission.bytes) = [] ∧
      (frameScanner outQueue).emitted (ts.flatMap Transmission.bytes) =
        ts.flatMap fun t => bodyVerdict outQueue t.body := by
  induction ts with
  | nil => exact ⟨rfl, rfl⟩
  | cons t ts ih =>
    obtain ⟨hcol, hemit⟩ := frameScanner_transmission outQueue t
    rw [List.flatMap_cons, List.flatMap_cons, WindowScanner.collected_append_of_nil _ hcol,
      WindowScanner.emitted_append_of_nil _ hcol, hemit, ih.2]
    exact ⟨ih.1, rfl⟩

/-- The task over transmissions in a row: it is back in `STATE_SYNC1` after them. -/
theorem run_transmissions (outQueue : Bool) {c : Context} (hc : c.state = .sync1)
    (ts : List Transmission) :
    ∃ c', (receiver outQueue).run c (ts.flatMap Transmission.bytes) =
      some (c', ts.flatMap fun t => bodyVerdict outQueue t.body) ∧ c'.state = .sync1 := by
  obtain ⟨hcol, hemit⟩ := frameScanner_transmissions outQueue ts
  obtain ⟨c', hrun, himpl⟩ := run_spec outQueue hc (ts.flatMap Transmission.bytes)
  rw [hemit] at hrun
  rw [hcol] at himpl
  exact ⟨c', hrun, himpl.sync1_iff.mpr rfl⟩

/-- Each frame is answered once, in order, by the comparison of the checksum of the 11 payload bytes
that arrived with the checksum that arrived, and nothing else is answered, however the stream is
cut into reads. An untouched frame is acknowledged and its payload queued. After each frame the task
is in `STATE_SYNC1`. -/
theorem transmissions_answered {c : Context} (hc : c.state = .sync1) (ts : List Transmission)
    {tail : List Byte} (htail : protocolSyncByte1 ∉ tail) {reads : List UartRead}
    (hreads : received reads = ts.flatMap Transmission.bytes ++ tail) :
    (∃ c', uartReceiverTask true c reads =
        some (c', ts.flatMap fun t => bodyVerdict true t.body) ∧ c'.state = .sync1) ∧
      (∀ t ∈ ts, t.Untouched →
        bodyVerdict true t.body = [.response protocolAckByte, .queued t.payload]) ∧
      ∀ k ≤ ts.length, ∃ c', (receiver true).run c ((ts.take k).flatMap Transmission.bytes) =
        some (c', (ts.take k).flatMap fun t => bodyVerdict true t.body) ∧ c'.state = .sync1 := by
  refine ⟨?_, fun t _ ht => ?_, fun k _ => run_transmissions true hc (ts.take k)⟩
  -- the reads only matter through their bytes, and the noise at the end is skipped
  · obtain ⟨c₁, hrun, hc₁⟩ := run_transmissions true hc ts
    obtain ⟨hquiet, hsilent⟩ := noise_skipped true htail
    obtain ⟨c₂, htailRun, himpl⟩ := run_spec true hc₁ tail
    rw [hsilent] at htailRun
    rw [hquiet] at himpl
    refine ⟨c₂, ?_, himpl.sync1_iff.mpr rfl⟩
    rw [uartReceiverTask_eq, hreads, Transducer.run_append, hrun]
    simp [htailRun]
  · rw [ht.body_eq]
    exact bodyVerdict_frameBody t.payload

/-- A payload for the runs below. -/
def samplePayload : TelemetryPayload := ⟨0#32, 0x0201#16, 0x0403#16, 0x0605#16, 0x01#8⟩

/-- Its frame twice, untouched after some noise, and with its checksum overwritten. -/
def sampleTransmissions : List Transmission :=
  [{ noise := [0x00, 0x55]
     noise_quiet := by decide
     payload := samplePayload
     frame := wireFrame samplePayload
     frame_sent := transmitted_eq samplePayload
     body := [0, 0, 0, 0, 1, 2, 3, 4, 5, 6, 1, 0x7A, 0x92]
     body_length := by decide },
    { noise := []
      noise_quiet := by decide
      payload := samplePayload
      frame := wireFrame samplePayload
      frame_sent := transmitted_eq samplePayload
      body := [0, 0, 0, 0, 1, 2, 3, 4, 5, 6, 1, 0xAA, 0x55]
      body_length := by decide }]

/-- A failed read, a read that ends within the second header, an empty read, and the rest with some
noise. -/
def sampleReads : List UartRead :=
  [⟨-1, [], by decide⟩,
    ⟨21, [0x00, 0x55, 0xAA, 0x55, 0x0B, 0x00, 0, 0, 0, 0, 1, 2, 3, 4, 5, 6, 1, 0x7A, 0x92, 0xAA,
      0x55], by decide⟩,
    ⟨0, [0xAA], by decide⟩,
    ⟨17, [0x0B, 0x00, 0, 0, 0, 0, 1, 2, 3, 4, 5, 6, 1, 0xAA, 0x55, 0x06, 0x15], by decide⟩]

/-- The sample reads are answered with an ACK, the payload, and a NACK. -/
theorem transmissions_answered_sample :
    ∃ c', uartReceiverTask true (.start (.replicate 11 0xAA#8)) sampleReads =
        some (c', [.response protocolAckByte, .queued samplePayload,
          .response protocolNackByte]) ∧
      c'.state = .sync1 := by
  have hreads : received sampleReads =
      sampleTransmissions.flatMap Transmission.bytes ++ [0x06#8, 0x15#8] := by decide +kernel
  have hanswers : (sampleTransmissions.flatMap fun t => bodyVerdict true t.body) =
      [.response protocolAckByte, .queued samplePayload, .response protocolNackByte] := by
    decide +kernel
  obtain ⟨h, -, -⟩ := transmissions_answered (c := .start (.replicate 11 0xAA#8)) rfl
    sampleTransmissions (by decide) hreads
  rwa [hanswers] at h

/-! ## Arbitrary streams -/

/-- The payload bytes of the window at position `i`. -/
def payloadAt (s : List Byte) (i : ℕ) : List Byte := (s.drop (i + 4)).take TelemetryPayload.size

/-- The two checksum bytes of the window at position `i`, low byte first. -/
def crcAt (s : List Byte) (i : ℕ) : BitVec 16 :=
  LittleEndian.decode 16 ((s.drop (i + 4 + TelemetryPayload.size)).take 2)

/-- The checksum of the window at position `i` is that of its payload bytes. -/
def CrcMatches (s : List Byte) (i : ℕ) : Prop :=
  calculateCrc16 (payloadAt s i) 11#16 = some (crcAt s i)

instance (s : List Byte) (i : ℕ) : Decidable (CrcMatches s i) := by
  unfold CrcMatches
  infer_instance

/-- A header starts at position `i`, and 13 bytes follow it. -/
def FrameAt (s : List Byte) (i : ℕ) : Prop :=
  i + UartFrame.size ≤ s.length ∧ (s.drop i).take 4 = frameHeader

/-- A complete window is viable exactly when it begins with the header. -/
theorem viableFrame_iff {w : List Byte} (h : w.length = UartFrame.size) :
    viableFrame w = true ↔ w.take 4 = frameHeader := by
  match w with
  | [] | [_] | [_, _] | [_, _, _] => simp [UartFrame.size, TelemetryPayload.size] at h
  | a :: b :: l :: h' :: body =>
    have hbody : body.length ≤ TelemetryPayload.size + 2 := by
      simp only [List.length_cons, UartFrame.size] at h
      omega
    simp [viableFrame, hbody]

/-- The scanner looks for the windows of `FrameAt`. -/
theorem windowAt_iff (outQueue : Bool) {s : List Byte} {i : ℕ} :
    (frameScanner outQueue).WindowAt s i ↔ FrameAt s i := by
  apply and_congr_right
  intro hi
  have hlen : ((frameScanner outQueue).window s i).length = UartFrame.size :=
    (frameScanner outQueue).length_window hi
  have htake : ((frameScanner outQueue).window s i).take 4 = (s.drop i).take 4 := by
    rw [WindowScanner.window, List.take_take]
    rfl
  rw [← htake]
  exact viableFrame_iff hlen

/-- The scanner answers a window from its payload and checksum bytes. -/
theorem answer_window (outQueue : Bool) (s : List Byte) (i : ℕ) :
    (frameScanner outQueue).answer ((frameScanner outQueue).window s i) =
      verdict outQueue (payloadAt s i) (crcAt s i) := by
  have hpayload : framePayload ((s.drop i).take UartFrame.size) = payloadAt s i := by
    rw [framePayload, List.drop_take, List.drop_drop, List.take_take]
    rfl
  have hcrc : frameCrc ((s.drop i).take UartFrame.size) = crcAt s i := by
    rw [frameCrc, List.drop_take, List.drop_drop, List.take_take]
    rfl
  change verdict outQueue (framePayload _) (frameCrc _) = _
  rw [WindowScanner.window]
  exact congrArg₂ (verdict outQueue) hpayload hcrc

/-- The answer to the window at position `i`. -/
theorem verdict_window (s : List Byte) (i : ℕ) :
    verdict true (payloadAt s i) (crcAt s i) =
      if CrcMatches s i then
        [.response protocolAckByte, .queued (.ofBytes (payloadAt s i))]
      else [.response protocolNackByte] := rfl

theorem responses_flatMap_verdict (s : List Byte) (ps : List ℕ) :
    responses (ps.flatMap fun i => verdict true (payloadAt s i) (crcAt s i)) =
      ps.map fun i => if CrcMatches s i then protocolAckByte else protocolNackByte := by
  induction ps with
  | nil => rfl
  | cons i ps ih =>
    rw [List.flatMap_cons, responses_append, ih, verdict_window, List.map_cons]
    by_cases h : CrcMatches s i
    · rw [if_pos h, if_pos h]
      rfl
    · rw [if_neg h, if_neg h]
      rfl

theorem queuedPayloads_flatMap_verdict (s : List Byte) (ps : List ℕ) :
    queuedPayloads (ps.flatMap fun i => verdict true (payloadAt s i) (crcAt s i)) =
      (ps.filter fun i => CrcMatches s i).map fun i => .ofBytes (payloadAt s i) := by
  induction ps with
  | nil => rfl
  | cons i ps ih =>
    rw [List.flatMap_cons, queuedPayloads_append, ih, verdict_window]
    by_cases h : CrcMatches s i
    · rw [if_pos h, List.filter_cons, if_pos (decide_eq_true h)]
      rfl
    · rw [if_neg h, List.filter_cons, if_neg (by simpa using h)]
      rfl

/-- On any stream, however it is cut into reads, there are positions at least 17 apart such that the
effects of the task are the answers to the windows there, in order, and nothing else. They are
exactly the positions at which the task is in `STATE_SYNC1` and a complete window starts. -/
theorem windows_answered {c : Context} (hc : c.state = .sync1) (reads : List UartRead) :
    ∃ (c' : Context) (es : List Effect) (ps : List ℕ),
      uartReceiverTask true c reads = some (c', es) ∧
      ps.Pairwise (fun i j => i + UartFrame.size ≤ j) ∧
      (∀ i, i ∈ ps ↔ FrameAt (received reads) i ∧ ∃ cᵢ esᵢ,
        (receiver true).run c ((received reads).take i) = some (cᵢ, esᵢ) ∧ cᵢ.state = .sync1) ∧
      es = ps.flatMap (fun i =>
        if CrcMatches (received reads) i then
          [.response protocolAckByte, .queued (.ofBytes (payloadAt (received reads) i))]
        else [.response protocolNackByte]) ∧
      responses es = ps.map (fun i =>
        if CrcMatches (received reads) i then protocolAckByte else protocolNackByte) ∧
      queuedPayloads es = (ps.filter fun i => CrcMatches (received reads) i).map fun i =>
        .ofBytes (payloadAt (received reads) i) := by
  obtain ⟨c', hrun, -⟩ := uartReceiverTask_spec true hc reads
  set s := received reads with hs
  -- the positions are those of the scanner
  have hes : (frameScanner true).emitted s =
      ((frameScanner true).positions s).flatMap
        fun i => verdict true (payloadAt s i) (crcAt s i) := by
    rw [WindowScanner.outputs_eq]
    exact List.flatMap_congr fun i _ => answer_window true s i
  refine ⟨c', (frameScanner true).emitted s, (frameScanner true).positions s, hrun,
    (frameScanner true).positions_pairwise s, fun i => ?_, hes, ?_, ?_⟩
  · -- `STATE_SYNC1` at `i` is the empty collection there
    obtain ⟨cᵢ, hrunᵢ, himpl⟩ := run_spec true hc (s.take i)
    rw [WindowScanner.mem_positions, windowAt_iff, and_comm]
    refine and_congr_right fun _ => ⟨fun h => ?_, ?_⟩
    · rw [h] at himpl
      exact ⟨cᵢ, _, hrunᵢ, himpl.sync1_iff.mpr rfl⟩
    · rintro ⟨cⱼ, esⱼ, hrunⱼ, hcⱼ⟩
      rw [hrunᵢ, Option.some_inj, Prod.mk.injEq] at hrunⱼ
      exact himpl.sync1_iff.mp (hrunⱼ.1 ▸ hcⱼ)
  · rw [hes]
    exact responses_flatMap_verdict s _
  · rw [hes]
    exact queuedPayloads_flatMap_verdict s _

/-- In the sample reads, the window at position 2 is one of those that are answered. -/
theorem windows_answered_sample :
    ∃ (c' : Context) (es : List Effect) (ps : List ℕ),
      uartReceiverTask true (.start (.replicate 11 0xAA#8)) sampleReads = some (c', es) ∧ 2 ∈ ps ∧
      responses es = ps.map (fun i =>
        if CrcMatches (received sampleReads) i then protocolAckByte else protocolNackByte) := by
  obtain ⟨c', es, ps, hrun, -, hmem, -, hresponses, -⟩ :=
    windows_answered (c := .start (.replicate 11 0xAA#8)) rfl sampleReads
  have hframe : FrameAt (received sampleReads) 2 := by
    unfold FrameAt
    decide
  exact ⟨c', es, ps, hrun, (hmem 2).mpr ⟨hframe, .start (.replicate 11 0xAA#8), [], rfl, rfl⟩,
    hresponses⟩

end TelemetryNode
