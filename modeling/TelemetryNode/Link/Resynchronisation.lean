import TelemetryNode.Link.Alignment
import TelemetryNode.Link.Delivery

/-!
# How the receiver finds back to the frames

When exactly a frame gets through after noise, after a frame that lost bytes, and in a stream of
application frames that the receiver joins anywhere. All three fail for the same reason: the hunt
for a frame never looks again at a byte it has taken for the continuation of something else.

## Main results

* `frame_after_noise_iff`: after noise without a sync pair.
* `frame_after_loss_iff`: after a frame that lost bytes, and a quiet period.
* `frames_delivered_iff`: in a contiguous stream of application frames.
-/

namespace TelemetryNode

open UartReceiver UartHandshake

/-- All of some bytes, in one read. -/
def oneRead (s : List Byte) : UartRead := ⟨s.length, s, Int.le_refl _⟩

@[simp]
theorem received_oneRead (s : List Byte) : received [oneRead s] = s := by
  simp [received, UartRead.bytes, oneRead]

/-! ## After noise -/

/-- A frame after noise without a sync pair is delivered exactly when the noise ends in an even
number of `PROTOCOL_SYNC_BYTE_1`. Otherwise the first byte of the frame is dropped together with the
last byte of the noise, and the frame is not recognised. -/
theorem frame_after_noise_iff {c : Context} (hc : c.state = .sync1) {noise : List Byte}
    (hnoise : NoSyncPair noise) {p : TelemetryPayload} {frame : List Byte}
    (hframe : transmitted p = some frame) {reads : List UartRead}
    (hreads : received reads = noise ++ frame) :
    (∃ c' es, uartReceiverTask true c reads = some (c', es) ∧
        responses es = [protocolAckByte] ∧ queuedPayloads es = [p]) ↔
      Even (trailingSync1 noise) := by
  obtain rfl := wireFrame_of_transmitted hframe
  obtain ⟨c', hrun, -⟩ := uartReceiverTask_spec true hc reads
  obtain ⟨hcol, hemit⟩ := collected_of_noSyncPair true hnoise
  rw [exists_outcome_iff hrun, hreads]
  by_cases heven : Even (trailingSync1 noise)
  · -- nothing is collected where the frame starts
    rw [if_pos heven] at hcol
    rw [WindowScanner.emitted_append_of_nil _ hcol, hemit, (frameScanner_wireFrame p).2]
    exact iff_of_true ⟨rfl, rfl⟩ heven
  · -- the first byte of the frame is dropped, and less than a frame is left
    rw [if_neg heven] at hcol
    have hfirst : (frameScanner true).collected (noise ++ [protocolSyncByte1]) = [] ∧
        (frameScanner true).emitted (noise ++ [protocolSyncByte1]) = [] := by
      rw [WindowScanner.collected_concat, WindowScanner.emitted_concat, hcol, hemit, next_sync1,
        out_of_length_lt true (by decide)]
      exact ⟨if_neg (by decide), rfl⟩
    have hsplit : noise ++ wireFrame p =
        (noise ++ [protocolSyncByte1]) ++ (wireFrame p).drop 1 := by
      rw [List.append_assoc]
      rfl
    have hrest : (frameScanner true).emitted ((wireFrame p).drop 1) = [] := by
      refine (frameScanner true).emitted_of_length_lt ?_
      rw [List.length_drop, length_wireFrame]
      decide
    rw [hsplit, WindowScanner.emitted_append_of_nil _ hfirst.1, hfirst.2, hrest]
    refine iff_of_false ?_ heven
    rintro ⟨hresponses, -⟩
    exact absurd hresponses (by decide)

/-- After two `PROTOCOL_SYNC_BYTE_1`, a frame is delivered. -/
theorem frame_after_noise_iff_even :
    (∃ c' es, uartReceiverTask true (.start (.replicate 11 0#8))
        [oneRead ([protocolSyncByte1, protocolSyncByte1] ++ wireFrame samplePayload)] =
          some (c', es) ∧
        responses es = [protocolAckByte] ∧ queuedPayloads es = [samplePayload]) ↔
      Even (trailingSync1 [protocolSyncByte1, protocolSyncByte1]) :=
  frame_after_noise_iff rfl (by unfold NoSyncPair; decide) (transmitted_eq samplePayload)
    (received_oneRead _)

/-- After a single `PROTOCOL_SYNC_BYTE_1`, a frame is not even answered. -/
theorem frame_after_sync1_lost :
    NoSyncPair [protocolSyncByte1] ∧
      ¬ ∃ c' es, uartReceiverTask true (.start (.replicate 11 0#8))
          [oneRead ([protocolSyncByte1] ++ wireFrame samplePayload)] = some (c', es) ∧
        responses es = [protocolAckByte] ∧ queuedPayloads es = [samplePayload] := by
  have hrun : (uartReceiverTask true (.start (.replicate 11 0#8))
      [oneRead ([protocolSyncByte1] ++ wireFrame samplePayload)]).map Prod.snd = some [] := by
    decide +kernel
  refine ⟨by unfold NoSyncPair; decide, ?_⟩
  rintro ⟨c', es, h, hresponses, -⟩
  obtain rfl : es = [] := by
    rw [h, Option.map_some, Option.some_inj] at hrun
    exact hrun
  exact absurd hresponses (by decide)

/-! ## After a frame that lost bytes -/

/-- In a run of the task with effects `es`, the frame of `p` that starts at position `k` of what is
read is delivered: its last byte makes the task answer with an ACK and put `p` into the queue. -/
def FrameDelivered (c : Context) (reads : List UartRead) (es : List Effect) (k : ℕ)
    (p : TelemetryPayload) : Prop :=
  ∃ before, before ++ [.response protocolAckByte, .queued p] <+: es ∧
    effectsUntil true c reads (k + (UartFrame.size - 1)) = some before ∧
    effectsUntil true c reads (k + UartFrame.size) =
      some (before ++ [.response protocolAckByte, .queued p])

instance (c : Context) (reads : List UartRead) (es : List Effect) (k : ℕ) (p : TelemetryPayload) :
    Decidable (FrameDelivered c reads es k p) :=
  decidable_of_iff
    ((effectsUntil true c reads (k + (UartFrame.size - 1))).any (fun before =>
      before ++ [.response protocolAckByte, .queued p] <+: es ∧
        effectsUntil true c reads (k + UartFrame.size) =
          some (before ++ [.response protocolAckByte, .queued p])) = true) <| by
    rw [Option.any_eq_true, FrameDelivered]
    apply exists_congr
    intro before
    rw [decide_eq_true_iff, and_left_comm]

/-- A frame is delivered exactly when nothing is collected where it starts. -/
theorem frameDelivered_iff {c c' : Context} {s₀ : List Byte}
    (hc : Implements c ((frameScanner true).collected s₀)) {before after : List Byte}
    {p : TelemetryPayload} {reads : List UartRead} {es : List Effect}
    (hreads : received reads = before ++ wireFrame p ++ after)
    (hrun : uartReceiverTask true c reads = some (c', es)) :
    FrameDelivered c reads es before.length p ↔
      (frameScanner true).collected (s₀ ++ before) = [] := by
  -- only the last byte of the frame is answered
  obtain ⟨w, b, hw⟩ : ∃ w b, wireFrame p = w ++ [b] := by
    refine ⟨(wireFrame p).dropLast, (wireFrame p).getLast ?_, (List.dropLast_append_getLast _).symm⟩
    exact List.cons_ne_nil _ _
  have hlen : w.length + 1 = UartFrame.size := by
    rw [← length_wireFrame p, hw, List.length_append, List.length_singleton]
  have htake : (received reads).take (before.length + (UartFrame.size - 1)) = before ++ w := by
    rw [hreads, hw, ← List.append_assoc before, List.append_assoc (before ++ w)]
    exact List.take_left' (by rw [List.length_append]; omega)
  have htake' : (received reads).take (before.length + UartFrame.size) = before ++ w ++ [b] := by
    rw [hreads, hw, ← List.append_assoc before]
    exact List.take_left' (by simp only [List.length_append, List.length_singleton]; omega)
  have hcol : (frameScanner true).mealy.state ((frameScanner true).collected s₀) (before ++ w) =
      (frameScanner true).collected (s₀ ++ before ++ w) := by
    rw [List.append_assoc]
    exact (Mealy.state_append _ _ _ _).symm
  have hviable : (frameScanner true).viable (w ++ [b]) = true := by
    rw [← hw]
    exact (viableFrame_body (length_frameBody p)).1
  have hout := (frameScanner true).out_window (s₀ ++ before) hviable hlen
  rw [← hw, answer_wireFrame] at hout
  have hlast := (frameScanner true).mealy.outputs_concat ((frameScanner true).collected s₀)
    (before ++ w) b
  rw [hcol, hout] at hlast
  obtain ⟨done, hdone, hprefix⟩ := effectsUntil_begins hrun (before.length + UartFrame.size)
  rw [effectsUntil_spec true hc, htake', hlast, Option.some_inj] at hdone
  rw [FrameDelivered, effectsUntil_spec true hc, effectsUntil_spec true hc, htake, htake', hlast]
  by_cases hnil : (frameScanner true).collected (s₀ ++ before) = []
  · rw [if_pos hnil] at hdone ⊢
    rw [← hdone] at hprefix
    exact iff_of_true ⟨_, hprefix, rfl, rfl⟩ hnil
  · rw [if_neg hnil]
    refine iff_of_false ?_ hnil
    rintro ⟨before', -, hbefore, hafter⟩
    rw [Option.some_inj] at hbefore hafter
    rw [hbefore] at hafter
    exact absurd (List.append_cancel_left hafter) (by simp)

/-- Reads that time out return no bytes. -/
theorem received_timeouts {timeouts : List UartRead} (hquiet : ∀ t ∈ timeouts, t.len = 0) :
    received timeouts = [] := by
  apply List.flatten_eq_nil_iff.mpr
  intro l hl
  obtain ⟨t, ht, rfl⟩ := List.mem_map.mp hl
  rw [UartRead.bytes, hquiet t ht]
  rfl

theorem received_append (reads reads' : List UartRead) :
    received (reads ++ reads') = received reads ++ received reads' := by
  rw [received, List.map_append, List.flatten_append]
  rfl

/-- What remains of a frame that lost bytes, and reads that time out, let the next frame through
exactly when the remains are settled: the timeouts do not end the frame that was begun, and the
bytes of the next frame are taken for the missing ones. -/
theorem frame_after_loss_iff {c : Context} (hc : c.state = .sync1) {p₁ p₂ : TelemetryPayload}
    {frame₁ frame₂ : List Byte} (h₁ : transmitted p₁ = some frame₁)
    (h₂ : transmitted p₂ = some frame₂) {remains : List Byte} (hsub : remains.Sublist frame₁)
    (hloss : remains ≠ frame₁) {reads timeouts reads₂ : List UartRead}
    (hreads : received reads = remains) (hquiet : ∀ t ∈ timeouts, t.len = 0)
    (hreads₂ : received reads₂ = frame₂) :
    (∃ c' es, uartReceiverTask true c (reads ++ timeouts ++ reads₂) = some (c', es) ∧
        FrameDelivered c (reads ++ timeouts ++ reads₂) es remains.length p₂) ↔
      settled remains = true := by
  obtain rfl := wireFrame_of_transmitted h₁
  obtain rfl := wireFrame_of_transmitted h₂
  have hlen : remains.length < UartFrame.size := by
    rw [← length_wireFrame p₁]
    exact lt_of_le_of_ne hsub.length_le fun h => hloss (hsub.eq_of_length h)
  -- a read that times out adds no byte, and does nothing else either
  have hreceived : received (reads ++ timeouts ++ reads₂) = remains ++ wireFrame p₂ ++ [] := by
    rw [received_append, received_append, received_timeouts hquiet, hreads, hreads₂,
      List.append_nil, List.append_nil]
  obtain ⟨c₁, hrun, -⟩ := uartReceiverTask_spec true hc (reads ++ timeouts ++ reads₂)
  have himplements : Implements c ((frameScanner true).collected []) := implements_of_sync1 hc
  rw [exists_outcome_iff hrun, frameDelivered_iff himplements hreceived hrun, List.nil_append,
    collected_eq_nil_iff_settled true hlen]

/-- A frame without its first byte, a timeout, and a whole frame in two reads. -/
def headlessThenWhole : List UartRead :=
  [oneRead ((wireFrame samplePayload).drop 1)] ++ [⟨0, [], by decide⟩] ++
    [oneRead ((wireFrame samplePayload).take 5), oneRead ((wireFrame samplePayload).drop 5)]

/-- Remains in which no frame begins let the next frame through. -/
theorem frame_after_loss_iff_headless :
    (∃ c' es, uartReceiverTask true (.start (.replicate 11 0#8)) headlessThenWhole =
        some (c', es) ∧
      FrameDelivered (.start (.replicate 11 0#8)) headlessThenWhole es 16 samplePayload) ↔
      settled ((wireFrame samplePayload).drop 1) = true :=
  frame_after_loss_iff rfl (transmitted_eq samplePayload) (transmitted_eq samplePayload)
    (List.drop_sublist 1 _) (by decide +kernel) (received_oneRead _) (by simp) (by decide +kernel)

/-- A frame that was cut off after its first byte hides the next one: neither is answered. -/
theorem frame_after_truncation_lost :
    [protocolSyncByte1].Sublist (wireFrame samplePayload) ∧
      [protocolSyncByte1] ≠ wireFrame samplePayload ∧
      ∃ c', uartReceiverTask true (.start (.replicate 11 0#8))
        [oneRead [protocolSyncByte1], ⟨0, [], by decide⟩, oneRead (wireFrame samplePayload)] =
          some (c', []) := by
  have hrun : (uartReceiverTask true (.start (.replicate 11 0#8))
      [oneRead [protocolSyncByte1], ⟨0, [], by decide⟩, oneRead (wireFrame samplePayload)]).map
        Prod.snd = some [] := by
    decide +kernel
  refine ⟨by simp [wireFrame], by simp [wireFrame], ?_⟩
  obtain ⟨⟨c', es⟩, h, rfl⟩ := Option.map_eq_some_iff.mp hrun
  exact ⟨c', h⟩

/-! ## In a contiguous stream -/

/-- How many of the frames of some payloads, sent back to back, are delivered in a run of the task
with effects `es`. -/
def framesDelivered (c : Context) (reads : List UartRead) (es : List Effect)
    (ps : List TelemetryPayload) : ℕ :=
  (List.finRange ps.length).countP fun i : Fin ps.length =>
    FrameDelivered c reads es (UartFrame.size * i) (ps.get i)

/-- A checksum whose bytes look like the beginning of a header: the high byte is
`PROTOCOL_SYNC_BYTE_1` and does not follow another one, or the two bytes are the sync pair. -/
def Misleads (crc : BitVec 16) : Prop :=
  (lowByte crc ≠ protocolSyncByte1 ∧ highByte crc = protocolSyncByte1) ∨
    (lowByte crc = protocolSyncByte1 ∧ highByte crc = protocolSyncByte2)

theorem crcResidue_eq_nil_iff (crc : BitVec 16) : crcResidue crc = [] ↔ ¬ Misleads crc := by
  unfold crcResidue Misleads
  by_cases hlo : lowByte crc = protocolSyncByte1
  · by_cases hhi : highByte crc = protocolSyncByte2 <;> simp [hlo, hhi]
  · by_cases hhi : highByte crc = protocolSyncByte1 <;> simp [hlo, hhi]

/-- How many frames start while nothing is collected, when they are sent after `s₀`. -/
def alignedFrames (s₀ : List Byte) : List TelemetryPayload → ℕ
  | [] => 0
  | p :: ps =>
    (if (frameScanner true).collected s₀ = [] then 1 else 0) + alignedFrames (s₀ ++ wireFrame p) ps

theorem countP_collected_eq (s₀ : List Byte) (ps : List TelemetryPayload) :
    ((List.finRange ps.length).countP fun i : Fin ps.length =>
      (frameScanner true).collected (s₀ ++ (ps.take i).flatMap wireFrame) = []) =
        alignedFrames s₀ ps := by
  induction ps generalizing s₀ with
  | nil => rfl
  | cons p ps ih =>
    rw [alignedFrames, ← ih, List.length_cons, List.finRange_succ, List.countP_cons,
      List.countP_map, Nat.add_comm]
    congr 1
    · simp
    · apply List.countP_congr
      intro i _
      simp

theorem framesDelivered_eq {c c' : Context} {s₀ : List Byte}
    (hc : Implements c ((frameScanner true).collected s₀)) {ps : List TelemetryPayload}
    {reads : List UartRead} {es : List Effect} (hreads : received reads = ps.flatMap wireFrame)
    (hrun : uartReceiverTask true c reads = some (c', es)) :
    framesDelivered c reads es ps = alignedFrames s₀ ps := by
  rw [← countP_collected_eq, framesDelivered]
  apply List.countP_congr
  intro i _
  have hsplit : ps.flatMap wireFrame = (ps.take i).flatMap wireFrame ++ wireFrame (ps.get i) ++
      (ps.drop (i + 1)).flatMap wireFrame := by
    conv_lhs => rw [← List.take_append_drop i ps, List.drop_eq_getElem_cons i.isLt,
      List.flatMap_append, List.flatMap_cons, ← List.append_assoc]
    rfl
  have hlen : ((ps.take i).flatMap wireFrame).length = UartFrame.size * i := by
    rw [List.length_flatMap, List.map_congr_left fun p _ => length_wireFrame p, List.map_const',
      List.sum_replicate_nat, List.length_take, Nat.min_eq_left i.isLt.le, Nat.mul_comm]
  have hdelivered := frameDelivered_iff hc (hreads.trans hsplit) hrun
  rw [hlen] at hdelivered
  simpa using hdelivered

/-- Nothing collected stays so at the frame boundaries. -/
theorem alignedFrames_of_nil {s₀ : List Byte} (h : (frameScanner true).collected s₀ = [])
    (ps : List TelemetryPayload) : alignedFrames s₀ ps = ps.length := by
  induction ps generalizing s₀ with
  | nil => rfl
  | cons p ps ih =>
    have hnext : (frameScanner true).collected (s₀ ++ wireFrame p) = [] := by
      rw [WindowScanner.collected_append_of_nil _ h]
      exact (frameScanner_wireFrame p).1
    rw [alignedFrames, if_pos h, ih hnext, List.length_cons, Nat.add_comm]

theorem alignedFrames_le (s₀ : List Byte) (ps : List TelemetryPayload) :
    alignedFrames s₀ ps ≤ ps.length := by
  rw [← countP_collected_eq]
  exact List.countP_le_length.trans_eq (List.length_finRange)

/-- While something is collected, a frame is lost, and the next one starts with what its checksum
leaves. -/
theorem alignedFrames_of_ne_nil {s₀ : List Byte} (h : (frameScanner true).collected s₀ ≠ [])
    (r : Readings) (ps : List TelemetryPayload) :
    alignedFrames s₀ (r.packet :: ps) = alignedFrames (s₀ ++ wireFrame r.packet) ps ∧
      ((frameScanner true).collected (s₀ ++ wireFrame r.packet) = [] ↔
        ¬ Misleads (crc16 r.packet.toBytes)) := by
  rw [alignedFrames, if_neg h, Nat.zero_add, collected_frame_of_ne_nil true h,
    crcResidue_eq_nil_iff]
  exact ⟨rfl, Iff.rfl⟩

/-- At most two frames do not start while nothing is collected, exactly when nothing is collected at
the start, or one of the first two checksums does not mislead. -/
theorem le_alignedFrames_iff (s₀ : List Byte) (rs : List Readings) :
    rs.length ≤ alignedFrames s₀ (rs.map Readings.packet) + 2 ↔
      (frameScanner true).collected s₀ = [] ∨ rs.length ≤ 2 ∨
        ∃ r ∈ rs.take 2, ¬ Misleads (crc16 r.packet.toBytes) := by
  -- aligned from the start
  by_cases h₀ : (frameScanner true).collected s₀ = []
  · refine iff_of_true ?_ (.inl h₀)
    rw [alignedFrames_of_nil h₀, List.length_map]
    omega
  rw [or_iff_right h₀]
  -- the first frame is lost, so at most one of the next two may be
  match rs with
  | [] | [_] | [_, _] => simp
  | r₁ :: r₂ :: r₃ :: rs =>
    obtain ⟨hcount₁, hnext₁⟩ := alignedFrames_of_ne_nil h₀ r₁ ((r₂ :: r₃ :: rs).map Readings.packet)
    have hlong : ¬ (r₁ :: r₂ :: r₃ :: rs).length ≤ 2 := by simp
    rw [or_iff_right hlong, List.map_cons, hcount₁]
    simp only [List.take_succ_cons, List.take_zero, List.mem_cons, List.not_mem_nil, or_false,
      exists_eq_or_imp, exists_eq_left]
    -- aligned by the checksum of the first frame
    by_cases h₁ : (frameScanner true).collected (s₀ ++ wireFrame r₁.packet) = []
    · refine iff_of_true ?_ (.inl (hnext₁.mp h₁))
      rw [alignedFrames_of_nil h₁]
      simp
    rw [or_iff_right (mt hnext₁.mpr h₁)]
    obtain ⟨hcount₂, hnext₂⟩ := alignedFrames_of_ne_nil h₁ r₂ ((r₃ :: rs).map Readings.packet)
    rw [List.map_cons, hcount₂, ← hnext₂]
    -- aligned by the checksum of the second frame
    by_cases h₂ : (frameScanner true).collected
        (s₀ ++ wireFrame r₁.packet ++ wireFrame r₂.packet) = []
    · refine iff_of_true ?_ h₂
      rw [alignedFrames_of_nil h₂]
      simp
    · -- the third frame is lost as well, and what follows it cannot make up for that
      obtain ⟨hcount₃, -⟩ := alignedFrames_of_ne_nil h₂ r₃ (rs.map Readings.packet)
      refine iff_of_false ?_ h₂
      have hle := alignedFrames_le (s₀ ++ wireFrame r₁.packet ++ wireFrame r₂.packet ++
        wireFrame r₃.packet) (rs.map Readings.packet)
      rw [List.length_map] at hle
      rw [List.map_cons, hcount₃]
      simp only [List.length_cons]
      omega

/-- A receiver that is not aligned when application frames start to arrive loses the first one, the
second one if the checksum of the first one misleads it, and from then on a frame for each frame
before it whose checksum does. So it loses at most two exactly when it is aligned, or one of the
first two checksums does not mislead it. -/
theorem frames_delivered_iff {buf : Vector Byte TelemetryPayload.size} {reads₀ : List UartRead}
    {c : Context} {es₀ : List Effect}
    (hstart : uartReceiverTask true (.start buf) reads₀ = some (c, es₀)) (rs : List Readings)
    {s : List Byte} (hsent : sentStream (rs.map Readings.packet) = some s) {reads : List UartRead}
    (hreads : received reads = s) :
    (∃ c' es, uartReceiverTask true c reads = some (c', es) ∧
        rs.length ≤ framesDelivered c reads es (rs.map Readings.packet) + 2) ↔
      c.state = .sync1 ∨ rs.length ≤ 2 ∨ ∃ r ∈ rs.take 2, ¬ Misleads (crc16 r.packet.toBytes) := by
  rw [sentStream_eq, Option.some_inj] at hsent
  rw [← hsent] at hreads
  obtain ⟨c₁, hrun₀, himpl⟩ := uartReceiverTask_spec (c := .start buf) true rfl reads₀
  obtain rfl : c₁ = c := by
    rw [hrun₀, Option.some_inj, Prod.mk.injEq] at hstart
    exact hstart.1
  -- the run is defined, and delivers the frames that start while nothing is collected
  obtain ⟨c₂, hrun, -⟩ := (receiver_refines true).run himpl (received reads)
  rw [← uartReceiverTask_eq] at hrun
  rw [exists_outcome_iff hrun, framesDelivered_eq himpl hreads hrun, le_alignedFrames_iff,
    himpl.sync1_iff]

/-- Readings whose packet has a checksum with high byte `PROTOCOL_SYNC_BYTE_1`. -/
def misleadingReadings : Readings := ⟨1194, 1000, 2000, by decide, by decide, by decide⟩

/-- A receiver that has read nothing is aligned, and loses none of three frames. -/
theorem frames_delivered_iff_fresh :
    (∃ c' es, uartReceiverTask true (.start (.replicate 11 0#8))
        [oneRead ((List.replicate 3 misleadingReadings.packet).flatMap wireFrame)] =
          some (c', es) ∧
        3 ≤ framesDelivered (.start (.replicate 11 0#8))
          [oneRead ((List.replicate 3 misleadingReadings.packet).flatMap wireFrame)] es
          (List.replicate 3 misleadingReadings.packet) + 2) ↔
      (Context.start (.replicate 11 0#8)).state = .sync1 ∨ 3 ≤ 2 ∨
        ∃ r ∈ List.replicate 2 misleadingReadings, ¬ Misleads (crc16 r.packet.toBytes) :=
  frames_delivered_iff
    (rfl : uartReceiverTask true (.start (.replicate 11 0#8)) [] =
      some (.start (.replicate 11 0#8), []))
    (List.replicate 3 misleadingReadings) (sentStream_eq _) (received_oneRead _)

/-- After one stray `PROTOCOL_SYNC_BYTE_1`, three frames of one constant packet are all lost:
nothing is answered. -/
theorem constant_frames_lost :
    ∃ c es₀, uartReceiverTask true (.start (.replicate 11 0#8)) [oneRead [protocolSyncByte1]] =
        some (c, es₀) ∧
      ¬ ∃ c' es, uartReceiverTask true c
          [oneRead ((List.replicate 3 misleadingReadings.packet).flatMap wireFrame)] =
            some (c', es) ∧
        3 ≤ framesDelivered c
          [oneRead ((List.replicate 3 misleadingReadings.packet).flatMap wireFrame)] es
          (List.replicate 3 misleadingReadings.packet) + 2 := by
  refine ⟨{ Context.start (.replicate 11 0#8) with state := .sync2 }, [], by decide, ?_⟩
  have hrun : (uartReceiverTask true { Context.start (.replicate 11 0#8) with state := .sync2 }
      [oneRead ((List.replicate 3 misleadingReadings.packet).flatMap wireFrame)]).map Prod.snd =
        some [] := by
    decide +kernel
  rintro ⟨c', es, h, hle⟩
  obtain rfl : es = [] := by
    rw [h, Option.map_some, Option.some_inj] at hrun
    exact hrun
  -- no effects, no delivery
  have hnone : framesDelivered { Context.start (.replicate 11 0#8) with state := .sync2 }
      [oneRead ((List.replicate 3 misleadingReadings.packet).flatMap wireFrame)] []
      (List.replicate 3 misleadingReadings.packet) = 0 := by
    apply List.countP_eq_zero.mpr
    rintro i - hdelivered
    obtain ⟨before, hprefix, -⟩ := of_decide_eq_true hdelivered
    exact absurd (List.prefix_nil.mp hprefix) (by simp)
  omega

end TelemetryNode
