import TelemetryNode.Esp32.FrameScanner

/-!
# What holds in every state of the frame parser

The locals of `uart_receiver_task` at any point of a byte stream: how far each of them can be
trusted, that the parser finds back to `STATE_SYNC1` whatever it receives, and that what is left
in the locals there is never looked at again.

All of it is read off `Implements`: the locals stand for a collection, the collection is the end of
the stream, and it was empty where it starts.

## Main definitions

* `UartReceiver.SyncedAfter`: the parser is in `STATE_SYNC1` after some bytes.
* `UartReceiver.SinceHeader`: what was received since the current header.
* `UartReceiver.ParserInvariant`: what holds of the locals, state by state.

## Main results

* `UartReceiver.parser_invariant`: the invariant holds on every stream, no byte makes the task leave
  `payload_buf`, and 17 bytes always lead through `STATE_SYNC1`.
* `UartReceiver.no_carry_over`: two tasks in `STATE_SYNC1` behave the same, whatever they hold.
-/

namespace TelemetryNode.UartReceiver

/-- The task, started with the given contents of `payload_buf`, is in `STATE_SYNC1` after `s`. -/
def SyncedAfter (outQueue : Bool) (buf : Vector Byte TelemetryPayload.size) (s : List Byte) :
    Prop :=
  ∃ c es, (receiver outQueue).run (.start buf) s = some (c, es) ∧ c.state = .sync1

/-- The stream ends with a header that the task met in `STATE_SYNC1`, and with the bytes `body`
after it. -/
def SinceHeader (outQueue : Bool) (buf : Vector Byte TelemetryPayload.size) (s body : List Byte) :
    Prop :=
  ∃ t, s = t ++ (frameHeader ++ body) ∧ SyncedAfter outQueue buf t

/-- The locals of the task after the stream `s`. Before `STATE_PAYLOAD` nothing is said of them. -/
structure ParserInvariant (outQueue : Bool) (buf : Vector Byte TelemetryPayload.size)
    (s : List Byte) (c : Context) : Prop where
  /-- In `STATE_PAYLOAD` the cursor is inside the buffer, and the bytes before it are the last ones
  received. -/
  payload : c.state = .payload → c.expectedLength = 11#16 ∧ c.payloadIdx.toNat < 11 ∧
    SinceHeader outQueue buf s (c.payloadBuf.toList.take c.payloadIdx.toNat)
  /-- In `STATE_CRC_L` the whole buffer was written since the header. -/
  crcL : c.state = .crcL → c.expectedLength = 11#16 ∧ c.payloadIdx = 11#16 ∧
    SinceHeader outQueue buf s c.payloadBuf.toList
  /-- In `STATE_CRC_H` the same holds, one byte later. -/
  crcH : c.state = .crcH → c.expectedLength = 11#16 ∧ c.payloadIdx = 11#16 ∧
    ∃ lo : Byte, c.receivedCrc = lo.setWidth 16 ∧
      SinceHeader outQueue buf s (c.payloadBuf.toList ++ [lo])

variable {outQueue : Bool} {buf : Vector Byte TelemetryPayload.size} {c d : Context}
  {s : List Byte} {acc : List Byte}

/-- The task is in `STATE_SYNC1` wherever the scanner has collected nothing. -/
theorem syncedAfter_of_collected (h : (frameScanner outQueue).collected s = []) :
    SyncedAfter outQueue buf s := by
  obtain ⟨c, hrun, himpl⟩ := run_spec outQueue (c := .start buf) rfl s
  exact ⟨c, _, hrun, himpl.sync1_iff.mpr h⟩

/-- What is collected beyond the header was received since the header. -/
theorem sinceHeader_of_collected {body : List Byte}
    (h : (frameScanner outQueue).collected s = frameHeader ++ body) :
    SinceHeader outQueue buf s body := by
  obtain ⟨t, hs, ht⟩ := ((frameScanner outQueue).exists_start s).2.2
  refine ⟨t, ?_, syncedAfter_of_collected ht⟩
  rw [← h]
  exact hs

/-- Locals that stand for what the scanner has collected satisfy the invariant. -/
theorem parserInvariant_of_implements (h : Implements c ((frameScanner outQueue).collected s)) :
    ParserInvariant outQueue buf s c := by
  constructor
  · intro hc
    simp only [Implements, hc] at h
    obtain ⟨hcol, hidx, hlen⟩ := h
    exact ⟨hlen, hidx, sinceHeader_of_collected hcol⟩
  · intro hc
    simp only [Implements, hc] at h
    obtain ⟨hcol, hidx, hlen⟩ := h
    exact ⟨hlen, hidx, sinceHeader_of_collected hcol⟩
  · intro hc
    simp only [Implements, hc] at h
    obtain ⟨lo, hcol, hidx, hlen, hlo⟩ := h
    rw [List.append_assoc] at hcol
    exact ⟨hlen, hidx, lo, hlo, sinceHeader_of_collected hcol⟩

/-- The `switch` is defined for every byte. -/
theorem processByte_ne_none (h : Implements c acc) (b : Byte) :
    processByte outQueue c b ≠ none := by
  obtain ⟨c', calls, hbyte, -, -⟩ := processByte_spec outQueue h b
  rw [hbyte]
  exact Option.some_ne_none _

/-- Wherever the task is, as many bytes as a frame has lead through `STATE_SYNC1`. -/
theorem exists_sync1 (h : Implements c ((frameScanner outQueue).collected s)) {t : List Byte}
    (ht : UartFrame.size ≤ t.length) :
    ∃ k, 0 < k ∧ k ≤ UartFrame.size ∧
      ∃ d es, (receiver outQueue).run c (t.take k) = some (d, es) ∧ d.state = .sync1 := by
  obtain ⟨k, hpos, hk, hnil⟩ := (frameScanner outQueue).exists_collected_nil s ht
  obtain ⟨d, hrun, hd⟩ := (receiver_refines outQueue).run h (t.take k)
  refine ⟨k, hpos, hk, d, _, hrun, hd.sync1_iff.mpr ?_⟩
  rw [← hnil, WindowScanner.collected, WindowScanner.collected, Mealy.state_append]

/-- On every byte stream, from any contents of `payload_buf`: the task does not get stuck and its
locals satisfy the invariant; no further byte is written outside `payload_buf` or makes
`calculate_crc16` read outside it; and any 17 further bytes lead through `STATE_SYNC1`. -/
theorem parser_invariant (outQueue : Bool) (buf : Vector Byte TelemetryPayload.size)
    (s : List Byte) :
    ∃ c es, (receiver outQueue).run (.start buf) s = some (c, es) ∧
      ParserInvariant outQueue buf s c ∧
      (∀ b, processByte outQueue c b ≠ none) ∧
      ∀ t : Vector Byte 17, ∃ k, 0 < k ∧ k ≤ 17 ∧
        ∃ d es', (receiver outQueue).run c (t.toList.take k) = some (d, es') ∧
          d.state = .sync1 := by
  obtain ⟨c, hrun, himpl⟩ := run_spec outQueue (c := .start buf) rfl s
  refine ⟨c, _, hrun, parserInvariant_of_implements himpl, processByte_ne_none himpl, ?_⟩
  intro t
  exact exists_sync1 himpl (by rw [Vector.length_toList]; decide)

/-! ## Leftovers -/

/-- The parser state that a collection of the given length belongs to. -/
def stateOf : ℕ → State
  | 0 => .sync1
  | 1 => .sync2
  | 2 => .lenL
  | 3 => .lenH
  | n => if n < 4 + TelemetryPayload.size then .payload
    else if n = 4 + TelemetryPayload.size then .crcL else .crcH

/-- The parser state is determined by how much is collected. -/
theorem Implements.state_eq (h : Implements c acc) : c.state = stateOf acc.length := by
  unfold Implements at h
  cases hs : c.state <;> rw [hs] at h
  case sync1 | sync2 | lenL =>
    subst h
    rfl
  case lenH =>
    obtain ⟨lo, rfl, -⟩ := h
    rfl
  case payload =>
    obtain ⟨rfl, hidx, -⟩ := h
    have hlen : (frameHeader ++ c.payloadBuf.toList.take c.payloadIdx.toNat).length =
        c.payloadIdx.toNat + 4 := by
      simp [frameHeader]
      omega
    rw [hlen, stateOf]
    · exact (if_pos (by omega)).symm
    all_goals omega
  case crcL =>
    obtain ⟨rfl, -⟩ := h
    rw [List.length_append, Vector.length_toList]
    rfl
  case crcH =>
    obtain ⟨lo, rfl, -⟩ := h
    rw [List.length_append, List.length_append, Vector.length_toList]
    rfl

/-- No carry-over between frames. From `STATE_SYNC1`, whatever the other locals hold and however
the reads cut the stream, the task emits the same responses and queues the same payloads, and
arrives in the same parser state. -/
theorem no_carry_over (outQueue : Bool) (hc : c.state = .sync1) (hd : d.state = .sync1)
    {reads reads' : List UartRead} (hreads : received reads = received reads') :
    ∃ c' d' es, uartReceiverTask outQueue c reads = some (c', es) ∧
      uartReceiverTask outQueue d reads' = some (d', es) ∧ c'.state = d'.state := by
  obtain ⟨c', hrun, hc'⟩ := uartReceiverTask_spec outQueue hc reads
  obtain ⟨d', hrun', hd'⟩ := uartReceiverTask_spec outQueue hd reads'
  rw [← hreads] at hrun' hd'
  refine ⟨c', d', _, hrun, hrun', ?_⟩
  rw [hc'.state_eq, hd'.state_eq]

/-- Locals that an earlier frame may leave behind: a rejected length, a cursor beyond the buffer and
another checksum. -/
def leftovers : Context := ⟨.sync1, 0xFFFF, 0x00FF, 0x1234, .replicate _ 0xA5⟩

/-- A whole frame, in two reads. -/
def frameInTwoReads : List UartRead :=
  [⟨2, [0xAA, 0x55], by decide⟩,
    ⟨15, [0x0B, 0x00, 0, 0, 0, 0, 1, 2, 3, 4, 5, 6, 1, 0x7A, 0x92], by decide⟩]

/-- The same frame, in one read after a failed one, which leaves what was in the buffer. -/
def frameAfterFailedRead : List UartRead :=
  [⟨-1, [0xAA], by decide⟩,
    ⟨17, [0xAA, 0x55, 0x0B, 0x00, 0, 0, 0, 0, 1, 2, 3, 4, 5, 6, 1, 0x7A, 0x92], by decide⟩]

/-- A freshly started task, and one with leftovers, both accept the frame. -/
theorem no_carry_over_leftovers :
    ∃ c' d' es, uartReceiverTask true (.start (.replicate _ 0x00)) frameInTwoReads = some (c', es) ∧
      uartReceiverTask true leftovers frameAfterFailedRead = some (d', es) ∧
      es = [.response protocolAckByte, .queued ⟨0, 0x0201, 0x0403, 0x0605, 1⟩] ∧
      c'.state = d'.state := by
  obtain ⟨c', d', es, hrun, hrun', hstate⟩ := no_carry_over true
    (rfl : (Context.start (.replicate _ 0x00)).state = .sync1) (rfl : leftovers.state = .sync1)
    (by decide : received frameInTwoReads = received frameAfterFailedRead)
  have heffects :
      (uartReceiverTask true (.start (.replicate _ 0x00)) frameInTwoReads).map Prod.snd =
        some [.response protocolAckByte, .queued ⟨0, 0x0201, 0x0403, 0x0605, 1⟩] := by
    decide +kernel
  rw [hrun, Option.map_some, Option.some_inj] at heffects
  exact ⟨c', d', es, hrun, hrun', heffects, hstate⟩

end TelemetryNode.UartReceiver
