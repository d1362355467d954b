import TelemetryNode.Esp32.UartReceiver
import TelemetryNode.Library.WindowScanner

/-!
# What the frame receiver is for

The purpose of `uart_receiver_task`, in terms of the byte stream alone: it scans the stream for
17-byte windows that begin with the header `AA 55 0B 00`, and answers each of them. Its
specification is the window scanner for this header, whose only state is the part of a frame
collected so far; `receiver_refines` shows that the task implements it, whatever its locals held
before.

## Main definitions

* `UartReceiver.viableFrame`: what can still become a frame.
* `UartReceiver.verdict`: the answer to a complete frame.
* `UartReceiver.frameScanner`: the specification.
* `UartReceiver.Implements`: the locals that stand for a partly collected frame.

## Main results

* `UartReceiver.receiver_refines`: the task implements the scanner.
* `UartReceiver.uartReceiverTask_spec`: from `STATE_SYNC1` the task never leaves its buffer and
  emits what the scanner emits.
-/

namespace TelemetryNode.UartReceiver

/-- The sync bytes and the little-endian length of the only payload type. -/
def frameHeader : List Byte := [protocolSyncByte1, protocolSyncByte2, 0x0B#8, 0x00#8]

/-- Whether some bytes can be the beginning of a frame. The two length bytes are judged
together, when the second one is there. -/
def viableFrame : List Byte → Bool
  | [] => true
  | [a] => a = protocolSyncByte1
  | [a, b] => a = protocolSyncByte1 && b = protocolSyncByte2
  | [a, b, _] => a = protocolSyncByte1 && b = protocolSyncByte2
  | a :: b :: l :: h :: body =>
    ([a, b, l, h] = frameHeader) && body.length ≤ TelemetryPayload.size + 2

/-- The answer to a frame with the given payload bytes and received checksum. -/
def verdict (outQueue : Bool) (payload : List Byte) (crc : BitVec 16) : List Effect :=
  if calculateCrc16 payload 11#16 = some crc then
    .response protocolAckByte ::
      (if outQueue then [.queued (TelemetryPayload.ofBytes payload)] else [])
  else [.response protocolNackByte]

/-- The payload bytes of a frame window. -/
def framePayload (w : List Byte) : List Byte := (w.drop 4).take TelemetryPayload.size

/-- The little-endian checksum of a frame window. -/
def frameCrc (w : List Byte) : BitVec 16 :=
  LittleEndian.decode 16 ((w.drop (4 + TelemetryPayload.size)).take 2)

theorem viableFrame_of_concat {l : List Byte} {b : Byte} (h : viableFrame (l ++ [b]) = true) :
    viableFrame l = true := by
  match l with
  | [] => rfl
  | [_] => simp_all [viableFrame]
  | [_, _] => simp_all [viableFrame]
  | [_, _, _] => simp_all [viableFrame, frameHeader]
  | _ :: _ :: _ :: _ :: body =>
    simp only [List.cons_append, viableFrame, List.length_append, List.length_singleton,
      Bool.and_eq_true, decide_eq_true_eq] at h ⊢
    exact ⟨h.1, by omega⟩

/-- The scanner for frames. -/
def frameScanner (outQueue : Bool) : WindowScanner Byte Effect where
  size := UartFrame.size
  size_pos := by decide
  viable := viableFrame
  viable_nil := rfl
  viable_of_concat := viableFrame_of_concat
  answer w := verdict outQueue (framePayload w) (frameCrc w)

/-- After the header, anything of at most the remaining length is viable. -/
theorem viableFrame_header (body : List Byte) :
    viableFrame (frameHeader ++ body) = decide (body.length ≤ TelemetryPayload.size + 2) := by
  simp [frameHeader, viableFrame]

/-- The payload bytes of a frame put together from its parts. -/
theorem framePayload_append {payload : List Byte} (h : payload.length = TelemetryPayload.size)
    (crc : List Byte) : framePayload (frameHeader ++ (payload ++ crc)) = payload := by
  rw [framePayload, List.drop_left' (by rfl), List.take_left' h]

/-- The checksum of a frame put together from its parts. -/
theorem frameCrc_append {payload : List Byte} (h : payload.length = TelemetryPayload.size)
    (crc : List Byte) (hcrc : crc.length = 2) :
    frameCrc (frameHeader ++ (payload ++ crc)) = LittleEndian.decode 16 crc := by
  have hdrop : (frameHeader ++ (payload ++ crc)).drop (4 + TelemetryPayload.size) = crc := by
    rw [← List.append_assoc]
    exact List.drop_left' (by rw [List.length_append, h]; rfl)
  rw [frameCrc, hdrop, List.take_of_length_le hcrc.le]

theorem length_frame {payload : List Byte} (h : payload.length = TelemetryPayload.size)
    (crc : List Byte) (hcrc : crc.length = 2) :
    (frameHeader ++ (payload ++ crc)).length = UartFrame.size := by
  simp [frameHeader, h, hcrc, UartFrame.size, TelemetryPayload.size]

theorem viableFrame_frame {payload : List Byte} (h : payload.length = TelemetryPayload.size)
    (crc : List Byte) (hcrc : crc.length = 2) :
    viableFrame (frameHeader ++ (payload ++ crc)) = true := by
  rw [viableFrame_header, List.length_append, h, hcrc]
  exact decide_eq_true (le_refl _)

/-- The locals that stand for the collection `acc`. In `STATE_SYNC1` all of them but the state are
leftovers, and each later state relies only on what was written since. -/
def Implements (c : Context) (acc : List Byte) : Prop :=
  match c.state with
  | .sync1 => acc = []
  | .sync2 => acc = [protocolSyncByte1]
  | .lenL => acc = [protocolSyncByte1, protocolSyncByte2]
  | .lenH => ∃ lo : Byte, acc = [protocolSyncByte1, protocolSyncByte2, lo] ∧
      c.expectedLength = lo.setWidth 16
  | .payload => acc = frameHeader ++ c.payloadBuf.toList.take c.payloadIdx.toNat ∧
      c.payloadIdx.toNat < TelemetryPayload.size ∧ c.expectedLength = 11#16
  | .crcL => acc = frameHeader ++ c.payloadBuf.toList ∧
      c.payloadIdx = 11#16 ∧ c.expectedLength = 11#16
  | .crcH => ∃ lo : Byte, acc = frameHeader ++ c.payloadBuf.toList ++ [lo] ∧
      c.payloadIdx = 11#16 ∧ c.expectedLength = 11#16 ∧ c.receivedCrc = lo.setWidth 16

variable {outQueue : Bool} {c : Context} {acc : List Byte}

/-- A context in `STATE_SYNC1` stands for nothing collected, whatever its other locals are. -/
theorem implements_of_sync1 (hc : c.state = .sync1) : Implements c [] := by
  simp [Implements, hc]

/-- Nothing is collected exactly in `STATE_SYNC1`. -/
theorem Implements.sync1_iff (h : Implements c acc) : c.state = .sync1 ↔ acc = [] := by
  unfold Implements at h
  cases hs : c.state <;> rw [hs] at h <;> simp only [reduceCtorEq, false_iff, true_iff]
  case sync1 => exact h
  case lenH =>
    obtain ⟨lo, rfl, -⟩ := h
    exact List.cons_ne_nil _ _
  case crcH =>
    obtain ⟨lo, rfl, -⟩ := h
    simp
  case payload | crcL =>
    rw [h.1]
    simp [frameHeader]
  all_goals
    rw [h]
    exact List.cons_ne_nil _ _

/-! ## One lemma for each parser state -/

/-- What one byte must do to be a step of the scanner. -/
private def StepOk (outQueue : Bool) (c : Context) (acc : List Byte) (b : Byte) : Prop :=
  ∃ c', (receiver outQueue).step c b = some (c', (frameScanner outQueue).mealy.out acc b) ∧
    Implements c' ((frameScanner outQueue).mealy.next acc b)

private theorem step_sync1 (hc : c.state = .sync1) (b : Byte) : StepOk outQueue c [] b := by
  by_cases hb : b = protocolSyncByte1
  · refine ⟨{ c with state := .sync2 }, ?_, ?_⟩ <;>
      simp [receiver, processByte, hc, hb, WindowScanner.mealy, frameScanner, viableFrame,
        UartFrame.size, TelemetryPayload.size, Implements]
  · refine ⟨{ c with state := .sync1 }, ?_, ?_⟩ <;>
      simp [receiver, processByte, hc, hb, WindowScanner.mealy, frameScanner, viableFrame,
        Implements]

private theorem step_sync2 (hc : c.state = .sync2) (b : Byte) :
    StepOk outQueue c [protocolSyncByte1] b := by
  by_cases hb : b = protocolSyncByte2
  · refine ⟨{ c with state := .lenL }, ?_, ?_⟩ <;>
      simp [receiver, processByte, hc, hb, WindowScanner.mealy, frameScanner, viableFrame,
        UartFrame.size, TelemetryPayload.size, Implements]
  · refine ⟨{ c with state := .sync1 }, ?_, ?_⟩ <;>
      simp [receiver, processByte, hc, hb, WindowScanner.mealy, frameScanner, viableFrame,
        Implements]

private theorem step_lenL (hc : c.state = .lenL) (b : Byte) :
    StepOk outQueue c [protocolSyncByte1, protocolSyncByte2] b := by
  refine ⟨{ c with expectedLength := b.setWidth 16, state := .lenH }, ?_, ?_⟩ <;>
    simp [receiver, processByte, hc, WindowScanner.mealy, frameScanner, viableFrame,
      UartFrame.size, TelemetryPayload.size, Implements]

/-- Two bytes assembled low byte first, as the code does it for the length and for the
checksum. -/
theorem assemble_toNat (lo hi : Byte) :
    (lo.setWidth 16 ||| (hi.setWidth 16 <<< 8) : BitVec 16).toNat = lo.toNat + 256 * hi.toNat := by
  have hlo := lo.isLt
  have hhi := hi.isLt
  have hor : (hi.toNat <<< 8) ||| lo.toNat = hi.toNat * 2 ^ 8 + lo.toNat := by
    rw [Nat.shiftLeft_eq, Nat.mul_comm, Nat.two_pow_add_eq_or_of_lt hlo]
  rw [BitVec.toNat_or, BitVec.toNat_shiftLeft, BitVec.toNat_setWidth, BitVec.toNat_setWidth,
    Nat.mod_eq_of_lt (by omega : lo.toNat < 2 ^ 16),
    Nat.mod_eq_of_lt (by omega : hi.toNat < 2 ^ 16),
    Nat.mod_eq_of_lt (by rw [Nat.shiftLeft_eq]; omega), Nat.or_comm, hor]
  omega

/-- The assembled length is accepted exactly for the length bytes of the header. -/
theorem assemble_eq_size_iff (lo hi : Byte) :
    (lo.setWidth 16 ||| (hi.setWidth 16 <<< 8) : BitVec 16).toNat = TelemetryPayload.size ↔
      lo = 0x0B#8 ∧ hi = 0x00#8 := by
  have hlo := lo.isLt
  have hhi := hi.isLt
  rw [assemble_toNat, TelemetryPayload.size, BitVec.toNat_eq, BitVec.toNat_eq]
  simp only [BitVec.toNat_ofNat]
  omega

private theorem step_lenH (hc : c.state = .lenH) {lo : Byte}
    (hlo : c.expectedLength = lo.setWidth 16) (b : Byte) :
    StepOk outQueue c [protocolSyncByte1, protocolSyncByte2, lo] b := by
  have hiff := assemble_eq_size_iff lo b
  rw [← hlo] at hiff
  set len := c.expectedLength ||| (b.setWidth 16 <<< 8) with hlen
  by_cases hb : lo = 0x0B#8 ∧ b = 0x00#8
  -- the header is complete, and the cursor is reset
  · have hstep : processByte outQueue c b =
        some ({ c with expectedLength := len, state := .payload, payloadIdx := 0#16 }, []) := by
      rw [processByte, hc]
      exact if_pos (hiff.mpr hb)
    have h11 : len = 11#16 := BitVec.eq_of_toNat_eq (hiff.mpr hb)
    refine ⟨{ c with expectedLength := len, state := .payload, payloadIdx := 0#16 }, ?_, ?_⟩
    · simp [receiver, hstep, WindowScanner.mealy, frameScanner, UartFrame.size,
        TelemetryPayload.size]
    · simp [WindowScanner.mealy, frameScanner, viableFrame, frameHeader, hb, h11, UartFrame.size,
        TelemetryPayload.size, Implements]
  -- the length of nothing the code knows: all four bytes are dropped
  · have hstep : processByte outQueue c b =
        some ({ c with expectedLength := len, state := .sync1 }, []) := by
      rw [processByte, hc]
      exact if_neg (mt hiff.mp hb)
    have hnot : ¬ (lo = 11#8 ∧ b = 0#8) := hb
    refine ⟨{ c with expectedLength := len, state := .sync1 }, ?_, ?_⟩
    · simp [receiver, hstep, WindowScanner.mealy, frameScanner, UartFrame.size,
        TelemetryPayload.size]
    · simp [WindowScanner.mealy, frameScanner, viableFrame, frameHeader, hnot, Implements]

/-- Below the header and inside the frame, one more byte is collected. -/
private theorem next_header (outQueue : Bool) (body : List Byte) (b : Byte)
    (h : body.length < TelemetryPayload.size + 1) :
    (frameScanner outQueue).mealy.next (frameHeader ++ body) b = frameHeader ++ (body ++ [b]) ∧
      (frameScanner outQueue).mealy.out (frameHeader ++ body) b = [] := by
  rw [TelemetryPayload.size] at h
  have hviable : viableFrame (frameHeader ++ (body ++ [b])) = true := by
    rw [viableFrame_header, List.length_append, List.length_singleton, TelemetryPayload.size]
    exact decide_eq_true (by omega)
  have hlen : (frameHeader ++ (body ++ [b])).length = body.length + 5 := by
    simp [frameHeader]
  constructor
  · simp only [WindowScanner.mealy, frameScanner, List.append_assoc]
    exact if_pos ⟨hviable, by rw [hlen, UartFrame.size, TelemetryPayload.size]; omega⟩
  · simp only [WindowScanner.mealy, frameScanner, List.append_assoc]
    refine if_neg fun hfull => ?_
    have := hfull.2
    rw [hlen, UartFrame.size, TelemetryPayload.size] at this
    omega

private theorem step_payload (hc : c.state = .payload)
    (hidx : c.payloadIdx.toNat < TelemetryPayload.size) (hlen : c.expectedLength = 11#16)
    (b : Byte) :
    StepOk outQueue c (frameHeader ++ c.payloadBuf.toList.take c.payloadIdx.toNat) b := by
  set buf := c.payloadBuf.set c.payloadIdx.toNat b hidx with hbuf
  have hbound : c.payloadIdx.toNat < c.expectedLength.toNat := by
    rw [hlen]
    exact hidx
  have hnext := toNat_add_one_of_lt hbound
  -- only the bytes before the cursor count, so leftovers beyond it do not matter
  have htake : buf.toList.take (c.payloadIdx.toNat + 1) =
      c.payloadBuf.toList.take c.payloadIdx.toNat ++ [b] := by
    have hset : buf.toList = c.payloadBuf.toList.set c.payloadIdx.toNat b := Vector.toList_set hidx
    have hlt : c.payloadIdx.toNat < c.payloadBuf.toList.length := by simpa using hidx
    rw [hset, List.take_add_one, List.getElem?_set_self hlt, List.take_set_of_le (le_refl _)]
    rfl
  have hbody : (c.payloadBuf.toList.take c.payloadIdx.toNat).length = c.payloadIdx.toNat := by
    rw [List.length_take, Vector.length_toList]
    omega
  obtain ⟨hcol, hout⟩ := next_header outQueue
    (c.payloadBuf.toList.take c.payloadIdx.toNat) b (by omega)
  refine ⟨{ c with
    payloadBuf := buf
    payloadIdx := c.payloadIdx + 1#16
    state := if c.expectedLength.toNat ≤ (c.payloadIdx + 1#16).toNat then .crcL else .payload },
    ?_, ?_⟩
  · rw [hout]
    simp [receiver, processByte, hc, hidx, hbuf]
  · rw [hcol]
    rw [TelemetryPayload.size] at hidx
    by_cases hlast : c.payloadIdx.toNat + 1 = 11
    -- the last payload byte fills the buffer
    · have hidx11 : c.payloadIdx + 1#16 = 11#16 := BitVec.eq_of_toNat_eq (by rw [hnext, hlast]; rfl)
      have hfull : buf.toList.take 11 = buf.toList :=
        List.take_of_length_le (Vector.length_toList : buf.toList.length = _).le
      simp [Implements, hlen, hidx11, ← htake, hlast, hfull]
    · have hmore : ¬ 11 ≤ c.payloadIdx.toNat + 1 := by omega
      simp only [Implements, hlen, hnext, htake, BitVec.toNat_ofNat, Nat.reducePow, Nat.reduceMod,
        if_neg hmore, true_and, and_true]
      rw [TelemetryPayload.size]
      omega

private theorem step_crcL (hc : c.state = .crcL) (hidx : c.payloadIdx = 11#16)
    (hlen : c.expectedLength = 11#16) (b : Byte) :
    StepOk outQueue c (frameHeader ++ c.payloadBuf.toList) b := by
  obtain ⟨hcol, hout⟩ := next_header outQueue c.payloadBuf.toList b (by simp)
  refine ⟨{ c with receivedCrc := b.setWidth 16, state := .crcH }, ?_, ?_⟩
  · rw [hout]
    simp [receiver, processByte, hc]
  · rw [hcol]
    exact ⟨b, by simp, hidx, hlen, rfl⟩

private theorem step_crcH (hc : c.state = .crcH) (hlen : c.expectedLength = 11#16) {lo : Byte}
    (hlo : c.receivedCrc = lo.setWidth 16) (b : Byte) :
    StepOk outQueue c (frameHeader ++ c.payloadBuf.toList ++ [lo]) b := by
  have hbuf : c.payloadBuf.toList.length = TelemetryPayload.size := Vector.length_toList
  have hw : frameHeader ++ c.payloadBuf.toList ++ [lo] ++ [b] =
      frameHeader ++ (c.payloadBuf.toList ++ [lo, b]) := by simp
  have hcrc : LittleEndian.decode 16 [lo, b] = c.receivedCrc ||| (b.setWidth 16 <<< 8) := by
    simp [LittleEndian.decode, hlo]
  have hanswer : (frameScanner outQueue).mealy.out (frameHeader ++ c.payloadBuf.toList ++ [lo]) b =
      verdict outQueue c.payloadBuf.toList (c.receivedCrc ||| (b.setWidth 16 <<< 8)) := by
    have hfull : viableFrame (frameHeader ++ (c.payloadBuf.toList ++ [lo, b])) ∧
        (frameHeader ++ (c.payloadBuf.toList ++ [lo, b])).length = UartFrame.size :=
      ⟨viableFrame_frame hbuf _ rfl, length_frame hbuf _ rfl⟩
    simp only [WindowScanner.mealy, hw]
    refine (if_pos hfull).trans ?_
    change verdict outQueue (framePayload _) (frameCrc _) = _
    rw [framePayload_append hbuf, frameCrc_append hbuf _ rfl, hcrc]
  have hnext : (frameScanner outQueue).mealy.next
      (frameHeader ++ c.payloadBuf.toList ++ [lo]) b = [] := by
    simp only [WindowScanner.mealy, hw, length_frame hbuf [lo, b] rfl]
    exact if_neg fun h => lt_irrefl _ h.2
  rw [StepOk, hanswer, hnext]
  refine ⟨{ c with receivedCrc := c.receivedCrc ||| (b.setWidth 16 <<< 8), state := .sync1 },
    ?_, implements_of_sync1 rfl⟩
  -- the code and the specification compare the same two checksums
  have hcalc := calculateCrc16_payload hbuf
  by_cases hok : crc16 c.payloadBuf.toList = c.receivedCrc ||| (b.setWidth 16 <<< 8)
  · cases outQueue <;>
      simp [receiver, processByte, hc, hlen, hcalc, hok, verdict, Call.effect]
  · cases outQueue <;>
      simp [receiver, processByte, hc, hlen, hcalc, hok, verdict, Call.effect]

/-- The task implements the scanner: whatever its locals held before, each byte makes it do what the
scanner does, and never leaves `payload_buf`. -/
theorem receiver_refines (outQueue : Bool) :
    (receiver outQueue).Refines (frameScanner outQueue).mealy Implements := by
  refine ⟨fun {c acc} h b => ?_⟩
  -- one case for each parser state, with what `Implements` says of it
  cases hs : c.state <;> simp only [Implements, hs] at h
  case sync1 =>
    subst h
    exact step_sync1 hs b
  case sync2 =>
    subst h
    exact step_sync2 hs b
  case lenL =>
    subst h
    exact step_lenL hs b
  case lenH =>
    obtain ⟨lo, rfl, hlo⟩ := h
    exact step_lenH hs hlo b
  case payload =>
    obtain ⟨rfl, hidx, hlen⟩ := h
    exact step_payload hs hidx hlen b
  case crcL =>
    obtain ⟨rfl, hidx, hlen⟩ := h
    exact step_crcL hs hidx hlen b
  case crcH =>
    obtain ⟨lo, rfl, -, hlen, hlo⟩ := h
    exact step_crcH hs hlen hlo b

/-- One byte for the `switch`: it makes the calls whose effects are what the scanner emits. -/
theorem processByte_spec (outQueue : Bool) (h : Implements c acc) (b : Byte) :
    ∃ c' calls, processByte outQueue c b = some (c', calls) ∧
      calls.map (Call.effect c') = (frameScanner outQueue).mealy.out acc b ∧
      Implements c' ((frameScanner outQueue).mealy.next acc b) := by
  obtain ⟨c', hstep, himpl⟩ := (receiver_refines outQueue).step h b
  obtain ⟨⟨c₁, calls⟩, hbyte, hr⟩ := Option.map_eq_some_iff.mp hstep
  obtain ⟨rfl, heffects⟩ : c₁ = c' ∧ calls.map (Call.effect c₁) =
      (frameScanner outQueue).mealy.out acc b := Prod.mk.injEq _ _ _ _ ▸ hr
  exact ⟨c₁, calls, hbyte, heffects, himpl⟩

/-- From `STATE_SYNC1`, with any leftovers, the task is defined on every stream, emits what the
scanner emits, and its locals stand for what the scanner has collected. -/
theorem run_spec (outQueue : Bool) (hc : c.state = .sync1) (s : List Byte) :
    ∃ c', (receiver outQueue).run c s = some (c', (frameScanner outQueue).emitted s) ∧
      Implements c' ((frameScanner outQueue).collected s) :=
  (receiver_refines outQueue).run (implements_of_sync1 hc) s

/-- `run_spec` for the task: the reads matter only through their bytes. -/
theorem uartReceiverTask_spec (outQueue : Bool) (hc : c.state = .sync1) (reads : List UartRead) :
    ∃ c', uartReceiverTask outQueue c reads =
        some (c', (frameScanner outQueue).emitted (received reads)) ∧
      Implements c' ((frameScanner outQueue).collected (received reads)) := by
  rw [uartReceiverTask_eq]
  exact run_spec outQueue hc _

/-- The effects of a run are those of its bytes, in order, also in the course of it. -/
theorem effectsUntil_spec (outQueue : Bool) (h : Implements c acc) (reads : List UartRead) (n : ℕ) :
    effectsUntil outQueue c reads n =
      some ((frameScanner outQueue).mealy.outputs acc ((received reads).take n)) := by
  obtain ⟨c', hrun, -⟩ := (receiver_refines outQueue).run h ((received reads).take n)
  rw [effectsUntil_eq, hrun]
  rfl

end TelemetryNode.UartReceiver
