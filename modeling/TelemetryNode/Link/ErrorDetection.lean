import TelemetryNode.Link.Resynchronisation

/-!
# Which damage to two adjacent bytes the checksum detects

The register shifts its most significant bit out first, but its low byte is sent first. A damaged
pair within the payload or within the checksum is a burst for the register, and detected. The pair
of the last payload byte and the low checksum byte is not: the high checksum byte, which continues
the last payload byte, comes after it, and one damage of the pair is a multiple of the generator.

## Main results

* `adjacent_bytes_answered`: all damage to two adjacent bytes is answered with a NACK, except
  `undetectedPair`, which is always accepted.
-/

namespace TelemetryNode

open UartReceiver UartHandshake

/-- A difference of `x` and `y` in two adjacent bytes, after `i` and before `n` equal ones. -/
def pairError (i : ℕ) (x y : Byte) (n : ℕ) : List Byte :=
  List.replicate i 0#8 ++ x :: y :: List.replicate n 0#8

@[simp]
theorem length_pairError (i : ℕ) (x y : Byte) (n : ℕ) : (pairError i x y n).length = i + 2 + n := by
  simp [pairError]
  omega

theorem getElem_pairError {i : ℕ} {x y : Byte} {n k : ℕ} (hk : k < (pairError i x y n).length) :
    (pairError i x y n)[k] = if k = i then x else if k = i + 1 then y else 0#8 := by
  unfold pairError
  grind

/-- Bytes that differ from others in two adjacent places at most differ by a `pairError`. -/
theorem exists_pairError {a b : List Byte} {i : ℕ} (hlen : b.length = a.length)
    (hi : i + 1 < a.length) (h : ∀ k, k ≠ i → k ≠ i + 1 → b[k]? = a[k]?) :
    ∃ x y, b = Crc.xorBytes a (pairError i x y (a.length - (i + 2))) := by
  refine ⟨a[i] ^^^ b[i], a[i + 1] ^^^ b[i + 1], List.ext_getElem ?_ fun k hk _ => ?_⟩
  · rw [Crc.xorBytes, List.length_zipWith, length_pairError]
    omega
  · simp only [Crc.xorBytes, List.getElem_zipWith, getElem_pairError]
    have hcancel : ∀ u v : Byte, v = u ^^^ (u ^^^ v) := by
      intro u v
      rw [← BitVec.xor_assoc, BitVec.xor_self, BitVec.zero_xor]
    -- in the two places the difference is taken, elsewhere it is zero
    by_cases hk₀ : k = i
    · subst hk₀
      rw [if_pos rfl]
      exact hcancel _ _
    · rw [if_neg hk₀]
      by_cases hk₁ : k = i + 1
      · subst hk₁
        rw [if_pos rfl]
        exact hcancel _ _
      · have hsame := h k hk₀ hk₁
        rw [List.getElem?_eq_getElem hk, List.getElem?_eq_getElem (hlen ▸ hk),
          Option.some_inj] at hsame
        rw [if_neg hk₁, hsame, BitVec.xor_zero]

/-- From an all-zero register, a damaged byte reaches the low byte of the register, so the next byte
cannot cancel it. -/
theorem run_pair_eq_zero_iff (x y : Byte) :
    Crc.run 0x1021#16 0#16 [x, y] = 0#16 ↔ x = 0#8 ∧ y = 0#8 := by
  constructor
  · intro h
    -- the byte step is injective, so the second byte must meet what the first one left
    have hlow : ∀ x : Byte, lowByte (Crc.feed 0x1021#16 0#16 x) = 0#8 → x = 0#8 := by
      decide +kernel
    have hzero : Crc.feed 0x1021#16 0#16 x ^^^ (y.setWidth 16 <<< 8) = 0#16 := by
      refine Crc.iterate_shift_injective (g := 0x1021#16) (by decide) 8 ?_
      rw [Crc.iterate_shift_zero]
      exact h
    -- the second byte only reaches the high byte of the register
    have hx : x = 0#8 := by
      refine hlow x ?_
      rw [BitVec.xor_eq_zero_iff] at hzero
      rw [hzero]
      exact (by decide +kernel : ∀ y : Byte, lowByte (y.setWidth 16 <<< 8) = 0#8) y
    subst hx
    rw [Crc.feed_zero, BitVec.zero_xor] at hzero
    have hhigh : ∀ y : Byte, (y.setWidth 16 <<< 8 : BitVec 16) = 0#16 → y = 0#8 := by
      decide +kernel
    exact ⟨rfl, hhigh y hzero⟩
  · rintro ⟨rfl, rfl⟩
    exact Crc.run_zeros _ 2

/-- From an all-zero register, one damaged byte leaves the high byte of the register zero only for
two damages, one of them none. -/
theorem run_single_eq_iff (x y : Byte) :
    Crc.run 0x1021#16 0#16 [x] = y.setWidth 16 ↔
      (x = 0#8 ∧ y = 0#8) ∨ (x = 0x89#8 ∧ y = 0xA1#8) := by
  have hhigh : ∀ x : Byte, highByte (Crc.run 0x1021#16 0#16 [x]) = 0#8 → x = 0#8 ∨ x = 0x89#8 := by
    decide +kernel
  have hword : ∀ y : Byte, highByte (y.setWidth 16) = 0#8 ∧ lowByte (y.setWidth 16) = y := by
    decide +kernel
  constructor
  · intro h
    have hlow := congrArg lowByte h
    rw [(hword y).2] at hlow
    rcases hhigh x (by rw [h, (hword y).1]) with rfl | rfl
    · exact .inl ⟨rfl, hlow.symm⟩
    · exact .inr ⟨rfl, hlow.symm⟩
  · rintro (⟨rfl, rfl⟩ | ⟨rfl, rfl⟩) <;> decide +kernel

/-- Whether the checksum of a damaged body matches depends on the damage alone: the register,
started at zero, must take the damage of the payload to that of the checksum. -/
theorem bodyMatches_xor_iff (p : TelemetryPayload) {e : List Byte} (he : e.length = bodySize) :
    BodyMatches (Crc.xorBytes (frameBody p) e) ↔
      Crc.run 0x1021#16 0#16 (e.take TelemetryPayload.size) =
        LittleEndian.decode 16 (e.drop TelemetryPayload.size) := by
  have htake : (Crc.xorBytes (frameBody p) e).take TelemetryPayload.size =
      Crc.xorBytes p.toBytes (e.take TelemetryPayload.size) := by
    rw [Crc.xorBytes, List.take_zipWith, frameBody, List.take_left' p.length_toBytes]
    rfl
  have hdrop : (Crc.xorBytes (frameBody p) e).drop TelemetryPayload.size =
      List.zipWith (· ^^^ ·) (LittleEndian.encode 2 (crc16 p.toBytes))
        (e.drop TelemetryPayload.size) := by
    rw [Crc.xorBytes, List.drop_zipWith, frameBody, List.drop_left' p.length_toBytes]
  have hlenTake : (e.take TelemetryPayload.size).length = TelemetryPayload.size := by
    rw [List.length_take, he, bodySize]
    omega
  have hlenDrop : (e.drop TelemetryPayload.size).length = 2 := by
    rw [List.length_drop, he, bodySize]
    omega
  -- both checksums are those of the undamaged frame plus what the damage contributes
  have hsum : crc16 (Crc.xorBytes p.toBytes (e.take TelemetryPayload.size)) =
      crc16 p.toBytes ^^^ Crc.run 0x1021#16 0#16 (e.take TelemetryPayload.size) := by
    rw [crc16, crc16, ← Crc.run_xor _ _ _ (by rw [p.length_toBytes, hlenTake]), BitVec.xor_zero]
  have hreceived : LittleEndian.decode 16 ((Crc.xorBytes (frameBody p) e).drop
      TelemetryPayload.size) =
        crc16 p.toBytes ^^^ LittleEndian.decode 16 (e.drop TelemetryPayload.size) := by
    rw [hdrop, LittleEndian.decode_xor (by rw [LittleEndian.length_encode, hlenDrop]),
      LittleEndian.decode_encode (by omega)]
  rw [BodyMatches, htake, hreceived, hsum, BitVec.xor_right_inj]

theorem length_xorBytes_frameBody (p : TelemetryPayload) {e : List Byte}
    (he : e.length = bodySize) :
    (Crc.xorBytes (frameBody p) e).length = bodySize := by
  rw [Crc.xorBytes, List.length_zipWith, length_frameBody, he, Nat.min_self]

/-- The answer to a damaged body. -/
theorem bodyVerdict_xor (p : TelemetryPayload) {e : List Byte} (he : e.length = bodySize) :
    bodyVerdict true (Crc.xorBytes (frameBody p) e) =
      if Crc.run 0x1021#16 0#16 (e.take TelemetryPayload.size) =
          LittleEndian.decode 16 (e.drop TelemetryPayload.size) then
        [.response protocolAckByte,
          .queued (.ofBytes ((Crc.xorBytes (frameBody p) e).take TelemetryPayload.size))]
      else [.response protocolNackByte] := by
  rw [bodyVerdict_eq true (length_xorBytes_frameBody p he)]
  exact if_congr (bodyMatches_xor_iff p he) rfl rfl

/-- The one damage of two adjacent bytes of `sent`, arriving as `body`, that the checksum does not
detect: of the last payload byte and the low checksum byte. -/
def undetectedPair (sent body : List Byte) (i : ℕ) : Prop :=
  i = 10 ∧ body[10]? = sent[10]?.map (· ^^^ 0x89#8) ∧ body[11]? = sent[11]?.map (· ^^^ 0xA1#8)

/-- A damaged pair within the payload. -/
theorem run_pairError_payload_iff {i : ℕ} (hi : i ≤ 9) (x y : Byte) :
    Crc.run 0x1021#16 0#16 ((pairError i x y (11 - i)).take TelemetryPayload.size) =
        LittleEndian.decode 16 ((pairError i x y (11 - i)).drop TelemetryPayload.size) ↔
      x = 0#8 ∧ y = 0#8 := by
  have hsplit : pairError i x y (11 - i) =
      (List.replicate i 0#8 ++ ([x, y] ++ List.replicate (9 - i) 0#8)) ++ List.replicate 2 0#8 := by
    rw [pairError, show 11 - i = (9 - i) + 2 by omega, List.replicate_add]
    simp
  have hlen : (List.replicate i 0#8 ++ ([x, y] ++ List.replicate (9 - i) 0#8)).length =
      TelemetryPayload.size := by
    simp [TelemetryPayload.size]
    omega
  have hdecode : LittleEndian.decode 16 (List.replicate 2 0#8) = 0#16 := by decide
  rw [hsplit, List.take_left' hlen, List.drop_left' hlen, hdecode, Crc.run_append, Crc.run_zeros,
    Crc.run_append]
  -- the zero bytes after the pair keep what it left in the register
  have hinj := Crc.run_zeros_injective (g := 0x1021#16) (by decide) (9 - i)
  rw [← run_pair_eq_zero_iff]
  constructor
  · intro h
    refine hinj ?_
    simp only [Crc.run_zeros]
    exact h
  · intro h
    rw [h, Crc.run_zeros]

/-- The damage of a pair is not detected if there is none, and in one other case. -/
theorem run_pairError_iff {i : ℕ} (hi : i ≤ 11) (x y : Byte) :
    Crc.run 0x1021#16 0#16 ((pairError i x y (11 - i)).take TelemetryPayload.size) =
        LittleEndian.decode 16 ((pairError i x y (11 - i)).drop TelemetryPayload.size) ↔
      (x = 0#8 ∧ y = 0#8) ∨ (i = 10 ∧ x = 0x89#8 ∧ y = 0xA1#8) := by
  -- the pair lies within the payload, across the boundary, or within the checksum
  obtain hi | rfl | rfl : i ≤ 9 ∨ i = 10 ∨ i = 11 := by omega
  · rw [run_pairError_payload_iff hi, or_iff_left]
    rintro ⟨rfl, -⟩
    omega
  · -- the last payload byte and the low checksum byte
    have hrun : Crc.run 0x1021#16 0#16 ((pairError 10 x y 1).take TelemetryPayload.size) =
        Crc.run 0x1021#16 0#16 [x] := by
      have hsplit : (pairError 10 x y 1).take TelemetryPayload.size =
          List.replicate 10 0#8 ++ [x] := rfl
      rw [hsplit, Crc.run_append, Crc.run_zeros]
    have hdecode : LittleEndian.decode 16 ((pairError 10 x y 1).drop TelemetryPayload.size) =
        y.setWidth 16 := by
      have hsplit : (pairError 10 x y 1).drop TelemetryPayload.size = [y, 0#8] := rfl
      simp [hsplit, LittleEndian.decode]
    rw [hrun, hdecode, run_single_eq_iff]
    simp
  · -- the checksum
    have hrun : Crc.run 0x1021#16 0#16 ((pairError 11 x y 0).take TelemetryPayload.size) = 0#16 :=
      Crc.run_zeros _ 11
    have hdecode : LittleEndian.decode 16 ((pairError 11 x y 0).drop TelemetryPayload.size) =
        LittleEndian.decode 16 [x, y] := rfl
    have hlen : LittleEndian.encode 2 (LittleEndian.decode 16 [x, y]) = [x, y] :=
      LittleEndian.encode_decode (l := [x, y]) (by simp)
    rw [hrun, hdecode, or_iff_left (by rintro ⟨h, -⟩; omega)]
    constructor
    · intro h
      rw [← h] at hlen
      have hzero : LittleEndian.encode 2 (0#16) = [0#8, 0#8] := by decide
      rw [hzero, List.cons.injEq, List.cons.injEq] at hlen
      exact ⟨hlen.1.symm, hlen.2.1.symm⟩
    · rintro ⟨rfl, rfl⟩
      decide

/-- No damage changes nothing. -/
theorem xorBytes_pairError_zero {sent : List Byte} {i n : ℕ} (hlen : sent.length = i + 2 + n) :
    Crc.xorBytes sent (pairError i 0#8 0#8 n) = sent := by
  refine List.ext_getElem ?_ fun k hk hk' => ?_
  · rw [Crc.xorBytes, List.length_zipWith, length_pairError, hlen, Nat.min_self]
  · simp only [Crc.xorBytes, List.getElem_zipWith, getElem_pairError, ite_self, BitVec.xor_zero]

theorem undetectedPair_xorBytes_iff {sent : List Byte} (hlen : sent.length = bodySize) {i : ℕ}
    (x y : Byte) :
    undetectedPair sent (Crc.xorBytes sent (pairError i x y (11 - i))) i ↔
      i = 10 ∧ x = 0x89#8 ∧ y = 0xA1#8 := by
  refine and_congr_right ?_
  rintro rfl
  rw [bodySize, TelemetryPayload.size] at hlen
  have hget : ∀ {k : ℕ} {e : Byte}, k < 13 → (pairError 10 x y 1)[k]? = some e →
      ∀ d : Byte,
        (Crc.xorBytes sent (pairError 10 x y 1))[k]? = sent[k]?.map (· ^^^ d) ↔ e = d := by
    intro k e hk he d
    rw [Crc.xorBytes, List.getElem?_zipWith, he, List.getElem?_eq_getElem (by omega),
      Option.map_some, Option.some_inj, BitVec.xor_right_inj]
  exact and_congr (hget (by omega) rfl 0x89#8) (hget (by omega) rfl 0xA1#8)

/-- A frame that arrives with damage to at most two adjacent bytes of its payload and checksum is
answered with a NACK, and nothing is queued, unless the damage is `undetectedPair`. That one is
accepted for every payload: the damaged payload is acknowledged and queued. -/
theorem adjacent_bytes_answered {c : Context} (hc : c.state = .sync1) {p : TelemetryPayload}
    {frame : List Byte} (hframe : transmitted p = some frame) {body : List Byte}
    (hlen : body.length = bodySize) {i : ℕ} (hi : i + 1 < bodySize)
    (hothers : ∀ k, k ≠ i → k ≠ i + 1 → body[k]? = (frame.drop 4)[k]?)
    (hdamaged : body ≠ frame.drop 4) {reads : List UartRead}
    (hreads : received reads = frame.take 4 ++ body) :
    (¬ undetectedPair (frame.drop 4) body i →
        ∃ c', uartReceiverTask true c reads = some (c', [.response protocolNackByte])) ∧
      (undetectedPair (frame.drop 4) body i →
        ∃ c', uartReceiverTask true c reads = some (c', [.response protocolAckByte,
          .queued (.ofBytes (body.take TelemetryPayload.size))])) := by
  obtain rfl := wireFrame_of_transmitted hframe
  have hhead : (wireFrame p).take 4 = frameHeader := rfl
  have hbody : (wireFrame p).drop 4 = frameBody p := rfl
  rw [hbody] at hothers hdamaged ⊢
  rw [hhead] at hreads
  obtain ⟨c', hrun⟩ := uartReceiverTask_body true hc hlen hreads
  obtain ⟨x, y, hxy⟩ := exists_pairError (hlen.trans (length_frameBody p).symm)
    (by rw [length_frameBody]; exact hi) hothers
  have hrest : (frameBody p).length - (i + 2) = 11 - i := by
    rw [length_frameBody, bodySize, TelemetryPayload.size]
    omega
  rw [bodySize, TelemetryPayload.size] at hi
  rw [hrest] at hxy
  -- the two bytes of the damage name the undetected pair
  have hundetected : undetectedPair (frameBody p) body i ↔ i = 10 ∧ x = 0x89#8 ∧ y = 0xA1#8 := by
    rw [hxy]
    exact undetectedPair_xorBytes_iff (length_frameBody p) x y
  have hreal : ¬ (x = 0#8 ∧ y = 0#8) := by
    rintro ⟨rfl, rfl⟩
    refine hdamaged (hxy.trans (xorBytes_pairError_zero ?_))
    rw [length_frameBody, bodySize, TelemetryPayload.size]
    omega
  have hverdict := bodyVerdict_xor p (e := pairError i x y (11 - i))
    (by rw [length_pairError, bodySize, TelemetryPayload.size]; omega)
  rw [← hxy] at hverdict
  have haccepted := run_pairError_iff (by omega : i ≤ 11) x y
  rw [or_iff_right hreal, ← hundetected] at haccepted
  rw [hverdict] at hrun
  constructor
  · intro h
    rw [if_neg (mt haccepted.mp h)] at hrun
    exact ⟨c', hrun⟩
  · intro h
    rw [if_pos (haccepted.mpr h)] at hrun
    exact ⟨c', hrun⟩

/-- Damage to the last payload byte of the sample frame alone is detected. -/
theorem adjacent_bytes_answered_single :
    ∃ c', uartReceiverTask true (.start (.replicate 11 0#8))
      [oneRead (frameHeader ++ [0, 0, 0, 0, 1, 2, 3, 4, 5, 6, 0x88, 0x7A, 0x92])] =
        some (c', [.response protocolNackByte]) := by
  have hsent : (wireFrame samplePayload).drop 4 =
      [0, 0, 0, 0, 1, 2, 3, 4, 5, 6, 1, 0x7A, 0x92] := by
    decide +kernel
  have hwithin : ∀ k < 13, k ≠ 10 → k ≠ 10 + 1 →
      ([0, 0, 0, 0, 1, 2, 3, 4, 5, 6, 0x88, 0x7A, 0x92] : List Byte)[k]? =
        ([0, 0, 0, 0, 1, 2, 3, 4, 5, 6, 1, 0x7A, 0x92] : List Byte)[k]? := by
    decide
  have hothers : ∀ k, k ≠ 10 → k ≠ 10 + 1 →
      ([0, 0, 0, 0, 1, 2, 3, 4, 5, 6, 0x88, 0x7A, 0x92] : List Byte)[k]? =
        ((wireFrame samplePayload).drop 4)[k]? := by
    intro k h₀ h₁
    rw [hsent]
    rcases Nat.lt_or_ge k 13 with hk | hk
    · exact hwithin k hk h₀ h₁
    · rw [List.getElem?_eq_none hk, List.getElem?_eq_none hk]
  refine (adjacent_bytes_answered (c := .start (.replicate 11 0#8)) rfl
    (transmitted_eq samplePayload) rfl (by decide) hothers (by decide +kernel)
    (received_oneRead _)).1 ?_
  rintro ⟨-, -, h⟩
  exact absurd h (by decide +kernel)

/-- The undetected damage to the sample frame: the payload with another status is acknowledged and
queued. -/
theorem adjacent_bytes_accepted :
    Crc.xorBytes ((wireFrame samplePayload).drop 4)
        [0, 0, 0, 0, 0, 0, 0, 0, 0, 0, 0x89, 0xA1, 0] =
      [0, 0, 0, 0, 1, 2, 3, 4, 5, 6, 0x88, 0xDB, 0x92] ∧
    ∃ c', uartReceiverTask true (.start (.replicate 11 0#8))
      [oneRead ((wireFrame samplePayload).take 4 ++
        [0, 0, 0, 0, 1, 2, 3, 4, 5, 6, 0x88, 0xDB, 0x92])] =
        some (c', [.response protocolAckByte,
          .queued { samplePayload with statusFlags := 0x88#8 }]) := by
  have hrun : (uartReceiverTask true (.start (.replicate 11 0#8))
      [oneRead ((wireFrame samplePayload).take 4 ++
        [0, 0, 0, 0, 1, 2, 3, 4, 5, 6, 0x88, 0xDB, 0x92])]).map Prod.snd =
      some [.response protocolAckByte, .queued { samplePayload with statusFlags := 0x88#8 }] := by
    decide +kernel
  obtain ⟨⟨c', es⟩, h, rfl⟩ := Option.map_eq_some_iff.mp hrun
  exact ⟨by decide +kernel, c', h⟩

end TelemetryNode
