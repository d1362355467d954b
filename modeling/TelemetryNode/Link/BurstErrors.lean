import TelemetryNode.Link.ErrorDetection

/-!
# Which bursts on the wire the checksum detects

The UART sends the least significant bit of a byte first, and the register of the checksum shifts
the most significant one out first. So 16 damaged bits in a row on the wire are up to 24 bits apart
for the register, and the guarantee of a 16-bit checksum does not carry over. It holds nevertheless,
but for three bursts across the boundary of payload and checksum.

## Main definitions

* `wireBit`: the bits of a body in the order in which they are sent.
* `WithinBits`: damage within so many bits in a row.
* `undetectedBursts`: the three exceptions.

## Main results

* `wire_bursts_answered`: all bursts of at most 16 bits are answered with a NACK, except
  `undetectedBursts`, which are always accepted; none of these fits into 14 bits.
-/

namespace TelemetryNode

open UartReceiver UartHandshake

/-- The bits of a body as they are sent. -/
def wireBit (e : List Byte) (i : ℕ) : Bool := (e.getD (i / 8) 0#8).getLsbD (i % 8)

/-- All damage lies within `n` bits in a row on the wire. -/
structure WithinBits (e : List Byte) (s n : ℕ) : Prop where
  le : ∀ i, wireBit e i = true → s ≤ i
  lt : ∀ i, wireBit e i = true → i < s + n

/-- A difference in three bytes in a row, after `k` equal ones. -/
def tripleError (k : ℕ) (a b c : Byte) : List Byte :=
  List.replicate k 0#8 ++ [a, b, c] ++ List.replicate (10 - k) 0#8

/-- The damage of at most 16 bits in a row on the wire that the checksum does not detect. -/
def undetectedBursts : List (List Byte) :=
  [tripleError 9 0xC8#8 0xF7#8 0x05#8, tripleError 10 0x89#8 0xA1#8 0x00#8,
    tripleError 10 0x98#8 0xB1#8 0x02#8]

/-! ## What the register makes of three bytes -/

/-- The checksum of one byte, from an all-zero register, without the loop. -/
def byteCrc (a : Byte) : BitVec 16 :=
  let s := (a ^^^ (a >>> 4)).setWidth 16
  (s <<< 12) ^^^ (s <<< 5) ^^^ s

theorem feed_eq_byteCrc : ∀ a : Byte, Crc.feed 0x1021#16 0#16 a = byteCrc a := by
  decide

/-- From an all-zero register, two bytes lead to no register value that two others lead to. -/
theorem run_pair_injective {a b a' b' : Byte}
    (h : Crc.run 0x1021#16 0#16 [a, b] = Crc.run 0x1021#16 0#16 [a', b']) : a = a' ∧ b = b' := by
  have hsum := Crc.run_xor 0x1021#16 0#16 0#16 (a := [a, b]) (e := [a', b']) rfl
  rw [h, BitVec.xor_self, BitVec.xor_self] at hsum
  obtain ⟨ha, hb⟩ := (run_pair_eq_zero_iff (a ^^^ a') (b ^^^ b')).mp hsum
  exact ⟨BitVec.xor_eq_zero_iff.mp ha, BitVec.xor_eq_zero_iff.mp hb⟩

theorem byteCrc_zero : byteCrc 0#8 = 0#16 := by decide

/-- A byte step, from the two bytes of the register. -/
theorem feed_eq (r : BitVec 16) (b : Byte) :
    Crc.feed 0x1021#16 r b =
      byteCrc (highByte r ^^^ b) ^^^ ((lowByte r).setWidth 16 <<< 8) := by
  have hlow : (Crc.shift 0x1021#16)^[8] ((lowByte r).setWidth 16) =
      (lowByte r).setWidth 16 <<< 8 := by
    refine Crc.iterate_shift_of_low _ 8 fun i hi => ?_
    rw [BitVec.getLsbD_setWidth, BitVec.getLsbD_of_ge (lowByte r) _ (by omega), Bool.and_false]
  -- only the high byte of the register meets the byte, and falls out
  have hsplit : r ^^^ (b.setWidth 16 <<< (16 - 8)) =
      ((highByte r ^^^ b).setWidth 16 <<< (16 - 8)) ^^^ (lowByte r).setWidth 16 := by
    apply BitVec.eq_of_getLsbD_eq
    intro i hi
    by_cases hbyte : i < 8
    · simp [lowByte, hbyte, hi]
    · simp [lowByte, highByte, hbyte, hi, show 8 + (i - 8) = i by omega, show i - 8 < 8 by omega,
        show i - 8 < 16 by omega]
  rw [← feed_eq_byteCrc, Crc.feed, Crc.feed, hsplit, Crc.iterate_shift_xor, hlow, BitVec.zero_xor]

/-- Its own two bytes, the high one first, lead the register to zero. -/
theorem run_own_bytes (r : BitVec 16) :
    Crc.run 0x1021#16 r [highByte r, lowByte r] = 0#16 := by
  have hbytes : ∀ y : Byte, highByte (y.setWidth 16 <<< 8) = y ∧
      lowByte (y.setWidth 16 <<< 8) = 0#8 := by
    decide
  rw [Crc.run_cons, feed_eq, BitVec.xor_self, byteCrc_zero, BitVec.zero_xor, Crc.run_cons,
    feed_eq, (hbytes _).1, (hbytes _).2, BitVec.xor_self, byteCrc_zero]
  rfl

/-- Three bytes leave the register zero only if the last two are the checksum of the first. -/
theorem eq_byteCrc_of_run_triple {a b c : Byte} (h : Crc.run 0x1021#16 0#16 [a, b, c] = 0#16) :
    b = highByte (byteCrc a) ∧ c = lowByte (byteCrc a) := by
  -- the difference to the bytes that do so is one of the last two alone
  have hsum := Crc.run_xor 0x1021#16 (byteCrc a) (byteCrc a) (a := [b, c])
    (e := [highByte (byteCrc a), lowByte (byteCrc a)]) rfl
  rw [Crc.run_cons, feed_eq_byteCrc] at h
  rw [h, run_own_bytes, BitVec.xor_self, BitVec.xor_self] at hsum
  obtain ⟨hb, hc⟩ := (run_pair_eq_zero_iff _ _).mp hsum
  exact ⟨BitVec.xor_eq_zero_iff.mp hb, BitVec.xor_eq_zero_iff.mp hc⟩

/-- The byte whose checksum has a given low byte. -/
def unfeedLow (y : Byte) : Byte :=
  let s := y ^^^ (y <<< 5)
  s ^^^ (s >>> 4)

/-- The two bytes whose checksum is a given byte, with nothing in the high byte. -/
def unfeedPair (c : Byte) : Byte × Byte :=
  let a := unfeedLow (highByte (byteCrc (unfeedLow c)))
  (a, highByte (byteCrc a) ^^^ unfeedLow c)

/-- Two bytes lead to a register with nothing in the high byte only if they are `unfeedPair` of the
low byte. -/
theorem eq_unfeedPair_of_run_pair {a b c : Byte}
    (h : Crc.run 0x1021#16 0#16 [a, b] = c.setWidth 16) : (a, b) = unfeedPair c := by
  have hpair : ∀ c : Byte, byteCrc (highByte (byteCrc (unfeedPair c).1) ^^^ (unfeedPair c).2) ^^^
      ((lowByte (byteCrc (unfeedPair c).1)).setWidth 16 <<< 8) = c.setWidth 16 := by
    decide
  have hrun : Crc.run 0x1021#16 0#16 [(unfeedPair c).1, (unfeedPair c).2] = c.setWidth 16 := by
    rw [Crc.run_cons, feed_eq_byteCrc, Crc.run_cons, feed_eq, hpair]
    rfl
  obtain ⟨ha, hb⟩ := run_pair_injective (h.trans hrun.symm)
  rw [ha, hb]

/-- The bits of a byte, and all bits after its first one. -/
def spread (a : Byte) : Byte :=
  let a := a ||| (a <<< 1)
  let a := a ||| (a <<< 2)
  a ||| (a <<< 4)

theorem exists_of_getLsbD_or_shiftLeft {a : Byte} {n i : ℕ}
    (h : (a ||| (a <<< n)).getLsbD i = true) : ∃ j ≤ i, a.getLsbD j = true := by
  rw [BitVec.getLsbD_or, Bool.or_eq_true, BitVec.getLsbD_shiftLeft, Bool.and_eq_true] at h
  rcases h with h | h
  · exact ⟨i, le_rfl, h⟩
  · exact ⟨i - n, Nat.sub_le i n, h.2⟩

theorem exists_of_getLsbD_spread {a : Byte} {i : ℕ} (h : (spread a).getLsbD i = true) :
    ∃ j ≤ i, a.getLsbD j = true := by
  obtain ⟨j₄, hj₄, h⟩ := exists_of_getLsbD_or_shiftLeft h
  obtain ⟨j₂, hj₂, h⟩ := exists_of_getLsbD_or_shiftLeft h
  obtain ⟨j₁, hj₁, h⟩ := exists_of_getLsbD_or_shiftLeft h
  exact ⟨j₁, by omega, h⟩

/-- All bits of `c` come before the bits of `a`. -/
def Before (c a : Byte) : Prop :=
  ∀ i j, c.getLsbD i = true → a.getLsbD j = true → i < j

theorem and_spread_eq_zero {a c : Byte} (h : Before c a) : c &&& spread a = 0#8 := by
  apply BitVec.eq_of_getLsbD_eq
  intro i _
  rw [BitVec.getLsbD_zero, ← Bool.not_eq_true, BitVec.getLsbD_and, Bool.and_eq_true]
  rintro ⟨hc, hspread⟩
  obtain ⟨j, hj, ha⟩ := exists_of_getLsbD_spread hspread
  have hlt := h i j hc ha
  omega

/-- No three bytes that the register cancels lie within 16 bits on the wire. -/
theorem eq_zero_of_byteCrc : ∀ a : Byte, lowByte (byteCrc a) &&& spread a = 0#8 → a = 0#8 := by
  decide

/-- One byte and its checksum, low byte first, do so in two cases. -/
theorem byteCrc_swapped_cases : ∀ a : Byte, highByte (byteCrc a) &&& spread a = 0#8 →
    a = 0#8 ∨ a = 0x89#8 ∨ a = 0x98#8 := by
  decide

/-- Two bytes and their checksum, if it is one byte, in one more. -/
theorem unfeedPair_cases : ∀ c : Byte, c &&& spread (unfeedPair c).1 = 0#8 →
    c = 0#8 ∨ c = 0x05#8 ∨ c = 0xA1#8 := by
  decide

/-! ## A burst as three bytes -/

@[simp]
theorem length_tripleError {k : ℕ} (hk : k ≤ 10) (a b c : Byte) :
    (tripleError k a b c).length = bodySize := by
  simp [tripleError, bodySize, TelemetryPayload.size]
  omega

theorem getElem_tripleError {k : ℕ} {a b c : Byte} {n : ℕ}
    (hn : n < (tripleError k a b c).length) :
    (tripleError k a b c)[n] =
      if n = k then a else if n = k + 1 then b else if n = k + 2 then c else 0#8 := by
  unfold tripleError
  grind

theorem wireBit_of_le {e : List Byte} {i : ℕ} (h : 8 * e.length ≤ i) : wireBit e i = false := by
  rw [wireBit, List.getD_eq_default _ _ (by omega)]
  exact BitVec.getLsbD_zero

theorem lt_of_wireBit {e : List Byte} {i : ℕ} (h : wireBit e i = true) : i < 8 * e.length := by
  by_contra hge
  rw [wireBit_of_le (Nat.le_of_not_lt hge)] at h
  exact Bool.false_ne_true h

theorem wireBit_byte (e : List Byte) (k : ℕ) {i : ℕ} (hi : i < 8) :
    wireBit e (8 * k + i) = (e.getD k 0#8).getLsbD i := by
  rw [wireBit, show (8 * k + i) / 8 = k by omega, show (8 * k + i) % 8 = i by omega]

/-- A byte without a bit. -/
theorem getD_eq_zero {e : List Byte} {k : ℕ} (h : ∀ i < 8, wireBit e (8 * k + i) = false) :
    e.getD k 0#8 = 0#8 := by
  apply BitVec.eq_of_getLsbD_eq
  intro i hi
  rw [← wireBit_byte e k hi, h i hi]
  simp

/-- Damage to three bytes in a row, from the bits that are not damaged. -/
theorem eq_tripleError {e : List Byte} (he : e.length = bodySize) {k : ℕ} (hk : k ≤ 10)
    (h : ∀ i, wireBit e i = true → 8 * k ≤ i ∧ i < 8 * k + 24) :
    e = tripleError k (e.getD k 0#8) (e.getD (k + 1) 0#8) (e.getD (k + 2) 0#8) := by
  refine List.ext_getElem (by rw [he, length_tripleError hk]) fun n hn _ => ?_
  rw [getElem_tripleError, ← List.getD_eq_getElem e 0#8 hn]
  by_cases hin : n = k ∨ n = k + 1 ∨ n = k + 2
  · rcases hin with rfl | rfl | rfl <;> simp
  · rw [if_neg (by omega), if_neg (by omega), if_neg (by omega)]
    apply getD_eq_zero
    intro i hi
    rw [← Bool.not_eq_true]
    intro hset
    have hwithin := h _ hset
    omega

/-- Damage within 16 bits in a row is damage to three bytes in a row, with all bits of the last
before those of the first. -/
theorem exists_tripleError {e : List Byte} (he : e.length = bodySize) {s : ℕ}
    (hburst : WithinBits e s 16) : ∃ k ≤ 10, ∃ a b c, e = tripleError k a b c ∧ Before c a := by
  have hbits : 8 * e.length = 104 := by rw [he]; rfl
  -- the third of the bytes is not beyond the checksum
  obtain ⟨k, hk, hfrom⟩ : ∃ k ≤ 10, ∀ i, wireBit e i = true → 8 * k ≤ i ∧ i < 8 * k + 24 := by
    refine ⟨min (s / 8) 10, Nat.min_le_right _ _, fun i hset => ?_⟩
    have hle := hburst.le i hset
    have hlt := hburst.lt i hset
    have hend := lt_of_wireBit hset
    omega
  refine ⟨k, hk, _, _, _, eq_tripleError he hk hfrom, fun i j hc ha => ?_⟩
  have hi : i < 8 := BitVec.lt_of_getLsbD hc
  have hj : j < 8 := BitVec.lt_of_getLsbD ha
  rw [← wireBit_byte e _ hi] at hc
  rw [← wireBit_byte e _ hj] at ha
  have hlast := hburst.lt _ hc
  have hfirst := hburst.le _ ha
  omega

/-! ## What is detected -/

/-- The checksum does not see this damage. -/
def Undetected (e : List Byte) : Prop :=
  Crc.run 0x1021#16 0#16 (e.take TelemetryPayload.size) =
    LittleEndian.decode 16 (e.drop TelemetryPayload.size)

/-- Within the payload, three bytes that the register cancels. -/
theorem run_of_undetected_payload {k : ℕ} (hk : k ≤ 8) {a b c : Byte}
    (h : Undetected (tripleError k a b c)) : Crc.run 0x1021#16 0#16 [a, b, c] = 0#16 := by
  have hsplit : tripleError k a b c =
      (List.replicate k 0#8 ++ ([a, b, c] ++ List.replicate (8 - k) 0#8)) ++
        List.replicate 2 0#8 := by
    rw [tripleError, show 10 - k = (8 - k) + 2 by omega, List.replicate_add]
    simp
  have hlen : (List.replicate k 0#8 ++ ([a, b, c] ++ List.replicate (8 - k) 0#8)).length =
      TelemetryPayload.size := by
    simp [TelemetryPayload.size]
    omega
  have hdecode : LittleEndian.decode 16 (List.replicate 2 0#8) = 0#16 := by decide
  rw [Undetected, hsplit, List.take_left' hlen, List.drop_left' hlen, hdecode, Crc.run_append,
    Crc.run_zeros, Crc.run_append] at h
  -- the zero bytes after the damage keep what it left in the register
  refine Crc.run_zeros_injective (g := 0x1021#16) (by decide) (8 - k) ?_
  simp only [Crc.run_zeros]
  exact h

/-- The last two payload bytes, and the low byte of the checksum. -/
theorem undetected_nine_iff {a b c : Byte} : Undetected (tripleError 9 a b c) ↔
    Crc.run 0x1021#16 0#16 [a, b] = c.setWidth 16 := by
  have htake : (tripleError 9 a b c).take TelemetryPayload.size =
      List.replicate 9 0#8 ++ [a, b] := rfl
  have hdrop : (tripleError 9 a b c).drop TelemetryPayload.size = [c, 0#8] := rfl
  have hdecode : LittleEndian.decode 16 [c, 0#8] = c.setWidth 16 := by simp [LittleEndian.decode]
  rw [Undetected, htake, hdrop, hdecode, Crc.run_append, Crc.run_zeros]

/-- The last payload byte, and the checksum. -/
theorem undetected_ten_iff {a b c : Byte} : Undetected (tripleError 10 a b c) ↔
    b = lowByte (byteCrc a) ∧ c = highByte (byteCrc a) := by
  have htake : (tripleError 10 a b c).take TelemetryPayload.size =
      List.replicate 10 0#8 ++ [a] := rfl
  have hdrop : (tripleError 10 a b c).drop TelemetryPayload.size = [b, c] := rfl
  rw [Undetected, htake, hdrop, Crc.run_append, Crc.run_zeros, Crc.run_cons, Crc.run_nil,
    feed_eq_byteCrc]
  constructor
  · intro h
    have hbytes : LittleEndian.encode 2 (LittleEndian.decode 16 [b, c]) = [b, c] :=
      LittleEndian.encode_decode (l := [b, c]) (by simp)
    rw [← h, encode_two, List.cons.injEq, List.cons.injEq] at hbytes
    exact ⟨hbytes.1.symm, hbytes.2.1.symm⟩
  · rintro ⟨rfl, rfl⟩
    rw [← encode_two]
    exact (LittleEndian.decode_encode (by decide) _).symm

/-- Damage without a damaged bit. -/
theorem wireBit_tripleError_zero {k : ℕ} (hk : k ≤ 10) (i : ℕ) :
    wireBit (tripleError k 0#8 0#8 0#8) i = false := by
  by_cases hi : i / 8 < (tripleError k 0#8 0#8 0#8).length
  · rw [wireBit, List.getD_eq_getElem _ _ hi, getElem_tripleError]
    simp
  · rw [length_tripleError hk] at hi
    apply wireBit_of_le
    rw [length_tripleError hk]
    omega

/-- An undetected burst of at most 16 bits is one of the three. -/
theorem mem_undetectedBursts {e : List Byte} (he : e.length = bodySize) {s : ℕ}
    (hburst : WithinBits e s 16) {i : ℕ} (hdamage : wireBit e i = true) (h : Undetected e) :
    e ∈ undetectedBursts := by
  obtain ⟨k, hk, a, b, c, rfl, hbefore⟩ := exists_tripleError he hburst
  have hspread := and_spread_eq_zero hbefore
  have hreal : ¬ (a = 0#8 ∧ b = 0#8 ∧ c = 0#8) := by
    rintro ⟨rfl, rfl, rfl⟩
    rw [wireBit_tripleError_zero hk] at hdamage
    exact Bool.false_ne_true hdamage
  obtain hk | rfl | rfl : k ≤ 8 ∨ k = 9 ∨ k = 10 := by omega
  -- within the payload
  · obtain ⟨hb, hc⟩ := eq_byteCrc_of_run_triple (run_of_undetected_payload hk h)
    rw [hc] at hspread
    obtain rfl := eq_zero_of_byteCrc a hspread
    rw [byteCrc_zero] at hb hc
    exact absurd ⟨rfl, hb, hc⟩ hreal
  -- with the low byte of the checksum
  · have hpair := eq_unfeedPair_of_run_pair (undetected_nine_iff.mp h)
    have ha : a = (unfeedPair c).1 := congrArg Prod.fst hpair
    have hb : b = (unfeedPair c).2 := congrArg Prod.snd hpair
    rw [ha] at hspread
    rw [ha, hb]
    rcases unfeedPair_cases c hspread with rfl | rfl | rfl
    · exact absurd ⟨ha, hb, rfl⟩ hreal
    · decide
    · decide
  -- with both bytes of the checksum
  · obtain ⟨hb, hc⟩ := undetected_ten_iff.mp h
    rw [hc] at hspread
    rw [hb, hc]
    rcases byteCrc_swapped_cases a hspread with rfl | rfl | rfl
    · rw [byteCrc_zero] at hb hc
      exact absurd ⟨rfl, hb, hc⟩ hreal
    · decide
    · decide

theorem undetected_of_mem : ∀ e ∈ undetectedBursts, Undetected e := by
  intro e he
  simp only [undetectedBursts, List.mem_cons, List.not_mem_nil, or_false] at he
  rcases he with rfl | rfl | rfl
  · rw [undetected_nine_iff, Crc.run_cons, feed_eq_byteCrc, Crc.run_cons, feed_eq]
    decide
  · rw [undetected_ten_iff]
    decide
  · rw [undetected_ten_iff]
    decide

/-- None of the three fits into 14 bits. -/
theorem not_short_of_mem {e : List Byte} (he : e ∈ undetectedBursts) (s : ℕ) :
    ¬ WithinBits e s 14 := by
  intro hshort
  simp only [undetectedBursts, List.mem_cons, List.not_mem_nil, or_false] at he
  rcases he with rfl | rfl | rfl
  · have hfirst := hshort.le 75 (by decide)
    have hlast := hshort.lt 90 (by decide)
    omega
  · have hfirst := hshort.le 80 (by decide)
    have hlast := hshort.lt 95 (by decide)
    omega
  · have hfirst := hshort.le 83 (by decide)
    have hlast := hshort.lt 97 (by decide)
    omega

/-- A frame that arrives with damage to at most 16 consecutive bits of its payload and checksum, in
the order in which the UART sends them, is answered with a NACK, and nothing is queued, unless the
damage is one of `undetectedBursts`. These are accepted for every payload: the damaged payload is
acknowledged and queued. Damage within 14 bits is always answered with a NACK. -/
theorem wire_bursts_answered {c : Context} (hc : c.state = .sync1) {p : TelemetryPayload}
    {frame : List Byte} (hframe : transmitted p = some frame) {e : List Byte}
    (he : e.length = bodySize) {s : ℕ} (hburst : WithinBits e s 16)
    (hdamage : ∃ i, wireBit e i = true) {reads : List UartRead}
    (hreads : received reads = frame.take 4 ++ Crc.xorBytes (frame.drop 4) e) :
    (e ∉ undetectedBursts →
        ∃ c', uartReceiverTask true c reads = some (c', [.response protocolNackByte])) ∧
      (e ∈ undetectedBursts →
        ∃ c', uartReceiverTask true c reads = some (c', [.response protocolAckByte,
          .queued (.ofBytes
            ((Crc.xorBytes (frame.drop 4) e).take TelemetryPayload.size))])) ∧
      ((∃ t, WithinBits e t 14) → e ∉ undetectedBursts) := by
  obtain rfl := wireFrame_of_transmitted hframe
  have hhead : (wireFrame p).take 4 = frameHeader := rfl
  have hbody : (wireFrame p).drop 4 = frameBody p := rfl
  rw [hhead, hbody] at hreads
  rw [hbody]
  obtain ⟨c', hrun⟩ := uartReceiverTask_body true hc (length_xorBytes_frameBody p he) hreads
  -- by linearity the verdict depends on the damage alone
  rw [bodyVerdict_xor p he] at hrun
  obtain ⟨i, hi⟩ := hdamage
  refine ⟨fun hnot => ?_, fun hmem => ?_, fun ⟨t, ht⟩ hmem => not_short_of_mem hmem t ht⟩
  · have hseen : ¬ Crc.run 0x1021#16 0#16 (e.take TelemetryPayload.size) =
        LittleEndian.decode 16 (e.drop TelemetryPayload.size) :=
      mt (mem_undetectedBursts he hburst hi) hnot
    rw [if_neg hseen] at hrun
    exact ⟨c', hrun⟩
  · have hunseen : Crc.run 0x1021#16 0#16 (e.take TelemetryPayload.size) =
        LittleEndian.decode 16 (e.drop TelemetryPayload.size) := undetected_of_mem e hmem
    rw [if_pos hunseen] at hrun
    exact ⟨c', hrun⟩

/-- A burst over three bytes of the sample frame. -/
theorem wire_bursts_answered_sample :
    ∃ c', uartReceiverTask true (.start (.replicate 11 0#8))
      [oneRead ((wireFrame samplePayload).take 4 ++
        Crc.xorBytes ((wireFrame samplePayload).drop 4) (tripleError 4 0xC0#8 0xFF#8 0x3F#8))] =
        some (c', [.response protocolNackByte]) := by
  have hlen : (tripleError 4 0xC0#8 0xFF#8 0x3F#8).length = bodySize := by decide
  have hbits : ∀ i < 104, wireBit (tripleError 4 0xC0#8 0xFF#8 0x3F#8) i = true →
      38 ≤ i ∧ i < 38 + 16 := by
    decide
  have hburst : WithinBits (tripleError 4 0xC0#8 0xFF#8 0x3F#8) 38 16 :=
    ⟨fun i hi => (hbits i (lt_of_wireBit hi) hi).1, fun i hi => (hbits i (lt_of_wireBit hi) hi).2⟩
  exact (wire_bursts_answered rfl (transmitted_eq samplePayload) hlen hburst ⟨40, by decide⟩
    (received_oneRead _)).1 (by decide)

end TelemetryNode
