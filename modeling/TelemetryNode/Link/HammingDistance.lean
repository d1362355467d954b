import TelemetryNode.Common.ChecksumPolynomial
import TelemetryNode.Library.CrcDistance
import TelemetryNode.Link.ErrorDetection

/-!
# How many damaged bits the checksum always detects

Payload and checksum of an accepted frame form a polynomial that is determined modulo the generator,
so two of them differ by a multiple of it. The generator is divisible by `x + 1` and divides no
`x ^ d + 1` within the 104 bits of a body: the multiples have an even number of coefficients, four
at least.

The bytes of the checksum are sent in the other order than the register has them. That changes which
bursts are detected, but not how many bits differ.

## Main definitions

* `registerOrder`: a body with the checksum bytes as the register has them.
* `Acknowledged`: the receiver acknowledges a body.

## Main results

* `few_bit_errors_answered`: one, two, three or an odd number of damaged bits are answered with a
  NACK, and accepted bodies differ in an even number of bits, four at least.
-/

namespace TelemetryNode

open Polynomial UartReceiver UartHandshake

/-- A body with its last two bytes, the checksum, most significant byte first. -/
def registerOrder (body : List Byte) : List Byte :=
  body.take TelemetryPayload.size ++ (body.drop TelemetryPayload.size).reverse

/-- The receiver, once it is in `STATE_SYNC1`, acknowledges a header followed by `body`. -/
def Acknowledged (outQueue : Bool) (body : List Byte) : Prop :=
  ∃ c reads c' es, c.state = .sync1 ∧ received reads = frameHeader ++ body ∧
    uartReceiverTask outQueue c reads = some (c', es) ∧ protocolAckByte ∈ responses es

theorem bitWeight_registerOrder (body : List Byte) :
    Crc.bitWeight (registerOrder body) = Crc.bitWeight body := by
  apply Crc.bitWeight_perm
  have hperm := (List.reverse_perm (body.drop TelemetryPayload.size)).append_left
    (body.take TelemetryPayload.size)
  rwa [List.take_append_drop] at hperm

theorem length_registerOrder (body : List Byte) : (registerOrder body).length = body.length := by
  rw [registerOrder, List.length_append, List.length_reverse, ← List.length_append,
    List.take_append_drop]

/-- Two bytes, least significant first, are the message of the same two in the other order. -/
theorem toPoly_decode (lo hi : Byte) :
    Crc.toPoly (LittleEndian.decode 16 [lo, hi]) = Crc.messagePoly [hi, lo] := by
  ext k
  have hpoly : Crc.messagePoly [hi, lo] = Crc.toPoly hi * X ^ 8 + Crc.toPoly lo := by
    simp [Crc.messagePoly_cons]
  rw [hpoly, coeff_add, coeff_mul_X_pow', Crc.coeff_toPoly, Crc.coeff_toPoly,
    LittleEndian.getLsbD_decode]
  -- bit `k` is in the low byte, in the high byte, or in neither
  by_cases hlow : k < 8
  · rw [if_neg (by omega), zero_add, Nat.div_eq_of_lt hlow, Nat.mod_eq_of_lt hlow]
    simp [show k < 16 by omega]
  · rw [if_pos (by omega), Crc.coeff_toPoly, BitVec.getLsbD_of_ge lo k (by omega)]
    by_cases hhigh : k < 16
    · rw [show k / 8 = 1 by omega, show k % 8 = k - 8 by omega]
      simp [hhigh]
    · rw [BitVec.getLsbD_of_ge hi _ (by omega)]
      simp [hhigh]

/-- A difference that the checksum does not detect is a multiple of the generator. -/
theorem ccittPoly_dvd_of_undetected {e : List Byte} (he : e.length = bodySize)
    (h : Crc.run 0x1021#16 0#16 (e.take TelemetryPayload.size) =
      LittleEndian.decode 16 (e.drop TelemetryPayload.size)) :
    ccittPoly ∣ Crc.messagePoly (registerOrder e) := by
  have hlen : (e.drop TelemetryPayload.size).length = 2 := by
    rw [List.length_drop, he, bodySize]
    omega
  obtain ⟨lo, hi, hcrc⟩ := List.length_eq_two.mp hlen
  have hrun := Crc.mk_toPoly_run 0x1021#16 (by decide) 0#16 (e.take TelemetryPayload.size)
  rw [Crc.toPoly_zero, zero_mul, add_zero, h, hcrc, toPoly_decode] at hrun
  rw [registerOrder, hcrc, Crc.messagePoly_append, ← generator_eq, ← AdjoinRoot.mk_eq_zero]
  change AdjoinRoot.mk _ (_ * X ^ 16 + Crc.messagePoly [hi, lo]) = 0
  rw [map_add, ← hrun, ← map_add, CharTwo.add_self_eq_zero, map_zero]

/-- The generator is divisible by `x + 1`. -/
theorem eval_ccittPoly : ccittPoly.eval 1 = 0 := by
  simp only [ccittPoly, eval_add, eval_pow, eval_X, eval_one, one_pow]
  decide

/-- The generator divides no `x ^ d + 1` within the length of a body. -/
theorem not_ccittPoly_dvd {d : ℕ} (hd : 0 < d) (hlt : d < 8 * bodySize) :
    ¬ ccittPoly ∣ X ^ d + 1 := by
  have horder : ∀ d < 104, 0 < d → (Crc.shift 0x1021#16)^[d] 1#16 ≠ 1#16 := by decide +kernel
  rw [← generator_eq, Crc.generator_dvd_X_pow_add_one_iff (by decide)]
  exact horder d hlt hd

/-- An undetected difference has an even number of bits, and if there is one, four at least. -/
theorem bitWeight_of_undetected {e : List Byte} (he : e.length = bodySize)
    (h : Crc.run 0x1021#16 0#16 (e.take TelemetryPayload.size) =
      LittleEndian.decode 16 (e.drop TelemetryPayload.size)) :
    Even (Crc.bitWeight e) ∧ (Crc.bitWeight e ≠ 0 → 4 ≤ Crc.bitWeight e) := by
  have hdvd := ccittPoly_dvd_of_undetected he h
  rw [← bitWeight_registerOrder, ← Crc.card_support_messagePoly]
  refine ⟨Crc.even_card_support eval_ccittPoly hdvd, ?_⟩
  intro hne
  have hconst : ccittPoly.coeff 0 ≠ 0 := by simp [ccittPoly]
  have hdeg := Crc.degree_messagePoly_lt (registerOrder e)
  rw [length_registerOrder, he] at hdeg
  refine Crc.four_le_card_support hconst eval_ccittPoly (fun d => not_ccittPoly_dvd) hdvd hdeg ?_
  intro hzero
  rw [hzero, support_zero, Finset.card_empty] at hne
  exact hne rfl

/-- What is acknowledged is the body of a frame that the sender could have sent. -/
theorem exists_frameBody_of_acknowledged {outQueue : Bool} {body : List Byte}
    (hlen : body.length = bodySize) (h : Acknowledged outQueue body) :
    BodyMatches body ∧ ∃ p, body = frameBody p := by
  obtain ⟨c, reads, c', es, hc, hreads, hrun, hack⟩ := h
  obtain ⟨c'', hrun'⟩ := uartReceiverTask_body outQueue hc hlen hreads
  obtain ⟨-, rfl⟩ := Prod.mk.inj (Option.some.inj (hrun.symm.trans hrun'))
  have hmatch : BodyMatches body := by
    by_contra hbad
    rw [bodyVerdict_eq outQueue hlen, if_neg hbad] at hack
    exact absurd hack (by decide)
  have htake : (body.take TelemetryPayload.size).length = TelemetryPayload.size := by
    rw [List.length_take, hlen, bodySize]
    omega
  have hdrop : (body.drop TelemetryPayload.size).length = 2 := by
    rw [List.length_drop, hlen, bodySize]
    omega
  have hcrc : LittleEndian.encode 2 (LittleEndian.decode 16 (body.drop TelemetryPayload.size)) =
      body.drop TelemetryPayload.size := by
    rw [← hdrop]
    exact LittleEndian.encode_decode (by omega)
  refine ⟨hmatch, .ofBytes (body.take TelemetryPayload.size), ?_⟩
  rw [frameBody, TelemetryPayload.toBytes_ofBytes htake, hmatch, hcrc, List.take_append_drop]

/-- Few-bit and odd-weight damage is always detected. For every payload and every damage of one,
two, three or an odd number of bits within the payload and checksum bytes of its frame, the receiver
answers with a NACK and queues nothing. And two different bodies that it acknowledges differ in at
least four bits, and in an even number of bits. -/
theorem few_bit_errors_answered (outQueue : Bool) :
    (∀ (c : Context) (p : TelemetryPayload) (frame e : List Byte) (reads : List UartRead),
      c.state = .sync1 → transmitted p = some frame → e.length = bodySize →
      (Crc.bitWeight e ∈ [1, 2, 3] ∨ Odd (Crc.bitWeight e)) →
      received reads = frame.take 4 ++ Crc.xorBytes (frame.drop 4) e →
      ∃ c', uartReceiverTask outQueue c reads = some (c', [.response protocolNackByte])) ∧
    (∀ a b : List Byte, a.length = bodySize → b.length = bodySize → Acknowledged outQueue a →
      Acknowledged outQueue b → a ≠ b →
      4 ≤ Crc.hammingDistance a b ∧ Even (Crc.hammingDistance a b)) := by
  constructor
  · intro c p frame e reads hc hframe he hweight hreads
    obtain rfl := wireFrame_of_transmitted hframe
    have hhead : (wireFrame p).take 4 = frameHeader := rfl
    have hbody : (wireFrame p).drop 4 = frameBody p := rfl
    rw [hhead, hbody] at hreads
    have hlen := length_xorBytes_frameBody p he
    obtain ⟨c', hrun⟩ := uartReceiverTask_body outQueue hc hlen hreads
    -- undetected damage has another number of bits
    have hbad : ¬ BodyMatches (Crc.xorBytes (frameBody p) e) := by
      intro hmatch
      obtain ⟨heven, hfour⟩ := bitWeight_of_undetected he ((bodyMatches_xor_iff p he).mp hmatch)
      rcases hweight with hsmall | hodd
      · simp only [List.mem_cons, List.not_mem_nil, or_false] at hsmall
        omega
      · exact Nat.not_odd_iff_even.mpr heven hodd
    rw [bodyVerdict_eq outQueue hlen, if_neg hbad] at hrun
    exact ⟨c', hrun⟩
  · intro a b ha hb hacka hackb hne
    obtain ⟨-, p, rfl⟩ := exists_frameBody_of_acknowledged ha hacka
    obtain ⟨hmatch, -⟩ := exists_frameBody_of_acknowledged hb hackb
    have he : (Crc.xorBytes (frameBody p) b).length = bodySize := length_xorBytes_frameBody p hb
    rw [← Crc.xorBytes_xorBytes (ha.trans hb.symm), bodyMatches_xor_iff p he] at hmatch
    obtain ⟨heven, hfour⟩ := bitWeight_of_undetected he hmatch
    refine ⟨hfour ?_, heven⟩
    intro hzero
    exact hne (Crc.eq_of_hammingDistance_eq_zero (ha.trans hb.symm) hzero)

/-- Three damaged bits of the sample frame, one of them in its checksum. -/
theorem few_bit_errors_answered_three :
    Crc.bitWeight [0x80, 0, 0, 0, 0, 0, 0, 0, 0, 0, 0x01, 0, 0x10] = 3 ∧
    ∃ c', uartReceiverTask true (.start (.replicate 11 0#8))
      [oneRead ((wireFrame samplePayload).take 4 ++
        Crc.xorBytes ((wireFrame samplePayload).drop 4)
          [0x80, 0, 0, 0, 0, 0, 0, 0, 0, 0, 0x01, 0, 0x10])] =
        some (c', [.response protocolNackByte]) := by
  have hweight : Crc.bitWeight [0x80, 0, 0, 0, 0, 0, 0, 0, 0, 0, 0x01, 0, 0x10] = 3 := by
    decide +kernel
  refine ⟨hweight, ?_⟩
  exact (few_bit_errors_answered true).1 _ samplePayload _ _ _ rfl (transmitted_eq samplePayload)
    (by decide) (.inl (by rw [hweight]; decide)) (received_oneRead _)

end TelemetryNode
