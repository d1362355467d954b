import Mathlib.Algebra.Group.Even
import Mathlib.Algebra.Group.Nat.Even
import Mathlib.Data.List.DropRight
import TelemetryNode.Link.WireFrame
import TelemetryNode.Stm32.DataPacket

/-!
# Where the hunt for a frame stands

The hunt for the next frame never looks back: a byte that does not continue what is collected is
dropped together with it. This module computes what is collected after streams that hold no frame:
noise without a pair of sync bytes, what remains of a frame that lost bytes, and a frame that is
met while something is collected.

## Main results

* `collected_of_noSyncPair`: noise without `AA 55` leaves its last `AA` collected when it ends in an
  odd run of them.
* `collected_eq_nil_iff_settled`: less than a frame leaves nothing collected exactly when it is
  `settled`.
* `collected_frame_of_ne_nil`: an application frame met while something is collected leaves what its
  checksum bytes leave.
-/

namespace TelemetryNode

open UartReceiver UartHandshake

variable (outQueue : Bool)

/-- No `PROTOCOL_SYNC_BYTE_1` is followed by `PROTOCOL_SYNC_BYTE_2`. -/
def NoSyncPair (s : List Byte) : Prop := ¬ [protocolSyncByte1, protocolSyncByte2] <:+: s

/-- The length of the run of `PROTOCOL_SYNC_BYTE_1` at the end. -/
def trailingSync1 (s : List Byte) : ℕ := (s.rtakeWhile fun b => b = protocolSyncByte1).length

theorem NoSyncPair.mono {s t : List Byte} (h : NoSyncPair t) (hst : s <:+: t) : NoSyncPair s :=
  fun hs => h (hs.trans hst)

@[simp]
theorem trailingSync1_concat_sync1 (s : List Byte) :
    trailingSync1 (s ++ [protocolSyncByte1]) = trailingSync1 s + 1 := by
  rw [trailingSync1, List.rtakeWhile_concat_pos _ _ _ (by simp), List.length_append]
  rfl

theorem trailingSync1_concat_of_ne (s : List Byte) {b : Byte} (hb : b ≠ protocolSyncByte1) :
    trailingSync1 (s ++ [b]) = 0 := by
  rw [trailingSync1, List.rtakeWhile_concat_neg _ _ _ (by simpa using hb)]
  rfl

/-- A non-empty run at the end puts a `PROTOCOL_SYNC_BYTE_1` there. -/
theorem exists_concat_of_trailingSync1 {s : List Byte} (h : trailingSync1 s ≠ 0) :
    ∃ t, s = t ++ [protocolSyncByte1] := by
  induction s using List.reverseRecOn with
  | nil => exact absurd rfl h
  | append_singleton s b _ =>
    by_cases hb : b = protocolSyncByte1
    · exact ⟨s, by rw [hb]⟩
    · exact absurd (trailingSync1_concat_of_ne s hb) h

/-- One byte met with nothing collected. -/
theorem next_nil (b : Byte) :
    (frameScanner outQueue).mealy.next [] b = if b = protocolSyncByte1 then [b] else [] := by
  simp [WindowScanner.mealy, frameScanner, viableFrame, UartFrame.size, TelemetryPayload.size]

/-- One byte met with the first sync byte collected. It is dropped unless it is the second one, even
if it is the first one again. -/
theorem next_sync1 (b : Byte) :
    (frameScanner outQueue).mealy.next [protocolSyncByte1] b =
      if b = protocolSyncByte2 then [protocolSyncByte1, b] else [] := by
  simp [WindowScanner.mealy, frameScanner, viableFrame, UartFrame.size, TelemetryPayload.size]

/-- The last byte of a frame is the only one that is answered. -/
theorem out_of_length_lt {acc : List Byte} (h : acc.length + 1 < UartFrame.size) (b : Byte) :
    (frameScanner outQueue).mealy.out acc b = [] := by
  refine if_neg fun hfull => ?_
  have hlen : (acc ++ [b]).length = UartFrame.size := hfull.2
  rw [List.length_append, List.length_singleton] at hlen
  omega

/-- Noise without a pair of sync bytes is never answered. The last byte of an even run of
`PROTOCOL_SYNC_BYTE_1` is dropped with the one before it, that of an odd run stays collected. -/
theorem collected_of_noSyncPair {s : List Byte} (h : NoSyncPair s) :
    (frameScanner outQueue).collected s =
        (if Even (trailingSync1 s) then [] else [protocolSyncByte1]) ∧
      (frameScanner outQueue).emitted s = [] := by
  induction s using List.reverseRecOn with
  | nil => exact ⟨rfl, rfl⟩
  | append_singleton s b ih =>
    -- absence of a sync pair passes to the stream before `b`
    obtain ⟨hcol, hemit⟩ := ih (h.mono (List.prefix_append s [b]).isInfix)
    rw [WindowScanner.collected_concat, WindowScanner.emitted_concat, hcol, hemit]
    have hout : (frameScanner outQueue).mealy.out
        (if Even (trailingSync1 s) then [] else [protocolSyncByte1]) b = [] := by
      split <;> exact out_of_length_lt outQueue (by decide) b
    refine ⟨?_, by rw [hout]; rfl⟩
    by_cases hb : b = protocolSyncByte1
    · subst hb
      rw [trailingSync1_concat_sync1]
      by_cases heven : Even (trailingSync1 s)
      · have hodd : ¬ Even (trailingSync1 s + 1) := fun h1 => Nat.even_add_one.mp h1 heven
        rw [if_pos heven, if_neg hodd, next_nil, if_pos rfl]
      · have heven1 : Even (trailingSync1 s + 1) := Nat.even_add_one.mpr heven
        rw [if_neg heven, if_pos heven1, next_sync1, if_neg (by decide)]
    · rw [trailingSync1_concat_of_ne s hb, if_pos Even.zero]
      by_cases heven : Even (trailingSync1 s)
      · rw [if_pos heven, next_nil, if_neg hb]
      · -- the run before `b` is not empty, so `b` is not the second sync byte
        have hne : b ≠ protocolSyncByte2 := by
          rintro rfl
          obtain ⟨t, rfl⟩ := exists_concat_of_trailingSync1 (s := s) fun h0 => heven (by simp [h0])
          exact h ⟨t, [], by simp⟩
        rw [if_neg heven, next_sync1, if_neg hne]

/-! ## Less than a frame -/

/-- Whether some bytes fall apart, from the left, into pieces that the hunt for a frame drops: a
byte other than `AA`, an `AA` with a byte other than `55`, or `AA 55` with a length other than
11. -/
def settled : List Byte → Bool
  | [] => true
  | a :: s =>
    if a = protocolSyncByte1 then
      match s with
      | [] => false
      | b :: s =>
        if b = protocolSyncByte2 then
          match s with
          | l :: h :: s => if l = 0x0B#8 ∧ h = 0x00#8 then false else settled s
          | _ => false
        else settled s
    else settled s

/-- A piece that is dropped has no influence on what follows. -/
theorem collected_cons_of_ne {a : Byte} (ha : a ≠ protocolSyncByte1) (s : List Byte) :
    (frameScanner outQueue).collected (a :: s) = (frameScanner outQueue).collected s := by
  refine (frameScanner outQueue).collected_append_of_nil (s := [a]) ?_ s
  exact (next_nil outQueue a).trans (if_neg ha)

theorem collected_sync1_of_ne {b : Byte} (hb : b ≠ protocolSyncByte2) (s : List Byte) :
    (frameScanner outQueue).collected (protocolSyncByte1 :: b :: s) =
      (frameScanner outQueue).collected s := by
  refine (frameScanner outQueue).collected_append_of_nil (s := [protocolSyncByte1, b]) ?_ s
  have hsync : (frameScanner outQueue).collected [protocolSyncByte1] = [protocolSyncByte1] :=
    (next_nil outQueue _).trans (if_pos rfl)
  have hlast := (frameScanner outQueue).collected_concat [protocolSyncByte1] b
  rw [hsync, next_sync1, if_neg hb] at hlast
  exact hlast

theorem collected_badLength {l h : Byte} (hlh : ¬ (l = 0x0B#8 ∧ h = 0x00#8)) (s : List Byte) :
    (frameScanner outQueue).collected (protocolSyncByte1 :: protocolSyncByte2 :: l :: h :: s) =
      (frameScanner outQueue).collected s := by
  refine (frameScanner outQueue).collected_append_of_nil
    (s := [protocolSyncByte1, protocolSyncByte2, l, h]) ?_ s
  have hviable : viableFrame [protocolSyncByte1, protocolSyncByte2, l] = true := by
    simp [viableFrame]
  have hdead : viableFrame [protocolSyncByte1, protocolSyncByte2, l, h] = false := by
    simp [viableFrame, frameHeader, hlh]
  have hcol : (frameScanner outQueue).collected [protocolSyncByte1, protocolSyncByte2, l] =
      [protocolSyncByte1, protocolSyncByte2, l] :=
    (frameScanner outQueue).collected_of_viable hviable (by decide : 3 < UartFrame.size)
  have hlast := (frameScanner outQueue).collected_concat
    [protocolSyncByte1, protocolSyncByte2, l] h
  rw [hcol] at hlast
  refine hlast.trans (if_neg fun hv => ?_)
  exact absurd (hdead.symm.trans hv.1) (by decide)

/-- Something viable and shorter than a frame stays collected. -/
theorem collected_ne_nil_of_viable {a : Byte} {s : List Byte} (hv : viableFrame (a :: s) = true)
    (hlen : (a :: s).length < UartFrame.size) :
    (frameScanner outQueue).collected (a :: s) ≠ [] := by
  rw [(frameScanner outQueue).collected_of_viable hv hlen]
  exact List.cons_ne_nil a s

/-- Less than a frame leaves nothing collected exactly when it is settled. -/
theorem collected_eq_nil_iff_settled {s : List Byte} (hlen : s.length < UartFrame.size) :
    (frameScanner outQueue).collected s = [] ↔ settled s = true := by
  fun_induction settled s with
  | case1 => simp
  | case2 =>
    -- a single first sync byte
    exact iff_of_false (collected_ne_nil_of_viable outQueue (by decide) hlen) (by decide)
  | case3 l h s hlh =>
    -- the header is there, so what follows is collected too
    obtain ⟨rfl, rfl⟩ := hlh
    simp only [List.length_cons, UartFrame.size] at hlen
    have hv : viableFrame (frameHeader ++ s) = true := by
      rw [viableFrame_header]
      exact decide_eq_true (by omega)
    refine iff_of_false (collected_ne_nil_of_viable outQueue hv ?_) (by decide)
    simp only [List.length_cons, UartFrame.size]
    omega
  | case4 l h s hlh ih =>
    -- a header with another length
    simp only [List.length_cons] at hlen
    rw [collected_badLength outQueue hlh]
    exact ih (by omega)
  | case5 s hs =>
    -- both sync bytes, and at most one byte of the length
    refine iff_of_false (collected_ne_nil_of_viable outQueue ?_ hlen) (by decide)
    rcases s with _ | ⟨l, _ | ⟨h, s⟩⟩
    · simp [viableFrame]
    · simp [viableFrame]
    · exact (hs l h s rfl).elim
  | case6 b s hb ih =>
    simp only [List.length_cons] at hlen
    rw [collected_sync1_of_ne outQueue hb]
    exact ih (by omega)
  | case7 a s ha ih =>
    simp only [List.length_cons] at hlen
    rw [collected_cons_of_ne outQueue ha]
    exact ih (by omega)

/-! ## A frame that is met while something is collected -/

/-- What the two checksum bytes leave collected when the hunt for a frame meets them. -/
def crcResidue (crc : BitVec 16) : List Byte :=
  if lowByte crc = protocolSyncByte1 then
    if highByte crc = protocolSyncByte2 then [protocolSyncByte1, protocolSyncByte2] else []
  else if highByte crc = protocolSyncByte1 then [protocolSyncByte1] else []

theorem collected_crc (crc : BitVec 16) :
    (frameScanner outQueue).collected [lowByte crc, highByte crc] = crcResidue crc := by
  have hlo : (frameScanner outQueue).collected [lowByte crc] =
      if lowByte crc = protocolSyncByte1 then [lowByte crc] else [] := next_nil outQueue _
  have hlast := (frameScanner outQueue).collected_concat [lowByte crc] (highByte crc)
  rw [crcResidue]
  by_cases h : lowByte crc = protocolSyncByte1
  · rw [hlo, if_pos h, h, next_sync1] at hlast
    rw [if_pos h, h]
    refine hlast.trans ?_
    by_cases hhi : highByte crc = protocolSyncByte2
    · rw [if_pos hhi, if_pos hhi, hhi]
    · rw [if_neg hhi, if_neg hhi]
  · rw [hlo, if_neg h, next_nil] at hlast
    rw [if_neg h]
    refine hlast.trans ?_
    by_cases hhi : highByte crc = protocolSyncByte1
    · rw [if_pos hhi, if_pos hhi, hhi]
    · rw [if_neg hhi, if_neg hhi]

/-- An application frame without its first byte and its checksum. -/
def frameMiddle (r : Readings) : List Byte :=
  [protocolSyncByte2, 0x0B, 0x00, 0, 0, 0, 0, lowByte r.battery, highByte r.battery, lowByte r.temp,
    highByte r.temp, lowByte r.adc, highByte r.adc, 1]

theorem wireFrame_packet (r : Readings) :
    wireFrame r.packet = protocolSyncByte1 :: (frameMiddle r ++
      [lowByte (crc16 r.packet.toBytes), highByte (crc16 r.packet.toBytes)]) := by
  rw [wireFrame, encode_two]
  generalize crc16 r.packet.toBytes = crc
  rw [Readings.packet, toBytes_dataPacket]
  rfl

/-- The only sync pair of an application frame is that of its header: the high byte of a reading is
too small to be a second sync byte. -/
theorem noSyncPair_frameMiddle (r : Readings) : NoSyncPair (frameMiddle r) := by
  have hne : ∀ x : BitVec 16, x.toNat ≤ 4095 → 0x55#8 ≠ highByte x ∧ 0xAA#8 ≠ highByte x := by
    intro x hx
    have hlt := highByte_lt hx
    constructor <;>
      · intro h
        rw [← h] at hlt
        exact absurd hlt (by decide)
  obtain ⟨hb, hb'⟩ := hne r.battery r.battery_le
  obtain ⟨ht, ht'⟩ := hne r.temp r.temp_le
  obtain ⟨ha, ha'⟩ := hne r.adc r.adc_le
  simp [NoSyncPair, frameMiddle, List.infix_cons_iff, protocolSyncByte1, protocolSyncByte2, hb, ht,
    ha, hb', ht', ha']

/-- The end of an application frame, from its second byte or later but before its status byte, met
with nothing collected. -/
theorem collected_drop_frame (r : Readings) {m : ℕ} (hm : 1 ≤ m) (hm' : m ≤ bodySize) :
    (frameScanner outQueue).collected ((wireFrame r.packet).drop m) =
      crcResidue (crc16 r.packet.toBytes) := by
  obtain ⟨k, rfl⟩ : ∃ k, m = k + 1 := ⟨m - 1, by omega⟩
  rw [bodySize, TelemetryPayload.size] at hm'
  have hend : (frameMiddle r).drop k =
      ((frameMiddle r).take 13).drop k ++ [0x01#8] := by
    have hsplit : frameMiddle r = (frameMiddle r).take 13 ++ [0x01#8] := rfl
    conv_lhs => rw [hsplit]
    exact List.drop_append_of_le_length (by simp [frameMiddle]; omega)
  -- no sync pair in the middle, and the status byte before the checksum is not a sync byte
  have hquiet : (frameScanner outQueue).collected ((frameMiddle r).drop k) = [] := by
    have hno := (noSyncPair_frameMiddle r).mono (List.drop_suffix k _).isInfix
    obtain ⟨hcol, -⟩ := collected_of_noSyncPair outQueue hno
    rw [hcol, hend, trailingSync1_concat_of_ne _ (by decide), if_pos Even.zero]
  rw [wireFrame_packet, List.drop_succ_cons,
    List.drop_append_of_le_length (by simp [frameMiddle]; omega),
    WindowScanner.collected_append_of_nil _ hquiet]
  exact collected_crc outQueue _

/-- Whatever was collected, it is dropped or answered with at most 13 bytes of a frame. -/
theorem exists_take_frame {acc : List Byte} (hv : viableFrame acc = true)
    (hlen : acc.length < UartFrame.size) (hacc : acc ≠ []) (p : TelemetryPayload) :
    ∃ m, 1 ≤ m ∧ m ≤ bodySize ∧
      (frameScanner outQueue).collected (acc ++ (wireFrame p).take m) = [] := by
  match acc with
  | [] => exact absurd rfl hacc
  | [a] =>
    -- the first sync byte of the frame is not the second one that is waited for
    obtain rfl : a = protocolSyncByte1 := by simpa [viableFrame] using hv
    refine ⟨1, by decide, by decide, ?_⟩
    exact collected_sync1_of_ne outQueue (b := protocolSyncByte1) (by decide) []
  | [a, b] =>
    -- the two sync bytes of the frame are taken for a length
    obtain ⟨rfl, rfl⟩ : a = protocolSyncByte1 ∧ b = protocolSyncByte2 := by
      simpa [viableFrame] using hv
    refine ⟨2, by decide, by decide, ?_⟩
    exact collected_badLength outQueue (l := protocolSyncByte1) (h := protocolSyncByte2)
      (by decide) []
  | [a, b, l] =>
    -- the first sync byte of the frame is taken for the high byte of a length
    obtain ⟨rfl, rfl⟩ : a = protocolSyncByte1 ∧ b = protocolSyncByte2 := by
      simpa [viableFrame] using hv
    refine ⟨1, by decide, by decide, ?_⟩
    exact collected_badLength outQueue (h := protocolSyncByte1) (fun h => absurd h.2 (by decide)) []
  | a :: b :: l :: h :: body =>
    -- the frame completes the window, of which `body` is known
    have hhead : [a, b, l, h] = frameHeader := by
      simp only [viableFrame, Bool.and_eq_true, decide_eq_true_eq] at hv
      exact hv.1
    have hacc' : a :: b :: l :: h :: body = frameHeader ++ body := by
      rw [← hhead]
      rfl
    simp only [List.length_cons, UartFrame.size] at hlen
    have hfill : (body ++ (wireFrame p).take (bodySize - body.length)).length = bodySize := by
      rw [List.length_append, List.length_take, length_wireFrame, UartFrame.size, bodySize]
      omega
    refine ⟨bodySize - body.length, by rw [bodySize]; omega, by omega, ?_⟩
    rw [hacc', List.append_assoc]
    exact (frameScanner_body outQueue hfill).1

/-- An application frame met while something is collected is lost, and leaves collected what its
checksum bytes leave. -/
theorem collected_frame_of_ne_nil {s : List Byte} (hs : (frameScanner outQueue).collected s ≠ [])
    (r : Readings) :
    (frameScanner outQueue).collected (s ++ wireFrame r.packet) =
      crcResidue (crc16 r.packet.toBytes) := by
  obtain ⟨hv, hlen, t, hst, ht⟩ := (frameScanner outQueue).exists_start s
  -- what was collected ends within the frame, and the rest of the frame is scanned afresh
  obtain ⟨m, hm, hm', hcol⟩ := exists_take_frame outQueue hv hlen hs r.packet
  have hsplit : s ++ wireFrame r.packet =
      t ++ (((frameScanner outQueue).collected s ++ (wireFrame r.packet).take m) ++
        (wireFrame r.packet).drop m) := by
    conv_lhs => rw [hst, ← List.take_append_drop m (wireFrame r.packet)]
    simp only [List.append_assoc]
  rw [hsplit, WindowScanner.collected_append_of_nil _ ht,
    WindowScanner.collected_append_of_nil _ hcol]
  exact collected_drop_frame outQueue r hm hm'

end TelemetryNode
