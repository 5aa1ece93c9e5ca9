/-
  ErobCanopen.Wire.Frame
  ──────────────────────
  **CAN FRAMES AND THE SDO BYTE LAYOUT.**

  `struct can_frame` as the two programs use it: an identifier (`canid_t`, 32 bits, the
  11-bit COB-ID in its low bits and the EFF/RTR/ERR flags above) and eight data bytes.
  `can_dlc` is written by the senders and read by nobody, so it is not modelled.

  The SDO layout shared by `pp_mode_control.c` and `quick_scan.c`:
    * byte 0 — command specifier (`0x2F/0x2B/0x23` download, `0x40` upload request);
    * bytes 1–3 — index low byte, index high byte, subindex;
    * bytes 4–7 — payload, little-endian.
  Responses are classified by `data[0] & 0xE0` (`0x40` upload, `0x60` download, `0x80` abort).

  Every receive path assembles the payload as `data[4] | data[5] << 8 | data[6] << 16 |
  data[7] << 24`.  `payload` is the 32-bit value a two's-complement build stores; `payloadInt`
  is the same expression as C defines it, each byte promoted to `int` and each shift checked
  for signed overflow.

  Main results:
    * `payload_sdoFrame` — the payload of a frame laid out by `sdoFrame` is the word put in it;
    * `payloadInt_eq`, `payloadInt_agrees` — the C evaluation is defined exactly when
      `data[7] < 0x80`, and then stores `payload`.
-/
import Mathlib.Data.Fin.VecNotation
import Mathlib.Algebra.Group.Nat.Basic
import Mathlib.Algebra.Group.Int

namespace ErobCanopen

/-! ## §1. Frames. -/

/-- `struct can_frame`: identifier and the eight data bytes. -/
structure CanFrame where
  /-- `can_id` (`canid_t`): COB-ID plus the EFF/RTR/ERR flag bits. -/
  can_id : BitVec 32
  /-- `data[0..7]`. -/
  data : Fin 8 → BitVec 8

/-- SDO client → server COB-ID of a node: `0x600 + node_id`. -/
def sdoClientCob (node : BitVec 8) : BitVec 32 := BitVec.ofNat 32 (0x600 + node.toNat)

/-- SDO server → client COB-ID of a node: `0x580 + node_id`. -/
def sdoServerCob (node : BitVec 8) : BitVec 32 := BitVec.ofNat 32 (0x580 + node.toNat)

/-- The command class of a response, `data[0] & 0xE0`. -/
def cmdClass (f : CanFrame) : BitVec 8 := f.data 0 &&& 0xE0

/-- Bytes 4–7 assembled little-endian, as every receive path of both programs writes it:
    `data[4] | data[5] << 8 | data[6] << 16 | data[7] << 24`. -/
def payload (f : CanFrame) : BitVec 32 :=
  (f.data 4).setWidth 32 ||| ((f.data 5).setWidth 32 <<< 8) |||
    ((f.data 6).setWidth 32 <<< 16) ||| ((f.data 7).setWidth 32 <<< 24)

/-- Byte `k` of a 32-bit word, `(x >> 8k) & 0xFF` stored in a `uint8_t`. -/
def byteOf (x : BitVec 32) (k : Nat) : BitVec 8 := ((x >>> (8 * k)) &&& 0xFF).setWidth 8

/-- Byte `k` of a 16-bit index, `(index >> 8k) & 0xFF`. -/
def byteOf16 (x : BitVec 16) (k : Nat) : BitVec 8 := ((x >>> (8 * k)) &&& 0xFF).setWidth 8

/-- The SDO frame layout: command byte, index and subindex, then the four payload bytes. -/
def sdoFrame (cob : BitVec 32) (cmd : BitVec 8) (index : BitVec 16) (subindex : BitVec 8)
    (data : BitVec 32) : CanFrame :=
  ⟨cob, ![cmd, byteOf16 index 0, byteOf16 index 1, subindex,
    byteOf data 0, byteOf data 1, byteOf data 2, byteOf data 3]⟩

@[simp] theorem sdoFrame_can_id (cob : BitVec 32) (cmd : BitVec 8) (index : BitVec 16)
    (subindex : BitVec 8) (data : BitVec 32) :
    (sdoFrame cob cmd index subindex data).can_id = cob := rfl

@[simp] theorem sdoFrame_cmd (cob : BitVec 32) (cmd : BitVec 8) (index : BitVec 16)
    (subindex : BitVec 8) (data : BitVec 32) :
    (sdoFrame cob cmd index subindex data).data 0 = cmd := rfl

/-- A COB-ID base plus a node number does not wrap in 32 bits. -/
theorem cob_toNat (c : Nat) (hc : c ≤ 0x600) (a : BitVec 8) :
    (BitVec.ofNat 32 (c + a.toNat)).toNat = c + a.toNat := by
  have := a.isLt
  rw [BitVec.toNat_ofNat, Nat.mod_eq_of_lt (by omega)]

/-- Server COB-IDs of distinct nodes are distinct. -/
theorem sdoServerCob_inj {a b : BitVec 8} (h : sdoServerCob a = sdoServerCob b) : a = b := by
  have := congrArg BitVec.toNat h
  rw [sdoServerCob, sdoServerCob, cob_toNat _ (by omega), cob_toNat _ (by omega)] at this
  exact BitVec.eq_of_toNat_eq (by omega)

/-! ## §2. The payload round trip. -/

theorem getLsbD_mask255 (j : Nat) : (255 : BitVec 32).getLsbD j = decide (j < 8) := by
  rw [BitVec.getLsbD, show (255 : BitVec 32).toNat = 2 ^ 8 - 1 from rfl,
    Nat.testBit_two_pow_sub_one]

/-- The four bytes `byteOf` cuts a word into, shifted back into place and `or`ed, give the
    word: bit `i` comes from byte `i / 8`. -/
theorem byteOf_assemble (data : BitVec 32) :
    (byteOf data 0).setWidth 32 ||| ((byteOf data 1).setWidth 32 <<< 8) |||
      ((byteOf data 2).setWidth 32 <<< 16) ||| ((byteOf data 3).setWidth 32 <<< 24) = data := by
  ext ⟨i, hi⟩
  simp only [byteOf, BitVec.getLsbD_or, BitVec.getLsbD_shiftLeft, BitVec.getLsbD_setWidth,
    BitVec.getLsbD_and, BitVec.getLsbD_ushiftRight, getLsbD_mask255]
  by_cases h8 : i < 8
  · simp [h8, hi, show i < 16 by omega, show i < 24 by omega]
  by_cases h16 : i < 16
  · simp [h8, h16, hi, show i < 24 by omega, show i - 8 < 8 by omega,
      show 8 * 1 + (i - 8) = i by omega, show i - 8 < 32 by omega]
  by_cases h24 : i < 24
  · simp [h8, h16, h24, hi, show i - 16 < 8 by omega, show ¬ i - 8 < 8 by omega,
      show 8 * 2 + (i - 16) = i by omega, show i - 16 < 32 by omega]
  · simp [h8, h16, h24, hi, show i - 24 < 8 by omega, show ¬ i - 8 < 8 by omega,
      show ¬ i - 16 < 8 by omega, show 8 * 3 + (i - 24) = i by omega, show i - 24 < 32 by omega]

/-- What a receiver reads from bytes 4–7 is the word the sender laid out there. -/
theorem payload_sdoFrame (cob : BitVec 32) (cmd : BitVec 8) (index : BitVec 16)
    (subindex : BitVec 8) (data : BitVec 32) :
    payload (sdoFrame cob cmd index subindex data) = data :=
  byteOf_assemble data

theorem byteOf_toNat (x : BitVec 32) (k : Nat) :
    (byteOf x k).toNat = x.toNat / 2 ^ (8 * k) % 2 ^ 8 := by
  have h255 : (255 : BitVec 32).toNat = 2 ^ 8 - 1 := rfl
  simp only [byteOf, BitVec.toNat_setWidth, BitVec.toNat_and, BitVec.toNat_ushiftRight, h255,
    Nat.and_pow_two_sub_one_eq_mod, Nat.shiftRight_eq_div_pow, Nat.mod_mod]

/-! ## §3. The same assembly in C `int`. -/

/-- `INT_MAX` of the 32-bit C `int`. -/
def INT_MAX : Nat := 2 ^ 31 - 1

/-- `x << n` in C `int` for a non-negative `x`: `x * 2^n` when it is representable, `none`
    (signed overflow, undefined behaviour) when it is not. -/
def intShiftLeft (x n : Nat) : Option Nat :=
  if x * 2 ^ n ≤ INT_MAX then some (x * 2 ^ n) else none

/-- `frame.data[4] | (frame.data[5] << 8) | (frame.data[6] << 16) | (frame.data[7] << 24)`
    as C evaluates it: each `uint8_t` promoted to `int`, each shift in `int`; `none` when a
    shift overflows. -/
def payloadInt (f : CanFrame) : Option Nat := do
  let b5 ← intShiftLeft (f.data 5).toNat 8
  let b6 ← intShiftLeft (f.data 6).toNat 16
  let b7 ← intShiftLeft (f.data 7).toNat 24
  pure ((f.data 4).toNat ||| b5 ||| b6 ||| b7)

/-- A promoted byte shifted by `n` overflows `int` exactly when it reaches bit 31. -/
theorem intShiftLeft_byte (b : BitVec 8) (n : Nat) :
    intShiftLeft b.toNat n =
      if b.toNat * 2 ^ n < 2 ^ 31 then some (b.toNat * 2 ^ n) else none := by
  unfold intShiftLeft INT_MAX
  by_cases h : b.toNat * 2 ^ n < 2 ^ 31
  · rw [if_pos (by omega), if_pos h]
  · rw [if_neg (by omega), if_neg h]

/-- The C evaluation is defined exactly when `data[7] < 0x80`, and is then the bytes' `or`. -/
theorem payloadInt_eq (f : CanFrame) :
    payloadInt f = if (f.data 7).toNat < 0x80 then
      some ((f.data 4).toNat ||| (f.data 5).toNat * 2 ^ 8 ||| (f.data 6).toNat * 2 ^ 16 |||
        (f.data 7).toNat * 2 ^ 24) else none := by
  have h5 := (f.data 5).isLt
  have h6 := (f.data 6).isLt
  simp only [payloadInt, intShiftLeft_byte,
    if_pos (by omega : (f.data 5).toNat * 2 ^ 8 < 2 ^ 31),
    if_pos (by omega : (f.data 6).toNat * 2 ^ 16 < 2 ^ 31), Option.some_bind]
  by_cases h7 : (f.data 7).toNat < 0x80
  · rw [if_pos (by omega), if_pos h7]; rfl
  · rw [if_neg (by omega), if_neg h7]; rfl

/-- Where the C evaluation is defined, the value it stores in the `uint32_t` is `payload`. -/
theorem payloadInt_agrees {f : CanFrame} {z : Nat} (h : payloadInt f = some z) :
    BitVec.ofNat 32 z = payload f := by
  rw [payloadInt_eq] at h
  split at h
  · cases h
    have h4 := (f.data 4).isLt
    have h5 := (f.data 5).isLt
    have h6 := (f.data 6).isLt
    apply BitVec.eq_of_toNat_eq
    simp only [payload, BitVec.toNat_ofNat, BitVec.toNat_or, BitVec.toNat_shiftLeft,
      BitVec.toNat_setWidth, Nat.shiftLeft_eq]
    simp (disch := omega) only [Nat.mod_eq_of_lt]
    exact Nat.mod_eq_of_lt (Nat.or_lt_two_pow (Nat.or_lt_two_pow (Nat.or_lt_two_pow
      (by omega) (by omega)) (by omega)) (by omega))
  · cases h

/-- The assembly of a word laid out by `sdoFrame` overflows exactly when the word's bit 31
    is set. -/
theorem payloadInt_sdoFrame_eq_none_iff (cob : BitVec 32) (cmd : BitVec 8) (index : BitVec 16)
    (subindex : BitVec 8) (data : BitVec 32) :
    payloadInt (sdoFrame cob cmd index subindex data) = none ↔ 2 ^ 31 ≤ data.toNat := by
  have hb : (sdoFrame cob cmd index subindex data).data 7 = byteOf data 3 := rfl
  have := data.isLt
  rw [payloadInt_eq, hb, byteOf_toNat]
  split <;> simp <;> omega

end ErobCanopen
