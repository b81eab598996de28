import Mathlib.Data.List.Basic
import Mathlib.Tactic.Ring
import Mathlib.Tactic.Linarith

/-!
# Bytes on the wire

The agent writes every integer of its TCP framing in network byte order and handles the
names of tracepoints as raw bytes. This file fixes that vocabulary: the big-endian encoding
of an integer of a given width (`to_be_bytes`), its inverse (`from_be_bytes`), the acceptance
test of `std::str::from_utf8`, and the two ASCII operations of `fix_tracepoint_str`.
A Rust `String` is modelled by its bytes.
-/

namespace Tracy

/-- `to_be_bytes` for an unsigned integer of `width` bytes, most significant byte first.
Only the value modulo `256 ^ width` is written, which is what the `as` cast to that width
keeps. -/
def beBytes : Nat → Nat → List UInt8
  | 0, _ => []
  | width + 1, n => beBytes width (n / 256) ++ [UInt8.ofNat n]

/-- `from_be_bytes`: the value of a big-endian byte string. -/
def beValue (bytes : List UInt8) : Nat :=
  bytes.foldl (fun acc b => acc * 256 + b.toNat) 0

@[simp] theorem toNat_uint8_ofNat (n : Nat) : (UInt8.ofNat n).toNat = n % 256 := by
  simp [UInt8.toNat, UInt8.ofNat, BitVec.toNat_ofNat]

theorem uint8_toNat_lt (b : UInt8) : b.toNat < 256 := b.toBitVec.isLt

@[simp] theorem length_beBytes (width n : Nat) : (beBytes width n).length = width := by
  induction width generalizing n with
  | zero => rfl
  | succ width ih => simp [beBytes, ih]

private theorem foldl_beValue (bytes : List UInt8) (acc : Nat) :
    bytes.foldl (fun acc b => acc * 256 + b.toNat) acc = acc * 256 ^ bytes.length + beValue bytes := by
  induction bytes generalizing acc with
  | nil => simp [beValue]
  | cons b bytes ih =>
    simp only [beValue, List.foldl_cons, List.length_cons, Nat.zero_mul, Nat.zero_add]
    rw [ih, ih b.toNat, Nat.pow_succ]
    ring

/-- Appending bytes shifts the value already read by one byte per appended byte. -/
theorem beValue_append (xs ys : List UInt8) :
    beValue (xs ++ ys) = beValue xs * 256 ^ ys.length + beValue ys := by
  rw [beValue, List.foldl_append]
  exact foldl_beValue ys _

/-- Reading back what `to_be_bytes` wrote gives the value modulo the width. -/
@[simp] theorem beValue_beBytes (width n : Nat) : beValue (beBytes width n) = n % 256 ^ width := by
  induction width generalizing n with
  | zero => simp [beBytes, beValue, Nat.mod_one]
  | succ width ih =>
    rw [beBytes, beValue_append, ih, Nat.pow_succ, Nat.mul_comm (256 ^ width), Nat.mod_mul]
    simp [beValue]
    omega

/-- A value that fits in the width is read back unchanged. -/
theorem beValue_beBytes_of_lt {width n : Nat} (h : n < 256 ^ width) :
    beValue (beBytes width n) = n := by
  rw [beValue_beBytes, Nat.mod_eq_of_lt h]

/-- A continuation byte `10xxxxxx` of a UTF-8 sequence. -/
def isCont (b : UInt8) : Bool := 0x80 ≤ b && b ≤ 0xBF

/-- The bytes that `std::str::from_utf8` accepts: well-formed UTF-8 with no overlong form,
no surrogate and nothing above `U+10FFFF`, following the table of lead bytes and first
continuation bytes of `core::str::validations`. -/
def utf8Valid : List UInt8 → Bool
  | [] => true
  | b :: rest =>
    if b < 0x80 then utf8Valid rest else
    match rest with
    | [] => false
    | c1 :: rest1 =>
      if 0xC2 ≤ b && b ≤ 0xDF then isCont c1 && utf8Valid rest1 else
      match rest1 with
      | [] => false
      | c2 :: rest2 =>
        if (b == 0xE0 && 0xA0 ≤ c1 && c1 ≤ 0xBF) || (0xE1 ≤ b && b ≤ 0xEC && isCont c1) ||
            (b == 0xED && 0x80 ≤ c1 && c1 ≤ 0x9F) || (0xEE ≤ b && b ≤ 0xEF && isCont c1) then
          isCont c2 && utf8Valid rest2 else
        match rest2 with
        | [] => false
        | c3 :: rest3 =>
          ((b == 0xF0 && 0x90 ≤ c1 && c1 ≤ 0xBF) || (0xF1 ≤ b && b ≤ 0xF3 && isCont c1) ||
            (b == 0xF4 && 0x80 ≤ c1 && c1 ≤ 0x8F)) && isCont c2 && isCont c3 && utf8Valid rest3

/-- `str::is_ascii` on the bytes of a string. -/
def isAscii (bytes : List UInt8) : Bool := bytes.all (· < 0x80)

/-- `u8::to_ascii_lowercase`: the letters `A`..`Z` move to `a`..`z`, every other byte stays. -/
def toAsciiLowercase (b : UInt8) : UInt8 :=
  if 0x41 ≤ b && b ≤ 0x5A then b + 0x20 else b

theorem toAsciiLowercase_toNat (b : UInt8) :
    (toAsciiLowercase b).toNat =
      if 0x41 ≤ b.toNat ∧ b.toNat ≤ 0x5A then b.toNat + 32 else b.toNat := by
  unfold toAsciiLowercase
  have hb := uint8_toNat_lt b
  have hcond : (0x41 ≤ b && b ≤ 0x5A) = true ↔ 0x41 ≤ b.toNat ∧ b.toNat ≤ 0x5A := by
    rw [Bool.and_eq_true, decide_eq_true_iff, decide_eq_true_iff]
    exact and_congr BitVec.le_def BitVec.le_def
  by_cases h : 0x41 ≤ b.toNat ∧ b.toNat ≤ 0x5A
  · rw [if_pos (hcond.mpr h), if_pos h, UInt8.add_def]
    show (b.toBitVec + 0x20#8).toNat = _
    rw [BitVec.toNat_add, BitVec.toNat_ofNat]
    show (b.toNat + 32) % 256 = _
    omega
  · rw [if_neg (mt hcond.mp h), if_neg h]

/-- Lower-casing keeps a byte ASCII. -/
theorem toAsciiLowercase_lt {b : UInt8} (h : b < 0x80) : toAsciiLowercase b < 0x80 := by
  have hlt : ∀ a : UInt8, a < 0x80 ↔ a.toNat < 0x80 := fun _ => BitVec.lt_def
  rw [hlt, toAsciiLowercase_toNat]
  rw [hlt] at h
  split <;> omega

/-- A lower-cased byte is its own lower case. -/
@[simp] theorem toAsciiLowercase_toAsciiLowercase (b : UInt8) :
    toAsciiLowercase (toAsciiLowercase b) = toAsciiLowercase b := by
  apply UInt8.toNat.inj
  rw [toAsciiLowercase_toNat (toAsciiLowercase b), toAsciiLowercase_toNat b]
  split_ifs <;> omega

end Tracy
