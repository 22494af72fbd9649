/-
Base64 over byte lists.

A library of its own.  `encode` is the padded standard encoding, `decode` the
permissive reader of `base64.b64decode`: characters outside the alphabet are
skipped, a pad that completes a group ends the input, and an incomplete group
is an error.
* `Base64.decode_encode` — decoding an encoding gives the bytes back.
-/
import Mathlib

namespace Base64

def alphabet : List Char :=
  "ABCDEFGHIJKLMNOPQRSTUVWXYZabcdefghijklmnopqrstuvwxyz0123456789+/".toList

/-- The character of a six-bit group. -/
def symbol (n : ℕ) : Char := alphabet.getD n 'A'

/-- The six-bit group of a character of the alphabet. -/
def sextet (c : Char) : Option ℕ := alphabet.idxOf? c

def encode : List UInt8 → List Char
  | [] => []
  | [a] => [symbol (a.toNat / 4), symbol (a.toNat % 4 * 16), '=', '=']
  | [a, b] =>
      [symbol (a.toNat / 4), symbol (a.toNat % 4 * 16 + b.toNat / 16),
        symbol (b.toNat % 16 * 4), '=']
  | a :: b :: c :: rest =>
      symbol (a.toNat / 4) :: symbol (a.toNat % 4 * 16 + b.toNat / 16) ::
        symbol (b.toNat % 16 * 4 + c.toNat / 64) :: symbol (c.toNat % 64) :: encode rest

/-- The reader's loop: `quad` groups of the current four are read, `left` holds
their bits not yet written, `pads` counts pads in a row. -/
def decodeFrom (quad left pads : ℕ) : List Char → Option (List UInt8)
  | [] => if quad = 0 then some [] else none
  | c :: rest =>
      if c = '=' then
        if 2 ≤ quad then
          if 4 ≤ quad + (pads + 1) then some [] else decodeFrom quad left (pads + 1) rest
        else decodeFrom quad left pads rest
      else
        match sextet c with
        | none => decodeFrom quad left pads rest
        | some v =>
            match quad with
            | 0 => decodeFrom 1 v 0 rest
            | 1 => (decodeFrom 2 (v % 16) 0 rest).map (UInt8.ofNat (left * 4 + v / 16) :: ·)
            | 2 => (decodeFrom 3 (v % 4) 0 rest).map (UInt8.ofNat (left * 16 + v / 4) :: ·)
            | _ => (decodeFrom 0 0 0 rest).map (UInt8.ofNat (left * 64 + v) :: ·)

def decode (text : List Char) : Option (List UInt8) := decodeFrom 0 0 0 text

theorem sextet_symbol {n : ℕ} (h : n < 64) : sextet (symbol n) = some n := by
  revert h; revert n; decide +kernel

theorem symbol_ne_pad {n : ℕ} (h : n < 64) : symbol n ≠ '=' := by
  revert h; revert n; decide +kernel

private theorem decodeFrom_zero (left pads : ℕ) {n : ℕ} (h : n < 64) (rest : List Char) :
    decodeFrom 0 left pads (symbol n :: rest) = decodeFrom 1 n 0 rest := by
  rw [decodeFrom, if_neg (symbol_ne_pad h), sextet_symbol h]; rfl

private theorem decodeFrom_one (left pads : ℕ) {n : ℕ} (h : n < 64) (rest : List Char) :
    decodeFrom 1 left pads (symbol n :: rest)
      = (decodeFrom 2 (n % 16) 0 rest).map (UInt8.ofNat (left * 4 + n / 16) :: ·) := by
  rw [decodeFrom, if_neg (symbol_ne_pad h), sextet_symbol h]; rfl

private theorem decodeFrom_two (left pads : ℕ) {n : ℕ} (h : n < 64) (rest : List Char) :
    decodeFrom 2 left pads (symbol n :: rest)
      = (decodeFrom 3 (n % 4) 0 rest).map (UInt8.ofNat (left * 16 + n / 4) :: ·) := by
  rw [decodeFrom, if_neg (symbol_ne_pad h), sextet_symbol h]; rfl

private theorem decodeFrom_three (left pads : ℕ) {n : ℕ} (h : n < 64) (rest : List Char) :
    decodeFrom 3 left pads (symbol n :: rest)
      = (decodeFrom 0 0 0 rest).map (UInt8.ofNat (left * 64 + n) :: ·) := by
  rw [decodeFrom, if_neg (symbol_ne_pad h), sextet_symbol h]; rfl

private theorem ofNat_eq {a : UInt8} {n : ℕ} (h : n = a.toNat) : UInt8.ofNat n = a := by
  rw [h, UInt8.ofNat_toNat]

/-- The first byte of a group, from its two characters. -/
private theorem decode_first (a : UInt8) (low : ℕ) (h : low < 16) (rest : List Char) :
    decodeFrom 0 0 0 (symbol (a.toNat / 4) :: symbol (a.toNat % 4 * 16 + low) :: rest)
      = (decodeFrom 2 low 0 rest).map (a :: ·) := by
  have ha := a.toNat_lt
  rw [decodeFrom_zero _ _ (by omega), decodeFrom_one _ _ (by omega), ofNat_eq (a := a) (by omega)]
  have : (a.toNat % 4 * 16 + low) % 16 = low := by omega
  rw [this]

/-- The second byte, from the four bits left and the third character. -/
private theorem decode_second (b : UInt8) (low : ℕ) (h : low < 4) (rest : List Char) :
    decodeFrom 2 (b.toNat / 16) 0 (symbol (b.toNat % 16 * 4 + low) :: rest)
      = (decodeFrom 3 low 0 rest).map (b :: ·) := by
  have hb := b.toNat_lt
  rw [decodeFrom_two _ _ (by omega), ofNat_eq (a := b) (by omega)]
  have : (b.toNat % 16 * 4 + low) % 4 = low := by omega
  rw [this]

theorem decode_encode (bytes : List UInt8) : decode (encode bytes) = some bytes := by
  rw [decode]
  induction bytes using encode.induct with
  | case1 => rfl
  | case2 a =>
    have h := decode_first a 0 (by omega) ['=', '=']
    rw [Nat.add_zero] at h
    rw [encode, h]
    rfl
  | case3 a b =>
    have hb := b.toNat_lt
    have h := decode_second b 0 (by omega) ['=']
    rw [Nat.add_zero] at h
    rw [encode, decode_first a _ (by omega), h]
    rfl
  | case4 a b c rest ih =>
    have hb := b.toNat_lt
    have hc := c.toNat_lt
    rw [encode, decode_first a _ (by omega), decode_second b _ (by omega),
      decodeFrom_three _ _ (by omega), ih, ofNat_eq (a := c) (by omega)]
    rfl

end Base64
