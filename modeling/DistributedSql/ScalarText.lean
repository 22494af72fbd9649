/-
The texts of scalars, and reading them back.

These are the standard library's own conversions, each a writer with its reader:
`str(int)` and `int`, `float.hex` and `float.fromhex`, `str(Decimal)` and
`Decimal`, `isoformat` and `fromisoformat`.  The writers are complete; the
readers take every text the writers produce (and, for `int` and `Decimal`, the
plain numeric grammar), and refuse other spellings the library also knows.

Main results, one per pair:
* `intOfStr_intStr`, `floatFromhex_floatHex`, `decimalOfStr_decimalStr`,
  `dateFromisoformat_dateIsoformat`, `datetimeFromisoformat_datetimeIsoformat`.
-/
import DistributedSql.Values
import DistributedSql.JsonText

namespace DistributedSql

open JsonValue (hexDigit hexValue hexValue_hexDigit)

/-! ### Digits of fixed width -/

/-- `width` digits of `n` in the base, most significant first. -/
def fixedDigits (base : ℕ) : ℕ → ℕ → List Char
  | 0, _ => []
  | width + 1, n => hexDigit (n / base ^ width % base) :: fixedDigits base width n

/-- Read `width` digits of the base onto `acc`. -/
def readFixed (base : ℕ) : ℕ → ℕ → List Char → Option (ℕ × List Char)
  | 0, acc, text => some (acc, text)
  | _ + 1, _, [] => none
  | width + 1, acc, c :: text =>
      match hexValue c with
      | some d => if d < base then readFixed base width (acc * base + d) text else none
      | none => none

theorem readFixed_fixedDigits {base : ℕ} (hb : 0 < base) (hb' : base ≤ 16) (n : ℕ)
    (rest : List Char) : ∀ (width acc : ℕ),
    readFixed base width acc (fixedDigits base width n ++ rest)
      = some (acc * base ^ width + n % base ^ width, rest)
  | 0, acc => by simp [readFixed, fixedDigits, Nat.mod_one]
  | width + 1, acc => by
      have hd : n / base ^ width % base < base := Nat.mod_lt _ hb
      rw [fixedDigits, List.cons_append, readFixed, hexValue_hexDigit (by omega)]
      dsimp only
      rw [if_pos hd, readFixed_fixedDigits hb hb' n rest width, Nat.mod_pow_succ, pow_succ]
      congr 2
      ring

theorem readFixed_of_lt {base width n : ℕ} (hb : 0 < base) (hb' : base ≤ 16)
    (h : n < base ^ width) (rest : List Char) :
    readFixed base width 0 (fixedDigits base width n ++ rest) = some (n, rest) := by
  rw [readFixed_fixedDigits hb hb', Nat.mod_eq_of_lt h, Nat.zero_mul, Nat.zero_add]

/-! ### Integers -/

/-- A minus sign, or nothing. -/
def signText (negative : Bool) : List Char := if negative then ['-'] else []

/-- Split an optional sign off. -/
def readSign : List Char → Bool × List Char
  | '-' :: text => (true, text)
  | '+' :: text => (false, text)
  | text => (false, text)

/-- A non-empty run of decimal digits. -/
def natOfStr (text : List Char) : Option ℕ :=
  if text ≠ [] ∧ text.all Char.isDigit then some (Nat.ofDigitChars 10 text 0) else none

def intStr (i : ℤ) : List Char := signText (i < 0) ++ Nat.toDigits 10 i.natAbs

def intOfStr (text : List Char) : Option ℤ :=
  (natOfStr (readSign text).2).map fun n : ℕ => if (readSign text).1 then -(n : ℤ) else n

private theorem toDigits_all (n : ℕ) : (Nat.toDigits 10 n).all Char.isDigit = true :=
  List.all_eq_true.mpr fun _ hc => Nat.isDigit_of_mem_toDigits (by decide) (by decide) hc

theorem natOfStr_toDigits (n : ℕ) : natOfStr (Nat.toDigits 10 n) = some n := by
  rw [natOfStr, if_pos ⟨Nat.toDigits_ne_nil, toDigits_all n⟩, Nat.ofDigitChars_ten_toDigits]

/-- A text that starts with a digit has no sign to split off. -/
theorem readSign_of_digit {c : Char} {text : List Char} (h : c.isDigit = true) :
    readSign (c :: text) = (false, c :: text) := by
  unfold readSign
  split
  case h_1 heq => cases heq; cases h
  case h_2 heq => cases heq; cases h
  case h_3 => rfl

theorem readSign_signText {text : List Char} (negative : Bool)
    (h : readSign text = (false, text)) :
    readSign (signText negative ++ text) = (negative, text) := by
  cases negative with
  | false => exact h
  | true => rfl

theorem readSign_toDigits (n : ℕ) (rest : List Char) :
    readSign (Nat.toDigits 10 n ++ rest) = (false, Nat.toDigits 10 n ++ rest) := by
  cases h : Nat.toDigits 10 n with
  | nil => exact absurd h Nat.toDigits_ne_nil
  | cons c text =>
    have hc : c.isDigit = true :=
      Nat.isDigit_of_mem_toDigits (b := 10) (n := n) (by decide) (by decide) (by simp [h])
    exact readSign_of_digit hc

theorem intOfStr_intStr (i : ℤ) : intOfStr (intStr i) = some i := by
  have h := readSign_signText (decide (i < 0)) (by simpa using readSign_toDigits i.natAbs [])
  rw [intOfStr, intStr, h]
  dsimp only
  rw [natOfStr_toDigits, Option.map_some]
  by_cases hi : i < 0
  · simp only [hi, decide_true, if_true]
    rw [Int.ofNat_natAbs_of_nonpos hi.le, neg_neg]
  · simp only [hi, decide_false, Bool.false_eq_true, if_false]
    rw [Int.natAbs_of_nonneg (not_lt.mp hi)]

/-- `"%+d" % i`: the sign is always written. -/
def signedIntStr (i : ℤ) : List Char :=
  (if i < 0 then '-' else '+') :: Nat.toDigits 10 i.natAbs

theorem intOfStr_signedIntStr (i : ℤ) : intOfStr (signedIntStr i) = some i := by
  rw [intOfStr, signedIntStr]
  by_cases hi : i < 0
  · rw [if_pos hi]
    show (natOfStr (Nat.toDigits 10 i.natAbs)).map (fun n : ℕ => -(n : ℤ)) = _
    rw [natOfStr_toDigits, Option.map_some, Int.ofNat_natAbs_of_nonpos hi.le, neg_neg]
  · rw [if_neg hi]
    show (natOfStr (Nat.toDigits 10 i.natAbs)).map (fun n : ℕ => (n : ℤ)) = _
    rw [natOfStr_toDigits, Option.map_some, Int.natAbs_of_nonneg (not_lt.mp hi)]

/-! ### Floats -/

/-- `value.hex()`. -/
def floatHex (x : PyFloat) : List Char :=
  if x.exponent.val = 2047 then
    if x.fraction.val = 0 then signText x.negative ++ "inf".toList else "nan".toList
  else
    signText x.negative ++ '0' :: 'x' ::
      if x.exponent.val = 0 then
        if x.fraction.val = 0 then "0.0p+0".toList
        else '0' :: '.' :: (fixedDigits 16 13 x.fraction.val ++ 'p' :: signedIntStr (-1022))
      else
        '1' :: '.' :: (fixedDigits 16 13 x.fraction.val
          ++ 'p' :: signedIntStr ((x.exponent.val : ℤ) - 1023))

/-- `float.fromhex` after the sign. -/
def floatBody (negative : Bool) : List Char → Option PyFloat
  | ['i', 'n', 'f'] => some ⟨negative, 2047, 0⟩
  | ['n', 'a', 'n'] => some ⟨negative, 2047, 2 ^ 51⟩
  | ['0', 'x', '0', '.', '0', 'p', '+', '0'] => some ⟨negative, 0, 0⟩
  | '0' :: 'x' :: lead :: '.' :: digits =>
      match readFixed 16 13 0 digits with
      | some (fraction, 'p' :: exponent) =>
          match intOfStr exponent with
          | none => none
          | some e =>
              if lead = '0' ∧ e = -1022 then some ⟨negative, 0, Fin.ofNat _ fraction⟩
              else if lead = '1' ∧ -1022 ≤ e ∧ e ≤ 1023 then
                some ⟨negative, Fin.ofNat _ (e + 1023).toNat, Fin.ofNat _ fraction⟩
              else none
      | _ => none
  | _ => none

/-- `float.fromhex(text)`. -/
def floatFromhex (text : List Char) : Option PyFloat :=
  floatBody (readSign text).1 (readSign text).2

private theorem floatBody_digits (negative : Bool) (lead : Char) (fraction : Fin (2 ^ 52)) (e : ℤ) :
    floatBody negative ('0' :: 'x' :: lead :: '.' ::
        (fixedDigits 16 13 fraction.val ++ 'p' :: signedIntStr e))
      = if lead = '0' ∧ e = -1022 then some ⟨negative, 0, fraction⟩
        else if lead = '1' ∧ -1022 ≤ e ∧ e ≤ 1023 then
          some ⟨negative, Fin.ofNat _ (e + 1023).toNat, fraction⟩
        else none := by
  have hread : readFixed 16 13 0 (fixedDigits 16 13 fraction.val ++ 'p' :: signedIntStr e)
      = some (fraction.val, 'p' :: signedIntStr e) :=
    readFixed_of_lt (by decide) (by decide) (show fraction.val < 16 ^ 13 from fraction.isLt) _
  have hlen : (fixedDigits 16 13 fraction.val).length = 13 := rfl
  rw [floatBody.eq_def]
  split
  case h_1 heq => cases heq
  case h_2 heq => cases heq
  case h_3 heq =>
    -- too short for thirteen digits
    have := congrArg List.length heq
    simp only [List.length_cons, List.length_append, hlen, List.length_nil] at this
    omega
  case h_4 heq =>
    cases heq
    rw [hread]
    simp only [intOfStr_signedIntStr, Fin.ofNat_val_eq_self]
  case h_5 hne => exact absurd rfl (hne _ _)

/-- Every float but a NaN survives `hex` and `fromhex`. -/
theorem floatFromhex_floatHex {x : PyFloat} (h : x.number ≠ .nan) :
    floatFromhex (floatHex x) = some x := by
  obtain ⟨negative, exponent, fraction⟩ := x
  have hread : ∀ body, readSign body = (false, body) →
      floatFromhex (signText negative ++ body) = floatBody negative body := by
    intro body hb
    rw [floatFromhex, readSign_signText negative hb]
  unfold floatHex
  dsimp only
  split
  case isTrue he =>
    have he' : exponent = 2047 := Fin.ext he
    by_cases hf : fraction.val = 0
    · have hf' : fraction = 0 := Fin.ext hf
      rw [if_pos hf, hread _ rfl, he', hf']
      rfl
    · exact absurd (by simp [PyFloat.number, he, hf]) h
  case isFalse he =>
    rw [hread _ rfl]
    have hlt := exponent.isLt
    by_cases h0 : exponent.val = 0
    · have h0' : exponent = 0 := Fin.ext h0
      rw [if_pos h0]
      by_cases hf : fraction.val = 0
      · have hf' : fraction = 0 := Fin.ext hf
        rw [if_pos hf, h0', hf']
        rfl
      · rw [if_neg hf, floatBody_digits, if_pos ⟨rfl, rfl⟩, h0']
    · rw [if_neg h0, floatBody_digits, if_neg (by simp), if_pos ⟨rfl, by omega, by omega⟩]
      have : ((exponent.val : ℤ) - 1023 + 1023).toNat = exponent.val := by omega
      rw [this, Fin.ofNat_val_eq_self]

/-! ### Decimals -/

/-- `str(value)`, the to-scientific-string of the decimal specification. -/
def decimalStr : PyDecimal → List Char
  | .infinity negative => signText negative ++ "Infinity".toList
  | .nan => "NaN".toList
  | .finite negative coefficient exponent =>
      let digits := Nat.toDigits 10 coefficient
      let leftdigits : ℤ := exponent + digits.length
      let dotplace : ℤ := if exponent ≤ 0 ∧ -6 < leftdigits then leftdigits else 1
      let number :=
        if dotplace ≤ 0 then '0' :: '.' :: (List.replicate (-dotplace).toNat '0' ++ digits)
        else if digits.length ≤ dotplace then
          digits ++ List.replicate (dotplace - digits.length).toNat '0'
        else digits.take dotplace.toNat ++ '.' :: digits.drop dotplace.toNat
      signText negative ++ number
        ++ if leftdigits = dotplace then [] else 'E' :: signedIntStr (leftdigits - dotplace)

/-- The exponent part of a decimal's text. -/
def readExponent : List Char → Option ℤ
  | [] => some 0
  | 'E' :: text => intOfStr text
  | 'e' :: text => intOfStr text
  | _ => none

/-- The digits after a decimal point, if there is one, and the rest. -/
def readPoint : List Char → List Char × List Char
  | '.' :: text => (text.takeWhile Char.isDigit, text.dropWhile Char.isDigit)
  | text => ([], text)

/-- A decimal's text from its fraction part on, after the integer digits. -/
def readFraction (negative : Bool) (intpart : List Char) (text : List Char) : Option PyDecimal :=
  if intpart = [] ∧ (readPoint text).1 = [] then none
  else (readExponent (readPoint text).2).map fun exponent =>
    .finite negative (Nat.ofDigitChars 10 (intpart ++ (readPoint text).1) 0)
      (exponent - (readPoint text).1.length)

/-- `Decimal(text)`. -/
def decimalOfStr (text : List Char) : Option PyDecimal :=
  let (negative, body) := readSign text
  if body = "Infinity".toList then some (.infinity negative)
  else if body = "NaN".toList then some .nan
  else readFraction negative (body.takeWhile Char.isDigit) (body.dropWhile Char.isDigit)

/-- An exponent part as it is written: empty, or `E` with a signed number. -/
private def exponentText : Option ℤ → List Char
  | none => []
  | some e => 'E' :: signedIntStr e

private theorem readExponent_exponentText (e : Option ℤ) :
    readExponent (exponentText e) = some (e.getD 0) := by
  cases e with
  | none => rfl
  | some e => exact intOfStr_signedIntStr e

private theorem takeWhile_digits {digits rest : List Char} (hd : digits.all Char.isDigit = true)
    (hr : ∀ c tail, rest = c :: tail → c.isDigit = false) :
    (digits ++ rest).takeWhile Char.isDigit = digits
      ∧ (digits ++ rest).dropWhile Char.isDigit = rest := by
  have hall : ∀ c ∈ digits, c.isDigit = true := List.all_eq_true.mp hd
  rw [List.takeWhile_append_of_pos hall, List.dropWhile_append_of_pos hall]
  cases rest with
  | nil => simp
  | cons c tail => simp [hr c tail rfl]

private theorem exponentText_head (e : Option ℤ) (c : Char) (tail : List Char)
    (h : exponentText e = c :: tail) : c.isDigit = false := by
  cases e with
  | none => cases h
  | some e => cases h; rfl

/-- Reading a number written in digits, with or without a point. -/
private theorem decimalOfStr_digits (negative : Bool) {intpart : List Char} (fracpart : List Char)
    (dot : Bool) (e : Option ℤ) (hne : intpart ≠ []) (hi : intpart.all Char.isDigit = true)
    (hf : fracpart.all Char.isDigit = true) (hdot : dot = false → fracpart = []) :
    decimalOfStr (signText negative
        ++ (intpart ++ ((if dot then '.' :: fracpart else []) ++ exponentText e)))
      = some (.finite negative (Nat.ofDigitChars 10 (intpart ++ fracpart) 0)
          (e.getD 0 - fracpart.length)) := by
  obtain ⟨c, tail, hc⟩ : ∃ c tail, intpart = c :: tail := List.exists_cons_of_ne_nil hne
  have hcd : c.isDigit = true := List.all_eq_true.mp hi c (by simp [hc])
  set rest := (if dot then '.' :: fracpart else []) ++ exponentText e with hrest
  have hsign : readSign (intpart ++ rest) = (false, intpart ++ rest) := by
    rw [hc, List.cons_append, readSign_of_digit hcd]
  have hhead : ∀ c tail, rest = c :: tail → c.isDigit = false := by
    intro c tail h
    cases dot with
    | true => rw [hrest, if_pos rfl, List.cons_append] at h; cases h; rfl
    | false => exact exponentText_head e c tail (by simpa [hrest] using h)
  have hword : ∀ word : List Char, word.head?.all (!·.isDigit) = true →
      intpart ++ rest ≠ word := by
    rintro word hw rfl
    simp [hc, hcd] at hw
  obtain ⟨htake, hdrop⟩ := takeWhile_digits hi hhead
  rw [decimalOfStr, readSign_signText negative hsign]
  dsimp only
  rw [if_neg (hword _ rfl), if_neg (hword _ rfl), htake, hdrop, readFraction]
  have hpoint : readPoint rest = (fracpart, exponentText e) := by
    cases dot with
    | true =>
      obtain ⟨hftake, hfdrop⟩ := takeWhile_digits hf (exponentText_head e)
      rw [hrest, if_pos rfl, List.cons_append, readPoint, hftake, hfdrop]
    | false =>
      rw [hrest, if_neg (by decide), List.nil_append, hdot rfl]
      cases e <;> rfl
  rw [hpoint, if_neg (fun h => hne h.1)]
  dsimp only
  rw [readExponent_exponentText, Option.map_some]

/-- A decimal survives `str` and `Decimal`, digits and exponent unchanged. -/
theorem decimalOfStr_decimalStr (d : PyDecimal) : decimalOfStr (decimalStr d) = some d := by
  cases d with
  | infinity negative => cases negative <;> rfl
  | nan => rfl
  | finite negative coefficient exponent =>
    have hdig := toDigits_all coefficient
    have hne : Nat.toDigits 10 coefficient ≠ [] := Nat.toDigits_ne_nil
    have hval : Nat.ofDigitChars 10 (Nat.toDigits 10 coefficient) 0 = coefficient :=
      Nat.ofDigitChars_ten_toDigits
    rw [decimalStr]
    generalize Nat.toDigits 10 coefficient = digits at *
    have hlen : 0 < digits.length := List.length_pos_iff.mpr hne
    set left : ℤ := exponent + digits.length with hleft
    set place : ℤ := if exponent ≤ 0 ∧ -6 < left then left else 1 with hplace
    -- the exponent written after the number, whatever its shape
    have hexp : (if left = place then [] else 'E' :: signedIntStr (left - place))
        = exponentText (if left = place then none else some (left - place)) := by
      split <;> rfl
    have hget : (if left = place then none else some (left - place)).getD 0 = left - place := by
      split
      case isTrue h => rw [Option.getD_none, h, sub_self]
      case isFalse => rfl
    rw [hexp, List.append_assoc]
    by_cases h0 : place ≤ 0
    · have hpl : place = left := by
        rw [hplace] at h0 ⊢
        split
        · rfl
        · rename_i hc; rw [if_neg hc] at h0; omega
      have hz : (List.replicate (-place).toNat '0' ++ digits).all Char.isDigit = true := by
        rw [List.all_append, hdig, Bool.and_true, List.all_eq_true]
        intro c hc
        rw [List.eq_of_mem_replicate hc]; rfl
      have h := decimalOfStr_digits negative _ true
        (if left = place then none else some (left - place)) (List.cons_ne_nil '0' []) rfl hz
        (by simp)
      rw [if_pos h0]
      simp only [if_true, List.cons_append, List.nil_append] at h ⊢
      rw [h, hget, Nat.ofDigitChars_cons, Nat.ofDigitChars_append]
      simp only [Char.reduceToNat, Nat.sub_self, Nat.mul_zero, Nat.add_zero,
        Nat.ofDigitChars_replicate_zero, hval, List.length_append, List.length_replicate]
      congr 2
      omega
    · rw [if_neg h0]
      by_cases hge : (digits.length : ℤ) ≤ place
      · have hpl : place = digits.length := by
          rw [hplace] at hge ⊢
          split
          · rename_i hc; rw [if_pos hc] at hge; omega
          · rename_i hc; rw [if_neg hc] at hge; omega
        have h := decimalOfStr_digits negative [] false
          (if left = place then none else some (left - place)) hne hdig rfl (fun _ => rfl)
        rw [if_pos hge, hpl, sub_self]
        rw [hpl] at h hget
        simp only [Bool.false_eq_true, if_false, List.nil_append, List.append_nil,
          List.length_nil] at h
        simp only [Int.toNat_zero, List.replicate_zero, List.append_nil]
        rw [h, hget, hval]
        congr 2
        omega
      · rw [if_neg hge]
        have hdrop : (digits.drop place.toNat).length = digits.length - place.toNat :=
          List.length_drop
        have htake : digits.take place.toNat ≠ [] := by
          intro h
          rw [List.take_eq_nil_iff] at h
          rcases h with h | h
          · omega
          · exact hne h
        have hall : ∀ c ∈ digits, c.isDigit = true := List.all_eq_true.mp hdig
        have h := decimalOfStr_digits negative (digits.drop place.toNat) true
          (if left = place then none else some (left - place)) htake
          (List.all_eq_true.mpr fun c hc => hall c (List.mem_of_mem_take hc))
          (List.all_eq_true.mpr fun c hc => hall c (List.mem_of_mem_drop hc)) (by simp)
        rw [if_pos rfl, List.take_append_drop, hval, hget, hdrop] at h
        rw [List.append_assoc, h]
        congr 2
        omega

/-! ### Dates and times -/

/-- `date.isoformat()`. -/
def dateIsoformat (d : PyDate) : List Char :=
  fixedDigits 10 4 d.year ++ '-' :: (fixedDigits 10 2 d.month ++ '-' :: fixedDigits 10 2 d.day)

/-- `YYYY-MM-DD` off the front of a text. -/
def readDate (text : List Char) : Option (PyDate × List Char) :=
  match readFixed 10 4 0 text with
  | some (year, '-' :: text) =>
      match readFixed 10 2 0 text with
      | some (month, '-' :: text) =>
          match readFixed 10 2 0 text with
          | some (day, text) =>
              if h : isDate year month day = true then some (⟨year, month, day, h⟩, text) else none
          | none => none
      | _ => none
  | _ => none

/-- `date.fromisoformat(text)`. -/
def dateFromisoformat (text : List Char) : Option PyDate :=
  match readDate text with
  | some (d, []) => some d
  | _ => none

/-- `HH:MM`, with seconds if asked for, with microseconds unless they are zero. -/
def clockText (seconds : Bool) (hour minute second microsecond : ℕ) : List Char :=
  fixedDigits 10 2 hour ++ ':' :: (fixedDigits 10 2 minute ++
    if seconds then
      ':' :: (fixedDigits 10 2 second ++
        if microsecond = 0 then [] else '.' :: fixedDigits 10 6 microsecond)
    else [])

/-- `datetime.isoformat()`: a UTC offset shows its seconds only if it has any. -/
def datetimeIsoformat (t : PyDateTime) : List Char :=
  dateIsoformat t.date ++ 'T' :: (clockText true t.hour t.minute t.second t.microsecond ++
    match t.utcoffset with
    | none => []
    | some offset =>
        let second := offset.natAbs / 1000000 % 60
        let microsecond := offset.natAbs % 1000000
        (if offset < 0 then '-' else '+') ::
          clockText (second ≠ 0 ∨ microsecond ≠ 0) (offset.natAbs / 3600000000)
            (offset.natAbs / 60000000 % 60) second microsecond)

/-- `.ffffff`, if it is there. -/
def readMicrosecond : List Char → Option (ℕ × List Char)
  | '.' :: text => readFixed 10 6 0 text
  | text => some (0, text)

/-- `:SS[.ffffff]`, if it is there. -/
def readSecond : List Char → Option ((ℕ × ℕ) × List Char)
  | ':' :: text =>
      match readFixed 10 2 0 text with
      | none => none
      | some (second, text) =>
          (readMicrosecond text).map fun out => ((second, out.1), out.2)
  | text => some ((0, 0), text)

/-- `HH:MM[:SS[.ffffff]]` off the front of a text. -/
def readClock (text : List Char) : Option ((ℕ × ℕ × ℕ × ℕ) × List Char) :=
  match readFixed 10 2 0 text with
  | some (hour, ':' :: text) =>
      match readFixed 10 2 0 text with
      | none => none
      | some (minute, text) =>
          (readSecond text).map fun out => ((hour, minute, out.1.1, out.1.2), out.2)
  | _ => none

/-- The UTC offset after a time. -/
def readOffset : List Char → Option (Option ℤ)
  | [] => some none
  | sign :: text =>
      if sign = '+' ∨ sign = '-' then
        match readClock text with
        | some ((hour, minute, second, microsecond), []) =>
            let offset : ℤ := ((hour * 60 + minute) * 60 + second) * 1000000 + microsecond
            some (some (if sign = '-' then -offset else offset))
        | _ => none
      else if sign = 'Z' ∧ text = [] then some (some 0)
      else none

/-- `datetime.fromisoformat(text)`. -/
def datetimeFromisoformat (text : List Char) : Option PyDateTime :=
  match readDate text with
  | some (date, _ :: text) =>
      match readClock text with
      | none => none
      | some ((hour, minute, second, microsecond), text) =>
          match readOffset text with
          | none => none
          | some utcoffset =>
              if h : isTime hour minute second microsecond utcoffset = true then
                some ⟨date, hour, minute, second, microsecond, utcoffset, h⟩
              else none
  | _ => none

theorem readDate_dateIsoformat (d : PyDate) (rest : List Char) :
    readDate (dateIsoformat d ++ rest) = some (d, rest) := by
  obtain ⟨year, month, day, valid⟩ := d
  have hv := valid
  simp only [isDate, Bool.and_eq_true, decide_eq_true_eq] at hv
  have hday : daysInMonth year month ≤ 31 := by
    unfold daysInMonth
    split
    · split <;> omega
    all_goals omega
  rw [readDate, dateIsoformat, List.append_assoc]
  dsimp only
  rw [readFixed_of_lt (by decide) (by decide) (by omega)]
  simp only [List.cons_append, List.append_assoc]
  rw [readFixed_of_lt (by decide) (by decide) (by omega)]
  simp only
  rw [readFixed_of_lt (by decide) (by decide) (by omega)]
  simp only [valid, dif_pos]

theorem dateFromisoformat_dateIsoformat (d : PyDate) :
    dateFromisoformat (dateIsoformat d) = some d := by
  have h := readDate_dateIsoformat d []
  rw [List.append_nil] at h
  rw [dateFromisoformat, h]

private theorem readClock_clockText (seconds : Bool) (hour minute second microsecond : ℕ)
    {rest : List Char} (hh : hour < 100) (hm : minute < 100) (hs : second < 100)
    (hus : microsecond < 1000000) (hzero : seconds = false → second = 0 ∧ microsecond = 0)
    (hrest : ∀ c tail, rest = c :: tail → c ≠ ':' ∧ c ≠ '.') :
    readClock (clockText seconds hour minute second microsecond ++ rest)
      = some ((hour, minute, second, microsecond), rest) := by
  have hmicro : readMicrosecond
      ((if microsecond = 0 then [] else '.' :: fixedDigits 10 6 microsecond) ++ rest)
        = some (microsecond, rest) := by
    by_cases h0 : microsecond = 0
    · rw [if_pos h0, h0, List.nil_append]
      unfold readMicrosecond
      split
      case h_1 => exact absurd rfl (hrest _ _ rfl).2
      case h_2 => rfl
    · rw [if_neg h0, List.cons_append, readMicrosecond,
        readFixed_of_lt (by decide) (by decide) (by omega)]
  rw [readClock, clockText, List.append_assoc,
    readFixed_of_lt (by decide) (by decide) (by omega)]
  simp only [List.cons_append, List.append_assoc]
  rw [readFixed_of_lt (by decide) (by decide) (by omega)]
  simp only
  cases seconds with
  | true =>
    rw [if_pos rfl, List.cons_append, readSecond, List.append_assoc,
      readFixed_of_lt (by decide) (by decide) (by omega)]
    simp only [hmicro, Option.map_some]
  | false =>
    obtain ⟨rfl, rfl⟩ := hzero rfl
    rw [if_neg (by decide), List.nil_append]
    have hsecond : readSecond rest = some ((0, 0), rest) := by
      unfold readSecond
      split
      case h_1 => exact absurd rfl (hrest _ _ rfl).1
      case h_2 => rfl
    rw [hsecond, Option.map_some]

/-- The offset part of an ISO text reads back. -/
private theorem readOffset_isoformat (offset : ℤ) (h : offset.natAbs < dayMicroseconds) :
    readOffset ((if offset < 0 then '-' else '+') ::
        clockText (offset.natAbs / 1000000 % 60 ≠ 0 ∨ offset.natAbs % 1000000 ≠ 0)
          (offset.natAbs / 3600000000) (offset.natAbs / 60000000 % 60)
          (offset.natAbs / 1000000 % 60) (offset.natAbs % 1000000))
      = some (some offset) := by
  rw [dayMicroseconds] at h
  have hclock := readClock_clockText
    (decide (offset.natAbs / 1000000 % 60 ≠ 0 ∨ offset.natAbs % 1000000 ≠ 0))
    (offset.natAbs / 3600000000) (offset.natAbs / 60000000 % 60)
    (offset.natAbs / 1000000 % 60) (offset.natAbs % 1000000)
    (by omega) (by omega) (by omega) (by omega)
    (fun hf => by simpa using of_decide_eq_false hf) (by rintro _ _ (h : [] = _ :: _); cases h)
  rw [List.append_nil] at hclock
  rw [readOffset, hclock]
  by_cases hneg : offset < 0
  · simp only [hneg, if_true]
    simp only [or_true, if_true, Option.some.injEq]
    omega
  · simp only [hneg, if_false]
    simp only [true_or, if_true, show ¬('+' = '-') by decide, if_false, Option.some.injEq]
    omega

theorem datetimeFromisoformat_datetimeIsoformat (t : PyDateTime) :
    datetimeFromisoformat (datetimeIsoformat t) = some t := by
  obtain ⟨date, hour, minute, second, microsecond, utcoffset, valid⟩ := t
  have hv := valid
  simp only [isTime, Bool.and_eq_true, decide_eq_true_eq] at hv
  obtain ⟨⟨⟨⟨hh, hm⟩, hs⟩, hus⟩, hoff⟩ := hv
  rw [datetimeFromisoformat, datetimeIsoformat, readDate_dateIsoformat]
  dsimp only
  cases utcoffset with
  | none =>
    rw [readClock_clockText _ _ _ _ _ (by omega) (by omega) (by omega) hus (by simp)
      (fun _ _ h => by cases h)]
    simp only [readOffset, valid, dif_pos]
  | some offset =>
    have hoff' : offset.natAbs < dayMicroseconds := by simpa using hoff
    rw [readClock_clockText _ _ _ _ _ (by omega) (by omega) (by omega) hus (by simp)]
    · simp only
      rw [readOffset_isoformat offset hoff']
      simp only [valid, dif_pos]
    · intro c tail h
      cases h
      split <;> decide

end DistributedSql
