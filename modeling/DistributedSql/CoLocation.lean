/-
Whether the shuffle sends one key to one partition.

The hash join and the aggregate keep their rows in dictionaries, where two key
tuples are one key when they are equal and have equal hashes.  `_partition`
digests the JSON text of the tuple instead, and equal values may be written
differently: `1` and `1.0`, `1` and `true`, decimals of two scales, `0.0` and `-0.0`.

Main results:
* `shuffleText_injective` — the text tells unequal representations of one key apart;
* `colocated_iff` — one key goes to one partition for every count exactly when
  both tuples hold it in the same representation.
-/
import DistributedSql.Shuffle

namespace DistributedSql

/-- Two tuples that a dictionary of the engine takes for one key. -/
def SameKey (py : Python) (left right : List SQLValue) : Prop :=
  tupleEq left right = true ∧ py.hash left = py.hash right

/-- The number that the first eight digest bytes of a text spell. -/
def digestNumber (py : Python) (text : String) : ℕ :=
  bigEndian ((py.sha256 text.toUTF8).take 8)

/-- What Python documents of the texts of these values: the `repr` of a finite float
is a number with a point or an exponent, and no other float's; `str` of a decimal
is its scientific string; and `str` tells timestamps apart. -/
structure PrintsApart (py : Python) (values : List SQLValue) : Prop where
  float_isNumber : ∀ x q, .float x ∈ values → x.number = .finite q →
    JsonValue.isNumber (py.str (.float x)).toList = true
  float_point : ∀ x q, .float x ∈ values → x.number = .finite q →
    '.' ∈ (py.str (.float x)).toList ∨ 'e' ∈ (py.str (.float x)).toList
  float_injective : ∀ x y, .float x ∈ values → .float y ∈ values →
    py.str (.float x) = py.str (.float y) → x = y
  decimal : ∀ d, .decimal d ∈ values → py.str (.decimal d) = String.ofList (decimalStr d)
  datetime_injective : ∀ t u, .datetime t ∈ values → .datetime u ∈ values →
    py.str (.datetime t) = py.str (.datetime u) → t = u

namespace CoLocation

variable {py : Python}

/-! ### Equal values -/

/-- The order on numbers loses none of them but NaN. -/
private theorem number_eq_of_rank {x y : Number} (hx : x ≠ .nan) (hy : y ≠ .nan)
    (h : x.rank = y.rank) : x = y := by
  cases x with
  | nan => exact absurd rfl hx
  | finite p =>
    cases y with
    | nan => exact absurd rfl hy
    | finite q => rw [WithTop.coe_injective (WithBot.coe_injective h)]
    | infinity negative =>
      cases negative with
      | true => cases h
      | false => exact absurd (WithBot.coe_injective h) WithTop.coe_ne_top
  | infinity negative =>
    cases y with
    | nan => exact absurd rfl hy
    | finite q =>
      cases negative with
      | true => cases h
      | false => exact absurd (WithBot.coe_injective h).symm WithTop.coe_ne_top
    | infinity other =>
      cases negative <;> cases other <;> first | rfl | cases h

private theorem fields_injective :
    Function.Injective fun l : List ℕ => (Sum.inrₗ (Sum.inrₗ (Sum.inlₗ l)) : Rank) :=
  Sum.inr_injective.comp (Sum.inr_injective.comp Sum.inl_injective)

/-- Values that are `==` are the same, or the same number, or timestamps. -/
theorem eq_cases {v w : SQLValue} (h : v.eq w = true) :
    v = w ∨ (∃ x, v.number? = some x ∧ w.number? = some x ∧ x ≠ .nan)
      ∨ ∃ t u, v = .datetime t ∧ w = .datetime u := by
  obtain ⟨rfl, rfl⟩ | h := SQLValue.eq_iff_order.mp h
  · exact Or.inl rfl
  have hrank : v.rank = w.rank := SQLValue.order_compares h
  unfold SQLValue.order at h
  split at h
  case h_1 a b =>
    rw [Except.ok.injEq, Option.some.injEq, cmp_eq_eq_iff] at h
    exact Or.inl (h ▸ rfl)
  case h_2 a b =>
    rw [Except.ok.injEq, Option.some.injEq, cmp_eq_eq_iff] at h
    exact Or.inl (h ▸ rfl)
  case h_3 a b _ =>
    refine Or.inl (congrArg SQLValue.bytes ?_)
    exact List.map_injective_iff.mpr (fun _ _ hb => UInt8.toNat_inj.mp hb) (fields_injective hrank)
  case h_4 a b _ =>
    obtain ⟨year, month, day, _⟩ := a
    obtain ⟨year', month', day', _⟩ := b
    have hfields := fields_injective hrank
    simp only [PyDate.fields, List.cons.injEq, and_true] at hfields
    obtain ⟨rfl, rfl, rfl⟩ := hfields
    exact Or.inl rfl
  case h_5 a b _ => exact Or.inr (Or.inr ⟨a, b, rfl, rfl⟩)
  case h_6 =>
    split at h
    case h_1 x y hx hy =>
      unfold orderNumbers at h
      split at h
      · split at h <;> cases h
      · next hnan =>
        rw [Except.ok.injEq, Option.some.injEq, cmp_eq_eq_iff] at h
        obtain ⟨hxn, hyn⟩ := not_or.mp hnan
        have hxy := number_eq_of_rank hxn hyn h
        exact Or.inr (Or.inl ⟨x, hx, hxy ▸ hy, hxn⟩)
    case h_2 => cases h

/-! ### The text of a value -/

/-- What the text of one value is among the values of a tuple. -/
def valueText (py : Python) (v : SQLValue) : List Char :=
  JsonValue.render (JsonValue.sortKeys (stableJson py v))

/-- The text of the values after the first. -/
def itemsText (py : Python) (values : List SQLValue) : List Char :=
  JsonValue.renderItems (JsonValue.sortKeysItems (values.map (stableJson py)))

theorem itemsText_cons (v : SQLValue) (values : List SQLValue) :
    itemsText py (v :: values) = ',' :: (valueText py v ++ itemsText py values) := rfl

theorem shuffleText_cons (v : SQLValue) (values : List SQLValue) :
    shuffleText py (v :: values)
      = String.ofList ('[' :: (valueText py v ++ itemsText py values)) := rfl

/-- What may follow the text of a value. -/
def Ends (rest : List Char) : Prop := ∃ c tail, rest = c :: tail ∧ (c = ',' ∨ c = ']')

theorem ends_itemsText (values : List SQLValue) : Ends (itemsText py values) := by
  cases values with
  | nil => exact ⟨']', [], rfl, Or.inr rfl⟩
  | cons v values => exact ⟨',', _, rfl, Or.inl rfl⟩

/-- The characters of a number, of `true` and `false`, and of `Infinity` and `NaN`. -/
def isBareChar (c : Char) : Bool := c != ',' && c != ']' && c != '"'

/-- A text without quotes. -/
def Bare (text : List Char) : Prop := ∀ c ∈ text, isBareChar c = true

private theorem takeWhile_bare {text rest : List Char} (h : Bare text) (hr : Ends rest) :
    (text ++ rest).takeWhile isBareChar = text := by
  obtain ⟨c, tail, rfl, hc⟩ := hr
  rw [List.takeWhile_append_of_pos h, List.takeWhile_cons_of_neg, List.append_nil]
  rcases hc with rfl | rfl <;> decide

/-- Two bare texts that read alike are the same. -/
theorem bare_eq {text text' rest rest' : List Char} (h : Bare text) (h' : Bare text')
    (hr : Ends rest) (hr' : Ends rest') (heq : text ++ rest = text' ++ rest') : text = text' := by
  rw [← takeWhile_bare h hr, heq, takeWhile_bare h' hr']

/-- A bare text does not read like a quoted one. -/
theorem bare_ne_quoted {text rest : List Char} {quoted : String} {rest' : List Char}
    (h : Bare text) (hr : Ends rest) :
    text ++ rest ≠ JsonValue.render (.string quoted) ++ rest' := by
  intro heq
  cases text with
  | nil =>
    obtain ⟨c, tail, rfl, hc⟩ := hr
    have hhead : c = '"' := (List.cons_eq_cons.mp heq).1
    rcases hc with rfl | rfl <;> exact absurd hhead (by decide)
  | cons c text =>
    have hhead : c = '"' := (List.cons_eq_cons.mp heq).1
    exact absurd (h c List.mem_cons_self) (hhead ▸ by decide)

/-- Two quoted texts that read alike quote the same string. -/
theorem quoted_eq {text text' : String} {rest rest' : List Char}
    (h : JsonValue.render (.string text) ++ rest = JsonValue.render (.string text') ++ rest') :
    text = text' := by
  simp only [JsonValue.render, List.cons_append, List.append_assoc, List.cons.injEq, true_and,
    List.nil_append] at h
  have hread := JsonValue.parseString_escape text.toList rest
  rw [h, JsonValue.parseString_escape, Option.some.injEq, Prod.mk.injEq] at hread
  exact String.toList_inj.mp hread.1.symm

/-! ### Numbers -/

private theorem intStr_chars (i : ℤ) : ∀ c ∈ intStr i, c = '-' ∨ c.isDigit = true := by
  intro c hc
  rcases List.mem_append.mp hc with hc | hc
  · unfold signText at hc
    split at hc
    · exact Or.inl (List.mem_singleton.mp hc)
    · exact absurd hc List.not_mem_nil
  · exact Or.inr (Nat.isDigit_of_mem_toDigits (by decide) (by decide) hc)

theorem valueText_int (i : ℤ) : valueText py (.int i) = intStr i := String.toList_ofList

theorem valueText_float {x : PyFloat} {q : ℚ} (h : x.number = .finite q) :
    valueText py (.float x) = (py.str (.float x)).toList := by
  simp [valueText, stableJson, jsonFloat, h, JsonValue.sortKeys, JsonValue.render]

theorem valueText_infinity {x : PyFloat} {negative : Bool} (h : x.number = .infinity negative) :
    valueText py (.float x) = signText negative ++ "Infinity".toList := by
  cases negative <;>
    simp [valueText, stableJson, jsonFloat, h, JsonValue.sortKeys, JsonValue.render, signText]

/-- An infinite float has no other representation. -/
private theorem float_eq_of_infinity {x y : PyFloat} {negative : Bool}
    (hx : x.number = .infinity negative) (hy : y.number = .infinity negative) : x = y := by
  have fields : ∀ z : PyFloat, z.number = .infinity negative →
      z.exponent.val = 2047 ∧ z.fraction.val = 0 ∧ z.negative = negative := by
    intro z hz
    unfold PyFloat.number at hz
    split at hz
    · next he =>
      split at hz
      · next hf => exact ⟨he, hf, Number.infinity.inj hz⟩
      · cases hz
    · split at hz <;> cases hz
  obtain ⟨negative₁, exponent₁, fraction₁⟩ := x
  obtain ⟨negative₂, exponent₂, fraction₂⟩ := y
  obtain ⟨he, hf, hn⟩ := fields _ hx
  obtain ⟨he', hf', hn'⟩ := fields _ hy
  rw [PyFloat.mk.injEq]
  exact ⟨hn.trans hn'.symm, Fin.ext (he.trans he'.symm), Fin.ext (hf.trans hf'.symm)⟩

/-- The numbers that are written without quotes. -/
def isBareNumber : SQLValue → Bool
  | .bool _ | .int _ | .float _ => true
  | _ => false

private theorem isDecimal_of_number {v : SQLValue} {x : Number} (h : v.number? = some x)
    (hbare : isBareNumber v = false) : ∃ d, v = .decimal d := by
  cases v with
  | decimal d => exact ⟨d, rfl⟩
  | bool _ | int _ | float _ => cases hbare
  | _ => cases h

private theorem bare_of_number {text : List Char}
    (h : ∀ c ∈ text, JsonValue.isNumberChar c = true) : Bare text := by
  intro c hc
  have hnumber := h c hc
  simp only [isBareChar, Bool.and_eq_true, bne_iff_ne]
  refine ⟨⟨?_, ?_⟩, ?_⟩ <;>
    · rintro rfl
      exact absurd hnumber (by decide)

private theorem int_isNumberChar (i : ℤ) :
    ∀ c ∈ valueText py (.int i), JsonValue.isNumberChar c = true := by
  intro c hc
  rw [valueText_int] at hc
  obtain rfl | hdigit := intStr_chars i c hc
  · rfl
  · simp [JsonValue.isNumberChar, hdigit]

/-- A bool is not written like a number. -/
private theorem bool_text_ne {b : Bool} {text : List Char}
    (h : ∀ c ∈ text, JsonValue.isNumberChar c = true) : valueText py (.bool b) ≠ text := by
  rintro rfl
  cases b with
  | true => exact absurd (h 't' List.mem_cons_self) (by decide)
  | false => exact absurd (h 'f' List.mem_cons_self) (by decide)

variable {values : List SQLValue} (hprints : PrintsApart py values)

include hprints

private theorem float_isNumberChar {x : PyFloat} {q : ℚ} (hx : .float x ∈ values)
    (h : x.number = .finite q) : ∀ c ∈ valueText py (.float x), JsonValue.isNumberChar c = true := by
  rw [valueText_float h]
  exact JsonValue.isNumber_all (hprints.float_isNumber x q hx h)

theorem bare_valueText {v : SQLValue} {x : Number} (hv : v ∈ values) (hbare : isBareNumber v = true)
    (hx : v.number? = some x) (hnan : x ≠ .nan) : Bare (valueText py v) := by
  cases v with
  | bool b => cases b <;> exact List.all_eq_true.mp rfl
  | int i => exact bare_of_number (int_isNumberChar i)
  | float y =>
    cases hy : y.number with
    | finite q => exact bare_of_number (float_isNumberChar hprints hv hy)
    | infinity negative =>
      rw [valueText_infinity hy]
      cases negative <;> exact List.all_eq_true.mp rfl
    | nan => exact absurd ((Option.some.inj hx).symm.trans hy) hnan
  | _ => cases hbare

/-- An int is not written like a float. -/
private theorem int_text_ne {i : ℤ} {x : PyFloat} {q : ℚ} (hx : .float x ∈ values)
    (h : x.number = .finite q) : valueText py (.int i) ≠ valueText py (.float x) := by
  intro heq
  rw [valueText_int, valueText_float h] at heq
  have hchars := intStr_chars i
  rw [heq] at hchars
  rcases hprints.float_point x q hx h with hc | hc <;>
    exact absurd (hchars _ hc) (by decide)

/-- Numbers of one value that are written alike without quotes are the same. -/
theorem bareNumber_injective {v w : SQLValue} {x : Number} (hv : v ∈ values) (hw : w ∈ values)
    (hvbare : isBareNumber v = true) (hwbare : isBareNumber w = true) (hvx : v.number? = some x)
    (hwx : w.number? = some x) (hnan : x ≠ .nan) (h : valueText py v = valueText py w) : v = w := by
  -- a float that equals a bool or an int is finite
  have finite : ∀ {y : PyFloat} {q : ℚ}, y.number = x → x = .finite q → y.number = .finite q :=
    fun hy hq => hy.trans hq
  cases v with
  | bool b =>
    have hq := (Option.some.inj hvx).symm
    cases w with
    | bool b' => cases b <;> cases b' <;> first | rfl | exact absurd (List.cons_eq_cons.mp h).1 (by decide)
    | int j => exact absurd h (bool_text_ne (int_isNumberChar j))
    | float y =>
      have hy := finite (Option.some.inj hwx) hq
      exact absurd h (bool_text_ne (float_isNumberChar hprints hw hy))
    | _ => cases hwbare
  | int i =>
    have hq := (Option.some.inj hvx).symm
    cases w with
    | bool b => exact absurd h.symm (bool_text_ne (int_isNumberChar i))
    | int j =>
      have hij := Number.finite.inj ((Option.some.inj hvx).trans (Option.some.inj hwx).symm)
      rw [Int.cast_injective hij]
    | float y => exact absurd h (int_text_ne hprints hw (finite (Option.some.inj hwx) hq))
    | _ => cases hwbare
  | float y =>
    have hy := Option.some.inj hvx
    cases w with
    | bool b =>
      have hfinite := finite hy (Option.some.inj hwx).symm
      exact absurd h.symm (bool_text_ne (float_isNumberChar hprints hv hfinite))
    | int j =>
      exact absurd h.symm (int_text_ne hprints hv (finite hy (Option.some.inj hwx).symm))
    | float z =>
      have hz := Option.some.inj hwx
      cases x with
      | nan => exact absurd rfl hnan
      | infinity negative => rw [float_eq_of_infinity hy hz]
      | finite q =>
        rw [valueText_float hy, valueText_float hz] at h
        rw [hprints.float_injective y z hv hw (String.toList_inj.mp h)]
    | _ => cases hwbare
  | _ => cases hvbare

/-! ### The text of a tuple -/

/-- Equal values whose texts read alike are the same value. -/
theorem valueText_injective {v w : SQLValue} (hv : v ∈ values) (hw : w ∈ values)
    (heq : v.eq w = true) {rest rest' : List Char} (hr : Ends rest) (hr' : Ends rest')
    (h : valueText py v ++ rest = valueText py w ++ rest') : v = w := by
  obtain rfl | ⟨x, hvx, hwx, hnan⟩ | ⟨t, u, rfl, rfl⟩ := eq_cases heq
  · rfl
  · cases hvbare : isBareNumber v with
    | true =>
      have hvtext := bare_valueText hprints hv hvbare hvx hnan
      cases hwbare : isBareNumber w with
      | true =>
        have hwtext := bare_valueText hprints hw hwbare hwx hnan
        exact bareNumber_injective hprints hv hw hvbare hwbare hvx hwx hnan
          (bare_eq hvtext hwtext hr hr' h)
      | false =>
        obtain ⟨d, rfl⟩ := isDecimal_of_number hwx hwbare
        exact absurd h (bare_ne_quoted hvtext hr)
    | false =>
      obtain ⟨d, rfl⟩ := isDecimal_of_number hvx hvbare
      cases hwbare : isBareNumber w with
      | true =>
        exact absurd h.symm (bare_ne_quoted (bare_valueText hprints hw hwbare hwx hnan) hr')
      | false =>
        obtain ⟨d', rfl⟩ := isDecimal_of_number hwx hwbare
        have htext := quoted_eq h
        rw [hprints.decimal d hv, hprints.decimal d' hw] at htext
        have hread := decimalOfStr_decimalStr d
        rw [String.ofList_injective htext, decimalOfStr_decimalStr] at hread
        rw [Option.some.inj hread]
  · rw [hprints.datetime_injective t u hv hw (quoted_eq h)]

theorem itemsText_injective {left right : List SQLValue} (hl : left ⊆ values) (hr : right ⊆ values)
    (heq : tupleEq left right = true) (h : itemsText py left = itemsText py right) :
    left = right := by
  induction left generalizing right with
  | nil =>
    cases right with
    | nil => rfl
    | cons w right => cases heq
  | cons v left ih =>
    cases right with
    | nil => cases heq
    | cons w right =>
      obtain ⟨hvw, htail⟩ := Bool.and_eq_true_iff.mp heq
      obtain ⟨hv, hleft⟩ := List.cons_subset.mp hl
      obtain ⟨hw, hright⟩ := List.cons_subset.mp hr
      rw [itemsText_cons, itemsText_cons, List.cons_eq_cons] at h
      have hsame := valueText_injective hprints hv hw hvw (ends_itemsText left)
        (ends_itemsText right) h.2
      rw [hsame] at h ⊢
      rw [ih hleft hright htail (List.append_cancel_left h.2)]

/-- The text tells two representations of one key apart. -/
theorem shuffleText_injective {left right : List SQLValue} (hl : left ⊆ values)
    (hr : right ⊆ values) (heq : tupleEq left right = true)
    (h : shuffleText py left = shuffleText py right) : left = right := by
  refine itemsText_injective hprints hl hr heq ?_
  cases left with
  | nil =>
    cases right with
    | nil => rfl
    | cons w right => cases heq
  | cons v left =>
    cases right with
    | nil => cases heq
    | cons w right =>
      rw [shuffleText_cons, shuffleText_cons] at h
      rw [itemsText_cons, itemsText_cons, (List.cons_eq_cons.mp (String.ofList_injective h)).2]

end CoLocation

/-! ### Co-location -/

section

variable {py : Python}

theorem shufflePartition_eq {keys : List Expression} {row : Row} {values : List SQLValue}
    (h : Expression.evaluateAll py row keys = .ok values) (partitionCount : ℕ) :
    shufflePartition py keys partitionCount row
      = .ok (digestNumber py (shuffleText py values) % partitionCount) := by
  rw [shufflePartition, h]
  rfl

/-- Two tuples that are one key go to the same partition, for every count, exactly
when they are the same representation of it: each value of one class, one scale and
one sign of zero.  The two texts may not share the digest bytes that are used. -/
theorem colocated_iff {leftKeys rightKeys : List Expression} {leftRow rightRow : Row}
    {left right : List SQLValue} (hleft : Expression.evaluateAll py leftRow leftKeys = .ok left)
    (hright : Expression.evaluateAll py rightRow rightKeys = .ok right)
    (hsame : SameKey py left right) (hprints : PrintsApart py (left ++ right))
    (hsha : digestNumber py (shuffleText py left) = digestNumber py (shuffleText py right) →
      shuffleText py left = shuffleText py right) :
    (∀ partitionCount, 0 < partitionCount →
        shufflePartition py leftKeys partitionCount leftRow
          = shufflePartition py rightKeys partitionCount rightRow)
      ↔ left = right := by
  simp only [shufflePartition_eq hleft, shufflePartition_eq hright, Except.ok.injEq]
  constructor
  · intro h
    -- a count beyond both numbers gives the numbers themselves
    set n := digestNumber py (shuffleText py left)
    set m := digestNumber py (shuffleText py right)
    have hnm := h (n + m + 1) (Nat.succ_pos _)
    rw [Nat.mod_eq_of_lt (by omega), Nat.mod_eq_of_lt (by omega)] at hnm
    exact CoLocation.shuffleText_injective hprints (List.subset_append_left left right)
      (List.subset_append_right left right) hsame.1 (hsha hnm)
  · rintro rfl partitionCount _
    rfl

end

/-! ### The two zeros -/

def positiveZero : SQLValue := .float ⟨false, 0, 0⟩

def negativeZero : SQLValue := .float ⟨true, 0, 0⟩

/-- Python on the two zeros: their `repr`, and the digests of their key texts. -/
def zeroPython : Python := { Python.ascii with
  str := fun
    | .float x => if x.negative then "-0.0" else "0.0"
    | value => Python.ascii.str value
  sha256 := fun data =>
    if data = "[0.0]".toUTF8 then
      [55, 174, 208, 135, 209, 207, 172, 26, 193, 24, 92, 22, 34, 129, 158, 229,
        16, 5, 103, 177, 120, 223, 67, 214, 192, 14, 138, 125, 180, 188, 36, 75]
    else if data = "[-0.0]".toUTF8 then
      [123, 242, 27, 60, 62, 188, 138, 37, 125, 38, 24, 171, 228, 210, 57, 120,
        175, 188, 95, 185, 15, 193, 131, 171, 103, 50, 97, 80, 248, 186, 55, 140]
    else Python.ascii.sha256 data }

/-- A row with one of them in the key column. -/
def zeroRow (zero : SQLValue) : Row := [("x", zero)]

def zeroKeys : List Expression := [.column "x" "" ⟨.float64, true⟩]

theorem sameKey_zeros : SameKey zeroPython [positiveZero] [negativeZero] := by
  refine ⟨?_, rfl⟩
  have hnumber : ∀ negative, (SQLValue.float ⟨negative, 0, 0⟩).number? = some (.finite 0) := by
    intro negative
    cases negative <;> simp [SQLValue.number?, PyFloat.number, signed]
  have heq : positiveZero.eq negativeZero = true := by
    refine SQLValue.eq_iff_order.mpr (Or.inr ?_)
    rw [SQLValue.order.eq_def]
    simp only [positiveZero, negativeZero, hnumber, orderNumbers]
    simp
  rw [tupleEq, heq]
  rfl

theorem evaluateAll_zeroKeys (zero : SQLValue) :
    Expression.evaluateAll zeroPython (zeroRow zero) zeroKeys = .ok [zero] := rfl

theorem printsApart_zeros : PrintsApart zeroPython [positiveZero, negativeZero] where
  float_isNumber x q hx _ := by
    simp only [positiveZero, negativeZero, List.mem_cons, SQLValue.float.injEq, List.not_mem_nil,
      or_false] at hx
    rcases hx with rfl | rfl <;> rfl
  float_point x q hx _ := by
    simp only [positiveZero, negativeZero, List.mem_cons, SQLValue.float.injEq, List.not_mem_nil,
      or_false] at hx
    rcases hx with rfl | rfl <;> decide
  float_injective x y hx hy h := by
    simp only [positiveZero, negativeZero, List.mem_cons, SQLValue.float.injEq, List.not_mem_nil,
      or_false] at hx hy
    rcases hx with rfl | rfl <;> rcases hy with rfl | rfl <;> first | rfl | exact absurd h (by decide)
  decimal d hd := by
    simp [positiveZero, negativeZero] at hd
  datetime_injective t u ht _ _ := by
    simp [positiveZero, negativeZero] at ht

theorem digestNumber_zeros : digestNumber zeroPython (shuffleText zeroPython [positiveZero]) ≠
    digestNumber zeroPython (shuffleText zeroPython [negativeZero]) := by
  decide +kernel

theorem colocated_iff_zeros :
    (∀ partitionCount, 0 < partitionCount →
        shufflePartition zeroPython zeroKeys partitionCount (zeroRow positiveZero)
          = shufflePartition zeroPython zeroKeys partitionCount (zeroRow negativeZero))
      ↔ [positiveZero] = [negativeZero] :=
  colocated_iff (evaluateAll_zeroKeys _) (evaluateAll_zeroKeys _) sameKey_zeros printsApart_zeros
    fun h => absurd h digestNumber_zeros

/-- `0.0` and `-0.0` are one key, and go to two partitions. -/
theorem not_colocated :
    SameKey zeroPython [positiveZero] [negativeZero] ∧
      shufflePartition zeroPython zeroKeys 2 (zeroRow positiveZero) = .ok 0 ∧
      shufflePartition zeroPython zeroKeys 2 (zeroRow negativeZero) = .ok 1 :=
  ⟨sameKey_zeros, by decide +kernel, by decide +kernel⟩

end DistributedSql
