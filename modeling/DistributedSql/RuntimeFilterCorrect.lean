/-
A runtime filter has no false negatives, and its wire form is exact.

A filter's life is a `FilterHistory`: created, added to, merged with another filter
and sent over the wire in any order.  Values at one key position come from a
set on which Python's comparisons always have an outcome (`OrderedKeys`).

Main results:
* `decodeValue_encodeValue` — the wire form of a value, for every kind;
* `RuntimeFilter.fromBytes_toBytes` — the wire form of a filter;
* `RuntimeFilter.positions_in_bounds` — every bit the digest selects is in the array;
* `FilterHistory.run_covers` — a history runs, and its filter admits every key added on the way.
-/
import DistributedSql.RuntimeFilter
import DistributedSql.ExceptState

namespace DistributedSql

open JsonValue

/-! ### Loading dumped documents -/

theorem fromUTF8?_toUTF8 (s : String) : String.fromUTF8? s.toUTF8 = some s := by
  unfold String.fromUTF8?
  exact dif_pos s.isValidUTF8

/-- Decimal digits, the first of them zero only in `0` itself. -/
private theorem toDigits_head (n : ℕ) :
    ∃ c text, Nat.toDigits 10 n = c :: text ∧ c.isDigit = true ∧ (c = '0' → n = 0) := by
  induction n using Nat.strong_induction_on with
  | _ n ih =>
    by_cases h : n < 10
    · refine ⟨n.digitChar, [], Nat.toDigits_of_lt_base h, ?_, ?_⟩
      · clear ih; revert h; revert n; decide
      · clear ih; revert h; revert n; decide
    · obtain ⟨c, text, heq, hc, h0⟩ := ih (n / 10) (by omega)
      rw [Nat.toDigits_of_base_le (by decide) (by omega), heq]
      exact ⟨c, _, rfl, hc, fun hz => by have := h0 hz; omega⟩

theorem isUnsigned_toDigits (n : ℕ) : isUnsigned (Nat.toDigits 10 n) = true := by
  obtain ⟨c, text, heq, hc, h0⟩ := toDigits_head n
  by_cases hz : c = '0'
  · rw [h0 hz]; rfl
  · have htext : text.dropWhile Char.isDigit = [] := by
      rw [List.dropWhile_eq_nil_iff]
      intro d hd
      exact Nat.isDigit_of_mem_toDigits (b := 10) (n := n) (by decide) (by decide)
        (by rw [heq]; exact List.mem_cons_of_mem c hd)
    rw [heq, isUnsigned, hc, htext]
    · rfl
    · rintro rfl; exact hz rfl

theorem valid_jsonInt (i : ℤ) : (jsonInt i).Valid := by
  rw [jsonInt, Valid, String.toList_ofList, intStr, signText]
  by_cases hi : i < 0
  · simp only [hi, decide_true, if_true, List.singleton_append, isNumber]
    exact isUnsigned_toDigits _
  · simp only [hi, decide_false, Bool.false_eq_true, if_false, List.nil_append]
    obtain ⟨c, text, heq, hc, -⟩ := toDigits_head i.natAbs
    have h := isUnsigned_toDigits i.natAbs
    rw [heq] at h ⊢
    rw [isNumber.eq_def]
    split
    case h_1 heq' => cases heq'; cases hc
    case h_2 => exact h

/-- A field of a dumped and reloaded object. -/
theorem jsonField_sortKeys {fields : List (String × JsonValue)} (key : String) {value : JsonValue}
    (hn : (fields.map Prod.fst).Nodup) (h : field? key (.object fields) = some value) :
    jsonField key (sortKeys (.object fields)) = .ok (sortKeys value) := by
  rw [jsonField, field?_sortKeys hn, h]
  rfl

theorem jsonAsString_jsonText (text : List Char) :
    jsonAsString (sortKeys (jsonText text)) = .ok text := by
  rw [jsonText, sortKeys, jsonAsString, String.toList_ofList]
  all_goals simp

theorem jsonAsInt_jsonInt (i : ℤ) : jsonAsInt (sortKeys (jsonInt i)) = .ok i := by
  rw [jsonInt, sortKeys, jsonAsInt, String.toList_ofList, intOfStr_intStr]
  all_goals simp

theorem jsonAsNat_jsonInt (n : ℕ) : jsonAsNat (sortKeys (jsonInt n)) = .ok n := by
  rw [jsonAsNat, jsonAsInt_jsonInt]
  simp [bind, Except.bind, pure, Except.pure]

/-! ### Values -/

/-- What the wire form can carry: everything but a float NaN. -/
def SQLValue.Carried : SQLValue → Prop
  | .float x => x.number ≠ .nan
  | _ => True

private theorem jsonField_type (kind : String) (value : JsonValue) :
    jsonField "type" (sortKeys (tagged kind value)) = .ok (sortKeys (.string kind)) :=
  jsonField_sortKeys "type" (by simp) rfl

private theorem jsonField_value (kind : String) (value : JsonValue) :
    jsonField "value" (sortKeys (tagged kind value)) = .ok (sortKeys value) :=
  jsonField_sortKeys "value" (by simp) rfl

private theorem decodeValue_tagged {kind : String} (hnull : kind ≠ "null") (hbool : kind ≠ "bool")
    (text : List Char) :
    decodeValue (sortKeys (tagged kind (jsonText text))) = decodeText kind (.ok text) := by
  have htext : (do jsonAsString (← jsonField "value" (sortKeys (tagged kind (jsonText text)))))
      = Except.ok text := by
    rw [jsonField_value]
    exact jsonAsString_jsonText text
  have hkind : jsonAsString (JsonValue.string kind).sortKeys = .ok kind.toList := rfl
  rw [decodeValue, jsonField_type, htext, ExceptState.ok_bind, hkind, ExceptState.ok_bind]
  dsimp only
  rw [String.ofList_toList]
  split
  case h_1 => exact absurd rfl hnull
  case h_2 => exact absurd rfl hbool
  case h_3 => rfl

/-- The wire form of a value reads back as the value. -/
theorem decodeValue_encodeValue {value : SQLValue} (h : value.Carried) :
    decodeValue (sortKeys (encodeValue value)) = .ok value := by
  cases value with
  | null =>
    rw [encodeValue, decodeValue, jsonField_sortKeys "type" (by simp) rfl]
    rfl
  | bool b =>
    rw [encodeValue, decodeValue, jsonField_type, jsonField_value]
    rfl
  | int i =>
    rw [encodeValue, decodeValue_tagged (by decide) (by decide)]
    simp [decodeText, intOfStr_intStr, parsed, bind, Except.bind, pure, Except.pure]
  | float x =>
    rw [encodeValue, decodeValue_tagged (by decide) (by decide)]
    simp [decodeText, floatFromhex_floatHex h, parsed, bind, Except.bind, pure, Except.pure]
  | decimal d =>
    rw [encodeValue, decodeValue_tagged (by decide) (by decide)]
    simp [decodeText, decimalOfStr_decimalStr, parsed, bind, Except.bind, pure, Except.pure]
  | str text =>
    have ht : JsonValue.string text = jsonText text.toList := by
      rw [jsonText, String.ofList_toList]
    rw [encodeValue, ht, decodeValue_tagged (by decide) (by decide)]
    simp [decodeText, bind, Except.bind, pure, Except.pure]
  | bytes data =>
    rw [encodeValue, decodeValue_tagged (by decide) (by decide)]
    simp [decodeText, Base64.decode_encode, parsed, bind, Except.bind, pure, Except.pure]
  | date d =>
    rw [encodeValue, decodeValue_tagged (by decide) (by decide)]
    simp [decodeText, dateFromisoformat_dateIsoformat, parsed, bind, Except.bind, pure,
      Except.pure]
  | datetime t =>
    rw [encodeValue, decodeValue_tagged (by decide) (by decide)]
    simp [decodeText, datetimeFromisoformat_datetimeIsoformat, parsed, bind, Except.bind, pure,
      Except.pure]

theorem valid_encodeValue (value : SQLValue) : (encodeValue value).Valid := by
  cases value <;> simp [encodeValue, tagged, jsonText, Valid, ValidFields]

/-! ### The wire form of a filter -/

theorem BloomFilter.valid_toDict (f : BloomFilter) : f.toDict.Valid :=
  ⟨valid_jsonInt _, valid_jsonInt _, trivial, valid_jsonInt _, trivial⟩

theorem MinMaxFilter.valid_toDict (f : MinMaxFilter) : f.toDict.Valid :=
  ⟨valid_encodeValue _, valid_encodeValue _, trivial⟩

theorem BloomFilter.fromDict_toDict (f : BloomFilter) :
    fromDict (sortKeys f.toDict) = .ok f := by
  rw [fromDict, toDict, jsonField_sortKeys "bit_count" (by simp) rfl,
    jsonField_sortKeys "hash_count" (by simp) rfl, jsonField_sortKeys "bits" (by simp) rfl,
    jsonField_sortKeys "item_count" (by simp) rfl]
  simp only [bind, Except.bind, jsonAsNat_jsonInt, jsonAsString_jsonText, Base64.decode_encode,
    parsed, f.bits_length, dif_pos]
  rfl

theorem MinMaxFilter.fromDict_toDict {f : MinMaxFilter} (hmin : f.minimum.Carried)
    (hmax : f.maximum.Carried) : fromDict (sortKeys f.toDict) = .ok f := by
  rw [fromDict, toDict, jsonField_sortKeys "minimum" (by simp) rfl,
    jsonField_sortKeys "maximum" (by simp) rfl]
  simp only [bind, Except.bind, decodeValue_encodeValue hmin, decodeValue_encodeValue hmax]
  rfl

namespace RuntimeFilter

theorem valid_payload (f : RuntimeFilter) : f.payload.Valid := by
  refine ⟨valid_jsonInt 1, f.bloom.valid_toDict, ?_, trivial⟩
  have : ∀ ranges : List MinMaxFilter, ValidItems (ranges.map MinMaxFilter.toDict) := by
    intro ranges
    induction ranges with
    | nil => trivial
    | cons range ranges ih => exact ⟨range.valid_toDict, ih⟩
  exact this f.ranges

/-- What was sent over the wire arrives unchanged. -/
theorem fromBytes_toBytes {f : RuntimeFilter}
    (h : ∀ range ∈ f.ranges, range.minimum.Carried ∧ range.maximum.Carried) :
    fromBytes f.toBytes = .ok f := by
  have hversion : field? "version" (sortKeys f.payload) = some (sortKeys (jsonInt 1)) := by
    rw [payload, field?_sortKeys (by simp)]
    rfl
  have hranges : (sortKeysItems (f.ranges.map MinMaxFilter.toDict)).mapM MinMaxFilter.fromDict
      = .ok f.ranges := by
    rw [sortKeysItems_eq, List.map_map, List.mapM_map]
    have := ExceptState.mapM_eq_ok (l := f.ranges) (g := id)
      fun range hr => MinMaxFilter.fromDict_toDict (h range hr).1 (h range hr).2
    rwa [List.map_id] at this
  have hbloom : jsonField "bloom" (sortKeys f.payload) = .ok (sortKeys f.bloom.toDict) := by
    rw [payload]
    exact jsonField_sortKeys "bloom" (by simp) rfl
  have hitems : jsonField "ranges" (sortKeys f.payload)
      = .ok (sortKeys (.array (f.ranges.map MinMaxFilter.toDict))) := by
    rw [payload]
    exact jsonField_sortKeys "ranges" (by simp) rfl
  have hone : intOfStr (String.ofList (intStr 1)).toList = some 1 := by
    rw [String.toList_ofList, intOfStr_intStr]
  rw [fromBytes, toBytes, fromUTF8?_toUTF8]
  simp only [bind, Except.bind, parsed, loads_dumps f.valid_payload, hversion, hbloom, hitems,
    BloomFilter.fromDict_toDict]
  have hkeys : sortKeys (jsonInt 1) = .number (String.ofList (intStr 1)) := rfl
  have harray : jsonAsItems (sortKeys (.array (f.ranges.map MinMaxFilter.toDict)))
      = .ok (sortKeysItems (f.ranges.map MinMaxFilter.toDict)) := rfl
  simp only [hkeys, hone, harray, hranges, ne_eq, not_true_eq_false, if_false]
  rfl

end RuntimeFilter

/-! ### Bits -/

/-- Whether a bit of the array is set; bits outside it are not. -/
def isSet (bits : List UInt8) (bit : ℕ) : Bool :=
  (bits[bit / 8]?.getD 0).toNat.testBit (bit % 8)

theorem testBit_eq {bits : List UInt8} {bit : ℕ} (h : bit / 8 < bits.length) :
    testBit bits bit = .ok (isSet bits bit) := by
  rw [testBit, isSet, List.getElem?_eq_getElem h, Option.getD_some]
  simp only [Nat.one_shiftLeft, Nat.and_two_pow]
  cases (bits[bit / 8]).toNat.testBit (bit % 8) <;> simp

theorem setBit_eq {bits : List UInt8} {bit : ℕ} (h : bit / 8 < bits.length) :
    ∃ bits', setBit bits bit = .ok bits' ∧
      ∀ other, isSet bits' other = (isSet bits other || other == bit) := by
  rw [setBit, List.getElem?_eq_getElem h]
  refine ⟨_, rfl, fun other => ?_⟩
  have hmod : bit % 8 < 8 := Nat.mod_lt _ (by decide)
  have hmod' : other % 8 < 8 := Nat.mod_lt _ (by decide)
  have hbyte : (bits[bit / 8]).toNat < 2 ^ 8 := UInt8.toNat_lt _
  have hshift : 1 <<< (bit % 8) < 2 ^ 8 := by
    rw [Nat.one_shiftLeft]
    exact Nat.pow_lt_pow_right (by decide) hmod
  rw [isSet, isSet, List.getElem?_set]
  by_cases hb : bit / 8 = other / 8
  · rw [if_pos hb, if_pos h, Option.getD_some, ← hb, List.getElem?_eq_getElem h,
      Option.getD_some, UInt8.toNat_ofNat_of_lt' (Nat.or_lt_two_pow hbyte hshift),
      Nat.testBit_or, Nat.one_shiftLeft, Nat.testBit_two_pow]
    congr 1
    rw [Bool.eq_iff_iff, decide_eq_true_iff, beq_iff_eq]
    omega
  · have hne : (other == bit) = false := beq_false_of_ne (by rintro rfl; exact hb rfl)
    rw [if_neg hb, hne, Bool.or_false]

/-- Setting bits inside the array sets those and keeps the others. -/
theorem setBits_eq {positions : List ℕ} {bits : List UInt8}
    (h : ∀ bit ∈ positions, bit / 8 < bits.length) :
    ∃ bits', setBits positions bits = .ok bits' ∧
      ∀ other, isSet bits' other = (isSet bits other || decide (other ∈ positions)) := by
  induction positions generalizing bits with
  | nil => exact ⟨bits, rfl, fun other => by simp⟩
  | cons bit rest ih =>
    obtain ⟨next, hnext, hset⟩ := setBit_eq (h bit List.mem_cons_self)
    obtain ⟨bits', hrest, hall⟩ := ih
      fun b hb => by rw [setBit_length hnext]; exact h b (List.mem_cons_of_mem _ hb)
    refine ⟨bits', ?_, fun other => ?_⟩
    · rw [setBits, hnext]
      exact hrest
    · rw [hall, hset, Bool.or_assoc]
      simp only [List.mem_cons, Bool.decide_or, beq_eq_decide]

theorem testBits_eq {positions : List ℕ} {bits : List UInt8}
    (h : ∀ bit ∈ positions, bit / 8 < bits.length) :
    testBits bits positions = .ok (positions.all (isSet bits)) := by
  induction positions with
  | nil => rfl
  | cons bit rest ih =>
    rw [testBits, testBit_eq (h bit List.mem_cons_self), List.all_cons,
      ih fun b hb => h b (List.mem_cons_of_mem _ hb)]
    cases isSet bits bit <;> rfl

/-- The union of two arrays of one length. -/
theorem isSet_zipWith {left right : List UInt8} (h : left.length = right.length) (bit : ℕ) :
    isSet (List.zipWith (fun a b => a ||| b) left right) bit
      = (isSet left bit || isSet right bit) := by
  rw [isSet, isSet, isSet, List.getElem?_zipWith]
  by_cases hb : bit / 8 < left.length
  · rw [List.getElem?_eq_getElem hb, List.getElem?_eq_getElem (h ▸ hb)]
    simp [UInt8.toNat_or, Nat.testBit_or]
  · rw [List.getElem?_eq_none (by omega), List.getElem?_eq_none (by omega)]
    simp

namespace BloomFilter

/-- The bits a key selects in an array of `bitCount` bits. -/
def keyBits (py : Python) (bitCount hashCount : ℕ) (values : List SQLValue) : List ℕ :=
  let digest := py.sha256 (keyBytes values)
  let first := bigEndian (digest.take 16)
  let second := if bigEndian (digest.drop 16) = 0 then 1 else bigEndian (digest.drop 16)
  (List.range hashCount).map fun index => (first + index * second) % bitCount

theorem positions_eq {py : Python} {f : BloomFilter} (h : 0 < f.bitCount)
    (values : List SQLValue) :
    f.positions py values = .ok (keyBits py f.bitCount f.hashCount values) :=
  ExceptState.mapM_eq_ok fun index _ => if_neg (by omega)

theorem keyBits_lt {py : Python} {bitCount hashCount : ℕ} (h : 0 < bitCount)
    {values : List SQLValue} {bit : ℕ} (hb : bit ∈ keyBits py bitCount hashCount values) :
    bit < bitCount := by
  obtain ⟨index, -, rfl⟩ := List.mem_map.mp hb
  exact Nat.mod_lt _ h

/-- Every bit a key selects lies inside the array. -/
theorem keyBits_in_bounds {py : Python} {f : BloomFilter} (h : 0 < f.bitCount)
    {values : List SQLValue} :
    ∀ bit ∈ keyBits py f.bitCount f.hashCount values, bit / 8 < f.bits.length := by
  intro bit hb
  have := keyBits_lt h hb
  rw [f.bits_length, byteCount]
  omega

/-- All bits of a key are set. -/
def Holds (py : Python) (f : BloomFilter) (values : List SQLValue) : Prop :=
  ∀ bit ∈ keyBits py f.bitCount f.hashCount values, isSet f.bits bit = true

theorem mightContain_of_holds {py : Python} {f : BloomFilter} (h : 0 < f.bitCount)
    {values : List SQLValue} (hv : f.Holds py values) :
    f.mightContain py values = .ok true := by
  rw [mightContain, positions_eq h]
  show testBits f.bits _ = _
  rw [testBits_eq (keyBits_in_bounds h), List.all_eq_true.mpr hv]

theorem add_eq {py : Python} {f : BloomFilter} (h : 0 < f.bitCount) (values : List SQLValue) :
    ∃ f', f.add py values = .ok f' ∧ f'.bitCount = f.bitCount ∧ f'.hashCount = f.hashCount ∧
      ∀ other, isSet f'.bits other
        = (isSet f.bits other || decide (other ∈ keyBits py f.bitCount f.hashCount values)) := by
  obtain ⟨bits, hbits, hset⟩ := setBits_eq (keyBits_in_bounds h)
  refine ⟨⟨f.bitCount, f.hashCount, bits, f.itemCount + 1,
    (setBits_length hbits).trans f.bits_length⟩, ?_, rfl, rfl, hset⟩
  rw [add, positions_eq h, ExceptState.ok_bind]
  split
  case h_1 bits' hbits' =>
    rw [hbits] at hbits'
    cases hbits'
    rfl
  case h_2 e he => rw [hbits] at he; cases he

theorem merge_eq {f other : BloomFilter} (hb : f.bitCount = other.bitCount)
    (hh : f.hashCount = other.hashCount) :
    ∃ f', f.merge other = .ok f' ∧ f'.bitCount = f.bitCount ∧ f'.hashCount = f.hashCount ∧
      ∀ bit, isSet f'.bits bit = (isSet f.bits bit || isSet other.bits bit) := by
  refine ⟨_, dif_pos ⟨hb, hh⟩, rfl, rfl, fun bit => ?_⟩
  exact isSet_zipWith (by rw [f.bits_length, other.bits_length, hb]) bit

end BloomFilter

/-! ### Ranges -/

/-- A range over a set of values: still empty, or bounded by two of them. -/
def MinMaxFilter.Within (S : Set SQLValue) (f : MinMaxFilter) : Prop :=
  (f.minimum = .null ∧ f.maximum = .null) ∨ (f.minimum ∈ S ∧ f.maximum ∈ S)

/-- The value lies between the bounds. -/
def MinMaxFilter.Covers (f : MinMaxFilter) (value : SQLValue) : Prop :=
  f.minimum ≠ .null ∧ f.maximum ≠ .null ∧
    f.minimum.rank ≤ value.rank ∧ value.rank ≤ f.maximum.rank

namespace MinMaxFilter

variable {S : Set SQLValue} {f other : MinMaxFilter} {value : SQLValue}

private theorem ne_null (hS : Ordered S) {v : SQLValue} (hv : v ∈ S) : v ≠ .null :=
  SQLValue.not_null_of_comparable (hS v hv v hv)

private theorem isNull_false (hS : Ordered S) {v : SQLValue} (hv : v ∈ S) : v.isNull = false :=
  Bool.eq_false_iff.mpr fun h => ne_null hS hv (SQLValue.isNull_iff.mp h)

/-- Adding a value never raises, covers the value, and keeps what was covered. -/
theorem add_eq (hS : Ordered S) (hf : f.Within S) (hv : value ∈ S) :
    ∃ f', f.add value = .ok f' ∧ f'.Within S ∧ f'.Covers value ∧
      ∀ v, f.Covers v → f'.Covers v := by
  rcases hf with ⟨hmin, hmax⟩ | ⟨hmin, hmax⟩
  · refine ⟨⟨value, value⟩, ?_, Or.inr ⟨hv, hv⟩,
      ⟨ne_null hS hv, ne_null hS hv, le_rfl, le_rfl⟩, fun v hc => absurd hmin hc.1⟩
    rw [add, isNull_false hS hv, hmin, hmax]
    rfl
  · refine ⟨⟨if value.rank < f.minimum.rank then value else f.minimum,
      if f.maximum.rank < value.rank then value else f.maximum⟩, ?_, Or.inr ⟨?_, ?_⟩,
      ⟨?_, ?_, ?_, ?_⟩, ?_⟩
    · rw [add, isNull_false hS hv, isNull_false hS hmin, isNull_false hS hmax,
        SQLValue.lt_of_comparable (hS _ hv _ hmin), SQLValue.gt_of_comparable (hS _ hv _ hmax)]
      simp [bind, Except.bind, pure, Except.pure]
    · dsimp only; split <;> assumption
    · dsimp only; split <;> assumption
    · dsimp only; split
      · exact ne_null hS hv
      · exact ne_null hS hmin
    · dsimp only; split
      · exact ne_null hS hv
      · exact ne_null hS hmax
    · dsimp only; split
      · exact le_rfl
      · exact not_lt.mp ‹_›
    · dsimp only; split
      · exact le_rfl
      · exact not_lt.mp ‹_›
    · rintro v ⟨h1, h2, h3, h4⟩
      refine ⟨?_, ?_, ?_, ?_⟩
      · dsimp only; split
        · exact ne_null hS hv
        · exact h1
      · dsimp only; split
        · exact ne_null hS hv
        · exact h2
      · dsimp only; split
        · exact (le_of_lt ‹_›).trans h3
        · exact h3
      · dsimp only; split
        · exact h4.trans (le_of_lt ‹_›)
        · exact h4

theorem mightContain_of_covers (hS : Ordered S) (hf : f.Within S) (hv : value ∈ S)
    (hc : f.Covers value) : f.mightContain value = .ok true := by
  rcases hf with ⟨hmin, -⟩ | ⟨hmin, hmax⟩
  · exact absurd hmin hc.1
  · rw [mightContain, isNull_false hS hv, isNull_false hS hmin, isNull_false hS hmax,
      SQLValue.le_of_comparable (hS _ hmin _ hv), SQLValue.le_of_comparable (hS _ hv _ hmax),
      decide_eq_true hc.2.2.1, decide_eq_true hc.2.2.2]
    rfl

/-- Merging never raises and covers what either range covered. -/
theorem merge_eq (hS : Ordered S) (hf : f.Within S) (ho : other.Within S) :
    ∃ f', f.merge other = .ok f' ∧ f'.Within S ∧
      ∀ v, f.Covers v ∨ other.Covers v → f'.Covers v := by
  rcases ho with ⟨hmin, hmax⟩ | ⟨hmin, hmax⟩
  · refine ⟨f, ?_, hf, fun v hc => hc.resolve_right fun h => h.1 hmin⟩
    rw [merge, hmin, hmax]
    rfl
  · obtain ⟨f₁, h₁, hw₁, hc₁, hk₁⟩ := add_eq hS hf hmin
    obtain ⟨f₂, h₂, hw₂, hc₂, hk₂⟩ := add_eq hS hw₁ hmax
    refine ⟨f₂, ?_, hw₂, ?_⟩
    · rw [merge, h₁]
      exact h₂
    · rintro v (hc | ⟨-, -, hlow, hhigh⟩)
      · exact hk₂ v (hk₁ v hc)
      · have hbelow := hk₂ _ hc₁
        exact ⟨hc₂.1, hc₂.2.1, hbelow.2.2.1.trans hlow, hhigh.trans hc₂.2.2.2⟩

/-- The bounds of a range over ordered values can be sent. -/
theorem carried (hS : Ordered S) (hf : f.Within S) : f.minimum.Carried ∧ f.maximum.Carried := by
  have hcar : ∀ v ∈ S, v.Carried := by
    intro v hv
    cases v with
    | float x => exact SQLValue.not_nan_of_comparable (hS _ hv _ hv)
    | _ => trivial
  rcases hf with ⟨hmin, hmax⟩ | ⟨hmin, hmax⟩
  · rw [hmin, hmax]; exact ⟨trivial, trivial⟩
  · exact ⟨hcar _ hmin, hcar _ hmax⟩

end MinMaxFilter

/-! ### Filters over key domains -/

namespace RuntimeFilter

variable {domains : List (Set SQLValue)} {ranges others : List MinMaxFilter}
  {values : List SQLValue}

theorem addRanges_eq (hS : ∀ S ∈ domains, Ordered S)
    (hw : List.Forall₂ (fun S r => MinMaxFilter.Within S r) domains ranges)
    (hv : List.Forall₂ (fun S v => v ∈ S) domains values) :
    ∃ ranges', addRanges ranges values = .ok ranges' ∧
      List.Forall₂ (fun S r => MinMaxFilter.Within S r) domains ranges' ∧
      List.Forall₂ MinMaxFilter.Covers ranges' values ∧
      ∀ key, List.Forall₂ MinMaxFilter.Covers ranges key →
        List.Forall₂ MinMaxFilter.Covers ranges' key := by
  induction hw generalizing values with
  | nil =>
    cases hv
    exact ⟨[], rfl, .nil, .nil, fun _ h => h⟩
  | @cons S range domains ranges hr hw ih =>
    obtain _ | ⟨hval, hvals⟩ := hv
    obtain ⟨range', hrange, hwithin, hcov, hkeep⟩ :=
      MinMaxFilter.add_eq (hS S List.mem_cons_self) hr hval
    obtain ⟨ranges', hranges, hwithins, hcovs, hkeeps⟩ :=
      ih (fun S h => hS S (List.mem_cons_of_mem _ h)) hvals
    refine ⟨range' :: ranges', ?_, .cons hwithin hwithins, .cons hcov hcovs, ?_⟩
    · rw [addRanges, hrange]
      show (do return range' :: (← addRanges _ _)) = _
      rw [hranges]
      rfl
    · intro key hkey
      obtain _ | ⟨hc, hcs⟩ := hkey
      exact .cons (hkeep _ hc) (hkeeps _ hcs)

theorem mergeRanges_eq (hS : ∀ S ∈ domains, Ordered S)
    (hw : List.Forall₂ (fun S r => MinMaxFilter.Within S r) domains ranges)
    (ho : List.Forall₂ (fun S r => MinMaxFilter.Within S r) domains others) :
    ∃ ranges', mergeRanges ranges others = .ok ranges' ∧
      List.Forall₂ (fun S r => MinMaxFilter.Within S r) domains ranges' ∧
      ∀ key, List.Forall₂ MinMaxFilter.Covers ranges key ∨
          List.Forall₂ MinMaxFilter.Covers others key →
        List.Forall₂ MinMaxFilter.Covers ranges' key := by
  induction hw generalizing others with
  | nil =>
    cases ho
    exact ⟨[], rfl, .nil, fun _ h => h.elim id id⟩
  | @cons S range domains ranges hr hw ih =>
    obtain _ | ⟨hother, hothers⟩ := ho
    obtain ⟨range', hrange, hwithin, hkeep⟩ :=
      MinMaxFilter.merge_eq (hS S List.mem_cons_self) hr hother
    obtain ⟨ranges', hranges, hwithins, hkeeps⟩ :=
      ih (fun S h => hS S (List.mem_cons_of_mem _ h)) hothers
    refine ⟨range' :: ranges', ?_, .cons hwithin hwithins, ?_⟩
    · rw [mergeRanges, hrange]
      show (do return range' :: (← mergeRanges _ _)) = _
      rw [hranges]
      rfl
    · rintro key (hkey | hkey)
      · obtain _ | ⟨hc, hcs⟩ := hkey
        exact .cons (hkeep _ (Or.inl hc)) (hkeeps _ (Or.inl hcs))
      · obtain _ | ⟨hc, hcs⟩ := hkey
        exact .cons (hkeep _ (Or.inr hc)) (hkeeps _ (Or.inr hcs))

theorem rangesMightContain_of_covers (hS : ∀ S ∈ domains, Ordered S)
    (hw : List.Forall₂ (fun S r => MinMaxFilter.Within S r) domains ranges)
    (hv : List.Forall₂ (fun S v => v ∈ S) domains values)
    (hc : List.Forall₂ MinMaxFilter.Covers ranges values) :
    rangesMightContain ranges values = .ok true := by
  induction hw generalizing values with
  | nil =>
    cases hv
    rfl
  | @cons S range domains ranges hr hw ih =>
    obtain _ | ⟨hval, hvals⟩ := hv
    obtain _ | ⟨hcov, hcovs⟩ := hc
    rw [rangesMightContain,
      MinMaxFilter.mightContain_of_covers (hS S List.mem_cons_self) hr hval hcov]
    exact ih (fun S h => hS S (List.mem_cons_of_mem _ h)) hvals hcovs

/-- The key is admitted: its bits are set and its values lie in the ranges. -/
def Admits (py : Python) (f : RuntimeFilter) (values : List SQLValue) : Prop :=
  f.bloom.Holds py values ∧ List.Forall₂ MinMaxFilter.Covers f.ranges values

/-- A filter over key domains: a Bloom filter of positive size, and ranges over the domains. -/
def Over (domains : List (Set SQLValue)) (f : RuntimeFilter) : Prop :=
  0 < f.bloom.bitCount ∧ List.Forall₂ (fun S r => MinMaxFilter.Within S r) domains f.ranges

variable {py : Python} {f other : RuntimeFilter}

private theorem any_isNull {values : List SQLValue} :
    values.any SQLValue.isNull = false ↔ ∀ v ∈ values, v ≠ .null := by
  simp [List.any_eq_false]

theorem mightContain_of_admits (hS : ∀ S ∈ domains, Ordered S) (hf : f.Over domains)
    (hv : InDomains domains values) (hn : ∀ v ∈ values, v ≠ .null) (ha : f.Admits py values) :
    f.mightContain py values = .ok true := by
  have hlen : values.length = f.ranges.length := ha.2.length_eq.symm
  have hnone : (decide (values.length ≠ f.ranges.length) || values.any SQLValue.isNull) = false := by
    rw [any_isNull.mpr hn, hlen]
    simp
  rw [mightContain, hnone, rangesMightContain_of_covers hS hf.2 (hv.mem hn) ha.2]
  exact BloomFilter.mightContain_of_holds hf.1 ha.1

/-- A fresh filter is over any domains, one for each key position. -/
theorem create_eq {keyCount : ℕ} (expected : ℕ) {rate : PyFloat}
    (hcount : keyCount = domains.length) (hpos : 1 ≤ keyCount)
    (hrate : BloomFilter.validRate rate = true) :
    ∃ f, RuntimeFilter.create py keyCount expected rate = .ok f ∧ f.Over domains ∧
      (f.bloom.bitCount, f.bloom.hashCount)
        = (BloomFilter.createBits py (max expected 1) rate,
            BloomFilter.createHashes py (max expected 1) rate) := by
  have hbits : 0 < BloomFilter.createBits py (max expected 1) rate := by
    rw [BloomFilter.createBits]
    omega
  have hranges : ∀ domains : List (Set SQLValue),
      List.Forall₂ (fun S r => MinMaxFilter.Within S r) domains
        (List.replicate domains.length {}) := by
    intro domains
    induction domains with
    | nil => exact .nil
    | cons S domains ih => exact .cons (Or.inl ⟨rfl, rfl⟩) ih
  refine ⟨⟨⟨BloomFilter.createBits py (max expected 1) rate,
      BloomFilter.createHashes py (max expected 1) rate, List.replicate _ 0, 0,
      List.length_replicate⟩, List.replicate keyCount {}⟩, ?_,
    ⟨hbits, hcount ▸ hranges domains⟩, rfl⟩
  rw [RuntimeFilter.create, if_neg (by omega), BloomFilter.create, if_neg (by omega), hrate]
  rfl

/-- Adding a key keeps the dimensions and what was admitted, and admits the key. -/
theorem add_eq (hS : ∀ S ∈ domains, Ordered S) (hf : f.Over domains)
    (hv : InDomains domains values) :
    ∃ f', f.add py values = .ok f' ∧ f'.Over domains ∧
      f'.bloom.bitCount = f.bloom.bitCount ∧ f'.bloom.hashCount = f.bloom.hashCount ∧
      ((∀ v ∈ values, v ≠ .null) → f'.Admits py values) ∧
      ∀ key, f.Admits py key → f'.Admits py key := by
  have hlen : values.length = f.ranges.length := by
    rw [← hv.length_eq, hf.2.length_eq]
  rw [add, if_neg (not_not_intro hlen)]
  by_cases hn : ∀ v ∈ values, v ≠ .null
  · obtain ⟨bloom, hbloom, hbits, hhashes, hset⟩ := f.bloom.add_eq hf.1 values
    obtain ⟨ranges, hranges, hwithin, hcov, hkeep⟩ :=
      addRanges_eq hS hf.2 (hv.mem hn)
    refine ⟨⟨bloom, ranges⟩, ?_, ⟨hbits ▸ hf.1, hwithin⟩, hbits, hhashes, fun _ => ⟨?_, hcov⟩, ?_⟩
    · rw [any_isNull.mpr hn, hbloom, hranges]
      rfl
    · intro bit hbit
      rw [hbits, hhashes] at hbit
      rw [hset, decide_eq_true hbit, Bool.or_true]
    · rintro key ⟨hholds, hcovers⟩
      refine ⟨fun bit hbit => ?_, hkeep key hcovers⟩
      rw [hbits, hhashes] at hbit
      rw [hset, hholds bit hbit, Bool.true_or]
  · have hany : values.any SQLValue.isNull = true := by
      rw [← Bool.not_eq_false, any_isNull]
      exact hn
    rw [if_pos hany]
    exact ⟨f, rfl, hf, rfl, rfl, fun h => absurd h hn, fun _ h => h⟩

/-- Merging admits what either filter admitted. -/
theorem merge_eq (hS : ∀ S ∈ domains, Ordered S) (hf : f.Over domains) (ho : other.Over domains)
    (hb : f.bloom.bitCount = other.bloom.bitCount)
    (hh : f.bloom.hashCount = other.bloom.hashCount) :
    ∃ f', f.merge other = .ok f' ∧ f'.Over domains ∧
      f'.bloom.bitCount = f.bloom.bitCount ∧ f'.bloom.hashCount = f.bloom.hashCount ∧
      ∀ key, f.Admits py key ∨ other.Admits py key → f'.Admits py key := by
  have hlen : f.ranges.length = other.ranges.length := by
    rw [← hf.2.length_eq, ho.2.length_eq]
  obtain ⟨bloom, hbloom, hbits, hhashes, hset⟩ := BloomFilter.merge_eq hb hh
  obtain ⟨ranges, hranges, hwithin, hkeep⟩ := mergeRanges_eq hS hf.2 ho.2
  refine ⟨⟨bloom, ranges⟩, ?_, ⟨hbits ▸ hf.1, hwithin⟩, hbits, hhashes, ?_⟩
  · rw [merge, if_neg (not_not_intro hlen), hbloom, hranges]
    rfl
  · rintro key hkey
    refine ⟨fun bit hbit => ?_, hkeep key (hkey.imp And.right And.right)⟩
    rw [hbits, hhashes] at hbit
    rw [hset]
    rcases hkey with hkey | hkey
    · rw [hkey.1 bit hbit, Bool.true_or]
    · rw [hkey.1 bit (by rwa [← hb, ← hh]), Bool.or_true]

/-- The ranges of a filter over ordered domains can be sent. -/
theorem fromBytes_toBytes_of_over (hS : ∀ S ∈ domains, Ordered S) (hf : f.Over domains) :
    fromBytes f.toBytes = .ok f := by
  obtain ⟨bloom, ranges⟩ := f
  obtain ⟨-, hw⟩ := hf
  dsimp only at hw
  refine fromBytes_toBytes fun range hr => ?_
  dsimp only at hr
  induction hw with
  | nil => cases hr
  | cons hwithin _ ih =>
    rcases List.mem_cons.mp hr with rfl | hr
    · exact MinMaxFilter.carried (hS _ List.mem_cons_self) hwithin
    · exact ih (fun S h => hS S (List.mem_cons_of_mem _ h)) hr

end RuntimeFilter

/-! ### Histories -/

/-- How a filter came about. -/
inductive FilterHistory
  | create (keyCount expectedItems : ℕ) (rate : PyFloat)
  | add (history : FilterHistory) (values : List SQLValue)
  | merge (history other : FilterHistory)
  | send (history : FilterHistory)

namespace FilterHistory

/-- The filter at the end; `send` is `to_bytes` followed by `from_bytes`. -/
def run (py : Python) : FilterHistory → Except PyError RuntimeFilter
  | .create keyCount expectedItems rate => RuntimeFilter.create py keyCount expectedItems rate
  | .add history values => do (← history.run py).add py values
  | .merge history other => do
      let f ← history.run py
      f.merge (← other.run py)
  | .send history => do RuntimeFilter.fromBytes (← history.run py).toBytes

/-- Every key added to the filter or to one merged into it. -/
def added : FilterHistory → List (List SQLValue)
  | .create _ _ _ => []
  | .add history values => values :: history.added
  | .merge history other => history.added ++ other.added
  | .send history => history.added

/-- Bit and hash count, fixed at creation. -/
def dimensions (py : Python) : FilterHistory → ℕ × ℕ
  | .create _ expectedItems rate =>
      (BloomFilter.createBits py (max expectedItems 1) rate,
        BloomFilter.createHashes py (max expectedItems 1) rate)
  | .add history _ => history.dimensions py
  | .merge history _ => history.dimensions py
  | .send history => history.dimensions py

/-- Valid arguments at creation, keys over the domains, merges of matching dimensions. -/
def WellFormed (py : Python) (domains : List (Set SQLValue)) : FilterHistory → Prop
  | .create keyCount _ rate =>
      keyCount = domains.length ∧ 1 ≤ keyCount ∧ BloomFilter.validRate rate = true
  | .add history values => history.WellFormed py domains ∧ InDomains domains values
  | .merge history other =>
      history.WellFormed py domains ∧ other.WellFormed py domains ∧
        history.dimensions py = other.dimensions py
  | .send history => history.WellFormed py domains

/-- Every step of a history returns, and keeps the invariant: the filter is over the
domains, has the history's dimensions and admits every key added so far. -/
theorem run_covers {py : Python} {domains : List (Set SQLValue)}
    (hS : ∀ S ∈ domains, Ordered S) {history : FilterHistory} (h : history.WellFormed py domains) :
    ∃ f, history.run py = .ok f ∧ f.Over domains ∧
      (f.bloom.bitCount, f.bloom.hashCount) = history.dimensions py ∧
      ∀ key ∈ history.added, InDomains domains key ∧
        ((∀ v ∈ key, v ≠ .null) → f.Admits py key) := by
  induction history with
  | create keyCount expectedItems rate =>
    obtain ⟨f, hf, hover, hdim⟩ := RuntimeFilter.create_eq expectedItems h.1 h.2.1 h.2.2
    exact ⟨f, hf, hover, hdim, fun key hkey => by cases hkey⟩
  | add history values ih =>
    obtain ⟨f, hrun, hover, hdim, hadm⟩ := ih h.1
    obtain ⟨f', hadd, hover', hbits, hhashes, hnew, hkeep⟩ :=
      RuntimeFilter.add_eq hS hover h.2
    refine ⟨f', ?_, hover', ?_, ?_⟩
    · rw [run, hrun]
      exact hadd
    · rw [hbits, hhashes, hdim, dimensions]
    · intro key hkey
      rcases List.mem_cons.mp hkey with rfl | hkey
      · exact ⟨h.2, hnew⟩
      · exact ⟨(hadm key hkey).1, fun hn => hkeep key ((hadm key hkey).2 hn)⟩
  | merge history other ih ih' =>
    obtain ⟨f, hrun, hover, hdim, hadm⟩ := ih h.1
    obtain ⟨g, hrun', hover', hdim', hadm'⟩ := ih' h.2.1
    have hsame : (f.bloom.bitCount, f.bloom.hashCount) = (g.bloom.bitCount, g.bloom.hashCount) := by
      rw [hdim, hdim', h.2.2]
    obtain ⟨f', hmerge, hover'', hbits, hhashes, hkeep⟩ := RuntimeFilter.merge_eq hS
      hover hover' (congrArg Prod.fst hsame) (congrArg Prod.snd hsame)
    refine ⟨f', ?_, hover'', ?_, ?_⟩
    · rw [run, hrun]
      show (do f.merge (← other.run py)) = _
      rw [hrun']
      exact hmerge
    · rw [hbits, hhashes, hdim, dimensions]
    · intro key hkey
      rcases List.mem_append.mp hkey with hkey | hkey
      · exact ⟨(hadm key hkey).1, fun hn => hkeep key (Or.inl ((hadm key hkey).2 hn))⟩
      · exact ⟨(hadm' key hkey).1, fun hn => hkeep key (Or.inr ((hadm' key hkey).2 hn))⟩
  | send history ih =>
    obtain ⟨f, hrun, hover, hdim, hadm⟩ := ih h
    refine ⟨f, ?_, hover, hdim, hadm⟩
    rw [run, hrun, ExceptState.ok_bind]
    exact RuntimeFilter.fromBytes_toBytes_of_over hS hover

/-- No false negatives: after any history, every key added on the way without a NULL
might be contained; every bit a key selects lies in the array; and the wire form is exact. -/
theorem filter_sound {py : Python} {domains : List (Set SQLValue)}
    (hS : ∀ S ∈ domains, Ordered S) {history : FilterHistory} (h : history.WellFormed py domains) :
    ∃ f, history.run py = .ok f ∧
      (∀ key ∈ history.added, (∀ v ∈ key, v ≠ .null) → f.mightContain py key = .ok true) ∧
      (∀ key, ∃ positions, f.bloom.positions py key = .ok positions ∧
        ∀ bit ∈ positions, bit < f.bloom.bitCount ∧ bit / 8 < f.bloom.bits.length) ∧
      RuntimeFilter.fromBytes f.toBytes = .ok f := by
  obtain ⟨f, hrun, hover, -, hadm⟩ := run_covers hS h
  refine ⟨f, hrun, fun key hkey hn => ?_, fun key => ?_, ?_⟩
  · exact RuntimeFilter.mightContain_of_admits hS hover (hadm key hkey).1 hn ((hadm key hkey).2 hn)
  · exact ⟨_, BloomFilter.positions_eq hover.1 key, fun bit hbit =>
      ⟨BloomFilter.keyBits_lt hover.1 hbit, BloomFilter.keyBits_in_bounds hover.1 bit hbit⟩⟩
  · exact RuntimeFilter.fromBytes_toBytes_of_over hS hover

/-- The set of ints, a totally ordered key type. -/
def intDomain : Set SQLValue := {v | ∃ i, v = .int i}

theorem ordered_intDomain : Ordered intDomain := by
  rintro _ ⟨i, rfl⟩ _ ⟨j, rfl⟩
  exact ⟨_, rfl⟩

/-- Two filters over one int column, one of them sent, merged. -/
def mergedHistory : FilterHistory :=
  .merge (.add (.create 1 1 ⟨false, 1022, 0⟩) [.int 5])
    (.send (.add (.add (.create 1 1 ⟨false, 1022, 0⟩) [.int (-7)]) [.null]))

theorem filter_sound_merged :
    ∃ f, mergedHistory.run Python.ascii = .ok f ∧
      (∀ key ∈ mergedHistory.added, (∀ v ∈ key, v ≠ .null) →
        f.mightContain Python.ascii key = .ok true) ∧
      (∀ key, ∃ positions, f.bloom.positions Python.ascii key = .ok positions ∧
        ∀ bit ∈ positions, bit < f.bloom.bitCount ∧ bit / 8 < f.bloom.bits.length) ∧
      RuntimeFilter.fromBytes f.toBytes = .ok f := by
  have hrate : BloomFilter.validRate ⟨false, 1022, 0⟩ = true := by
    simp [BloomFilter.validRate, PyFloat.number, signed]
    norm_num
  have hdomain : ∀ S ∈ [intDomain], Ordered S := by
    simp [ordered_intDomain]
  have hcreate : (create 1 1 ⟨false, 1022, 0⟩).WellFormed Python.ascii [intDomain] :=
    ⟨rfl, le_rfl, hrate⟩
  refine filter_sound hdomain ⟨⟨hcreate, ?_⟩, ⟨⟨hcreate, ?_⟩, ?_⟩, rfl⟩
  · exact .cons (Or.inr ⟨5, rfl⟩) .nil
  · exact .cons (Or.inr ⟨-7, rfl⟩) .nil
  · exact .cons (Or.inl rfl) .nil

end FilterHistory

end DistributedSql
