/-
Serializable runtime filters (`execution/runtime_filter.py`).

A `RuntimeFilter` is a Bloom filter over whole key tuples and one min/max range
per key column.  Values are encoded as JSON for the digest and for the wire.
The digest is `Python.sha256`, about which nothing is assumed.

The bit array's size is a field of `BloomFilter`: `create` and `from_dict` are
the only ways to make one and both establish it.  Accesses keep their bounds
check, as `bytearray` has it, and `BloomFilter.add` is proved never to trip it.
-/
import DistributedSql.Expressions
import DistributedSql.ScalarText
import DistributedSql.Base64

namespace DistributedSql

/-! ### The wire form of a value -/

/-- A JSON string from characters. -/
def jsonText (text : List Char) : JsonValue := .string (String.ofList text)

/-- A JSON number that is an int. -/
def jsonInt (i : ℤ) : JsonValue := .number (String.ofList (intStr i))

/-- `{"type": kind, "value": value}`. -/
def tagged (kind : String) (value : JsonValue) : JsonValue :=
  .object [("type", .string kind), ("value", value)]

/-- `_encode_value`. -/
def encodeValue : SQLValue → JsonValue
  | .null => .object [("type", .string "null")]
  | .bool b => tagged "bool" (.bool b)
  | .int i => tagged "int" (jsonText (intStr i))
  | .float x => tagged "float" (jsonText (floatHex x))
  | .decimal d => tagged "decimal" (jsonText (decimalStr d))
  | .bytes data => tagged "bytes" (jsonText (Base64.encode data))
  | .datetime t => tagged "datetime" (jsonText (datetimeIsoformat t))
  | .date d => tagged "date" (jsonText (dateIsoformat d))
  | .str text => tagged "string" (.string text)

/-- `document[key]` on a loaded object. -/
def jsonField (key : String) (document : JsonValue) : Except PyError JsonValue :=
  match document.field? key with
  | some value => .ok value
  | none => .error (.keyError key)

/-- The `cast`s of the loaders: a document of another kind is refused here. -/
def jsonAsString : JsonValue → Except PyError (List Char)
  | .string text => .ok text.toList
  | _ => .error (.typeError "expected a string")

def jsonAsInt : JsonValue → Except PyError ℤ
  | .number literal =>
      match intOfStr literal.toList with
      | some i => .ok i
      | none => .error (.typeError "expected an int")
  | _ => .error (.typeError "expected an int")

def jsonAsNat (document : JsonValue) : Except PyError ℕ := do
  let i ← jsonAsInt document
  if 0 ≤ i then return i.toNat else .error (.valueError "negative count")

def jsonAsItems : JsonValue → Except PyError (List JsonValue)
  | .array items => .ok items
  | _ => .error (.typeError "expected a list")

/-- What a reader of a scalar's text gives, `ValueError` where it refuses. -/
def parsed {α : Type} (kind : String) : Option α → Except PyError α
  | some value => .ok value
  | none => .error (.valueError ("Invalid " ++ kind ++ " text"))

/-- The kinds of `_decode_value` whose value is a text; `text` raises if it is none. -/
def decodeText (kind : String) (text : Except PyError (List Char)) : Except PyError SQLValue := do
  match kind with
  | "int" => return .int (← parsed kind (intOfStr (← text)))
  | "float" => return .float (← parsed kind (floatFromhex (← text)))
  | "decimal" => return .decimal (← parsed kind (decimalOfStr (← text)))
  | "bytes" => return .bytes (← parsed kind (Base64.decode (← text)))
  | "datetime" => return .datetime (← parsed kind (datetimeFromisoformat (← text)))
  | "date" => return .date (← parsed kind (dateFromisoformat (← text)))
  | "string" => return .str (String.ofList (← text))
  | _ => .error (.valueError ("Unsupported runtime-filter value type: '" ++ kind ++ "'"))

/-- `_decode_value`. -/
def decodeValue (payload : JsonValue) : Except PyError SQLValue := do
  let kind := String.ofList (← jsonAsString (← jsonField "type" payload))
  match kind with
  | "null" => return .null
  | "bool" =>
      match ← jsonField "value" payload with
      | .bool b => return .bool b
      | _ => .error (.typeError "expected a bool")
  | kind => decodeText kind (do jsonAsString (← jsonField "value" payload))

/-- `_key_bytes`. -/
def keyBytes (values : List SQLValue) : ByteArray :=
  (JsonValue.dumps (.array (values.map encodeValue))).toUTF8

/-! ### Bloom filter -/

/-- `int.from_bytes(data, "big")`. -/
def bigEndian (data : List UInt8) : ℕ := data.foldl (fun n b => n * 256 + b.toNat) 0

/-- `bits[bit // 8] & (1 << (bit % 8))`, with the bounds check of `bytearray`. -/
def testBit (bits : List UInt8) (bit : ℕ) : Except PyError Bool :=
  match bits[bit / 8]? with
  | some byte => .ok (byte.toNat &&& 1 <<< (bit % 8) != 0)
  | none => .error (.indexError "bytearray index out of range")

/-- `bits[bit // 8] |= 1 << (bit % 8)`. -/
def setBit (bits : List UInt8) (bit : ℕ) : Except PyError (List UInt8) :=
  match bits[bit / 8]? with
  | some byte => .ok (bits.set (bit / 8) (UInt8.ofNat (byte.toNat ||| 1 <<< (bit % 8))))
  | none => .error (.indexError "bytearray index out of range")

/-- The loop of `BloomFilter.add`. -/
def setBits : List ℕ → List UInt8 → Except PyError (List UInt8)
  | [], bits => .ok bits
  | bit :: rest, bits => do setBits rest (← setBit bits bit)

/-- `all(..)` over the bits, which stops at the first one that is clear. -/
def testBits (bits : List UInt8) : List ℕ → Except PyError Bool
  | [] => .ok true
  | bit :: rest => do if ← testBit bits bit then testBits bits rest else return false

theorem setBit_length {bits bits' : List UInt8} {bit : ℕ} (h : setBit bits bit = .ok bits') :
    bits'.length = bits.length := by
  unfold setBit at h
  split at h
  · cases h; exact List.length_set
  · cases h

theorem setBits_length {positions : List ℕ} {bits bits' : List UInt8}
    (h : setBits positions bits = .ok bits') : bits'.length = bits.length := by
  induction positions generalizing bits with
  | nil => cases h; rfl
  | cons bit rest ih =>
    rw [setBits] at h
    cases hs : setBit bits bit with
    | error e => rw [hs] at h; cases h
    | ok next =>
      rw [hs] at h
      rw [ih h, setBit_length hs]

/-- The size `bytearray(math.ceil(bit_count / 8))` has. -/
def byteCount (bitCount : ℕ) : ℕ := (bitCount + 7) / 8

structure BloomFilter where
  bitCount : ℕ
  hashCount : ℕ
  bits : List UInt8
  itemCount : ℕ
  bits_length : bits.length = byteCount bitCount

@[ext] theorem BloomFilter.ext {f g : BloomFilter} (h1 : f.bitCount = g.bitCount)
    (h2 : f.hashCount = g.hashCount) (h3 : f.bits = g.bits) (h4 : f.itemCount = g.itemCount) :
    f = g := by
  obtain ⟨_, _, _, _, _⟩ := f
  obtain ⟨_, _, _, _, _⟩ := g
  cases h1; cases h2; cases h3; cases h4
  rfl

/-- The default `false_positive_rate`: `0.01`. -/
def defaultRate : PyFloat := ⟨false, 1016, 1261007895663739⟩

namespace BloomFilter

/-- `0.0 < rate < 1.0`. -/
def validRate (rate : PyFloat) : Bool :=
  match rate.number with
  | .finite q => 0 < q && q < 1
  | _ => false

/-- The bit count `create` settles on. -/
def createBits (py : Python) (expectedItems : ℕ) (rate : PyFloat) : ℕ :=
  (max 64 (py.bloomBits expectedItems rate)).toNat

/-- The hash count `create` settles on. -/
def createHashes (py : Python) (expectedItems : ℕ) (rate : PyFloat) : ℕ :=
  (max 1 (py.bloomHashes (createBits py expectedItems rate) expectedItems)).toNat

/-- `BloomFilter.create`. -/
def create (py : Python) (expectedItems : ℕ) (rate : PyFloat) : Except PyError BloomFilter :=
  if expectedItems < 1 then .error (.valueError "expected_items must be positive")
  else if !validRate rate then
    .error (.valueError "false_positive_rate must be between zero and one")
  else
    .ok
      { bitCount := createBits py expectedItems rate
        hashCount := createHashes py expectedItems rate
        bits := List.replicate (byteCount (createBits py expectedItems rate)) 0
        itemCount := 0
        bits_length := List.length_replicate }

/-- `BloomFilter._positions`. -/
def positions (py : Python) (f : BloomFilter) (values : List SQLValue) :
    Except PyError (List ℕ) :=
  let digest := py.sha256 (keyBytes values)
  let first := bigEndian (digest.take 16)
  let second := if bigEndian (digest.drop 16) = 0 then 1 else bigEndian (digest.drop 16)
  (List.range f.hashCount).mapM fun index =>
    if f.bitCount = 0 then .error (.arithmeticError "integer modulo by zero")
    else .ok ((first + index * second) % f.bitCount)

/-- `BloomFilter.add`. -/
def add (py : Python) (f : BloomFilter) (values : List SQLValue) : Except PyError BloomFilter := do
  let positions ← f.positions py values
  match h : setBits positions f.bits with
  | .ok bits =>
      return { f with
        bits := bits
        itemCount := f.itemCount + 1
        bits_length := (setBits_length h).trans f.bits_length }
  | .error e => .error e

/-- `BloomFilter.might_contain`. -/
def mightContain (py : Python) (f : BloomFilter) (values : List SQLValue) :
    Except PyError Bool := do
  testBits f.bits (← f.positions py values)

/-- `BloomFilter.merge`. -/
def merge (f other : BloomFilter) : Except PyError BloomFilter :=
  if h : f.bitCount = other.bitCount ∧ f.hashCount = other.hashCount then
    .ok { f with
      bits := List.zipWith (fun value value' => value ||| value') f.bits other.bits
      itemCount := f.itemCount + other.itemCount
      bits_length := by
        rw [List.length_zipWith, f.bits_length, other.bits_length, ← h.1, min_self] }
  else .error (.valueError "Bloom filters must have matching dimensions")

/-- `BloomFilter.to_dict`. -/
def toDict (f : BloomFilter) : JsonValue :=
  .object
    [("bit_count", jsonInt f.bitCount), ("hash_count", jsonInt f.hashCount),
      ("bits", jsonText (Base64.encode f.bits)), ("item_count", jsonInt f.itemCount)]

/-- `BloomFilter.from_dict`. -/
def fromDict (payload : JsonValue) : Except PyError BloomFilter := do
  let bitCount ← jsonAsNat (← jsonField "bit_count" payload)
  let bits ← parsed "base64" (Base64.decode (← jsonAsString (← jsonField "bits" payload)))
  if h : bits.length = byteCount bitCount then
    let hashCount ← jsonAsNat (← jsonField "hash_count" payload)
    let itemCount ← jsonAsNat (← jsonField "item_count" payload)
    return ⟨bitCount, hashCount, bits, itemCount, h⟩
  else .error (.valueError "Bloom filter payload has an invalid bit array size")

end BloomFilter

/-! ### Ranges -/

structure MinMaxFilter where
  minimum : SQLValue := .null
  maximum : SQLValue := .null

namespace MinMaxFilter

/-- `MinMaxFilter.add`. -/
def add (f : MinMaxFilter) (value : SQLValue) : Except PyError MinMaxFilter := do
  if value.isNull then return f
  let below ← if f.minimum.isNull then .ok true else value.lt f.minimum
  let above ← if f.maximum.isNull then .ok true else value.gt f.maximum
  return { minimum := if below then value else f.minimum
           maximum := if above then value else f.maximum }

/-- `MinMaxFilter.might_contain`: values that do not compare are let through. -/
def mightContain (f : MinMaxFilter) (value : SQLValue) : Except PyError Bool :=
  if value.isNull || f.minimum.isNull || f.maximum.isNull then .ok false
  else
    match (do if ← f.minimum.le value then value.le f.maximum else return false) with
    | .ok result => .ok result
    | .error (.typeError _) => .ok true
    | .error e => .error e

/-- `MinMaxFilter.merge`. -/
def merge (f other : MinMaxFilter) : Except PyError MinMaxFilter := do
  (← f.add other.minimum).add other.maximum

/-- `MinMaxFilter.to_dict`. -/
def toDict (f : MinMaxFilter) : JsonValue :=
  .object [("minimum", encodeValue f.minimum), ("maximum", encodeValue f.maximum)]

/-- `MinMaxFilter.from_dict`. -/
def fromDict (payload : JsonValue) : Except PyError MinMaxFilter := do
  return { minimum := ← decodeValue (← jsonField "minimum" payload)
           maximum := ← decodeValue (← jsonField "maximum" payload) }

end MinMaxFilter

/-! ### Runtime filter -/

structure RuntimeFilter where
  bloom : BloomFilter
  ranges : List MinMaxFilter

namespace RuntimeFilter

/-- `RuntimeFilter.create`. -/
def create (py : Python) (keyCount expectedItems : ℕ) (rate : PyFloat) :
    Except PyError RuntimeFilter := do
  if keyCount < 1 then .error (.valueError "key_count must be positive")
  else
    return { bloom := ← BloomFilter.create py (max expectedItems 1) rate
             ranges := List.replicate keyCount {} }

/-- The range loop of `add`. -/
def addRanges : List MinMaxFilter → List SQLValue → Except PyError (List MinMaxFilter)
  | range :: ranges, value :: values => do
      let range ← range.add value
      return range :: (← addRanges ranges values)
  | ranges, _ => .ok ranges

/-- `RuntimeFilter.add`: a key with a NULL is left out. -/
def add (py : Python) (f : RuntimeFilter) (values : List SQLValue) :
    Except PyError RuntimeFilter := do
  if values.length ≠ f.ranges.length then
    .error (.valueError "Runtime filter key width does not match")
  else if values.any SQLValue.isNull then return f
  else
    return { bloom := ← f.bloom.add py values, ranges := ← addRanges f.ranges values }

/-- `all(..)` over the ranges, which stops at the first one that excludes its value. -/
def rangesMightContain : List MinMaxFilter → List SQLValue → Except PyError Bool
  | range :: ranges, value :: values => do
      if ← range.mightContain value then rangesMightContain ranges values else return false
  | _, _ => .ok true

/-- `RuntimeFilter.might_contain`. -/
def mightContain (py : Python) (f : RuntimeFilter) (values : List SQLValue) :
    Except PyError Bool := do
  if values.length ≠ f.ranges.length || values.any SQLValue.isNull then return false
  else if ← rangesMightContain f.ranges values then f.bloom.mightContain py values
  else return false

/-- The range loop of `merge`. -/
def mergeRanges : List MinMaxFilter → List MinMaxFilter → Except PyError (List MinMaxFilter)
  | target :: targets, source :: sources => do
      let target ← target.merge source
      return target :: (← mergeRanges targets sources)
  | targets, _ => .ok targets

/-- `RuntimeFilter.merge`. -/
def merge (f other : RuntimeFilter) : Except PyError RuntimeFilter := do
  if f.ranges.length ≠ other.ranges.length then
    .error (.valueError "Runtime filters must have matching key widths")
  else
    return { bloom := ← f.bloom.merge other.bloom, ranges := ← mergeRanges f.ranges other.ranges }

/-- The document `RuntimeFilter.to_bytes` dumps. -/
def payload (f : RuntimeFilter) : JsonValue :=
  .object
    [("version", jsonInt 1), ("bloom", f.bloom.toDict),
      ("ranges", .array (f.ranges.map MinMaxFilter.toDict))]

/-- `RuntimeFilter.to_bytes`. -/
def toBytes (f : RuntimeFilter) : ByteArray := f.payload.dumps.toUTF8

/-- `RuntimeFilter.from_bytes`. -/
def fromBytes (payload : ByteArray) : Except PyError RuntimeFilter := do
  let text ← parsed "utf-8" (String.fromUTF8? payload)
  let raw ← parsed "JSON" (JsonValue.loads text)
  match raw.field? "version" with
  | some (.number literal) =>
      if intOfStr literal.toList ≠ some 1 then
        .error (.valueError "Unsupported runtime filter version")
      else
        return { bloom := ← BloomFilter.fromDict (← jsonField "bloom" raw)
                 ranges := ← (← jsonAsItems (← jsonField "ranges" raw)).mapM
                   MinMaxFilter.fromDict }
  | _ => .error (.valueError "Unsupported runtime filter version")

end RuntimeFilter

end DistributedSql
