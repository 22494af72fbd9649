/-
Python values as the engine sees them, and their comparisons.

`SQLValue` is the union type of `planner/expressions.py`.  Python compares
these values dynamically: `==` never raises and numbers of different classes
compare by their exact value, `<` raises `TypeError` across unrelated classes,
and a comparison with a float NaN is false both ways.  One function,
`SQLValue.order`, holds all of this; `eq`, `lt`, `le`, `gt` and `ge` are read off it.

Main results:
* `SQLValue.order_compares` — where a comparison has an outcome, it is the
  comparison of the two values' `rank` in one linear order;
* `SQLValue.eq_iff_rank` — on comparable values, `==` is equality of ranks.
-/
import Mathlib

namespace DistributedSql

/-- The Python exceptions that the modelled code raises or lets through. -/
inductive PyError
  | typeError (message : String)
  | valueError (message : String)
  | keyError (key : String)
  | indexError (message : String)
  | arithmeticError (message : String)
  | runtimeError (message : String)
  | assertionError
deriving DecidableEq, Repr

/-! ### Scalars -/

instance neZeroExponents : NeZero 2048 := ⟨by decide⟩

instance neZeroFractions : NeZero (2 ^ 52) := ⟨by decide⟩

/-- A Python `float`: the three fields of an IEEE 754 double. -/
structure PyFloat where
  negative : Bool
  exponent : Fin 2048
  fraction : Fin (2 ^ 52)
deriving DecidableEq

/-- A Python `Decimal`; the payload of a NaN plays no part in the engine. -/
inductive PyDecimal
  | finite (negative : Bool) (coefficient : ℕ) (exponent : ℤ)
  | infinity (negative : Bool)
  | nan
deriving DecidableEq

def isLeap (year : ℕ) : Bool := year % 4 == 0 && (year % 100 != 0 || year % 400 == 0)

def daysInMonth (year month : ℕ) : ℕ :=
  match month with
  | 2 => if isLeap year then 29 else 28
  | 4 | 6 | 9 | 11 => 30
  | _ => 31

/-- The fields `datetime.date` accepts. -/
def isDate (year month day : ℕ) : Bool :=
  1 ≤ year && year ≤ 9999 && 1 ≤ month && month ≤ 12 && 1 ≤ day && day ≤ daysInMonth year month

structure PyDate where
  year : ℕ
  month : ℕ
  day : ℕ
  valid : isDate year month day = true
deriving DecidableEq

/-- Microseconds in a day: the bound on a UTC offset. -/
def dayMicroseconds : ℕ := 24 * 60 * 60 * 1000000

/-- The time fields `datetime.datetime` accepts. -/
def isTime (hour minute second microsecond : ℕ) (utcoffset : Option ℤ) : Bool :=
  hour < 24 && minute < 60 && second < 60 && microsecond < 1000000 &&
    utcoffset.all fun offset => offset.natAbs < dayMicroseconds

/-- A Python `datetime`.  `utcoffset` is `none` for a naive value, as every
value read from a `timestamp("us")` column is. -/
structure PyDateTime where
  date : PyDate
  hour : ℕ
  minute : ℕ
  second : ℕ
  microsecond : ℕ
  utcoffset : Option ℤ
  valid : isTime hour minute second microsecond utcoffset = true
deriving DecidableEq

/-- `type SQLValue = bool | int | float | Decimal | str | bytes | date | datetime | None`. -/
inductive SQLValue
  | null
  | bool (value : Bool)
  | int (value : ℤ)
  | float (value : PyFloat)
  | decimal (value : PyDecimal)
  | str (value : String)
  | bytes (value : List UInt8)
  | date (value : PyDate)
  | datetime (value : PyDateTime)
deriving DecidableEq

/-- The class name in a `TypeError`. -/
def SQLValue.typeName : SQLValue → String
  | .null => "NoneType"
  | .bool _ => "bool"
  | .int _ => "int"
  | .float _ => "float"
  | .decimal _ => "decimal.Decimal"
  | .str _ => "str"
  | .bytes _ => "bytes"
  | .date _ => "datetime.date"
  | .datetime _ => "datetime.datetime"

/-- `value is None`. -/
def SQLValue.isNull : SQLValue → Bool
  | .null => true
  | _ => false

@[simp] theorem SQLValue.isNull_iff {v : SQLValue} : v.isNull = true ↔ v = .null := by
  cases v <;> simp [isNull]

/-! ### Exact numeric values -/

/-- The exact value of a number; Python compares numbers of any classes by it. -/
inductive Number
  | finite (value : ℚ)
  | infinity (negative : Bool)
  | nan
deriving DecidableEq

def signed (negative : Bool) (value : ℚ) : ℚ := if negative then -value else value

/-- The value of a double: subnormal at exponent 0, infinite or NaN at 2047. -/
def PyFloat.number (x : PyFloat) : Number :=
  if x.exponent.val = 2047 then
    if x.fraction.val = 0 then .infinity x.negative else .nan
  else if x.exponent.val = 0 then
    .finite (signed x.negative (x.fraction.val * 2 ^ (-1074 : ℤ)))
  else
    .finite (signed x.negative ((2 ^ 52 + x.fraction.val) * 2 ^ ((x.exponent.val : ℤ) - 1075)))

def PyDecimal.number : PyDecimal → Number
  | .finite negative coefficient exponent =>
      .finite (signed negative (coefficient * 10 ^ exponent))
  | .infinity negative => .infinity negative
  | .nan => .nan

/-- The number a value is, if it is one; `bool` is a subclass of `int`. -/
def SQLValue.number? : SQLValue → Option Number
  | .bool b => some (.finite (if b then 1 else 0))
  | .int i => some (.finite i)
  | .float x => some x.number
  | .decimal d => some d.number
  | _ => none

def SQLValue.isDecimal : SQLValue → Bool
  | .decimal _ => true
  | _ => false

/-- The place of a number in the extended rationals. -/
def Number.rank : Number → WithBot (WithTop ℚ)
  | .finite q => ((q : WithTop ℚ) : WithBot (WithTop ℚ))
  | .infinity true => ⊥
  | .infinity false => ((⊤ : WithTop ℚ) : WithBot (WithTop ℚ))
  | .nan => ⊥

/-! ### Comparison -/

/-- The fields of a date, most significant first. -/
def PyDate.fields (d : PyDate) : List ℕ := [d.year, d.month, d.day]

def PyDateTime.fields (t : PyDateTime) : List ℕ :=
  t.date.fields ++ [t.hour, t.minute, t.second, t.microsecond]

/-- `date.toordinal`: the proleptic Gregorian day number, January 1 of year 1 being day 1. -/
def PyDate.toordinal (d : PyDate) : ℕ :=
  let before := d.year - 1
  before * 365 + before / 4 - before / 100 + before / 400
    + ((List.range (d.month - 1)).map fun m => daysInMonth d.year (m + 1)).sum + d.day

/-- Microseconds of an aware `datetime` on the UTC time line. -/
def PyDateTime.instant (t : PyDateTime) : ℤ :=
  (((t.date.toordinal * 24 + t.hour) * 60 + t.minute) * 60 + t.second) * 1000000
    + t.microsecond - t.utcoffset.getD 0

def compareError (operator : String) (left right : SQLValue) : PyError :=
  .typeError ("'" ++ operator ++ "' not supported between instances of '" ++ left.typeName
    ++ "' and '" ++ right.typeName ++ "'")

/-- Comparison of two numbers.  A NaN is unordered, and ordering it against
anything raises once a `Decimal` takes part. -/
def orderNumbers (left right : SQLValue) (x y : Number) : Except PyError (Option Ordering) :=
  if x = .nan ∨ y = .nan then
    if left.isDecimal ∨ right.isDecimal then
      .error (.arithmeticError "[<class 'decimal.InvalidOperation'>]")
    else .ok none
  else .ok (some (cmp x.rank y.rank))

/-- How Python orders two values: an outcome, `none` where the two are unordered,
or the exception `left operator right` raises. -/
def SQLValue.order (operator : String) : SQLValue → SQLValue → Except PyError (Option Ordering)
  | .int a, .int b => .ok (some (cmp a b))
  | .str a, .str b => .ok (some (cmp a b))
  | .bytes a, .bytes b => .ok (some (cmp (a.map UInt8.toNat) (b.map UInt8.toNat)))
  | .date a, .date b => .ok (some (cmp a.fields b.fields))
  | .datetime a, .datetime b =>
      match a.utcoffset, b.utcoffset with
      | none, none => .ok (some (cmp a.fields b.fields))
      | some _, some _ => .ok (some (cmp a.instant b.instant))
      | _, _ => .error (.typeError "can't compare offset-naive and offset-aware datetimes")
  | left, right =>
      match left.number?, right.number? with
      | some x, some y => orderNumbers left right x y
      | _, _ => .error (compareError operator left right)

/-- `left == right`.  Never raises: values of unrelated classes are unequal. -/
def SQLValue.eq (left right : SQLValue) : Bool :=
  match left, right with
  | .null, .null => true
  | left, right =>
      match left.order "==" right with
      | .ok (some .eq) => true
      | _ => false

def SQLValue.lt (left right : SQLValue) : Except PyError Bool :=
  (left.order "<" right).map (· == some .lt)

def SQLValue.gt (left right : SQLValue) : Except PyError Bool :=
  (left.order ">" right).map (· == some .gt)

def SQLValue.le (left right : SQLValue) : Except PyError Bool :=
  (left.order "<=" right).map fun o => o == some .lt || o == some .eq

def SQLValue.ge (left right : SQLValue) : Except PyError Bool :=
  (left.order ">=" right).map fun o => o == some .gt || o == some .eq

/-! ### Comparison as a linear order -/

/-- One linear order that holds every kind of value. -/
abbrev Rank : Type := WithBot (WithTop ℚ) ⊕ₗ (String ⊕ₗ (List ℕ ⊕ₗ ℤ))

/-- Where a value stands in `Rank`.  Only meaningful between comparable values:
kinds that are never compared with each other may share ranks. -/
def SQLValue.rank : SQLValue → Rank
  | .str s => Sum.inrₗ (Sum.inlₗ s)
  | .bytes b => Sum.inrₗ (Sum.inrₗ (Sum.inlₗ (b.map UInt8.toNat)))
  | .date d => Sum.inrₗ (Sum.inrₗ (Sum.inlₗ d.fields))
  | .datetime t =>
      match t.utcoffset with
      | none => Sum.inrₗ (Sum.inrₗ (Sum.inlₗ t.fields))
      | some _ => Sum.inrₗ (Sum.inrₗ (Sum.inrₗ t.instant))
  | v => Sum.inlₗ (v.number?.getD .nan).rank

/-- The outcome of a comparison that has one. -/
def SQLValue.Comparable (left right : SQLValue) : Prop :=
  ∃ o, left.order "<" right = .ok (some o)

theorem compares_of_strictMono {α β : Type*} [LinearOrder α] [decidable : DecidableLT α]
    [LinearOrder β] {f : α → β} (hf : StrictMono f) (a b : α) :
    (@cmp α _ decidable a b).Compares (f a) (f b) := by
  have h := cmp_compares (f a) (f b)
  rw [hf.cmp_map_eq] at h
  convert h

private theorem rank_int_strictMono : StrictMono fun i : ℤ => (SQLValue.int i).rank := by
  intro i j h
  have hq : (i : ℚ) < j := by exact_mod_cast h
  exact Sum.Lex.inl_strictMono (WithBot.coe_lt_coe.mpr (WithTop.coe_lt_coe.mpr hq))

private theorem rank_str_strictMono : StrictMono fun s : String => (SQLValue.str s).rank :=
  fun _ _ h => Sum.Lex.inr_strictMono (Sum.Lex.inl_strictMono h)

/-- The ranks of the kinds that compare as lists of fields. -/
private theorem rank_fields_strictMono :
    StrictMono fun l : List ℕ => (Sum.inrₗ (Sum.inrₗ (Sum.inlₗ l)) : Rank) :=
  fun _ _ h => Sum.Lex.inr_strictMono (Sum.Lex.inr_strictMono (Sum.Lex.inl_strictMono h))

private theorem rank_instant_strictMono :
    StrictMono fun i : ℤ => (Sum.inrₗ (Sum.inrₗ (Sum.inrₗ i)) : Rank) :=
  fun _ _ h => Sum.Lex.inr_strictMono (Sum.Lex.inr_strictMono (Sum.Lex.inr_strictMono h))

private theorem orderNumbers_compares {left right : SQLValue} {x y : Number} {o : Ordering}
    (h : orderNumbers left right x y = .ok (some o)) :
    o.Compares (Sum.inlₗ x.rank : Rank) (Sum.inlₗ y.rank) := by
  unfold orderNumbers at h
  split at h
  · split at h <;> simp at h
  · simp only [Except.ok.injEq, Option.some.injEq] at h
    exact h ▸ compares_of_strictMono (f := Sum.inlₗ) Sum.Lex.inl_strictMono x.rank y.rank

private theorem rank_of_number {v : SQLValue} {x : Number} (h : v.number? = some x) :
    v.rank = Sum.inlₗ x.rank := by
  cases v <;> simp only [SQLValue.number?, Option.some.injEq, reduceCtorEq] at h
  all_goals rw [← h]; rfl

/-- Where Python gives a comparison an outcome, it is the one of the ranks. -/
theorem SQLValue.order_compares {operator : String} {left right : SQLValue} {o : Ordering}
    (h : left.order operator right = .ok (some o)) : o.Compares left.rank right.rank := by
  unfold SQLValue.order at h
  split at h
  case h_1 a b =>
    cases h
    exact compares_of_strictMono rank_int_strictMono a b
  case h_2 a b =>
    cases h
    exact compares_of_strictMono rank_str_strictMono a b
  case h_3 a b =>
    cases h
    exact compares_of_strictMono rank_fields_strictMono _ _
  case h_4 a b =>
    cases h
    exact compares_of_strictMono rank_fields_strictMono _ _
  case h_5 a b =>
    split at h
    case h_1 ha hb =>
      cases h
      simp only [SQLValue.rank, ha, hb]
      exact compares_of_strictMono rank_fields_strictMono _ _
    case h_2 ha hb =>
      cases h
      simp only [SQLValue.rank, ha, hb]
      exact compares_of_strictMono rank_instant_strictMono _ _
    case h_3 => cases h
  case h_6 =>
    split at h
    case h_1 x y hx hy =>
      rw [rank_of_number hx, rank_of_number hy]
      exact orderNumbers_compares h
    case h_2 => cases h

theorem SQLValue.eq_iff_order {left right : SQLValue} :
    left.eq right = true ↔ (left = .null ∧ right = .null)
      ∨ left.order "==" right = .ok (some .eq) := by
  unfold SQLValue.eq
  split
  case h_1 => simp
  case h_2 hne =>
    have hnull : ¬(left = .null ∧ right = .null) := fun h => hne h.1 h.2
    split <;> simp_all

/-- The operator is only named in the error, so it does not change the outcome. -/
theorem SQLValue.order_operator {op : String} (op' : String) {left right : SQLValue} {o : Option Ordering}
    (h : left.order op right = .ok o) : left.order op' right = .ok o := by
  unfold SQLValue.order at h ⊢
  split at h <;> try exact h
  case h_6 =>
    split at h
    case h_1 => exact h
    case h_2 => cases h

theorem SQLValue.eq_iff_rank {left right : SQLValue} (h : left.Comparable right) :
    left.eq right = true ↔ left.rank = right.rank := by
  obtain ⟨o, ho⟩ := h
  have hc := order_compares ho
  rw [eq_iff_order]
  constructor
  · rintro (⟨rfl, rfl⟩ | he)
    · rfl
    · exact order_compares he
  · intro hr
    rw [hr] at hc
    cases o with
    | lt => exact absurd hc (lt_irrefl _)
    | gt => exact absurd hc (lt_irrefl _)
    | eq => exact Or.inr (order_operator _ ho)

theorem SQLValue.lt_of_comparable {left right : SQLValue} (h : left.Comparable right) :
    left.lt right = .ok (decide (left.rank < right.rank)) := by
  obtain ⟨o, ho⟩ := h
  have hc := order_compares ho
  rw [SQLValue.lt, ho]
  cases o with
  | lt => simp [Except.map, show left.rank < right.rank from hc]
  | eq => simp [Except.map, show left.rank = right.rank from hc]
  | gt => simp [Except.map, not_lt_of_gt (show right.rank < left.rank from hc)]

theorem SQLValue.le_of_comparable {left right : SQLValue} (h : left.Comparable right) :
    left.le right = .ok (decide (left.rank ≤ right.rank)) := by
  obtain ⟨o, ho⟩ := h
  have hc := order_compares ho
  rw [SQLValue.le, order_operator "<=" ho]
  cases o with
  | lt => simp [Except.map, (show left.rank < right.rank from hc).le]
  | eq => simp [Except.map, show left.rank = right.rank from hc]
  | gt => simp [Except.map, not_le_of_gt (show right.rank < left.rank from hc)]

theorem SQLValue.gt_of_comparable {left right : SQLValue} (h : left.Comparable right) :
    left.gt right = .ok (decide (right.rank < left.rank)) := by
  obtain ⟨o, ho⟩ := h
  have hc := order_compares ho
  rw [SQLValue.gt, order_operator ">" ho]
  cases o with
  | lt => simp [Except.map, not_lt_of_gt (show left.rank < right.rank from hc)]
  | eq => simp [Except.map, show left.rank = right.rank from hc]
  | gt => simp [Except.map, show right.rank < left.rank from hc]

/-- NULL compares with nothing, a float NaN with no number. -/
theorem SQLValue.not_null_of_comparable {v : SQLValue} (h : v.Comparable v) : v ≠ .null := by
  rintro rfl
  obtain ⟨o, ho⟩ := h
  cases ho

theorem SQLValue.not_nan_of_comparable {x : PyFloat}
    (h : (SQLValue.float x).Comparable (.float x)) : x.number ≠ .nan := by
  obtain ⟨o, ho⟩ := h
  intro hx
  simp [SQLValue.order, SQLValue.number?, orderNumbers, hx, SQLValue.isDecimal] at ho

/-- A set of values any two of which compare: one totally ordered type. -/
def Ordered (S : Set SQLValue) : Prop := ∀ a ∈ S, ∀ b ∈ S, a.Comparable b

/-- A key tuple over the domains of its positions; any value may be NULL. -/
def InDomains (domains : List (Set SQLValue)) (values : List SQLValue) : Prop :=
  List.Forall₂ (fun S v => v = .null ∨ v ∈ S) domains values

/-- `left == right` on tuples. -/
def tupleEq : List SQLValue → List SQLValue → Bool
  | [], [] => true
  | a :: left, b :: right => a.eq b && tupleEq left right
  | _, _ => false

/-- On tuples over ordered domains without NULLs, `==` is equality of the ranks. -/
theorem tupleEq_iff_rank {domains : List (Set SQLValue)} (hS : ∀ S ∈ domains, Ordered S)
    {left right : List SQLValue} (hl : List.Forall₂ (fun S v => v ∈ S) domains left)
    (hr : List.Forall₂ (fun S v => v ∈ S) domains right) :
    tupleEq left right = true ↔ left.map SQLValue.rank = right.map SQLValue.rank := by
  induction hl generalizing right with
  | nil =>
    cases hr
    simp [tupleEq]
  | @cons S a domains left ha hl ih =>
    obtain _ | ⟨hb, hr⟩ := hr
    rw [tupleEq, Bool.and_eq_true, ih (fun S h => hS S (List.mem_cons_of_mem _ h)) hr,
      SQLValue.eq_iff_rank (hS S List.mem_cons_self _ ha _ hb), List.map_cons, List.map_cons,
      List.cons_eq_cons]

theorem InDomains.mem {domains : List (Set SQLValue)} {values : List SQLValue}
    (h : InDomains domains values) (hn : ∀ v ∈ values, v ≠ .null) :
    List.Forall₂ (fun S v => v ∈ S) domains values := by
  induction h with
  | nil => exact .nil
  | cons hv _ ih =>
    exact .cons (hv.resolve_left (hn _ List.mem_cons_self))
      (ih fun v hv => hn v (List.mem_cons_of_mem _ hv))

end DistributedSql
