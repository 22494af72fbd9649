/-
JSON text: compact serialization with sorted keys, and a parser.

A library of its own.  `dumps` writes what `json.dumps(value, ensure_ascii=True,
separators=(",", ":"), sort_keys=True)` writes, `loads` reads any JSON text.
A number is held by its literal, so nothing is said here about floats.

Main results:
* `JsonValue.parseString_escape` — the ASCII string escapes, surrogate pairs
  included, read back as the text they came from;
* `JsonValue.parseValue_render` — the parser inverts the renderer on any value,
  whatever follows;
* `JsonValue.loads_dumps` — `loads (dumps v)` is `v` with its keys sorted.
-/
import Mathlib

/-- A JSON document; `number` holds the literal. -/
inductive JsonValue
  | null
  | bool (value : Bool)
  | number (literal : String)
  | string (text : String)
  | array (items : List JsonValue)
  | object (fields : List (String × JsonValue))

namespace JsonValue

/-! ### Escapes -/

def hexDigit (n : ℕ) : Char := Nat.digitChar n

def hexValue (c : Char) : Option ℕ :=
  if '0' ≤ c ∧ c ≤ '9' then some (c.toNat - '0'.toNat)
  else if 'a' ≤ c ∧ c ≤ 'f' then some (c.toNat - 'a'.toNat + 10)
  else if 'A' ≤ c ∧ c ≤ 'F' then some (c.toNat - 'A'.toNat + 10)
  else none

/-- Four hexadecimal digits. -/
def hex4 (n : ℕ) : List Char :=
  [hexDigit (n / 4096 % 16), hexDigit (n / 256 % 16), hexDigit (n / 16 % 16), hexDigit (n % 16)]

def ofHex4 (a b c d : Char) : Option ℕ := do
  return ((← hexValue a) * 16 + (← hexValue b)) * 256 + ((← hexValue c) * 16 + (← hexValue d))

/-- One character under `ensure_ascii`: printable ASCII stands for itself, and a
character outside the basic plane is a surrogate pair. -/
def escapeChar (c : Char) : List Char :=
  if c = '"' then ['\\', '"']
  else if c = '\\' then ['\\', '\\']
  else if c = '\n' then ['\\', 'n']
  else if c = '\r' then ['\\', 'r']
  else if c = '\t' then ['\\', 't']
  else if c.toNat = 8 then ['\\', 'b']
  else if c.toNat = 12 then ['\\', 'f']
  else if 32 ≤ c.toNat ∧ c.toNat ≤ 126 then [c]
  else if c.toNat < 0x10000 then '\\' :: 'u' :: hex4 c.toNat
  else '\\' :: 'u' :: hex4 (0xd800 + (c.toNat - 0x10000) / 1024)
    ++ '\\' :: 'u' :: hex4 (0xdc00 + (c.toNat - 0x10000) % 1024)

def escape (text : List Char) : List Char := text.flatMap escapeChar

/-- The character of a one-letter escape. -/
def unescapeLetter : Char → Option Char
  | '"' => some '"'
  | '\\' => some '\\'
  | '/' => some '/'
  | 'n' => some '\n'
  | 'r' => some '\r'
  | 't' => some '\t'
  | 'b' => some (Char.ofNat 8)
  | 'f' => some (Char.ofNat 12)
  | _ => none

/-- The rest of a string after its opening quote, up to the closing one.  A lone
surrogate is no character and is refused. -/
def parseString : List Char → Option (List Char × List Char)
  | [] => none
  | '"' :: rest => some ([], rest)
  | '\\' :: 'u' :: a :: b :: c :: d :: rest =>
      match ofHex4 a b c d with
      | none => none
      | some high =>
          if 0xd800 ≤ high ∧ high < 0xdc00 then
            match rest with
            | '\\' :: 'u' :: e :: f :: g :: h :: rest =>
                match ofHex4 e f g h with
                | none => none
                | some low =>
                    if 0xdc00 ≤ low ∧ low < 0xe000 then
                      (parseString rest).map fun out =>
                        (Char.ofNat (0x10000 + (high - 0xd800) * 1024 + (low - 0xdc00)) :: out.1,
                          out.2)
                    else none
            | _ => none
          else if 0xdc00 ≤ high ∧ high < 0xe000 then none
          else (parseString rest).map fun out => (Char.ofNat high :: out.1, out.2)
  | '\\' :: c :: rest =>
      match unescapeLetter c with
      | none => none
      | some c => (parseString rest).map fun out => (c :: out.1, out.2)
  | ['\\'] => none
  | c :: rest =>
      if c.toNat < 32 then none else (parseString rest).map fun out => (c :: out.1, out.2)

theorem hexValue_hexDigit {n : ℕ} (h : n < 16) : hexValue (hexDigit n) = some n := by
  revert h; revert n; decide

theorem ofHex4_hex4 {n : ℕ} (h : n < 0x10000) :
    ofHex4 (hexDigit (n / 4096 % 16)) (hexDigit (n / 256 % 16)) (hexDigit (n / 16 % 16))
      (hexDigit (n % 16)) = some n := by
  rw [ofHex4, hexValue_hexDigit (Nat.mod_lt _ (by decide)),
    hexValue_hexDigit (Nat.mod_lt _ (by decide)), hexValue_hexDigit (Nat.mod_lt _ (by decide)),
    hexValue_hexDigit (Nat.mod_lt _ (by decide))]
  simp only [Option.bind_eq_bind, Option.bind_some, Option.pure_def, Option.some.injEq]
  omega

theorem char_ne_surrogate (c : Char) : ¬(0xd800 ≤ c.toNat ∧ c.toNat < 0xe000) := by
  have h := c.valid
  simp only [UInt32.isValidChar, Nat.isValidChar] at h
  have : c.toNat = c.val.toNat := rfl
  omega

theorem char_lt (c : Char) : c.toNat < 0x110000 := by
  have h := c.valid
  simp only [UInt32.isValidChar, Nat.isValidChar] at h
  have : c.toNat = c.val.toNat := rfl
  omega

private theorem parseString_hex4 {n : ℕ} (h : n < 0x10000)
    (hs : ¬(0xd800 ≤ n ∧ n < 0xe000)) (rest : List Char) :
    parseString ('\\' :: 'u' :: (hex4 n ++ rest))
      = (parseString rest).map fun out => (Char.ofNat n :: out.1, out.2) := by
  rw [hex4, List.cons_append, List.cons_append, List.cons_append, List.cons_append,
    List.nil_append, parseString, ofHex4_hex4 h]
  dsimp only
  rw [if_neg (by omega), if_neg (by omega)]

private theorem parseString_pair {k : ℕ} (h : k < 0x100000) (rest : List Char) :
    parseString ('\\' :: 'u' :: (hex4 (0xd800 + k / 1024)
        ++ '\\' :: 'u' :: (hex4 (0xdc00 + k % 1024) ++ rest)))
      = (parseString rest).map fun out => (Char.ofNat (0x10000 + k) :: out.1, out.2) := by
  have hhigh : 0xd800 + k / 1024 < 0xdc00 := by omega
  have hlow : 0xdc00 + k % 1024 < 0xe000 := by omega
  rw [hex4, List.cons_append, List.cons_append, List.cons_append, List.cons_append,
    List.nil_append, parseString, ofHex4_hex4 (by omega)]
  dsimp only
  rw [if_pos ⟨by omega, hhigh⟩]
  rw [hex4, List.cons_append, List.cons_append, List.cons_append, List.cons_append,
    List.nil_append]
  simp only [ofHex4_hex4 (show 0xdc00 + k % 1024 < 0x10000 by omega)]
  rw [if_pos ⟨by omega, hlow⟩]
  have : 0x10000 + (0xd800 + k / 1024 - 0xd800) * 1024 + (0xdc00 + k % 1024 - 0xdc00)
      = 0x10000 + k := by omega
  rw [this]

/-- Reading an escaped character consumes its escape and nothing else. -/
theorem parseString_escapeChar (c : Char) (rest : List Char) :
    parseString (escapeChar c ++ rest)
      = (parseString rest).map fun out => (c :: out.1, out.2) := by
  unfold escapeChar
  split
  case isTrue h => subst h; rfl
  split
  case isTrue h => subst h; rfl
  split
  case isTrue h => subst h; rfl
  split
  case isTrue h => subst h; rfl
  split
  case isTrue h => subst h; rfl
  split
  case isTrue h =>
    have : c = Char.ofNat 8 := by rw [← h, Char.ofNat_toNat]
    subst this; rfl
  split
  case isTrue h =>
    have : c = Char.ofNat 12 := by rw [← h, Char.ofNat_toNat]
    subst this; rfl
  split
  case isTrue hq hb _ _ _ _ _ h =>
    rw [List.singleton_append, parseString.eq_def]
    split <;> simp_all
  split
  case isTrue h =>
    have hs := char_ne_surrogate c
    rw [List.cons_append, List.cons_append, parseString_hex4 h (by omega), Char.ofNat_toNat]
  case isFalse h =>
    have hlt := char_lt c
    rw [List.append_assoc, List.cons_append, List.cons_append, List.cons_append,
      List.cons_append, parseString_pair (by omega)]
    have : 0x10000 + (c.toNat - 0x10000) = c.toNat := by omega
    rw [this, Char.ofNat_toNat]

theorem parseString_escape (text rest : List Char) :
    parseString (escape text ++ '"' :: rest) = some (text, rest) := by
  induction text with
  | nil => rfl
  | cons c text ih =>
    rw [escape, List.flatMap_cons, List.append_assoc, parseString_escapeChar, ← escape, ih]
    rfl

/-! ### Numbers -/

def isNumberChar (c : Char) : Bool :=
  c.isDigit || c == '-' || c == '+' || c == '.' || c == 'e' || c == 'E'

/-- One digit or more, to the end. -/
def isDigits (text : List Char) : Bool := !text.isEmpty && text.all Char.isDigit

/-- `[eE][+-]?[0-9]+`, or nothing. -/
def isExponent : List Char → Bool
  | [] => true
  | e :: '+' :: text => (e == 'e' || e == 'E') && isDigits text
  | e :: '-' :: text => (e == 'e' || e == 'E') && isDigits text
  | e :: text => (e == 'e' || e == 'E') && isDigits text

/-- `(\.[0-9]+)?` and an exponent. -/
def isFraction : List Char → Bool
  | '.' :: text => isDigits (text.takeWhile Char.isDigit) && isExponent (text.dropWhile Char.isDigit)
  | text => isExponent text

/-- `0|[1-9][0-9]*`, then a fraction and an exponent. -/
def isUnsigned : List Char → Bool
  | '0' :: text => isFraction text
  | c :: text => c.isDigit && isFraction (text.dropWhile Char.isDigit)
  | [] => false

/-- The JSON number grammar. -/
def isNumber : List Char → Bool
  | '-' :: text => isUnsigned text
  | text => isUnsigned text

/-! ### Rendering -/

mutual

/-- Compact JSON text, the keys in the order they are held. -/
def render : JsonValue → List Char
  | .null => "null".toList
  | .bool true => "true".toList
  | .bool false => "false".toList
  | .number literal => literal.toList
  | .string text => '"' :: (escape text.toList ++ ['"'])
  | .array [] => ['[', ']']
  | .array (item :: items) => '[' :: (render item ++ renderItems items)
  | .object [] => ['{', '}']
  | .object ((key, value) :: fields) =>
      '{' :: '"' :: (escape key.toList ++ '"' :: ':' :: (render value ++ renderFields fields))

/-- The items after the first, up to the closing bracket. -/
def renderItems : List JsonValue → List Char
  | [] => [']']
  | item :: items => ',' :: (render item ++ renderItems items)

/-- The fields after the first, up to the closing brace. -/
def renderFields : List (String × JsonValue) → List Char
  | [] => ['}']
  | (key, value) :: fields =>
      ',' :: '"' :: (escape key.toList ++ '"' :: ':' :: (render value ++ renderFields fields))

end

mutual

/-- `sort_keys=True`: every object's fields by key, in code point order. -/
def sortKeys : JsonValue → JsonValue
  | .array items => .array (sortKeysItems items)
  | .object fields =>
      .object ((sortKeysFields fields).insertionSort fun a b => a.1 ≤ b.1)
  | value => value

def sortKeysItems : List JsonValue → List JsonValue
  | [] => []
  | item :: items => sortKeys item :: sortKeysItems items

def sortKeysFields : List (String × JsonValue) → List (String × JsonValue)
  | [] => []
  | (key, value) :: fields => (key, sortKeys value) :: sortKeysFields fields

end

def dumps (value : JsonValue) : String := String.ofList (render (sortKeys value))

/-! ### Parsing -/

def isSpace (c : Char) : Bool := c == ' ' || c == '\t' || c == '\n' || c == '\r'

def skipSpace (text : List Char) : List Char := text.dropWhile isSpace

mutual

/-- Read one value off the front of the text; `fuel` bounds the nesting. -/
def parseValue : ℕ → List Char → Option (JsonValue × List Char)
  | 0, _ => none
  | fuel + 1, text =>
      match skipSpace text with
      | 'n' :: 'u' :: 'l' :: 'l' :: rest => some (.null, rest)
      | 't' :: 'r' :: 'u' :: 'e' :: rest => some (.bool true, rest)
      | 'f' :: 'a' :: 'l' :: 's' :: 'e' :: rest => some (.bool false, rest)
      | '"' :: rest => (parseString rest).map fun out => (.string (String.ofList out.1), out.2)
      | '[' :: rest =>
          match skipSpace rest with
          | ']' :: rest => some (.array [], rest)
          | rest => (parseItems fuel rest).map fun out => (.array out.1, out.2)
      | '{' :: rest =>
          match skipSpace rest with
          | '}' :: rest => some (.object [], rest)
          | rest => (parseFields fuel rest).map fun out => (.object out.1, out.2)
      | text =>
          if isNumber (text.takeWhile isNumberChar) then
            some (.number (String.ofList (text.takeWhile isNumberChar)),
              text.dropWhile isNumberChar)
          else none

/-- Array items up to the closing bracket, at least one. -/
def parseItems : ℕ → List Char → Option (List JsonValue × List Char)
  | 0, _ => none
  | fuel + 1, text =>
      match parseValue fuel text with
      | none => none
      | some (item, rest) =>
          match skipSpace rest with
          | ']' :: rest => some ([item], rest)
          | ',' :: rest => (parseItems fuel rest).map fun out => (item :: out.1, out.2)
          | _ => none

/-- Object fields up to the closing brace, at least one. -/
def parseFields : ℕ → List Char → Option (List (String × JsonValue) × List Char)
  | 0, _ => none
  | fuel + 1, text =>
      match skipSpace text with
      | '"' :: rest =>
          match parseString rest with
          | none => none
          | some (key, rest) =>
              match skipSpace rest with
              | ':' :: rest =>
                  match parseValue fuel rest with
                  | none => none
                  | some (value, rest) =>
                      match skipSpace rest with
                      | '}' :: rest => some ([(String.ofList key, value)], rest)
                      | ',' :: rest =>
                          (parseFields fuel rest).map fun out =>
                            ((String.ofList key, value) :: out.1, out.2)
                      | _ => none
              | _ => none
      | _ => none

end

/-- `json.loads(text)`, `none` where it raises `JSONDecodeError`. -/
def loads (text : String) : Option JsonValue :=
  match parseValue (text.toList.length + 1) text.toList with
  | some (value, rest) => if skipSpace rest = [] then some value else none
  | none => none

/-! ### The parser inverts the renderer -/

mutual

/-- Every number literal is one. -/
def Valid : JsonValue → Prop
  | .number literal => isNumber literal.toList = true
  | .array items => ValidItems items
  | .object fields => ValidFields fields
  | _ => True

def ValidItems : List JsonValue → Prop
  | [] => True
  | item :: items => Valid item ∧ ValidItems items

def ValidFields : List (String × JsonValue) → Prop
  | [] => True
  | (_, value) :: fields => Valid value ∧ ValidFields fields

end

mutual

/-- The fuel a value needs. -/
def depth : JsonValue → ℕ
  | .array items => 1 + depthItems items
  | .object fields => 1 + depthFields fields
  | _ => 1

def depthItems : List JsonValue → ℕ
  | [] => 0
  | item :: items => 1 + max (depth item) (depthItems items)

def depthFields : List (String × JsonValue) → ℕ
  | [] => 0
  | (_, value) :: fields => 1 + max (depth value) (depthFields fields)

end

private theorem isNumberChar_of_isDigit {c : Char} (h : c.isDigit = true) :
    isNumberChar c = true := by
  simp [isNumberChar, h]

private theorem isDigits_all {text : List Char} (h : isDigits text = true) :
    ∀ c ∈ text, isNumberChar c = true := by
  intro c hc
  rw [isDigits, Bool.and_eq_true, List.all_eq_true] at h
  exact isNumberChar_of_isDigit (h.2 c hc)

private theorem numberChar_cons {c : Char} {text : List Char} (hc : isNumberChar c = true)
    (h : ∀ c ∈ text, isNumberChar c = true) : ∀ c' ∈ c :: text, isNumberChar c' = true :=
  List.forall_mem_cons.mpr ⟨hc, h⟩

private theorem isExponent_all {text : List Char} (h : isExponent text = true) :
    ∀ c ∈ text, isNumberChar c = true := by
  have hmark : ∀ e : Char, (e == 'e' || e == 'E') = true → isNumberChar e = true := by
    intro e he
    rcases Bool.or_eq_true_iff.mp he with he | he <;> rw [eq_of_beq he] <;> rfl
  unfold isExponent at h
  split at h
  case h_1 => simp
  case h_2 =>
    rw [Bool.and_eq_true] at h
    exact numberChar_cons (hmark _ h.1) (numberChar_cons rfl (isDigits_all h.2))
  case h_3 =>
    rw [Bool.and_eq_true] at h
    exact numberChar_cons (hmark _ h.1) (numberChar_cons rfl (isDigits_all h.2))
  case h_4 =>
    rw [Bool.and_eq_true] at h
    exact numberChar_cons (hmark _ h.1) (isDigits_all h.2)

private theorem digits_append_all {text : List Char}
    (h : ∀ c ∈ text.dropWhile Char.isDigit, isNumberChar c = true) :
    ∀ c ∈ text, isNumberChar c = true := by
  intro c hc
  rw [← List.takeWhile_append_dropWhile (p := Char.isDigit) (l := text), List.mem_append] at hc
  rcases hc with hc | hc
  · exact isNumberChar_of_isDigit (List.mem_takeWhile_imp hc)
  · exact h c hc

private theorem isFraction_all {text : List Char} (h : isFraction text = true) :
    ∀ c ∈ text, isNumberChar c = true := by
  unfold isFraction at h
  split at h
  case h_1 =>
    rw [Bool.and_eq_true] at h
    exact numberChar_cons rfl (digits_append_all (isExponent_all h.2))
  case h_2 => exact isExponent_all h

private theorem isUnsigned_all {text : List Char} (h : isUnsigned text = true) :
    ∀ c ∈ text, isNumberChar c = true := by
  unfold isUnsigned at h
  split at h
  case h_1 => exact numberChar_cons rfl (isFraction_all h)
  case h_2 =>
    rw [Bool.and_eq_true] at h
    exact numberChar_cons (isNumberChar_of_isDigit h.1) (digits_append_all (isFraction_all h.2))
  case h_3 => cases h

theorem isNumber_all {text : List Char} (h : isNumber text = true) :
    ∀ c ∈ text, isNumberChar c = true := by
  unfold isNumber at h
  split at h
  case h_1 => exact numberChar_cons rfl (isUnsigned_all h)
  case h_2 => exact isUnsigned_all h

/-- A number starts with a minus sign or a digit. -/
theorem isNumber_head {text : List Char} (h : isNumber text = true) :
    ∃ c rest, text = c :: rest ∧ (c = '-' ∨ c.isDigit = true) := by
  unfold isNumber at h
  split at h
  case h_1 => exact ⟨'-', _, rfl, Or.inl rfl⟩
  case h_2 =>
    unfold isUnsigned at h
    split at h
    case h_1 => exact ⟨'0', _, rfl, Or.inr rfl⟩
    case h_2 => exact ⟨_, _, rfl, Or.inr (Bool.and_eq_true_iff.mp h).1⟩
    case h_3 => cases h

/-- The continuation after a value does not prolong a number. -/
def Follows (rest : List Char) : Prop := ∀ c tail, rest = c :: tail → isNumberChar c = false

theorem takeWhile_number {text rest : List Char} (h : isNumber text = true) (hr : Follows rest) :
    (text ++ rest).takeWhile isNumberChar = text := by
  rw [List.takeWhile_append_of_pos (isNumber_all h)]
  cases rest with
  | nil => simp
  | cons c tail => rw [List.takeWhile_cons_of_neg (by simp [hr c tail rfl]), List.append_nil]

theorem dropWhile_number {text rest : List Char} (h : isNumber text = true) (hr : Follows rest) :
    (text ++ rest).dropWhile isNumberChar = rest := by
  rw [List.dropWhile_append_of_pos (isNumber_all h)]
  cases rest with
  | nil => rfl
  | cons c tail => rw [List.dropWhile_cons_of_neg (by simp [hr c tail rfl])]

/-- What starts a value: neither a space nor a closing bracket. -/
def Starts (text : List Char) : Prop :=
  ∃ c rest, text = c :: rest ∧ isSpace c = false ∧ c ≠ ']' ∧ c ≠ '}'

private theorem isSpace_of_isDigit {c : Char} (h : c.isDigit = true) : isSpace c = false := by
  by_contra hs
  simp only [isSpace, Bool.not_eq_false, Bool.or_eq_true, beq_iff_eq] at hs
  rcases hs with ((rfl | rfl) | rfl) | rfl <;> cases h

theorem starts_render {value : JsonValue} (h : value.Valid) (rest : List Char) :
    Starts (render value ++ rest) := by
  have literal : ∀ c text, isSpace c = false → c ≠ ']' → c ≠ '}' → Starts (c :: text) :=
    fun c text h1 h2 h3 => ⟨c, text, rfl, h1, h2, h3⟩
  match value with
  | .null | .bool true | .bool false | .string _ | .array [] | .array (_ :: _) | .object []
  | .object ((_, _) :: _) =>
      exact literal _ _ (by decide) (by decide) (by decide)
  | .number text =>
      obtain ⟨c, tail, ht, hc⟩ := isNumber_head h
      rw [render, ht]
      rcases hc with rfl | hc
      · exact literal _ _ (by decide) (by decide) (by decide)
      · refine literal _ _ (isSpace_of_isDigit hc) ?_ ?_
        · rintro rfl; cases hc
        · rintro rfl; cases hc

theorem skipSpace_of_starts {text : List Char} (h : Starts text) : skipSpace text = text := by
  obtain ⟨c, rest, rfl, hc, -, -⟩ := h
  exact List.dropWhile_cons_of_neg (by simp [hc])

private theorem follows_cons {c : Char} (rest : List Char) (h : isNumberChar c = false) :
    Follows (c :: rest) := by
  intro c' tail heq
  cases heq
  exact h

private theorem follows_renderItems (items : List JsonValue) (rest : List Char) :
    Follows (renderItems items ++ rest) := by
  cases items with
  | nil => exact follows_cons _ rfl
  | cons item items => exact follows_cons _ rfl

private theorem follows_renderFields (fields : List (String × JsonValue)) (rest : List Char) :
    Follows (renderFields fields ++ rest) := by
  match fields with
  | [] => exact follows_cons _ rfl
  | (_, _) :: _ => exact follows_cons _ rfl

private theorem parseValue_number {literal rest : List Char} (h : isNumber literal = true)
    (hr : Follows rest) (fuel : ℕ) :
    parseValue (fuel + 1) (literal ++ rest) = some (.number (String.ofList literal), rest) := by
  have hskip : skipSpace (literal ++ rest) = literal ++ rest := by
    obtain ⟨c, tail, ht, hc⟩ := isNumber_head h
    rw [ht, List.cons_append, skipSpace]
    refine List.dropWhile_cons_of_neg ?_
    rcases hc with rfl | hc
    · decide
    · simp [isSpace_of_isDigit hc]
  have hhead : ∀ c tail, literal ++ rest = c :: tail → c = '-' ∨ c.isDigit = true := by
    intro c tail heq
    obtain ⟨c', tail', ht, hc⟩ := isNumber_head h
    rw [ht, List.cons_append] at heq
    cases heq
    exact hc
  rw [parseValue, hskip]
  split
  case h_7 =>
    rw [takeWhile_number h hr, dropWhile_number h hr, if_pos h]
  all_goals
    rename_i heq
    rcases hhead _ _ heq with hc | hc <;> cases hc

/-- An array's text between its brackets, the closing one included. -/
private def itemsText : List JsonValue → List Char
  | [] => []
  | item :: items => render item ++ renderItems items

/-- An object's text between its braces, the closing one included. -/
private def fieldsText : List (String × JsonValue) → List Char
  | [] => []
  | (key, value) :: fields =>
      '"' :: (escape key.toList ++ '"' :: ':' :: (render value ++ renderFields fields))

mutual

/-- Parsing what was rendered gives the value back and leaves what follows. -/
theorem parseValue_render : ∀ (value : JsonValue), value.Valid → ∀ (fuel : ℕ),
    depth value ≤ fuel → ∀ rest, Follows rest →
    parseValue fuel (render value ++ rest) = some (value, rest)
  | .null, _, fuel + 1, _, rest, _ => rfl
  | .bool true, _, fuel + 1, _, rest, _ => rfl
  | .bool false, _, fuel + 1, _, rest, _ => rfl
  | .number literal, hv, fuel + 1, _, rest, hr => by
      rw [render, parseValue_number hv hr, String.ofList_toList]
  | .string text, _, fuel + 1, _, rest, _ => by
      rw [render, List.cons_append, List.append_assoc, parseValue]
      show (parseString _).map _ = _
      rw [List.singleton_append, parseString_escape, Option.map_some, String.ofList_toList]
  | .array [], _, fuel + 1, _, rest, _ => rfl
  | .array (item :: items), hv, fuel + 1, hd, rest, _ => by
      have hi := parseItems_render (item :: items) hv (List.cons_ne_nil _ _) fuel
        (by simp only [depth] at hd; omega) rest
      have hs := starts_render hv.1 (renderItems items ++ rest)
      rw [itemsText, List.append_assoc] at hi
      rw [render, List.cons_append, List.append_assoc, parseValue]
      show (match skipSpace _ with | ']' :: rest => _ | rest => _) = _
      rw [skipSpace_of_starts hs]
      obtain ⟨c, tail, heq, -, hb, -⟩ := hs
      rw [heq] at hi ⊢
      split
      case h_1 h => cases h; exact absurd rfl hb
      case h_2 => rw [hi]; rfl
  | .object [], _, fuel + 1, _, rest, _ => rfl
  | .object ((key, value) :: fields), hv, fuel + 1, hd, rest, _ => by
      have hf := parseFields_render ((key, value) :: fields) hv (List.cons_ne_nil _ _) fuel
        (by simp only [depth] at hd; omega) rest
      rw [render, List.cons_append, parseValue]
      show (parseFields fuel (fieldsText ((key, value) :: fields) ++ rest)).map _ = _
      rw [hf]
      rfl
  | .null, _, 0, hd, _, _ | .bool _, _, 0, hd, _, _ | .number _, _, 0, hd, _, _
  | .string _, _, 0, hd, _, _ | .array _, _, 0, hd, _, _ | .object _, _, 0, hd, _, _ => by
      simp [depth] at hd

theorem parseItems_render : ∀ (items : List JsonValue), ValidItems items → items ≠ [] →
    ∀ (fuel : ℕ), depthItems items ≤ fuel → ∀ rest,
    parseItems fuel (itemsText items ++ rest) = some (items, rest)
  | [], _, h, _, _, _ => absurd rfl h
  | item :: items, hv, _, fuel + 1, hd, rest => by
      rw [depthItems] at hd
      rw [itemsText, List.append_assoc, parseItems,
        parseValue_render item hv.1 fuel (by omega) _ (follows_renderItems items rest)]
      match items, hv, hd with
      | [], _, _ => rfl
      | next :: items, hv, hd =>
        have hi := parseItems_render (next :: items) hv.2 (List.cons_ne_nil _ _) fuel
          (by omega) rest
        show (parseItems fuel (itemsText (next :: items) ++ rest)).map _ = _
        rw [hi]
        rfl
  | _ :: _, _, _, 0, hd, _ => by simp [depthItems] at hd

theorem parseFields_render : ∀ (fields : List (String × JsonValue)), ValidFields fields →
    fields ≠ [] → ∀ (fuel : ℕ), depthFields fields ≤ fuel → ∀ rest,
    parseFields fuel (fieldsText fields ++ rest) = some (fields, rest)
  | [], _, h, _, _, _ => absurd rfl h
  | (key, value) :: fields, hv, _, fuel + 1, hd, rest => by
      rw [depthFields] at hd
      rw [fieldsText, List.cons_append, List.append_assoc, parseFields]
      show (match parseString _ with | none => _ | some (_, _) => _) = _
      rw [List.cons_append, parseString_escape]
      show (match parseValue fuel (render value ++ renderFields fields ++ rest) with
        | none => _ | some (_, _) => _) = _
      rw [List.append_assoc,
        parseValue_render value hv.1 fuel (by omega) _ (follows_renderFields fields rest)]
      match fields, hv, hd with
      | [], _, _ =>
        show some ([(String.ofList key.toList, value)], rest) = _
        rw [String.ofList_toList]
      | (key', value') :: fields, hv, hd =>
        have hf := parseFields_render ((key', value') :: fields) hv.2 (List.cons_ne_nil _ _) fuel
          (by omega) rest
        show (parseFields fuel (fieldsText ((key', value') :: fields) ++ rest)).map _ = _
        rw [hf, Option.map_some, String.ofList_toList]
  | (_, _) :: _, _, _, 0, hd, _ => by simp [depthFields] at hd

end

mutual

/-- The length of the text is fuel enough. -/
theorem depth_le_length : ∀ value : JsonValue, value.Valid → depth value ≤ (render value).length
  | .null, _ => by decide
  | .bool true, _ => by decide
  | .bool false, _ => by decide
  | .number literal, hv => by
      obtain ⟨c, rest, ht, -⟩ := isNumber_head hv
      simp [depth, render, ht]
  | .string text, _ => by simp [depth, render]
  | .array [], _ => by decide
  | .array (item :: items), hv => by
      have hi := depthItems_le_length (item :: items) hv
      rw [itemsText] at hi
      simp only [depth, render, List.length_cons]
      omega
  | .object [], _ => by decide
  | .object ((key, value) :: fields), hv => by
      have hf := depthFields_le_length ((key, value) :: fields) hv
      simp only [fieldsText, List.length_cons] at hf
      simp only [depth, render, List.length_cons]
      omega

theorem depthItems_le_length : ∀ items : List JsonValue, ValidItems items →
    depthItems items ≤ (itemsText items).length
  | [], _ => by decide
  | item :: items, hv => by
      have h := depth_le_length item hv.1
      have hi := depthItems_le_length items hv.2
      have hpos : 0 < (renderItems items).length := by cases items <;> simp [renderItems]
      simp only [depthItems, itemsText, List.length_append]
      cases items with
      | nil => simp only [depthItems]; omega
      | cons next items =>
        simp only [itemsText, renderItems, List.length_cons] at hi ⊢
        omega

theorem depthFields_le_length : ∀ fields : List (String × JsonValue), ValidFields fields →
    depthFields fields ≤ (fieldsText fields).length
  | [], _ => by decide
  | (key, value) :: fields, hv => by
      have h := depth_le_length value hv.1
      have hf := depthFields_le_length fields hv.2
      simp only [depthFields, fieldsText, List.length_append, List.length_cons]
      match fields, hf with
      | [], _ => simp only [depthFields]; omega
      | (key', value') :: fields, hf =>
        simp only [fieldsText, renderFields, List.length_cons] at hf ⊢
        omega

end

private theorem validFields_iff {fields : List (String × JsonValue)} :
    ValidFields fields ↔ ∀ field ∈ fields, field.2.Valid := by
  induction fields with
  | nil => simp [ValidFields]
  | cons field fields ih => simp [ValidFields, ih]

mutual

theorem valid_sortKeys : ∀ value : JsonValue, value.Valid → (sortKeys value).Valid
  | .null, _ => trivial
  | .bool _, _ => trivial
  | .number _, hv => hv
  | .string _, _ => trivial
  | .array items, hv => valid_sortKeysItems items hv
  | .object fields, hv => by
      rw [sortKeys, Valid, validFields_iff]
      intro field hfield
      rw [List.mem_insertionSort] at hfield
      exact (validFields_iff.mp (valid_sortKeysFields fields hv)) field hfield

theorem valid_sortKeysItems : ∀ items : List JsonValue, ValidItems items →
    ValidItems (sortKeysItems items)
  | [], _ => trivial
  | item :: items, hv => ⟨valid_sortKeys item hv.1, valid_sortKeysItems items hv.2⟩

theorem valid_sortKeysFields : ∀ fields : List (String × JsonValue), ValidFields fields →
    ValidFields (sortKeysFields fields)
  | [], _ => trivial
  | (_, value) :: fields, hv => ⟨valid_sortKeys value hv.1, valid_sortKeysFields fields hv.2⟩

end

/-- What was dumped loads as the same document, its keys sorted. -/
theorem loads_dumps {value : JsonValue} (h : value.Valid) :
    loads (dumps value) = some (sortKeys value) := by
  have hv := valid_sortKeys value h
  have hd := depth_le_length _ hv
  have hp := parseValue_render _ hv ((render (sortKeys value)).length + 1) (by omega) []
    (fun _ _ h => by cases h)
  rw [List.append_nil] at hp
  rw [loads, dumps, String.toList_ofList, hp]
  rfl

/-! ### Access to a loaded document -/

/-- `document.get(key)`: of two fields with one key the later one counts. -/
def field? (key : String) : JsonValue → Option JsonValue
  | .object fields => (fields.reverse.find? fun field => field.1 == key).map Prod.snd
  | _ => none

theorem field?_eq_some {fields : List (String × JsonValue)}
    (h : (fields.map Prod.fst).Nodup) {key : String} {value : JsonValue} :
    field? key (.object fields) = some value ↔ (key, value) ∈ fields := by
  rw [field?, Option.map_eq_some_iff]
  constructor
  · rintro ⟨⟨key', value'⟩, hfind, rfl⟩
    have hmem := List.mem_of_find?_eq_some hfind
    have hkey : key' = key := by simpa using List.find?_some hfind
    exact hkey ▸ List.mem_reverse.mp hmem
  · intro hmem
    cases hfind : fields.reverse.find? fun field => field.1 == key with
    | none =>
      have := List.find?_eq_none.mp hfind (key, value) (List.mem_reverse.mpr hmem)
      simp at this
    | some field =>
      have hmem' := List.mem_reverse.mp (List.mem_of_find?_eq_some hfind)
      have hkey : field.1 = key := by simpa using List.find?_some hfind
      have := List.inj_on_of_nodup_map h hmem' hmem hkey
      exact ⟨field, rfl, by rw [this]⟩

private theorem sortKeysFields_eq (fields : List (String × JsonValue)) :
    sortKeysFields fields = fields.map fun field => (field.1, sortKeys field.2) := by
  induction fields with
  | nil => rfl
  | cons field fields ih => rw [sortKeysFields, ih, List.map_cons]

theorem sortKeysItems_eq (items : List JsonValue) :
    sortKeysItems items = items.map sortKeys := by
  induction items with
  | nil => rfl
  | cons item items ih => rw [sortKeysItems, ih, List.map_cons]

/-- Sorting keys does not change what a key holds. -/
theorem field?_sortKeys {fields : List (String × JsonValue)}
    (h : (fields.map Prod.fst).Nodup) (key : String) :
    field? key (sortKeys (.object fields)) = (field? key (.object fields)).map sortKeys := by
  rw [sortKeys, sortKeysFields_eq]
  set sorted := (fields.map fun field => (field.1, sortKeys field.2)).insertionSort
    fun a b => a.1 ≤ b.1 with hsorted
  have hperm : sorted.Perm (fields.map fun field => (field.1, sortKeys field.2)) :=
    List.perm_insertionSort _ _
  have hnodup : (sorted.map Prod.fst).Nodup := by
    rw [(hperm.map Prod.fst).nodup_iff, List.map_map]
    exact h
  refine Option.ext fun value => ?_
  rw [field?_eq_some hnodup, hperm.mem_iff, Option.map_eq_some_iff]
  simp only [field?_eq_some h, List.mem_map, Prod.mk.injEq, Prod.exists]
  constructor
  · rintro ⟨key', value', hmem, rfl, rfl⟩
    exact ⟨value', hmem, rfl⟩
  · rintro ⟨value', hmem, rfl⟩
    exact ⟨key, value', hmem, rfl, rfl⟩

end JsonValue
