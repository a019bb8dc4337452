import BtcPolicy.Lib.Hex
import Mathlib.Data.List.TakeWhile
import Mathlib.Tactic

/-! JSON texts: a compact printer and a parser that reads it back in front of any whitespace. A text is bytes, each
as the character of its number, so that the grammar can be spelled. The strings in a value are bytes too: whether they
are UTF-8 matters only where they are read. A number keeps the characters it was written with. -/

namespace BtcPolicy.Json

def isWhitespace (c : Char) : Bool := c == ' ' || c == '\n' || c == '\r' || c == '\t'

def isNumberChar (c : Char) : Bool := c.isDigit || c == '-' || c == '+' || c == '.' || c == 'e' || c == 'E'

/-- The part after the integer: a fraction, then an exponent. -/
def validTail (tail : List Char) : Bool :=
  let afterFraction := match tail with
    | '.' :: digits => if digits.takeWhile Char.isDigit = [] then none else some (digits.dropWhile Char.isDigit)
    | other => some other
  match afterFraction with
  | none => false
  | some [] => true
  | some (mark :: power) =>
    let unsigned := match power with
      | '+' :: digits => digits
      | '-' :: digits => digits
      | digits => digits
    (mark == 'e' || mark == 'E') && !unsigned.isEmpty && unsigned.all Char.isDigit

/-- Without its sign: no leading zero, and digits after a point or an exponent mark. -/
def validUnsigned : List Char → Bool
  | [] => false
  | '0' :: tail => validTail tail
  | first :: rest => first.isDigit && validTail (rest.dropWhile Char.isDigit)

/-- The grammar of a number. -/
def validNumber (lexeme : List Char) : Bool :=
  lexeme.all isNumberChar &&
    match lexeme with
    | '-' :: digits => validUnsigned digits
    | digits => validUnsigned digits

end BtcPolicy.Json

/-- A JSON value. Members are in order, and a name may occur twice. -/
inductive BtcPolicy.Json where
  | null
  | bool (value : Bool)
  | number (lexeme : { lexeme : List Char // BtcPolicy.Json.validNumber lexeme = true })
  | string (bytes : List UInt8)
  | array (items : List BtcPolicy.Json)
  | object (members : List (List UInt8 × BtcPolicy.Json))

namespace BtcPolicy.Json
open Hex

/-! ### Bytes as characters -/

theorem toUInt8_ofUInt8 (b : UInt8) : (Char.ofUInt8 b).toUInt8 = b := UInt8.toUInt8_toUInt32 b

theorem toNat_ofUInt8_lt (b : UInt8) : (Char.ofUInt8 b).toNat < 256 := b.toNat_lt

theorem ofUInt8_toUInt8 {c : Char} (byte : c.toNat < 256) : Char.ofUInt8 c.toUInt8 = c := by
  apply Char.ext
  apply UInt32.toNat_inj.mp
  change c.val.toUInt8.toUInt32.toNat = c.val.toNat
  rw [UInt8.toNat_toUInt32, UInt32.toNat_toUInt8]
  exact Nat.mod_eq_of_lt byte

/-! ### Printing -/

/-- A quote, a backslash and the control characters are escaped, nothing else is. -/
def escape (c : Char) : List Char :=
  if c = '\x22' then ['\x5c', '\x22']
  else if c = '\x5c' then ['\x5c', '\x5c']
  else if c = '\x08' then ['\x5c', 'b']
  else if c = '\x09' then ['\x5c', 't']
  else if c = '\x0a' then ['\x5c', 'n']
  else if c = '\x0c' then ['\x5c', 'f']
  else if c = '\x0d' then ['\x5c', 'r']
  else if c.toNat < 32 then ['\x5c', 'u', '0', '0', hexDigit (c.toNat / 16), hexDigit (c.toNat % 16)]
  else [c]

/-- The inside of a string. -/
def escaped (bytes : List UInt8) : List Char := bytes.flatMap (fun b => escape (Char.ofUInt8 b))

def printString (bytes : List UInt8) : List Char := '\x22' :: escaped bytes ++ ['\x22']

mutual

def print : Json → List Char
  | .null => ['n', 'u', 'l', 'l']
  | .bool true => ['t', 'r', 'u', 'e']
  | .bool false => ['f', 'a', 'l', 's', 'e']
  | .number lexeme => lexeme.1
  | .string bytes => printString bytes
  | .array items => '[' :: printItems items ++ [']']
  | .object members => '\x7b' :: printMembers members ++ ['\x7d']

def printItems : List Json → List Char
  | [] => []
  | [item] => print item
  | item :: next :: rest => print item ++ ',' :: printItems (next :: rest)

def printMembers : List (List UInt8 × Json) → List Char
  | [] => []
  | [(name, value)] => printString name ++ ':' :: print value
  | (name, value) :: next :: rest => printString name ++ ':' :: print value ++ ',' :: printMembers (next :: rest)

end

/-! ### Parsing -/

def skipWhitespace (text : List Char) : List Char := text.dropWhile isWhitespace

def hexUnit (a b c d : Char) : Option Nat := do
  let a ← hexValue a
  let b ← hexValue b
  let c ← hexValue c
  let d ← hexValue d
  pure (4096 * a + 256 * b + 16 * c + d)

/-- The escapes of one letter. -/
def unescape : Char → Option Char
  | '\x22' => some '\x22'
  | '\x5c' => some '\x5c'
  | '/' => some '/'
  | 'b' => some '\x08'
  | 'f' => some '\x0c'
  | 'n' => some '\x0a'
  | 'r' => some '\x0d'
  | 't' => some '\x09'
  | _ => none

def isHighSurrogate (unit : Nat) : Bool := decide (0xd800 ≤ unit ∧ unit < 0xdc00)

def isLowSurrogate (unit : Nat) : Bool := decide (0xdc00 ≤ unit ∧ unit < 0xe000)

/-- The UTF-8 form of a code point. -/
def encoded (point : Nat) : List UInt8 := String.utf8EncodeChar (Char.ofNat point)

/-- What half of a surrogate pair leaves in a string: a byte that no UTF-8 has. -/
def unpaired : List UInt8 := [0xff]

/-- A reading with these bytes in front. -/
def prefixed (front : List UInt8) (read : List UInt8 × List Char) : List UInt8 × List Char :=
  (front ++ read.1, read.2)

/-- What follows the opening quote, up to the closing one. -/
def parseString : List Char → Option (List UInt8 × List Char)
  | [] => none
  | c :: rest =>
    if c = '\x22' then some ([], rest)
    else if c = '\x5c' then
      match rest with
      | 'u' :: a :: b :: c :: d :: rest =>
        match hexUnit a b c d with
        | none => none
        | some unit =>
          if isLowSurrogate unit then (parseString rest).map (prefixed unpaired)
          else if isHighSurrogate unit then
            match rest with
            | '\x5c' :: 'u' :: a :: b :: c :: d :: after =>
              match hexUnit a b c d with
              | none => none
              | some low =>
                if isLowSurrogate low then
                  (parseString after).map (prefixed (encoded (0x10000 + 1024 * (unit - 0xd800) + (low - 0xdc00))))
                else (parseString ('\x5c' :: 'u' :: a :: b :: c :: d :: after)).map (prefixed unpaired)
            | other => (parseString other).map (prefixed unpaired)
          else (parseString rest).map (prefixed (encoded unit))
      | letter :: rest =>
        match unescape letter with
        | none => none
        | some c => (parseString rest).map (prefixed [c.toUInt8])
      | [] => none
    else if c.toNat < 32 then none
    else (parseString rest).map (prefixed [c.toUInt8])

def parseNumber (text : List Char) : Option (Json × List Char) :=
  let lexeme := text.takeWhile isNumberChar
  if valid : validNumber lexeme = true then some (.number ⟨lexeme, valid⟩, text.dropWhile isNumberChar) else none

mutual

def parseValue : Nat → List Char → Option (Json × List Char)
  | 0, _ => none
  | fuel + 1, text =>
    match skipWhitespace text with
    | [] => none
    | first :: rest =>
      if first = '\x22' then (parseString rest).map (fun (bytes, rest) => (.string bytes, rest))
      else if first = '[' then
        match skipWhitespace rest with
        | ']' :: rest => some (.array [], rest)
        | _ => (parseItems fuel rest).map (fun (items, rest) => (.array items, rest))
      else if first = '\x7b' then
        match skipWhitespace rest with
        | '\x7d' :: rest => some (.object [], rest)
        | _ => (parseMembers fuel rest).map (fun (members, rest) => (.object members, rest))
      else if first = 'n' then
        if rest.take 3 = ['u', 'l', 'l'] then some (.null, rest.drop 3) else none
      else if first = 't' then
        if rest.take 3 = ['r', 'u', 'e'] then some (.bool true, rest.drop 3) else none
      else if first = 'f' then
        if rest.take 4 = ['a', 'l', 's', 'e'] then some (.bool false, rest.drop 4) else none
      else parseNumber (first :: rest)

def parseItems : Nat → List Char → Option (List Json × List Char)
  | 0, _ => none
  | fuel + 1, text =>
    match parseValue fuel text with
    | none => none
    | some (item, rest) =>
      match skipWhitespace rest with
      | ',' :: rest => (parseItems fuel rest).map (fun (items, rest) => (item :: items, rest))
      | ']' :: rest => some ([item], rest)
      | _ => none

def parseMembers : Nat → List Char → Option (List (List UInt8 × Json) × List Char)
  | 0, _ => none
  | fuel + 1, text =>
    match skipWhitespace text with
    | '\x22' :: rest =>
      match parseString rest with
      | none => none
      | some (name, rest) =>
        match skipWhitespace rest with
        | ':' :: rest =>
          match parseValue fuel rest with
          | none => none
          | some (value, rest) =>
            match skipWhitespace rest with
            | ',' :: rest => (parseMembers fuel rest).map (fun (members, rest) => ((name, value) :: members, rest))
            | '\x7d' :: rest => some ([(name, value)], rest)
            | _ => none
        | _ => none
    | _ => none

end

/-- A whole text: one value, and nothing but whitespace after it. -/
def parse (text : List Char) : Option Json :=
  match parseValue (text.length + 1) text with
  | none => none
  | some (value, rest) => if skipWhitespace rest = [] then some value else none

/-! ### A printed text is read back -/

/-- The closing quote ends a string. -/
theorem parseString_quote (rest : List Char) : parseString ('\x22' :: rest) = some ([], rest) := by
  rw [parseString.eq_def]
  simp

/-- A backslash and a letter other than `u`. -/
theorem parseString_letter {letter c : Char} (known : unescape letter = some c) (rest : List Char) :
    parseString ('\x5c' :: letter :: rest) = (parseString rest).map (prefixed [c.toUInt8]) := by
  have other : letter ≠ 'u' := by
    rintro rfl
    simp [unescape] at known
  rw [parseString.eq_def]
  simp [other, known]

theorem parseString_unit {a b c d : Char} {unit : Nat} (known : hexUnit a b c d = some unit)
    (low : isLowSurrogate unit = false) (high : isHighSurrogate unit = false) (rest : List Char) :
    parseString ('\x5c' :: 'u' :: a :: b :: c :: d :: rest) = (parseString rest).map (prefixed (encoded unit)) := by
  rw [parseString.eq_def]
  simp [known, low, high]

theorem parseString_plain {c : Char} (quote : c ≠ '\x22') (backslash : c ≠ '\x5c') (printable : ¬c.toNat < 32)
    (rest : List Char) : parseString (c :: rest) = (parseString rest).map (prefixed [c.toUInt8]) := by
  rw [parseString.eq_def]
  simp [quote, backslash, printable]

theorem encoded_control : ∀ n < 32, encoded n = [UInt8.ofNat n] := by decide

/-- An escaped character is read as itself. -/
theorem parseString_escape (c : Char) (rest : List Char) :
    parseString (escape c ++ rest) = (parseString rest).map (prefixed [c.toUInt8]) := by
  unfold escape
  split_ifs with quote backslash backspace tab newline feed carriage control
  · subst quote
    exact parseString_letter rfl rest
  · subst backslash
    exact parseString_letter rfl rest
  · subst backspace
    exact parseString_letter rfl rest
  · subst tab
    exact parseString_letter rfl rest
  · subst newline
    exact parseString_letter rfl rest
  · subst feed
    exact parseString_letter rfl rest
  · subst carriage
    exact parseString_letter rfl rest
  · have high := hexValue_hexDigit (c.toNat / 16) (by omega)
    have low := hexValue_hexDigit (c.toNat % 16) (by omega)
    have zero : hexValue '0' = some 0 := by decide
    have value : 16 * (c.toNat / 16) + c.toNat % 16 = c.toNat := by omega
    have unit : hexUnit '0' '0' (hexDigit (c.toNat / 16)) (hexDigit (c.toNat % 16)) = some c.toNat := by
      simp [hexUnit, zero, high, low, value]
    have plain : isLowSurrogate c.toNat = false ∧ isHighSurrogate c.toNat = false := by
      simp only [isLowSurrogate, isHighSurrogate, decide_eq_false_iff_not]
      omega
    have read := parseString_unit unit plain.1 plain.2 rest
    rwa [encoded_control c.toNat control] at read
  · exact parseString_plain quote backslash control rest

theorem parseString_escaped (bytes : List UInt8) (rest : List Char) :
    parseString (escaped bytes ++ '\x22' :: rest) = some (bytes, rest) := by
  induction bytes with
  | nil => exact parseString_quote rest
  | cons b bytes ih =>
    rw [escaped, List.flatMap_cons, List.append_assoc, parseString_escape, toUInt8_ofUInt8]
    rw [escaped] at ih
    rw [ih]
    rfl

/-- What may follow a number: it does not go on. -/
def Ends (rest : List Char) : Prop := ∀ c ∈ rest.head?, isNumberChar c = false

theorem Ends.cons {c : Char} (other : isNumberChar c = false) (rest : List Char) : Ends (c :: rest) := by
  intro d first
  rw [List.head?_cons, Option.mem_def, Option.some.injEq] at first
  rwa [← first]

theorem all_of_validNumber {lexeme : List Char} (valid : validNumber lexeme = true) :
    ∀ c ∈ lexeme, isNumberChar c = true := by
  unfold validNumber at valid
  rw [Bool.and_eq_true] at valid
  simpa using valid.1

theorem ne_nil_of_validNumber {lexeme : List Char} (valid : validNumber lexeme = true) : lexeme ≠ [] := by
  rintro rfl
  simp [validNumber, validUnsigned] at valid

theorem parseNumber_append (lexeme : { lexeme : List Char // validNumber lexeme = true }) {rest : List Char}
    (ends : Ends rest) : parseNumber (lexeme.1 ++ rest) = some (.number lexeme, rest) := by
  have all := all_of_validNumber lexeme.2
  have taken : (lexeme.1 ++ rest).takeWhile isNumberChar = lexeme.1 := by
    rw [List.takeWhile_append_of_pos all]
    cases rest with
    | nil => simp
    | cons c rest => simp [ends c (by simp)]
  have dropped : (lexeme.1 ++ rest).dropWhile isNumberChar = rest := by
    rw [List.dropWhile_append_of_pos all]
    cases rest with
    | nil => rfl
    | cons c rest => simp [ends c (by simp)]
  simp only [parseNumber, dropped, taken]
  exact dif_pos lexeme.2

/-- A printed value starts with a character that is no whitespace and closes nothing. -/
theorem print_first (value : Json) :
    ∃ first tail, print value = first :: tail ∧ isWhitespace first = false ∧ first ≠ ']' ∧ first ≠ '\x7d' := by
  cases value with
  | null => exact ⟨_, _, rfl, by decide, by decide, by decide⟩
  | bool value => cases value <;> exact ⟨_, _, rfl, by decide, by decide, by decide⟩
  | number lexeme =>
    obtain ⟨first, tail, shape⟩ := List.exists_cons_of_ne_nil (ne_nil_of_validNumber lexeme.2)
    have number := all_of_validNumber lexeme.2 first (by rw [shape]; exact List.mem_cons_self)
    refine ⟨first, tail, shape, ?_, ?_, ?_⟩
    · by_contra space
      rw [Bool.not_eq_false, isWhitespace] at space
      simp only [Bool.or_eq_true, beq_iff_eq] at space
      rcases space with ((rfl | rfl) | rfl) | rfl <;> simp [isNumberChar] at number
    · rintro rfl
      simp [isNumberChar] at number
    · rintro rfl
      simp [isNumberChar] at number
  | string bytes => exact ⟨_, _, rfl, by decide, by decide, by decide⟩
  | array items => exact ⟨_, _, rfl, by decide, by decide, by decide⟩
  | object members => exact ⟨_, _, rfl, by decide, by decide, by decide⟩

theorem skipWhitespace_cons {first : Char} (visible : isWhitespace first = false) (rest : List Char) :
    skipWhitespace (first :: rest) = first :: rest := by
  simp [skipWhitespace, visible]

mutual

/-- A bound on the fuel a value takes. -/
def cost : Json → Nat
  | .array items => costItems items + 1
  | .object members => costMembers members + 1
  | _ => 1

def costItems : List Json → Nat
  | [] => 0
  | item :: rest => cost item + costItems rest + 1

def costMembers : List (List UInt8 × Json) → Nat
  | [] => 0
  | (_, value) :: rest => cost value + costMembers rest + 1

end

/-- Reading back a printed value, item list and member list. -/
def ReadsValue (fuel : Nat) : Prop :=
  ∀ value rest, cost value ≤ fuel → Ends rest → parseValue fuel (print value ++ rest) = some (value, rest)

def ReadsItems (fuel : Nat) : Prop :=
  ∀ items rest, items ≠ [] → costItems items ≤ fuel →
    parseItems fuel (printItems items ++ ']' :: rest) = some (items, rest)

def ReadsMembers (fuel : Nat) : Prop :=
  ∀ members rest, members ≠ [] → costMembers members ≤ fuel →
    parseMembers fuel (printMembers members ++ '\x7d' :: rest) = some (members, rest)

/-- The text of a non-empty item list opens with a value, not with the closing bracket. -/
theorem printItems_first {items : List Json} (nonempty : items ≠ []) :
    ∃ first tail, printItems items = first :: tail ∧ isWhitespace first = false ∧ first ≠ ']' := by
  cases items with
  | nil => exact absurd rfl nonempty
  | cons item rest =>
    obtain ⟨first, tail, shape, visible, open_, _⟩ := print_first item
    cases rest with
    | nil => exact ⟨first, tail, shape, visible, open_⟩
    | cons next rest =>
      refine ⟨first, tail ++ ',' :: printItems (next :: rest), ?_, visible, open_⟩
      rw [printItems, shape, List.cons_append]

theorem printMembers_first {members : List (List UInt8 × Json)} (nonempty : members ≠ []) :
    ∃ tail, printMembers members = '\x22' :: tail := by
  cases members with
  | nil => exact absurd rfl nonempty
  | cons member rest =>
    obtain ⟨name, value⟩ := member
    cases rest with
    | nil => exact ⟨_, rfl⟩
    | cons next rest => exact ⟨_, rfl⟩

theorem readsValue_succ {fuel : Nat} (readsItems : ReadsItems fuel) (readsMembers : ReadsMembers fuel) :
    ReadsValue (fuel + 1) := by
  intro value rest enough ends
  cases value with
  | null => simp [parseValue, print, skipWhitespace, isWhitespace]
  | bool value => cases value <;> simp [parseValue, print, skipWhitespace, isWhitespace]
  | number lexeme =>
    obtain ⟨first, tail, shape⟩ := List.exists_cons_of_ne_nil (ne_nil_of_validNumber lexeme.2)
    have number := all_of_validNumber lexeme.2 first (by rw [shape]; exact List.mem_cons_self)
    have differs : ∀ c, isNumberChar c = false → first ≠ c := by
      rintro c other rfl
      exact absurd number (by simp [other])
    obtain ⟨_, _, same, visible, _, _⟩ := print_first (.number lexeme)
    rw [print, shape, List.cons.injEq] at same
    obtain ⟨rfl, _⟩ := same
    have read := parseNumber_append lexeme ends
    rw [shape, List.cons_append] at read
    rw [print, shape, List.cons_append, parseValue, skipWhitespace_cons visible]
    simp only [differs '\x22' (by decide), differs '[' (by decide), differs '\x7b' (by decide),
      differs 'n' (by decide), differs 't' (by decide), differs 'f' (by decide), if_false]
    exact read
  | string bytes =>
    rw [print, printString, parseValue, List.cons_append, List.cons_append, skipWhitespace_cons (by decide)]
    simp only [if_true, List.append_assoc, List.cons_append, List.nil_append, parseString_escaped,
      Option.map_some]
  | array items =>
    rw [print, List.cons_append, List.cons_append, parseValue, skipWhitespace_cons (by decide)]
    simp only [show ('[' : Char) ≠ '\x22' by decide, if_false, if_true, List.append_assoc, List.cons_append,
      List.nil_append]
    cases items with
    | nil => simp [printItems, skipWhitespace, isWhitespace]
    | cons item more =>
      obtain ⟨first, tail, shape, visible, other⟩ := printItems_first (List.cons_ne_nil item more)
      have read := readsItems (item :: more) rest (List.cons_ne_nil _ _) (by simp only [cost] at enough; omega)
      rw [shape, List.cons_append] at read ⊢
      rw [skipWhitespace_cons visible]
      simp [other, read]
  | object members =>
    rw [print, List.cons_append, List.cons_append, parseValue, skipWhitespace_cons (by decide)]
    simp only [show ('\x7b' : Char) ≠ '\x22' by decide, show ('\x7b' : Char) ≠ '[' by decide, if_false, if_true,
      List.append_assoc, List.cons_append, List.nil_append]
    cases members with
    | nil => simp [printMembers, skipWhitespace, isWhitespace]
    | cons member more =>
      obtain ⟨tail, shape⟩ := printMembers_first (List.cons_ne_nil member more)
      have read := readsMembers (member :: more) rest (List.cons_ne_nil _ _) (by simp only [cost] at enough; omega)
      rw [shape, List.cons_append] at read ⊢
      rw [skipWhitespace_cons (by decide)]
      simp [read]

theorem readsItems_succ {fuel : Nat} (readsValue : ReadsValue fuel) (readsItems : ReadsItems fuel) :
    ReadsItems (fuel + 1) := by
  intro items rest nonempty enough
  cases items with
  | nil => exact absurd rfl nonempty
  | cons item more =>
    simp only [costItems] at enough
    cases more with
    | nil =>
      have read := readsValue item (']' :: rest) (by omega) (Ends.cons (by decide) rest)
      rw [printItems, parseItems, read]
      simp [skipWhitespace, isWhitespace]
    | cons next more =>
      have read := readsValue item (',' :: (printItems (next :: more) ++ ']' :: rest)) (by omega)
        (Ends.cons (by decide) _)
      have later := readsItems (next :: more) rest (List.cons_ne_nil _ _) (by omega)
      rw [printItems, parseItems, List.append_assoc, List.cons_append, read]
      simp [skipWhitespace, isWhitespace, later]

theorem readsMembers_succ {fuel : Nat} (readsValue : ReadsValue fuel) (readsMembers : ReadsMembers fuel) :
    ReadsMembers (fuel + 1) := by
  intro members rest nonempty enough
  cases members with
  | nil => exact absurd rfl nonempty
  | cons member more =>
    obtain ⟨name, value⟩ := member
    simp only [costMembers] at enough
    cases more with
    | nil =>
      have read := readsValue value ('\x7d' :: rest) (by omega) (Ends.cons (by decide) rest)
      rw [printMembers, printString, parseMembers]
      simp only [List.append_assoc, List.cons_append, List.nil_append]
      rw [skipWhitespace_cons (by decide)]
      simp only [parseString_escaped]
      rw [skipWhitespace_cons (by decide)]
      simp only [read]
      rw [skipWhitespace_cons (by decide)]
      rfl
    | cons next more =>
      have read := readsValue value (',' :: (printMembers (next :: more) ++ '\x7d' :: rest)) (by omega)
        (Ends.cons (by decide) _)
      have later := readsMembers (next :: more) rest (List.cons_ne_nil _ _) (by omega)
      rw [printMembers, printString, parseMembers]
      simp only [List.append_assoc, List.cons_append, List.nil_append]
      rw [skipWhitespace_cons (by decide)]
      simp only [parseString_escaped]
      rw [skipWhitespace_cons (by decide)]
      simp only [read]
      rw [skipWhitespace_cons (by decide)]
      simp only [later, Option.map_some]

/-- By induction on the fuel, which the parser spends on nesting and on every element of a list. -/
theorem reads (fuel : Nat) : ReadsValue fuel ∧ ReadsItems fuel ∧ ReadsMembers fuel := by
  induction fuel with
  | zero =>
    refine ⟨?_, ?_, ?_⟩
    · intro value rest enough
      cases value <;> simp [cost] at enough
    · intro items rest nonempty enough
      cases items with
      | nil => exact absurd rfl nonempty
      | cons item more => simp [costItems] at enough
    · intro members rest nonempty enough
      cases members with
      | nil => exact absurd rfl nonempty
      | cons member more => simp [costMembers] at enough
  | succ fuel ih =>
    exact ⟨readsValue_succ ih.2.1 ih.2.2, readsItems_succ ih.1 ih.2.1, readsMembers_succ ih.1 ih.2.2⟩

mutual

theorem cost_le_length : (value : Json) → cost value ≤ (print value).length
  | .null => by simp [cost, print]
  | .bool true => by simp [cost, print]
  | .bool false => by simp [cost, print]
  | .number lexeme => List.length_pos_iff.mpr (ne_nil_of_validNumber lexeme.2)
  | .string bytes => by simp [cost, print, printString]
  | .array items => by
    have bound := costItems_le_length items
    simp only [cost, print, List.length_append, List.length_cons, List.length_nil]
    omega
  | .object members => by
    have bound := costMembers_le_length members
    simp only [cost, print, List.length_append, List.length_cons, List.length_nil]
    omega

theorem costItems_le_length : (items : List Json) → costItems items ≤ (printItems items).length + 1
  | [] => by simp [costItems]
  | [item] => by
    have bound := cost_le_length item
    simp only [costItems, printItems]
    omega
  | item :: next :: rest => by
    have bound := cost_le_length item
    have later := costItems_le_length (next :: rest)
    rw [costItems, printItems, List.length_append, List.length_cons]
    omega

theorem costMembers_le_length :
    (members : List (List UInt8 × Json)) → costMembers members ≤ (printMembers members).length + 1
  | [] => by simp [costMembers]
  | [(name, value)] => by
    have bound := cost_le_length value
    simp only [costMembers, printMembers, List.length_append, List.length_cons]
    omega
  | (name, value) :: next :: rest => by
    have bound := cost_le_length value
    have later := costMembers_le_length (next :: rest)
    rw [costMembers, printMembers]
    simp only [List.length_append, List.length_cons]
    omega

end

/-- A printed value followed by whitespace is a text of that value. -/
theorem parse_print (value : Json) {padding : List Char} (blank : ∀ c ∈ padding, isWhitespace c = true) :
    parse (print value ++ padding) = some value := by
  have bound := cost_le_length value
  have ends : Ends padding := by
    intro c first
    have space := blank c (List.mem_of_mem_head? first)
    simp only [isWhitespace, Bool.or_eq_true, beq_iff_eq] at space
    rcases space with ((rfl | rfl) | rfl) | rfl <;> decide
  have read := (reads ((print value ++ padding).length + 1)).1 value padding
    (by simp only [List.length_append]; omega) ends
  have skipped : skipWhitespace padding = [] := List.dropWhile_eq_nil_iff.mpr blank
  simp only [parse, read, skipped, if_true]

/-! ### Naturals -/

/-- The digits of a natural have no leading zero. -/
theorem toDigits_shape (n : Nat) :
    Nat.toDigits 10 n = ['0'] ∨ ∃ first rest, Nat.toDigits 10 n = first :: rest ∧ first ≠ '0' := by
  induction n using Nat.strong_induction_on with
  | _ n ih =>
    by_cases small : n < 10
    · rw [Nat.toDigits_of_lt_base small]
      by_cases zero : n = 0
      · left
        rw [zero]
        rfl
      · exact Or.inr ⟨_, [], rfl, by simpa using zero⟩
    · right
      rw [Nat.toDigits_of_base_le (by decide) (Nat.le_of_not_lt small)]
      have positive : 0 < n / 10 := by omega
      rcases ih (n / 10) (by omega) with zero | ⟨first, rest, shape, nonzero⟩
      · have back := congrArg (fun digits => Nat.ofDigitChars 10 digits 0) zero
        simp only [Nat.ofDigitChars_ten_toDigits] at back
        rw [back] at positive
        exact absurd positive (by decide)
      · exact ⟨first, rest ++ [Nat.digitChar (n % 10)], by rw [shape, List.cons_append], nonzero⟩

theorem isDigit_of_mem_toDigits {n : Nat} {c : Char} (member : c ∈ Nat.toDigits 10 n) : c.isDigit = true :=
  Nat.isDigit_of_mem_toDigits (by decide) (by decide) member

theorem validNumber_toDigits (n : Nat) : validNumber (Nat.toDigits 10 n) = true := by
  have digits : ∀ c ∈ Nat.toDigits 10 n, c.isDigit = true := fun c member => isDigit_of_mem_toDigits member
  have all : (Nat.toDigits 10 n).all isNumberChar = true := by
    rw [List.all_eq_true]
    intro c member
    simp [isNumberChar, digits c member]
  rcases toDigits_shape n with zero | ⟨first, rest, shape, nonzero⟩
  · rw [zero]
    decide
  · rw [shape] at digits all ⊢
    have unsigned : first ≠ '-' := by
      rintro rfl
      exact absurd (digits '-' List.mem_cons_self) (by decide)
    have none : rest.dropWhile Char.isDigit = [] :=
      List.dropWhile_eq_nil_iff.mpr (fun c member => digits c (List.mem_cons_of_mem _ member))
    have grammar : validUnsigned (first :: rest) = true := by
      rw [validUnsigned.eq_def]
      simp [digits first List.mem_cons_self, none, validTail]
    unfold validNumber
    rw [all, Bool.true_and]
    split
    · rename_i head
      exact absurd (List.cons.inj head).1 unsigned
    · exact grammar

/-- A natural as it is printed. -/
def natural (n : Nat) : Json := .number ⟨Nat.toDigits 10 n, validNumber_toDigits n⟩

/-- An unsigned integer below a bound; a sign, a fraction or an exponent makes it no integer. -/
def toNat? (bound : Nat) : Json → Option Nat
  | .number lexeme =>
    if lexeme.1.all Char.isDigit ∧ Nat.ofDigitChars 10 lexeme.1 0 < bound then some (Nat.ofDigitChars 10 lexeme.1 0)
    else none
  | _ => none

theorem toNat?_natural {bound n : Nat} (below : n < bound) : toNat? bound (natural n) = some n := by
  have digits : (Nat.toDigits 10 n).all Char.isDigit = true := by
    rw [List.all_eq_true]
    exact fun c member => isDigit_of_mem_toDigits member
  simp [toNat?, natural, digits, below]

/-! ### The bytes of a text -/

theorem escape_byte {c : Char} (byte : c.toNat < 256) : ∀ d ∈ escape c, d.toNat < 256 := by
  have digit : ∀ n < 16, (hexDigit n).toNat < 256 := by decide
  have high := digit (c.toNat / 16) (by omega)
  have low := digit (c.toNat % 16) (by omega)
  unfold escape
  split_ifs <;> simp [byte, high, low]

theorem printString_byte {bytes : List UInt8} : ∀ c ∈ printString bytes, c.toNat < 256 := by
  intro c member
  simp only [printString, escaped, List.mem_append, List.mem_cons, List.not_mem_nil, or_false, List.mem_flatMap]
    at member
  rcases member with (rfl | ⟨b, _, inside⟩) | rfl
  · decide
  · exact escape_byte (toNat_ofUInt8_lt b) c inside
  · decide

theorem isNumberChar_byte {c : Char} (number : isNumberChar c = true) : c.toNat < 256 := by
  simp only [isNumberChar, Bool.or_eq_true, beq_iff_eq] at number
  rcases number with ((((digit | rfl) | rfl) | rfl) | rfl) | rfl
  · exact Nat.lt_of_le_of_lt (Char.isDigit_iff_toNat.mp digit).2 (by decide)
  all_goals decide

mutual

/-- Every character of a printed value is a byte's. -/
theorem print_byte : (value : Json) → ∀ c ∈ print value, c.toNat < 256
  | .null => by simp [print]
  | .bool true => by simp [print]
  | .bool false => by simp [print]
  | .number lexeme => fun c member => isNumberChar_byte (all_of_validNumber lexeme.2 c member)
  | .string bytes => printString_byte
  | .array items => by
    have inside := printItems_byte items
    simpa [print, or_imp, forall_and] using inside
  | .object members => by
    have inside := printMembers_byte members
    simpa [print, or_imp, forall_and] using inside

theorem printItems_byte : (items : List Json) → ∀ c ∈ printItems items, c.toNat < 256
  | [] => by simp [printItems]
  | [item] => print_byte item
  | item :: next :: rest => by
    have first := print_byte item
    have later := printItems_byte (next :: rest)
    intro c member
    rw [printItems, List.mem_append, List.mem_cons] at member
    rcases member with here | rfl | there
    · exact first c here
    · decide
    · exact later c there

theorem printMembers_byte : (members : List (List UInt8 × Json)) → ∀ c ∈ printMembers members, c.toNat < 256
  | [] => by simp [printMembers]
  | [(name, value)] => by
    have held := print_byte value
    intro c member
    rw [printMembers, List.mem_append, List.mem_cons] at member
    rcases member with here | rfl | there
    · exact printString_byte c here
    · decide
    · exact held c there
  | (name, value) :: next :: rest => by
    have held := print_byte value
    have later := printMembers_byte (next :: rest)
    intro c member
    rw [printMembers, List.mem_append, List.mem_append, List.mem_cons, List.mem_cons] at member
    rcases member with (here | rfl | there) | rfl | last
    · exact printString_byte c here
    · decide
    · exact held c there
    · decide
    · exact later c last

end

/-- So a printed value is told by its bytes. -/
theorem map_ofUInt8_toUInt8 (value : Json) : ((print value).map Char.toUInt8).map Char.ofUInt8 = print value := by
  rw [List.map_map]
  refine (List.map_congr_left ?_).trans (List.map_id _)
  intro c member
  exact ofUInt8_toUInt8 (print_byte value c member)

/-- A byte's escape takes at most six. -/
theorem length_escape_le (c : Char) : (escape c).length ≤ 6 := by
  unfold escape
  split_ifs <;> simp

theorem length_escaped_le (bytes : List UInt8) : (escaped bytes).length ≤ 6 * bytes.length := by
  induction bytes with
  | nil => exact le_rfl
  | cons b bytes ih =>
    have first := length_escape_le (Char.ofUInt8 b)
    simp only [escaped, List.flatMap_cons, List.length_append, List.length_cons] at ih ⊢
    omega

/-- Characters that need no escape. -/
def Plain (c : Char) : Prop := c ≠ '\x22' ∧ c ≠ '\x5c' ∧ 32 ≤ c.toNat

instance (c : Char) : Decidable (Plain c) := inferInstanceAs (Decidable (_ ∧ _ ∧ _))

theorem escape_plain {c : Char} (plain : Plain c) : escape c = [c] := by
  obtain ⟨quote, backslash, printable⟩ := plain
  have above : ∀ d : Char, d.toNat < 32 → c ≠ d := by
    rintro d control rfl
    omega
  unfold escape
  rw [if_neg quote, if_neg backslash, if_neg (above _ (by decide)), if_neg (above _ (by decide)),
    if_neg (above _ (by decide)), if_neg (above _ (by decide)), if_neg (above _ (by decide)), if_neg (by omega)]

theorem length_escaped_plain {bytes : List UInt8} (plain : ∀ b ∈ bytes, Plain (Char.ofUInt8 b)) :
    (escaped bytes).length = bytes.length := by
  induction bytes with
  | nil => rfl
  | cons b bytes ih =>
    have later := ih (fun other member => plain other (List.mem_cons_of_mem _ member))
    rw [escaped] at later
    rw [escaped, List.flatMap_cons, escape_plain (plain b List.mem_cons_self), List.length_append, later]
    exact Nat.add_comm _ _

end BtcPolicy.Json
