import BtcPolicy.Lib.Json

/-! A reading holds no more text than there was to read: the strings of a value that was parsed take at most as many
bytes as the text it was parsed from. -/

namespace BtcPolicy.Json

mutual

/-- The bytes of the strings in a value, and of the names. -/
def extent : Json → Nat
  | .string bytes => bytes.length
  | .array items => extentItems items
  | .object members => extentMembers members
  | _ => 0

def extentItems : List Json → Nat
  | [] => 0
  | item :: rest => extent item + extentItems rest

def extentMembers : List (List UInt8 × Json) → Nat
  | [] => 0
  | (name, value) :: rest => name.length + extent value + extentMembers rest

end

theorem extent_le_items {items : List Json} {item : Json} (member : item ∈ items) :
    extent item ≤ extentItems items := by
  induction items with
  | nil => cases member
  | cons head rest ih =>
    rw [extentItems]
    rcases List.mem_cons.mp member with rfl | later
    · omega
    · have bound := ih later
      omega

theorem extent_le_members {members : List (List UInt8 × Json)} {name : List UInt8} {value : Json}
    (member : (name, value) ∈ members) : extent value ≤ extentMembers members := by
  induction members with
  | nil => cases member
  | cons head rest ih =>
    obtain ⟨first, held⟩ := head
    rw [extentMembers]
    rcases List.mem_cons.mp member with same | later
    · cases same
      omega
    · have bound := ih later
      omega

theorem length_skipWhitespace_le (text : List Char) : (skipWhitespace text).length ≤ text.length :=
  (List.dropWhile_sublist _).length_le

theorem length_encoded_le (point : Nat) : (encoded point).length ≤ 4 := by
  rw [encoded, String.length_utf8EncodeChar]
  exact Char.utf8Size_le_four _

/-- A reading behind these bytes takes them too. -/
theorem length_parsed {front out : List UInt8} {text rest : List Char}
    (read : (parseString text).map (prefixed front) = some (out, rest))
    (bound : ∀ {out rest}, parseString text = some (out, rest) → out.length + rest.length ≤ text.length) :
    out.length + rest.length ≤ front.length + text.length := by
  obtain ⟨⟨inner, left⟩, parsed, same⟩ := Option.map_eq_some_iff.mp read
  cases same
  have inside := bound parsed
  change (front ++ inner).length + left.length ≤ front.length + text.length
  rw [List.length_append]
  omega

theorem length_parseString {text rest : List Char} {out : List UInt8} (read : parseString text = some (out, rest)) :
    out.length + rest.length ≤ text.length := by
  -- At most four bytes come out of an escape of six characters or of a pair of those, and one out of the others.
  have one : ∀ point, (encoded point).length ≤ 4 := length_encoded_le
  have half : unpaired.length = 1 := rfl
  fun_induction parseString text generalizing out rest with
  | case2 =>
    cases read
    simp
  | case4 _ _ _ _ _ _ _ _ _ ih | case7 _ _ _ _ _ _ _ _ _ _ _ _ _ _ _ _ _ ih | case8 _ _ _ _ _ _ _ _ _ _ _ ih =>
    have step := length_parsed read ih
    simp only [List.length_cons] at step ⊢
    omega
  | case6 _ _ _ _ high _ _ _ _ _ _ _ _ low _ _ _ ih =>
    have step := length_parsed read ih
    have pair := one (0x10000 + 1024 * (high - 0xd800) + (low - 0xdc00))
    simp only [List.length_cons]
    omega
  | case9 _ _ _ _ _ unit _ _ _ _ ih =>
    have step := length_parsed read ih
    have unit := one unit
    simp only [List.length_cons]
    omega
  | case11 _ _ _ _ _ _ ih | case14 _ _ _ _ _ ih =>
    have step := length_parsed read ih
    simp only [List.length_cons, List.length_nil] at step ⊢
    omega
  | _ => cases read

/-! ### Values -/

def WithinValue (fuel : Nat) : Prop :=
  ∀ {text value rest}, parseValue fuel text = some (value, rest) → extent value + rest.length ≤ text.length

def WithinItems (fuel : Nat) : Prop :=
  ∀ {text items rest}, parseItems fuel text = some (items, rest) → extentItems items + rest.length ≤ text.length

def WithinMembers (fuel : Nat) : Prop :=
  ∀ {text members rest}, parseMembers fuel text = some (members, rest) →
    extentMembers members + rest.length ≤ text.length

theorem withinValue_succ {fuel : Nat} (items : WithinItems fuel) (members : WithinMembers fuel) :
    WithinValue (fuel + 1) := by
  intro text value rest read
  have visible := length_skipWhitespace_le text
  unfold parseValue at read
  change (skipWhitespace text).length ≤ text.length at visible
  split at read
  · cases read
  next first after same =>
    rw [same, List.length_cons] at visible
    have blank : (skipWhitespace after).length ≤ after.length := length_skipWhitespace_le after
    split_ifs at read with quote bracket brace null null' true' true'' false' false''
    · obtain ⟨⟨inner, left⟩, parsed, same⟩ := Option.map_eq_some_iff.mp read
      cases same
      have inside := length_parseString parsed
      rw [extent]
      omega
    · split at read
      next empty =>
        cases read
        rw [empty, List.length_cons] at blank
        rw [extent, extentItems]
        omega
      · obtain ⟨⟨inner, left⟩, parsed, same⟩ := Option.map_eq_some_iff.mp read
        cases same
        have inside := items parsed
        rw [extent]
        omega
    · split at read
      next empty =>
        cases read
        rw [empty, List.length_cons] at blank
        rw [extent, extentMembers]
        omega
      · obtain ⟨⟨inner, left⟩, parsed, same⟩ := Option.map_eq_some_iff.mp read
        cases same
        have inside := members parsed
        rw [extent]
        omega
    · cases read
      have dropped := (List.drop_sublist 3 after).length_le
      simp only [extent]
      omega
    · cases read
      have dropped := (List.drop_sublist 3 after).length_le
      simp only [extent]
      omega
    · cases read
      have dropped := (List.drop_sublist 4 after).length_le
      simp only [extent]
      omega
    · unfold parseNumber at read
      simp only at read
      split_ifs at read
      cases read
      have dropped := (List.dropWhile_sublist isNumberChar (l := first :: after)).length_le
      rw [List.length_cons] at dropped
      simp only [extent]
      omega

theorem withinItems_succ {fuel : Nat} (value : WithinValue fuel) (items : WithinItems fuel) :
    WithinItems (fuel + 1) := by
  intro text listed rest read
  unfold parseItems at read
  split at read
  · cases read
  next item after parsed =>
    have head := value parsed
    have visible : (skipWhitespace after).length ≤ after.length := length_skipWhitespace_le after
    split at read
    next comma =>
      obtain ⟨⟨inner, left⟩, more, same⟩ := Option.map_eq_some_iff.mp read
      cases same
      have tail := items more
      rw [comma, List.length_cons] at visible
      rw [extentItems]
      omega
    next bracket =>
      cases read
      rw [bracket, List.length_cons] at visible
      simp only [extentItems]
      omega
    · cases read

theorem withinMembers_succ {fuel : Nat} (value : WithinValue fuel) (members : WithinMembers fuel) :
    WithinMembers (fuel + 1) := by
  intro text listed rest read
  have opening : (skipWhitespace text).length ≤ text.length := length_skipWhitespace_le text
  unfold parseMembers at read
  split at read
  next quoted quote =>
    rw [quote, List.length_cons] at opening
    split at read
    · cases read
    next name named parsed =>
      have naming := length_parseString parsed
      have between : (skipWhitespace named).length ≤ named.length := length_skipWhitespace_le named
      split at read
      next held colon =>
        rw [colon, List.length_cons] at between
        split at read
        · cases read
        next item after parsed' =>
          have head := value parsed'
          have visible : (skipWhitespace after).length ≤ after.length := length_skipWhitespace_le after
          split at read
          next comma =>
            obtain ⟨⟨inner, left⟩, more, same⟩ := Option.map_eq_some_iff.mp read
            cases same
            have tail := members more
            rw [comma, List.length_cons] at visible
            rw [extentMembers]
            omega
          next brace =>
            cases read
            rw [brace, List.length_cons] at visible
            simp only [extentMembers]
            omega
          · cases read
      · cases read
  · cases read

/-- By induction on the fuel, as the parser spends it. -/
theorem within (fuel : Nat) : WithinValue fuel ∧ WithinItems fuel ∧ WithinMembers fuel := by
  induction fuel with
  | zero =>
    refine ⟨?_, ?_, ?_⟩
    · intro text value rest read
      cases read
    · intro text items rest read
      cases read
    · intro text members rest read
      cases read
  | succ fuel ih =>
    exact ⟨withinValue_succ ih.2.1 ih.2.2, withinItems_succ ih.1 ih.2.1, withinMembers_succ ih.1 ih.2.2⟩

theorem extent_parse {text : List Char} {value : Json} (read : parse text = some value) :
    extent value ≤ text.length := by
  unfold parse at read
  split at read
  · cases read
  next parsed left whole =>
    have bound := (within _).1 whole
    split_ifs at read
    cases read
    omega

end BtcPolicy.Json
