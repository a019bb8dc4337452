import BtcPolicy.Bitcoin
import BtcPolicy.Lib.Lines
import BtcPolicy.Lib.Results
import BtcPolicy.Lib.Word

/-! The response of the bounded HTTP client: how the whole of what a peer sent is cut into a status and a body, and
the grammar it accepts by that. -/

namespace BtcPolicy.Http
open Bitcoin Lines Results Word

/-- A byte string literal. -/
def ascii (text : String) : Bytes := text.toList.map (fun c => UInt8.ofNat c.toNat)

def cr : UInt8 := 13

def lf : UInt8 := 10

def space : UInt8 := 32

def colon : UInt8 := 58

def crlf : Bytes := [cr, lf]

/-! ### The bytes of a line -/

/-- `is_ascii_digit`. -/
def isDigit (byte : UInt8) : Bool := decide (48 ≤ byte.toNat ∧ byte.toNat ≤ 57)

/-- `is_ascii_alphanumeric`. -/
def isAlphanumeric (byte : UInt8) : Bool :=
  isDigit byte || decide (65 ≤ byte.toNat ∧ byte.toNat ≤ 90) || decide (97 ≤ byte.toNat ∧ byte.toNat ≤ 122)

/-- RFC 7230 `tchar`. -/
def isToken (byte : UInt8) : Bool := isAlphanumeric byte || (ascii "!#$%&'*+-.^_`|~").contains byte

def isOws (byte : UInt8) : Bool := byte == 32 || byte == 9

/-- The spaces and tabs of either end are dropped. -/
def trimOws (value : Bytes) : Bytes := ((value.dropWhile isOws).reverse.dropWhile isOws).reverse

/-- `to_ascii_lowercase`. -/
def lowercase (byte : UInt8) : UInt8 := if 65 ≤ byte.toNat ∧ byte.toNat ≤ 90 then byte + 32 else byte

/-- `eq_ignore_ascii_case`. -/
def eqIgnoreAsciiCase (name other : Bytes) : Bool := name.map lowercase == other.map lowercase

/-- The value of a run of digits. -/
def decimal (digits : Bytes) : Nat := digits.foldl (fun value byte => value * 10 + (byte.toNat - 48)) 0

/-- `parse` refuses a run of digits that a `usize` does not hold. -/
def contentLength (value : Bytes) : Option Nat :=
  if value.isEmpty || !value.all isDigit then none
  else if decimal value ≤ maxWord then some (decimal value)
  else none

/-- The status of a line that is exactly a version, a space, three digits of `100..=599`, and then a space or the end
of the line. -/
def strictStatus (raw : Bytes) : Option Nat :=
  match (raw.dropPrefix? (ascii "HTTP/1.1 ")).or (raw.dropPrefix? (ascii "HTTP/1.0 ")) with
  | none => none
  | some rest =>
    let digits := rest.take 3
    let after := rest.drop 3
    if rest.length < 3 then none
    else if !digits.all isDigit then none
    else if ¬([space] <+: after ∨ crlf <+: after) then none
    else if 100 ≤ decimal digits ∧ decimal digits ≤ 599 then some (decimal digits)
    else none

/-! ### The whole response -/

def malformed (addr what : String) : String := s!"malformed HTTP response from {addr}: {what}"

/-- Some CR is not in front of an LF, or some LF not behind a CR. -/
def halfTerminated (head : Bytes) : Bool :=
  head.zipIdx.any (fun (byte, place) =>
    if byte = cr then decide (head[place + 1]? ≠ some lf)
    else if byte = lf then decide (place = 0 ∨ head[place - 1]? ≠ some cr)
    else false)

/-- One header line, after those that left `declared`. -/
def checkHeader (addr : String) (declared : Option Nat) (header : Bytes) : Except String (Option Nat) :=
  match header.findIdx? (fun byte => byte == colon) with
  | none => .error (malformed addr "a header line carries no colon")
  | some place =>
    let name := header.take place
    let value := header.drop place
    if name.isEmpty || !name.all isToken then .error (malformed addr "a header name is not a token")
    else
      let value := trimOws (value.drop 1)
      if eqIgnoreAsciiCase name (ascii "transfer-encoding") then
        .error (malformed addr "this client accepts no Transfer-Encoding")
      else if eqIgnoreAsciiCase name (ascii "content-length") then
        if declared.isSome then .error (malformed addr "it carries more than one Content-Length")
        else
          match contentLength value with
          | none => .error (malformed addr "its Content-Length is malformed")
          | some length => .ok (some length)
      else .ok declared

/-- The loop over the header lines. -/
def checkHeaders (addr : String) : Option Nat → Bytes → Except String (Option Nat)
  | declared, [] => .ok declared
  | declared, first :: rest =>
    let headers := first :: rest
    let stop := (position headers crlf).getD headers.length
    match checkHeader addr declared (headers.take stop) with
    | .error e => .error e
    | .ok declared => checkHeaders addr declared (headers.drop (stop + 2))
termination_by _ headers => headers.length
decreasing_by
  rw [List.length_drop, List.length_cons]
  omega

def frame (raw : Bytes) (addr : String) : Except String (Nat × Bytes) :=
  match strictStatus raw with
  | none => .error (malformed addr "its status line is not strict HTTP/1.x")
  | some status =>
    match position raw crlf with
    | none => .error (malformed addr "its status line does not end")
    | some line =>
      match position (raw.drop line) (crlf ++ crlf) with
      | none => .error (malformed addr "its header block does not end")
      | some length =>
        let split := line + length
        if halfTerminated (raw.take (split + 4)) then .error (malformed addr "a head line does not end in CRLF")
        else
          match checkHeaders addr none ((raw.take (split + 2)).drop (line + 2)) with
          | .error e => .error e
          | .ok declared =>
            let body := raw.drop (split + 4)
            if declared.any (fun declared => declared ≠ body.length) then
              .error (malformed addr "its body length disagrees with its Content-Length")
            else .ok (status, body)

/-! ### The grammar -/

inductive Version where
  | http10
  | http11
  deriving DecidableEq, Repr

/-- The version with the space behind it. -/
def Version.text : Version → Bytes
  | .http10 => ascii "HTTP/1.0 "
  | .http11 => ascii "HTTP/1.1 "

def digit (n : Nat) : UInt8 := UInt8.ofNat (48 + n % 10)

def statusDigits (status : Nat) : Bytes := [digit (status / 100), digit (status / 10), digit status]

/-- A non-empty token and a value on one line. -/
@[ext] structure Header where
  name : Bytes
  value : Bytes
  named : name ≠ []
  token : ∀ byte ∈ name, isToken byte = true
  plain : Plain cr lf value

def Header.line (header : Header) : Bytes := header.name ++ colon :: header.value

def Header.Is (header : Header) (name : String) : Prop := eqIgnoreAsciiCase header.name (ascii name) = true

instance (header : Header) (name : String) : Decidable (header.Is name) := inferInstanceAs (Decidable (_ = true))

/-- Digits between spaces and tabs that give a length which a `usize` holds. -/
def Declares (value : Bytes) (length : Nat) : Prop :=
  ∃ before digits after, value = before ++ digits ++ after ∧ (∀ byte ∈ before, isOws byte = true) ∧
    (∀ byte ∈ after, isOws byte = true) ∧ digits ≠ [] ∧ (∀ byte ∈ digits, isDigit byte = true) ∧
    decimal digits = length ∧ length ≤ maxWord

/-- A response as the client understands it. -/
@[ext] structure Message where
  version : Version
  status : Nat
  reason : Option Bytes
  headers : List Header
  body : Bytes
  ranged : 100 ≤ status ∧ status ≤ 599
  plain : ∀ text ∈ reason, Plain cr lf text
  unencoded : ∀ header ∈ headers, ¬header.Is "Transfer-Encoding"
  single : (headers.filter (fun header => decide (header.Is "Content-Length"))).length ≤ 1
  sized : ∀ header ∈ headers, header.Is "Content-Length" → Declares header.value body.length

namespace Message

variable (message : Message)

/-- What stands behind the digits of the status. -/
def reasonText (reason : Option Bytes) : Bytes := reason.elim [] (fun text => space :: text)

def statusLine : Bytes := message.version.text ++ statusDigits message.status ++ reasonText message.reason

def render : Bytes :=
  message.statusLine ++ crlf ++ message.headers.flatMap (fun header => header.line ++ crlf) ++ crlf ++ message.body

end Message

/-! ### What the parts accept -/

theorem isDigit_iff (byte : UInt8) : isDigit byte = true ↔ 48 ≤ byte.toNat ∧ byte.toNat ≤ 57 := decide_eq_true_iff

theorem not_isOws_of_isDigit {byte : UInt8} (isNumber : isDigit byte = true) : isOws byte = false := by
  rw [isDigit_iff] at isNumber
  rw [isOws, Bool.or_eq_false_iff, beq_eq_false_iff_ne, beq_eq_false_iff_ne]
  constructor
  · rintro rfl
    exact absurd isNumber.1 (by decide)
  · rintro rfl
    exact absurd isNumber.1 (by decide)

theorem isToken_ne {byte : UInt8} (token : isToken byte = true) : byte ≠ cr ∧ byte ≠ lf ∧ byte ≠ colon := by
  refine ⟨?_, ?_, ?_⟩
  · rintro rfl
    exact absurd token (by decide)
  · rintro rfl
    exact absurd token (by decide)
  · rintro rfl
    exact absurd token (by decide)

theorem toNat_digit (n : Nat) : (digit n).toNat = 48 + n % 10 := by
  have small : n % 10 < 10 := Nat.mod_lt _ (by decide)
  unfold digit
  rw [UInt8.toNat_ofNat']
  omega

theorem digit_eq {byte : UInt8} (isNumber : isDigit byte = true) {n : Nat} (same : n % 10 = byte.toNat - 48) :
    digit n = byte := by
  obtain ⟨low, high⟩ := (isDigit_iff byte).mp isNumber
  apply UInt8.toNat_inj.mp
  rw [toNat_digit]
  omega

theorem isDigit_digit (n : Nat) : isDigit (digit n) = true := by
  rw [isDigit_iff, toNat_digit]
  omega

theorem decimal_three (a b c : UInt8) :
    decimal [a, b, c] = (a.toNat - 48) * 100 + (b.toNat - 48) * 10 + (c.toNat - 48) := by
  unfold decimal
  simp only [List.foldl_cons, List.foldl_nil]
  omega

theorem decimal_statusDigits {status : Nat} (ranged : 100 ≤ status ∧ status ≤ 599) :
    decimal (statusDigits status) = status := by
  rw [statusDigits, decimal_three, toNat_digit, toNat_digit, toNat_digit]
  omega

/-- Three digits are those of their value. -/
theorem statusDigits_decimal {digits : Bytes} (three : digits.length = 3) (numbers : ∀ byte ∈ digits, isDigit byte = true) :
    statusDigits (decimal digits) = digits := by
  match digits, three with
  | [a, b, c], _ =>
    have first := numbers a (by simp)
    have second := numbers b (by simp)
    have third := numbers c (by simp)
    have highA := ((isDigit_iff a).mp first).2
    have highB := ((isDigit_iff b).mp second).2
    have highC := ((isDigit_iff c).mp third).2
    rw [decimal_three, statusDigits, digit_eq first (by omega), digit_eq second (by omega), digit_eq third (by omega)]

/-- What a strict status line begins with. -/
def opening (version : Version) (status : Nat) : Bytes := version.text ++ statusDigits status

theorem Version.length_text (version : Version) : version.text.length = 9 := by
  cases version with
  | http10 => rfl
  | http11 => rfl

theorem Version.text_injective : Function.Injective Version.text := by
  intro a b same
  cases a with
  | http10 =>
    cases b with
    | http10 => rfl
    | http11 => exact absurd same (by decide)
  | http11 =>
    cases b with
    | http10 => exact absurd same (by decide)
    | http11 => rfl

theorem dropVersion_some {raw rest : Bytes}
    (found : (raw.dropPrefix? (ascii "HTTP/1.1 ")).or (raw.dropPrefix? (ascii "HTTP/1.0 ")) = some rest) :
    ∃ version : Version, raw = version.text ++ rest := by
  rw [Option.or_eq_some_iff] at found
  rcases found with newer | ⟨_, older⟩
  · obtain ⟨text, same, equal⟩ := List.dropPrefix?_eq_some_iff.mp newer
    exact ⟨.http11, by rw [same, eq_of_beq equal]; rfl⟩
  · obtain ⟨text, same, equal⟩ := List.dropPrefix?_eq_some_iff.mp older
    exact ⟨.http10, by rw [same, eq_of_beq equal]; rfl⟩

theorem dropVersion_text (version : Version) (rest : Bytes) :
    ((version.text ++ rest).dropPrefix? (ascii "HTTP/1.1 ")).or
      ((version.text ++ rest).dropPrefix? (ascii "HTTP/1.0 ")) = some rest := by
  have newer : ascii "HTTP/1.1 " = [72, 84, 84, 80, 47, 49, 46, 49, 32] := rfl
  have older : ascii "HTTP/1.0 " = [72, 84, 84, 80, 47, 49, 46, 48, 32] := rfl
  cases version with
  | http11 => simp [Version.text, newer, older, List.dropPrefix?]
  | http10 => simp [Version.text, newer, older, List.dropPrefix?]

/-- The status is read off the front of what came, and only there. -/
theorem strictStatus_some {raw : Bytes} {status : Nat} :
    strictStatus raw = some status ↔
      (100 ≤ status ∧ status ≤ 599) ∧
        ∃ version after, raw = opening version status ++ after ∧ ([space] <+: after ∨ crlf <+: after) := by
  constructor
  · intro read
    unfold strictStatus at read
    cases found : (raw.dropPrefix? (ascii "HTTP/1.1 ")).or (raw.dropPrefix? (ascii "HTTP/1.0 ")) with
    | none =>
      rw [found] at read
      cases read
    | some rest =>
      obtain ⟨version, same⟩ := dropVersion_some found
      rw [found] at read
      simp only at read
      split_ifs at read with short letters unended ranged
      cases read
      have three : (rest.take 3).length = 3 := by
        rw [List.length_take]
        omega
      have numbers : ∀ byte ∈ rest.take 3, isDigit byte = true := by
        rw [Bool.not_eq_true', Bool.not_eq_false, List.all_eq_true] at letters
        exact letters
      refine ⟨ranged, version, rest.drop 3, ?_, unended⟩
      rw [opening, statusDigits_decimal three numbers, List.append_assoc, List.take_append_drop, same]
  · rintro ⟨ranged, version, after, rfl, ended⟩
    have front : (statusDigits status ++ after).take 3 = statusDigits status := rfl
    have back : (statusDigits status ++ after).drop 3 = after := rfl
    have long : ¬(statusDigits status ++ after).length < 3 := by
      rw [List.length_append]
      simp [statusDigits]
    have numbers : (statusDigits status).all isDigit = true := by
      simp [statusDigits, isDigit_digit]
    unfold strictStatus
    rw [opening, List.append_assoc, dropVersion_text]
    simp only
    rw [if_neg long, front, back, numbers, if_neg (by simp), if_neg (not_not_intro ended),
      decimal_statusDigits ranged, if_pos ranged]

/-- More bytes behind a strict status line leave its status as it is. -/
theorem strictStatus_append {raw : Bytes} {status : Nat} (read : strictStatus raw = some status) (more : Bytes) :
    strictStatus (raw ++ more) = some status := by
  obtain ⟨ranged, version, after, rfl, ended⟩ := strictStatus_some.mp read
  refine strictStatus_some.mpr ⟨ranged, version, after ++ more, List.append_assoc _ _ _, ?_⟩
  exact ended.imp (fun here => here.trans (List.prefix_append _ _)) (fun here => here.trans (List.prefix_append _ _))

theorem halfTerminated_eq_false (head : Bytes) : halfTerminated head = false ↔ Terminated cr lf head := by
  unfold halfTerminated
  rw [List.any_eq_false]
  constructor
  · intro clean
    constructor
    · intro place found
      have passed := clean (cr, place) (List.mk_mem_zipIdx_iff_getElem?.mpr found)
      simpa using passed
    · intro place found
      have passed := clean (lf, place) (List.mk_mem_zipIdx_iff_getElem?.mpr found)
      have other : lf ≠ cr := by decide
      simp only [other, if_false, if_true, decide_eq_true_eq, not_or, not_not] at passed
      exact ⟨place - 1, by omega, passed.2⟩
  · rintro clean ⟨byte, place⟩ member
    have found := List.mk_mem_zipIdx_iff_getElem?.mp member
    simp only
    split_ifs with first second
    · subst first
      simpa using clean.first place found
    · subst second
      obtain ⟨before, rfl, behind⟩ := clean.second place found
      simpa using behind
    · exact not_false

theorem contentLength_some {value : Bytes} {length : Nat} :
    contentLength value = some length ↔
      value ≠ [] ∧ (∀ byte ∈ value, isDigit byte = true) ∧ decimal value = length ∧ length ≤ maxWord := by
  unfold contentLength
  constructor
  · intro read
    split_ifs at read with bad fits
    cases read
    rw [Bool.or_eq_true, not_or, List.isEmpty_iff, Bool.not_eq_true', Bool.not_eq_false, List.all_eq_true] at bad
    exact ⟨bad.1, bad.2, rfl, fits⟩
  · rintro ⟨filled, numbers, rfl, fits⟩
    have good : ¬(value.isEmpty || !value.all isDigit) = true := by
      rw [Bool.or_eq_true, not_or, List.isEmpty_iff, Bool.not_eq_true', Bool.not_eq_false, List.all_eq_true]
      exact ⟨filled, numbers⟩
    rw [if_neg good, if_pos fits]

theorem dropWhile_front {before digits : Bytes} (around : ∀ byte ∈ before, isOws byte = true)
    (numbers : ∀ byte ∈ digits, isDigit byte = true) (filled : digits ≠ []) (after : Bytes) :
    (before ++ (digits ++ after)).dropWhile isOws = digits ++ after := by
  rw [List.dropWhile_append_of_pos around]
  cases digits with
  | nil => exact absurd rfl filled
  | cons byte digits =>
    rw [List.cons_append, List.dropWhile_cons_of_neg]
    rw [not_isOws_of_isDigit (numbers byte List.mem_cons_self)]
    exact Bool.false_ne_true

/-- The trimmed value is a length exactly where the value declares one. -/
theorem declares_iff (value : Bytes) (length : Nat) : contentLength (trimOws value) = some length ↔ Declares value length := by
  rw [contentLength_some]
  constructor
  · rintro ⟨filled, numbers, same, fits⟩
    have front := List.takeWhile_append_dropWhile (p := isOws) (l := value)
    have back := List.takeWhile_append_dropWhile (p := isOws) (l := (value.dropWhile isOws).reverse)
    refine ⟨value.takeWhile isOws, trimOws value, ((value.dropWhile isOws).reverse.takeWhile isOws).reverse, ?_, ?_, ?_,
      filled, numbers, same, fits⟩
    · have trimmed : trimOws value ++ ((value.dropWhile isOws).reverse.takeWhile isOws).reverse =
          value.dropWhile isOws := by
        rw [trimOws, ← List.reverse_append, back, List.reverse_reverse]
      rw [List.append_assoc, trimmed, front]
    · intro byte member
      exact List.mem_takeWhile_imp member
    · intro byte member
      exact List.mem_takeWhile_imp (List.mem_reverse.mp member)
  · rintro ⟨before, digits, after, rfl, left, right, filled, numbers, same, fits⟩
    have trimmed : trimOws (before ++ digits ++ after) = digits := by
      have reversed : ∀ byte ∈ digits.reverse, isDigit byte = true :=
        fun byte member => numbers byte (List.mem_reverse.mp member)
      have trailing : ∀ byte ∈ after.reverse, isOws byte = true :=
        fun byte member => right byte (List.mem_reverse.mp member)
      have last := dropWhile_front trailing reversed (by simpa using filled) []
      rw [List.append_nil] at last
      rw [trimOws, List.append_assoc, dropWhile_front left numbers filled, List.reverse_append, last,
        List.reverse_reverse]
    rw [trimmed]
    exact ⟨filled, numbers, same, fits⟩

/-! ### The header lines -/

namespace Header

variable (header : Header)

theorem colon_notMem : colon ∉ header.name := fun member => (isToken_ne (header.token colon member)).2.2 rfl

theorem plain_line : Plain cr lf header.line := by
  constructor
  · intro member
    rcases List.mem_append.mp member with name | value
    · exact (isToken_ne (header.token cr name)).1 rfl
    · exact header.plain.1 ((List.mem_cons.mp value).resolve_left (by decide))
  · intro member
    rcases List.mem_append.mp member with name | value
    · exact (isToken_ne (header.token lf name)).2.1 rfl
    · exact header.plain.2 ((List.mem_cons.mp value).resolve_left (by decide))

theorem line_ne_nil : header.line ≠ [] := by simp [line]

/-- The name ends at the first colon. -/
theorem findIdx_line : header.line.findIdx? (fun byte => byte == colon) = some header.name.length := by
  rw [line, List.findIdx?_append, List.findIdx?_eq_none_iff.mpr, List.findIdx?_cons]
  · simp
  · intro byte member
    rw [beq_eq_false_iff_ne]
    rintro rfl
    exact header.colon_notMem member

theorem line_injective : Function.Injective line := by
  intro a b same
  have places := a.findIdx_line
  rw [same, b.findIdx_line] at places
  obtain ⟨name, rest⟩ := List.append_inj same (Option.some.inj places).symm
  exact Header.ext name (List.cons.inj rest).2

theorem is_transferEncoding :
    eqIgnoreAsciiCase header.name (ascii "transfer-encoding") = true ↔ header.Is "Transfer-Encoding" := by
  have same : (ascii "transfer-encoding").map lowercase = (ascii "Transfer-Encoding").map lowercase := by decide
  rw [Is, eqIgnoreAsciiCase, eqIgnoreAsciiCase, same]

theorem is_contentLength :
    eqIgnoreAsciiCase header.name (ascii "content-length") = true ↔ header.Is "Content-Length" := by
  have same : (ascii "content-length").map lowercase = (ascii "Content-Length").map lowercase := by decide
  rw [Is, eqIgnoreAsciiCase, eqIgnoreAsciiCase, same]

/-- One header line as the grammar has it. -/
theorem check_line (addr : String) (declared : Option Nat) :
    checkHeader addr declared header.line =
      if header.Is "Transfer-Encoding" then .error (malformed addr "this client accepts no Transfer-Encoding")
      else if header.Is "Content-Length" then
        if declared.isSome then .error (malformed addr "it carries more than one Content-Length")
        else
          match contentLength (trimOws header.value) with
          | none => .error (malformed addr "its Content-Length is malformed")
          | some length => .ok (some length)
      else .ok declared := by
  have name : header.line.take header.name.length = header.name := List.take_left' rfl
  have value : (header.line.drop header.name.length).drop 1 = header.value := by
    rw [line, List.drop_left]
    rfl
  have token : ¬(header.name.isEmpty || !header.name.all isToken) = true := by
    rw [Bool.or_eq_true, not_or, List.isEmpty_iff, Bool.not_eq_true', Bool.not_eq_false, List.all_eq_true]
    exact ⟨header.named, header.token⟩
  unfold checkHeader
  rw [header.findIdx_line]
  simp only
  rw [name, value, if_neg token]
  simp only [is_transferEncoding, is_contentLength]

end Header

/-- Only a header is let through. -/
theorem checkHeader_ok {addr : String} {declared next : Option Nat} {line : Bytes} (plain : Plain cr lf line)
    (passed : checkHeader addr declared line = .ok next) : ∃ header : Header, header.line = line := by
  unfold checkHeader at passed
  cases found : line.findIdx? (fun byte => byte == colon) with
  | none =>
    rw [found] at passed
    cases passed
  | some place =>
    rw [found] at passed
    simp only at passed
    split at passed
    · cases passed
    · rename_i token
      rw [Bool.or_eq_true, not_or, List.isEmpty_iff, Bool.not_eq_true', Bool.not_eq_false, List.all_eq_true] at token
      obtain ⟨inside, here, _⟩ := List.findIdx?_eq_some_iff_getElem.mp found
      have parted : line = line.take place ++ colon :: line.drop (place + 1) := by
        rw [← eq_of_beq here, List.getElem_cons_drop, List.take_append_drop]
      have value : Plain cr lf (line.drop (place + 1)) :=
        ⟨fun member => plain.1 (List.mem_of_mem_drop member), fun member => plain.2 (List.mem_of_mem_drop member)⟩
      exact ⟨⟨line.take place, line.drop (place + 1), token.1, token.2, value⟩, parted.symm⟩

/-- The loop takes the lines one after the other. -/
theorem checkHeaders_joined (addr : String) {lines : List Bytes} (plain : ∀ line ∈ lines, Plain cr lf line)
    (declared : Option Nat) :
    checkHeaders addr declared (joined cr lf lines) = lines.foldlM (checkHeader addr) declared := by
  induction lines generalizing declared with
  | nil =>
    rw [joined_nil, checkHeaders]
    rfl
  | cons line lines ih =>
    obtain ⟨here, later⟩ := List.forall_mem_cons.mp plain
    have stop := position_line here (joined cr lf lines)
    have front : (line ++ cr :: lf :: joined cr lf lines).take line.length = line := List.take_left' rfl
    have back : (line ++ cr :: lf :: joined cr lf lines).drop (line.length + 2) = joined cr lf lines := by
      rw [← List.drop_drop, List.drop_left]
      rfl
    have unfolded : checkHeaders addr declared (line ++ cr :: lf :: joined cr lf lines) =
        match checkHeader addr declared line with
        | .error e => .error e
        | .ok declared => checkHeaders addr declared (joined cr lf lines) := by
      cases whole : line ++ cr :: lf :: joined cr lf lines with
      | nil => simp at whole
      | cons first rest =>
        rw [checkHeaders, ← whole, show crlf = [cr, lf] from rfl, stop, Option.getD_some, front, back]
    rw [joined_cons, unfolded, List.foldlM_cons]
    cases checkHeader addr declared line with
    | error e => rfl
    | ok next => exact ih later next

/-- What the headers leave of a length that an earlier one may have declared. -/
def Leaves (headers : List Header) (before after : Option Nat) : Prop :=
  (∀ header ∈ headers, ¬header.Is "Transfer-Encoding") ∧
    match headers.filter (fun header => decide (header.Is "Content-Length")) with
    | [] => after = before
    | [header] => before = none ∧ ∃ length, Declares header.value length ∧ after = some length
    | _ => False

theorem foldlM_checkHeader (addr : String) (headers : List Header) (before after : Option Nat) :
    (headers.map Header.line).foldlM (checkHeader addr) before = .ok after ↔ Leaves headers before after := by
  induction headers generalizing before with
  | nil => simp [Leaves, pure, Except.pure, eq_comm]
  | cons header headers ih =>
    rw [List.map_cons, List.foldlM_cons, header.check_line]
    by_cases encoded : header.Is "Transfer-Encoding"
    · rw [if_pos encoded]
      constructor
      · intro passed
        cases passed
      · intro leaves
        exact absurd encoded (leaves.1 header List.mem_cons_self)
    by_cases sized : header.Is "Content-Length"
    · have listed : (header :: headers).filter (fun header => decide (header.Is "Content-Length")) =
          header :: headers.filter (fun header => decide (header.Is "Content-Length")) :=
        List.filter_cons_of_pos (decide_eq_true sized)
      rw [if_neg encoded, if_pos sized]
      unfold Leaves
      rw [listed, List.forall_mem_cons]
      cases before with
      | some length =>
        simp only [Option.isSome_some, if_true]
        constructor
        · intro passed
          cases passed
        · rintro ⟨_, leaves⟩
          cases rest : headers.filter (fun header => decide (header.Is "Content-Length")) with
          | nil => simp [rest] at leaves
          | cons other others => simp [rest] at leaves
      | none =>
        simp only [Option.isSome_none, Bool.false_eq_true, if_false]
        cases read : contentLength (trimOws header.value) with
        | none =>
          constructor
          · intro passed
            cases passed
          · rintro ⟨_, leaves⟩
            cases rest : headers.filter (fun header => decide (header.Is "Content-Length")) with
            | nil =>
              rw [rest] at leaves
              obtain ⟨_, length, declares, _⟩ := leaves
              rw [(declares_iff _ _).mpr declares] at read
              cases read
            | cons other others => simp [rest] at leaves
        | some length =>
          change List.foldlM (checkHeader addr) (some length) (headers.map Header.line) = _ ↔ _
          rw [ih (some length), Leaves]
          have only : ∀ other, Declares header.value other ↔ other = length := by
            intro other
            rw [← declares_iff, read, Option.some.injEq, eq_comm]
          cases rest : headers.filter (fun header => decide (header.Is "Content-Length")) with
          | nil => simp [encoded, only]
          | cons other others =>
            cases others with
            | nil => simp
            | cons third others => simp
    · have listed : (header :: headers).filter (fun header => decide (header.Is "Content-Length")) =
          headers.filter (fun header => decide (header.Is "Content-Length")) :=
        List.filter_cons_of_neg (by simpa using sized)
      rw [if_neg encoded, if_neg sized]
      change List.foldlM (checkHeader addr) before (headers.map Header.line) = _ ↔ _
      rw [ih before]
      unfold Leaves
      rw [listed, List.forall_mem_cons, and_assoc]
      simp [encoded]

/-- Where the lines pass, they are headers. -/
theorem exists_headers {addr : String} {lines : List Bytes} (plain : ∀ line ∈ lines, Plain cr lf line)
    {before after : Option Nat} (passed : lines.foldlM (checkHeader addr) before = .ok after) :
    ∃ headers : List Header, headers.map Header.line = lines := by
  induction lines generalizing before with
  | nil => exact ⟨[], rfl⟩
  | cons line lines ih =>
    obtain ⟨here, later⟩ := List.forall_mem_cons.mp plain
    rw [List.foldlM_cons] at passed
    obtain ⟨next, first, rest⟩ := ok_of_bind passed
    obtain ⟨header, same⟩ := checkHeader_ok here first
    obtain ⟨headers, others⟩ := ih later rest
    exact ⟨header :: headers, by rw [List.map_cons, same, others]⟩

/-! ### The frame -/

theorem crlf_eq : crlf = [cr, lf] := rfl

theorem cr_ne_lf : cr ≠ lf := by decide

/-- On a head of lines the frame reads the status, then the headers, then the length of what is left. -/
theorem frame_lines (addr : String) {first : Bytes} {lines : List Bytes} {body raw : Bytes} (plain : Plain cr lf first)
    (plains : ∀ line ∈ lines, Plain cr lf line) (filled : ∀ line ∈ lines, line ≠ [])
    (same : raw = first ++ cr :: lf :: (joined cr lf lines ++ cr :: lf :: body)) (status : Nat) (content : Bytes) :
    frame raw addr = .ok (status, content) ↔
      strictStatus raw = some status ∧ content = body ∧
        ∃ declared, lines.foldlM (checkHeader addr) none = .ok declared ∧ ∀ length ∈ declared, length = body.length := by
  obtain ⟨firstPair, doublePair, clean, block, rest⟩ := find_head cr_ne_lf plain plains filled same
  have whole : halfTerminated (raw.take (first.length + (joined cr lf lines).length + 4)) = false :=
    (halfTerminated_eq_false _).mpr clean
  unfold frame
  cases read : strictStatus raw with
  | none => simp
  | some number =>
    have once : position raw crlf = some first.length := firstPair
    have twice : position (raw.drop first.length) (crlf ++ crlf) = some (joined cr lf lines).length := doublePair
    simp only [once, twice]
    rw [whole, block, rest, checkHeaders_joined addr plains]
    cases folded : lines.foldlM (checkHeader addr) none with
    | error e => simp
    | ok declared =>
      cases declared with
      | none => simp [eq_comm]
      | some length =>
        by_cases sized : length = body.length
        · simp [sized, eq_comm]
        · simp [sized]

/-- What the frame takes has a head of lines. -/
theorem exists_lines {raw : Bytes} {addr : String} {framed : Nat × Bytes} (passed : frame raw addr = .ok framed) :
    ∃ first lines body, Plain cr lf first ∧ (∀ line ∈ lines, Plain cr lf line) ∧ (∀ line ∈ lines, line ≠ []) ∧
      raw = first ++ cr :: lf :: (joined cr lf lines ++ cr :: lf :: body) := by
  unfold frame at passed
  cases read : strictStatus raw with
  | none =>
    rw [read] at passed
    cases passed
  | some status =>
    cases firstPair : position raw crlf with
    | none =>
      simp only [read, firstPair] at passed
      cases passed
    | some line =>
      cases doublePair : position (raw.drop line) (crlf ++ crlf) with
      | none =>
        simp only [read, firstPair, doublePair] at passed
        cases passed
      | some length =>
        simp only [read, firstPair, doublePair] at passed
        split at passed
        · cases passed
        · rename_i whole
          exact exists_head cr_ne_lf firstPair doublePair ((halfTerminated_eq_false _).mp (by simpa using whole))

theorem plain_opening (version : Version) (status : Nat) : Plain cr lf (opening version status) := by
  have numbers : ∀ byte ∈ statusDigits status, byte ≠ cr ∧ byte ≠ lf := by
    intro byte member
    have isNumber : isDigit byte = true := by
      simp only [statusDigits, List.mem_cons, List.not_mem_nil, or_false] at member
      rcases member with rfl | rfl | rfl
      · exact isDigit_digit _
      · exact isDigit_digit _
      · exact isDigit_digit _
    have low := ((isDigit_iff byte).mp isNumber).1
    constructor
    · rintro rfl
      exact absurd low (by decide)
    · rintro rfl
      exact absurd low (by decide)
  have texts : ∀ version : Version, cr ∉ version.text ∧ lf ∉ version.text := by
    intro version
    cases version with
    | http10 => decide
    | http11 => decide
  constructor
  · intro member
    exact (List.mem_append.mp member).elim (texts version).1 (fun inside => (numbers cr inside).1 rfl)
  · intro member
    exact (List.mem_append.mp member).elim (texts version).2 (fun inside => (numbers lf inside).2 rfl)

/-- The first line of a strict response: the opening, and nothing or a space and a reason. -/
theorem exists_reason {raw first rest : Bytes} {status : Nat} (read : strictStatus raw = some status)
    (plain : Plain cr lf first) (same : raw = first ++ cr :: lf :: rest) :
    ∃ version reason, first = opening version status ++ Message.reasonText reason ∧
      ∀ text ∈ reason, Plain cr lf text := by
  obtain ⟨_, version, after, parted, ended⟩ := strictStatus_some.mp read
  have opens := plain_opening version status
  rcases ended with ⟨text, rfl⟩ | ⟨text, rfl⟩
  · have absent : cr ∉ opening version status ++ [space] := by
      rw [List.mem_append, List.mem_singleton, not_or]
      exact ⟨opens.1, by decide⟩
    have front : opening version status ++ [space] <+: first := by
      apply prefix_of_notMem absent
      rw [← same, parted]
      exact ⟨text, by simp⟩
    obtain ⟨reason, rfl⟩ := front
    refine ⟨version, some reason, by simp [Message.reasonText], ?_⟩
    intro text given
    cases given
    exact ⟨fun member => plain.1 (List.mem_append_right _ member), fun member => plain.2 (List.mem_append_right _ member)⟩
  · have here := position_line opens text
    have there := position_line plain rest
    have shown : opening version status ++ cr :: lf :: text = first ++ cr :: lf :: rest := by
      rw [← same, parted, crlf_eq]
      rfl
    rw [shown, there] at here
    have equal := (List.append_inj shown (Option.some.inj here).symm).1
    exact ⟨version, none, by rw [← equal]; simp [Message.reasonText], by simp⟩

namespace Message

variable (message : Message)

theorem render_eq :
    message.render = message.statusLine ++ cr :: lf ::
      (joined cr lf (message.headers.map Header.line) ++ cr :: lf :: message.body) := by
  have lines : message.headers.flatMap (fun header => header.line ++ crlf) =
      joined cr lf (message.headers.map Header.line) := by
    rw [joined, List.flatMap_map]
    rfl
  rw [render, lines, crlf_eq]
  simp

theorem plain_statusLine : Plain cr lf message.statusLine := by
  have opens := plain_opening message.version message.status
  have behind : cr ∉ reasonText message.reason ∧ lf ∉ reasonText message.reason := by
    cases given : message.reason with
    | none => exact ⟨List.not_mem_nil, List.not_mem_nil⟩
    | some text =>
      have plain := message.plain text given
      constructor
      · intro member
        exact plain.1 ((List.mem_cons.mp member).resolve_left (by decide))
      · intro member
        exact plain.2 ((List.mem_cons.mp member).resolve_left (by decide))
  exact ⟨fun member => (List.mem_append.mp member).elim opens.1 behind.1,
    fun member => (List.mem_append.mp member).elim opens.2 behind.2⟩

theorem plain_lines : ∀ line ∈ message.headers.map Header.line, Plain cr lf line := by
  intro line member
  obtain ⟨header, _, rfl⟩ := List.mem_map.mp member
  exact header.plain_line

theorem lines_ne_nil : ∀ line ∈ message.headers.map Header.line, line ≠ [] := by
  intro line member
  obtain ⟨header, _, rfl⟩ := List.mem_map.mp member
  exact header.line_ne_nil

theorem strictStatus_render : strictStatus message.render = some message.status := by
  rw [strictStatus_some]
  refine ⟨message.ranged, message.version, reasonText message.reason ++ crlf ++
    message.headers.flatMap (fun header => header.line ++ crlf) ++ crlf ++ message.body, ?_, ?_⟩
  · rw [render, statusLine, opening]
    simp only [List.append_assoc]
  · cases message.reason with
    | none =>
      simp only [reasonText, Option.elim, List.nil_append, List.append_assoc]
      exact Or.inr (List.prefix_append _ _)
    | some text =>
      simp only [reasonText, Option.elim, List.cons_append]
      exact Or.inl (List.cons_prefix_cons.mpr ⟨rfl, List.nil_prefix⟩)

/-- At most one header is left that declares the length. -/
theorem leaves : ∃ declared, Leaves message.headers none declared ∧ ∀ length ∈ declared, length = message.body.length := by
  have single := message.single
  cases listed : message.headers.filter (fun header => decide (header.Is "Content-Length")) with
  | nil => exact ⟨none, ⟨message.unencoded, by rw [listed]⟩, by simp⟩
  | cons header others =>
    rw [listed, List.length_cons] at single
    obtain rfl : others = [] := List.length_eq_zero_iff.mp (by omega)
    have member : header ∈ message.headers.filter (fun header => decide (header.Is "Content-Length")) := by
      rw [listed]
      exact List.mem_cons_self
    obtain ⟨inside, named⟩ := List.mem_filter.mp member
    have declares := message.sized header inside (of_decide_eq_true named)
    refine ⟨some message.body.length, ⟨message.unencoded, ?_⟩, by simp⟩
    rw [listed]
    exact ⟨rfl, message.body.length, declares, rfl⟩

/-- A message is taken as what it says. -/
theorem frame_render (addr : String) : frame message.render addr = .ok (message.status, message.body) := by
  obtain ⟨declared, leaves, sized⟩ := message.leaves
  rw [frame_lines addr message.plain_statusLine message.plain_lines message.lines_ne_nil message.render_eq]
  exact ⟨message.strictStatus_render, rfl, declared, (foldlM_checkHeader addr _ _ _).mpr leaves, sized⟩

theorem reasonText_injective : Function.Injective reasonText := by
  intro a b same
  cases a with
  | none =>
    cases b with
    | none => rfl
    | some text => cases same
  | some text =>
    cases b with
    | none => cases same
    | some other => rw [(List.cons.inj same).2]

/-- The bytes of a message are those of no other one. -/
theorem render_injective : Function.Injective render := by
  intro a b same
  have status := a.strictStatus_render
  rw [same, b.strictStatus_render] at status
  obtain ⟨firstA, doubleA, _, blockA, restA⟩ :=
    find_head cr_ne_lf a.plain_statusLine a.plain_lines a.lines_ne_nil a.render_eq
  obtain ⟨firstB, doubleB, _, blockB, restB⟩ :=
    find_head cr_ne_lf b.plain_statusLine b.plain_lines b.lines_ne_nil b.render_eq
  rw [same, firstB] at firstA
  have lengths := Option.some.inj firstA
  rw [same, ← lengths, doubleB] at doubleA
  have sizes := Option.some.inj doubleA
  rw [same, ← lengths, ← sizes, blockB] at blockA
  rw [same, ← lengths, ← sizes, restB] at restA
  have headers : a.headers = b.headers :=
    List.map_injective_iff.mpr Header.line_injective (joined_inj a.plain_lines b.plain_lines blockA.symm)
  have lines : a.statusLine = b.statusLine := by
    have shown := a.render_eq.symm.trans (same.trans b.render_eq)
    exact (List.append_inj shown lengths.symm).1
  have opened : a.version = b.version ∧ reasonText a.reason = reasonText b.reason := by
    unfold statusLine at lines
    rw [Option.some.inj status, List.append_assoc, List.append_assoc] at lines
    obtain ⟨versions, tails⟩ := List.append_inj lines (a.version.length_text.trans b.version.length_text.symm)
    exact ⟨Version.text_injective versions, List.append_cancel_left tails⟩
  exact Message.ext opened.1 (Option.some.inj status).symm (reasonText_injective opened.2) headers restA.symm

end Message

/-- What the frame takes is a message. -/
theorem exists_message {raw : Bytes} {addr : String} {status : Nat} {body : Bytes}
    (passed : frame raw addr = .ok (status, body)) :
    ∃ message : Message, message.render = raw ∧ message.status = status ∧ message.body = body := by
  obtain ⟨first, lines, content, plain, plains, filled, same⟩ := exists_lines passed
  obtain ⟨read, rfl, declared, folded, sized⟩ := (frame_lines addr plain plains filled same status body).mp passed
  obtain ⟨headers, rfl⟩ := exists_headers plains folded
  obtain ⟨version, reason, rfl, reasoned⟩ := exists_reason read plain same
  obtain ⟨unencoded, counted⟩ := (foldlM_checkHeader addr headers none declared).mp folded
  have ranged := (strictStatus_some.mp read).1
  have single : (headers.filter (fun header => decide (header.Is "Content-Length"))).length ≤ 1 ∧
      ∀ header ∈ headers, header.Is "Content-Length" → Declares header.value body.length := by
    cases listed : headers.filter (fun header => decide (header.Is "Content-Length")) with
    | nil =>
      refine ⟨Nat.zero_le _, ?_⟩
      intro header member named
      have inside : header ∈ headers.filter (fun header => decide (header.Is "Content-Length")) :=
        List.mem_filter.mpr ⟨member, decide_eq_true named⟩
      rw [listed] at inside
      cases inside
    | cons header others =>
      rw [listed] at counted
      cases others with
      | cons other others => exact counted.elim
      | nil =>
        obtain ⟨_, length, declares, rfl⟩ := counted
        refine ⟨le_rfl, ?_⟩
        intro other member named
        have inside : other ∈ headers.filter (fun header => decide (header.Is "Content-Length")) :=
          List.mem_filter.mpr ⟨member, decide_eq_true named⟩
        rw [listed, List.mem_singleton] at inside
        rw [inside, ← sized length rfl]
        exact declares
  let message : Message := ⟨version, status, reason, headers, body, ranged, reasoned, unencoded, single.1, single.2⟩
  refine ⟨message, ?_, rfl, rfl⟩
  rw [same]
  exact message.render_eq

/-- The frame takes exactly the messages, each in one way, and what comes behind a strict status line leaves its status
as it is. -/
theorem frame_exact (addr : String) :
    (∀ raw status body, frame raw addr = .ok (status, body) ↔
        ∃ message : Message, message.render = raw ∧ message.status = status ∧ message.body = body) ∧
      Function.Injective Message.render ∧
      ∀ raw status, strictStatus raw = some status → ∀ more, strictStatus (raw ++ more) = some status := by
  refine ⟨?_, Message.render_injective, fun raw status read more => strictStatus_append read more⟩
  intro raw status body
  constructor
  · exact exists_message
  · rintro ⟨message, rfl, rfl, rfl⟩
    exact message.frame_render addr

end BtcPolicy.Http
