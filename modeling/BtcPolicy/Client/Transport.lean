import BtcPolicy.Client.Http
import BtcPolicy.Encoding

/-! One bounded exchange over a socket that answers from a script: connecting, the write loop, the read loop, and what
of it is reported. Every reading of the clock and every answer of the socket that moves a byte is logged. -/

namespace BtcPolicy.Http
open Bitcoin

/-! ### The clock and the socket -/

/-- The last instant that a 64-bit count of seconds represents, in nanoseconds. -/
def lastInstant : Nat := (2 ^ 63 - 1) * 10 ^ 9 + 999999999

abbrev Instant := { nanos : Nat // nanos ≤ lastInstant }

def Instant.checkedAdd (instant : Instant) (duration : Nat) : Option Instant :=
  if representable : instant.1 + duration ≤ lastInstant then some ⟨instant.1 + duration, representable⟩ else none

def Instant.checkedDurationSince (later earlier : Instant) : Option Nat :=
  if earlier ≤ later then some (later.1 - earlier.1) else none

/-- `Duration::from_secs`. -/
def seconds (count : Nat) : Nat := count * 10 ^ 9

structure IoError where
  interrupted : Bool
  text : String

/-- What a peer that took the connection does at each turn of the two loops: whether the timeout is armed, and then
the call itself. A write takes some of the bytes it is offered, a read brings some bytes, or none at the end. Past the
last turn the peer takes every byte and has closed its side, so the finitely many turns of any exchange are a script. -/
structure Connection where
  writes : List (Except IoError Unit × Except IoError Nat)
  reads : List (Except IoError Unit × Except IoError Bytes)

/-- The answer to each reading of the clock and to each connect. -/
structure Scripted where
  clock : Nat → Instant
  peer : Nat → Except IoError Connection

inductive Event (Addr : Type) where
  | reading (instant : Instant)
  | connected (addr : Addr)
  | wrote (bytes : Bytes)
  | received (bytes : Bytes)
  | closed

/-- How far the script is used, and what has happened. -/
structure Net (Addr : Type) where
  readings : Nat
  connects : Nat
  log : List (Event Addr)

variable {Addr : Type}

def Net.add (net : Net Addr) (event : Event Addr) : Net Addr := { net with log := net.log ++ [event] }

/-- `Instant::now`. -/
def now (script : Scripted) (net : Net Addr) : Instant × Net Addr :=
  let instant := script.clock net.readings
  (instant, { net.add (.reading instant) with readings := net.readings + 1 })

/-- The time left before the deadline; at the deadline there is none. -/
def left (script : Scripted) (deadline : Instant) (net : Net Addr) : Option Nat × Net Addr :=
  let (instant, net) := now script net
  ((deadline.checkedDurationSince instant).filter (fun left => left ≠ 0), net)

def connectTimeout (script : Scripted) (addr : Addr) (_wait : Nat) (net : Net Addr) :
    Except IoError Connection × Net Addr :=
  match script.peer net.connects with
  | .error e => (.error e, { net with connects := net.connects + 1 })
  | .ok connection => (.ok connection, { net.add (.connected addr) with connects := net.connects + 1 })

/-! ### The exchange -/

/-- What one exchange observed. -/
inductive Attempt where
  | notSent (error : String)
  | noStatus (error : String)
  | status (status : Nat) (body : Option Bytes)

def Attempt.isNotSent : Attempt → Bool
  | .notSent _ => true
  | _ => false

def ingressCap : Nat := 64 * 1024

def connectCeiling : Nat := seconds 5

def request (host path : String) (post : Option Bytes) (auth : Option String) : Bytes :=
  (if post.isSome then ascii "POST " else ascii "GET ") ++ utf8 path ++ ascii " HTTP/1.1\r\nHost: " ++ utf8 host ++
    crlf ++
    (match post with
      | some body => ascii "Content-Type: application/json\r\nContent-Length: " ++ utf8 (toString body.length) ++ crlf
      | none => []) ++
    (match auth with
      | some credentials => ascii "Authorization: Basic " ++ utf8 credentials ++ crlf
      | none => []) ++
    ascii "Connection: close\r\n\r\n" ++ post.getD []

/-- The write loop over what is not written yet. -/
def send (script : Scripted) (deadline : Instant) (host : String) (unwritten : Bytes)
    (turns : List (Except IoError Unit × Except IoError Nat)) (net : Net Addr) : Except Attempt Unit × Net Addr :=
  if unwritten.isEmpty then (.ok (), net)
  else
    match left script deadline net with
    | (none, net) => (.error (.noStatus s!"write request to {host}: the deadline expired"), net)
    | (some _, net) =>
      match turns with
      | [] => (.ok (), net.add (.wrote unwritten))
      | (.error unarmed, _) :: _ =>
        let e := unarmed.text
        (.error (.noStatus s!"write request to {host}: {e}"), net)
      | (.ok _, .ok count) :: turns =>
        let taken := unwritten.take count
        if taken.isEmpty then (.error (.noStatus s!"write request to {host}: no progress"), net)
        else send script deadline host (unwritten.drop count) turns (net.add (.wrote taken))
      | (.ok _, .error failed) :: turns =>
        let e := failed.text
        if failed.interrupted then send script deadline host unwritten turns net
        else (.error (.noStatus s!"write request to {host}: {e}"), net)

/-- The peer has closed its side: the time left is read once more. -/
def atEnd (script : Scripted) (deadline : Instant) (host : String) (raw : Bytes) (net : Net Addr) :
    Except String Unit × Bytes × Net Addr :=
  match left script deadline (net.add .closed) with
  | (none, net) => (.error s!"response from {host}: the deadline expired", raw, net)
  | (some _, net) => (.ok (), raw, net)

/-- The read loop behind what is filled already, into a buffer of one byte more than the cap. -/
def receive (script : Scripted) (deadline : Instant) (cap : Nat) (host : String) (raw : Bytes)
    (turns : List (Except IoError Unit × Except IoError Bytes)) (net : Net Addr) :
    Except String Unit × Bytes × Net Addr :=
  if raw.length = cap + 1 then (.error s!"response from {host} is over its {cap}-byte cap", raw, net)
  else
    match left script deadline net with
    | (none, net) => (.error s!"response from {host}: the deadline expired", raw, net)
    | (some _, net) =>
      match turns with
      | [] => atEnd script deadline host raw net
      | (.error unarmed, _) :: _ =>
        let e := unarmed.text
        (.error s!"read response from {host}: {e}", raw, net)
      | (.ok _, .ok brought) :: turns =>
        let bytes := brought.take (cap + 1 - raw.length)
        if bytes.isEmpty then atEnd script deadline host raw net
        else receive script deadline cap host (raw ++ bytes) turns (net.add (.received bytes))
      | (.ok _, .error failed) :: turns =>
        let e := failed.text
        if failed.interrupted then receive script deadline cap host raw turns net
        else (.error s!"read response from {host}: {e}", raw, net)

/-- What is reported of a response that ended so. -/
def report (host : String) (closed : Except String Unit) (raw : Bytes) : Attempt :=
  match closed >>= fun _ => frame raw host with
  | .ok (status, body) => .status status (some body)
  | .error why =>
    match strictStatus raw with
    | some status => .status status none
    | none => .noStatus why

def bounded [ToString Addr] (script : Scripted) (addr : Addr) (request : Bytes) (deadline : Instant) (cap : Nat)
    (net : Net Addr) : Attempt × Net Addr :=
  let host := toString addr
  match left script deadline net with
  | (none, net) => (.notSent s!"connect {host}: the deadline expired first", net)
  | (some first, net) =>
    match connectTimeout script addr (min first connectCeiling) net with
    | (.error failed, net) =>
      let e := failed.text
      (.notSent s!"connect {host}: {e}", net)
    | (.ok connection, net) =>
      match send script deadline host request connection.writes net with
      | (.error noStatus, net) => (noStatus, net)
      | (.ok _, net) =>
        let (closed, raw, net) := receive script deadline cap host [] connection.reads net
        (report host closed raw, net)

/-! ### What an exchange leaves -/

section Events

variable (events : List (Event Addr))

/-- The bytes that went out. -/
def written : Bytes := events.flatMap (fun event => match event with
  | .wrote bytes => bytes
  | _ => [])

/-- The bytes that came in. -/
def received : Bytes := events.flatMap (fun event => match event with
  | .received bytes => bytes
  | _ => [])

def Connected : Prop := ∃ addr, Event.connected addr ∈ events

/-- The peer closed its side, and the reading after that was still before the deadline. -/
def ClosedBefore (deadline : Instant) : Prop :=
  ∃ earlier instant, events = earlier ++ [.closed, .reading instant] ∧ instant < deadline

end Events

variable {script : Scripted} {deadline : Instant} {host : String} {net net' : Net Addr}

@[simp] theorem written_append (events later : List (Event Addr)) :
    written (events ++ later) = written events ++ written later := List.flatMap_append

@[simp] theorem received_append (events later : List (Event Addr)) :
    received (events ++ later) = received events ++ received later := List.flatMap_append

theorem connected_append (events later : List (Event Addr)) :
    Connected (events ++ later) ↔ Connected events ∨ Connected later := by
  unfold Connected
  rw [← exists_or]
  simp only [List.mem_append]

theorem ClosedBefore.append {events : List (Event Addr)} (closes : ClosedBefore events deadline)
    (earlier : List (Event Addr)) : ClosedBefore (earlier ++ events) deadline := by
  obtain ⟨front, instant, rfl, below⟩ := closes
  exact ⟨earlier ++ front, instant, by rw [List.append_assoc], below⟩

/-- One reading is logged, and some time is left where it is before the deadline. -/
theorem left_reads {time : Option Nat} (ran : left script deadline net = (time, net')) :
    ∃ instant, net'.log = net.log ++ [.reading instant] ∧ (time.isSome = true ↔ instant < deadline) := by
  obtain ⟨rfl, rfl⟩ := Prod.mk.inj ran
  refine ⟨script.clock net.readings, rfl, ?_⟩
  have below : script.clock net.readings < deadline ↔ (script.clock net.readings).1 < deadline.1 := Iff.rfl
  rw [below]
  unfold Instant.checkedDurationSince
  by_cases reached : script.clock net.readings ≤ deadline
  · have values : (script.clock net.readings).1 ≤ deadline.1 := reached
    simp only [if_pos reached, Option.filter_some, decide_eq_true_eq]
    split_ifs with some_left
    · exact ⟨fun _ => by omega, fun _ => rfl⟩
    · exact ⟨nofun, fun _ => by omega⟩
  · have values : ¬(script.clock net.readings).1 ≤ deadline.1 := reached
    simp only [if_neg reached, Option.filter_none]
    exact ⟨nofun, fun _ => by omega⟩

/-- What a stretch of the two loops logs: no connection, and nothing but what it writes and reads. -/
structure Stretch (net net' : Net Addr) (sent got : Bytes) (events : List (Event Addr)) : Prop where
  logged : net'.log = net.log ++ events
  apart : ¬Connected events
  out : written events = sent
  inward : received events = got

namespace Stretch

variable {mid : Net Addr} {sent got sent' got' : Bytes} {events later : List (Event Addr)}

theorem trans (first : Stretch net mid sent got events) (second : Stretch mid net' sent' got' later) :
    Stretch net net' (sent ++ sent') (got ++ got') (events ++ later) where
  logged := by rw [second.logged, first.logged, List.append_assoc]
  apart := by
    rw [connected_append]
    exact not_or.mpr ⟨first.apart, second.apart⟩
  out := by rw [written_append, first.out, second.out]
  inward := by rw [received_append, first.inward, second.inward]

theorem reading {instant : Instant} (logged : net'.log = net.log ++ [.reading instant]) :
    Stretch net net' [] [] [.reading instant] := ⟨logged, by simp [Connected], rfl, rfl⟩

theorem wrote (bytes : Bytes) : Stretch net (net.add (.wrote bytes)) bytes [] [.wrote bytes] :=
  ⟨rfl, by simp [Connected], by simp [written], rfl⟩

theorem received (bytes : Bytes) : Stretch net (net.add (.received bytes)) [] bytes [.received bytes] :=
  ⟨rfl, by simp [Connected], rfl, by simp [Http.received]⟩

theorem closed : Stretch net (net.add .closed) [] [] [.closed] := ⟨rfl, by simp [Connected], rfl, rfl⟩

end Stretch

theorem Stretch.nothing : Stretch net net [] [] [] := ⟨by simp, by simp [Connected], rfl, rfl⟩

/-- What the write loop leaves: a front part of what it is given is written, and the loop stops with no status. -/
def Writes (net net' : Net Addr) (unwritten : Bytes) (out : Except Attempt Unit) : Prop :=
  ∃ wrote events, Stretch net net' wrote [] events ∧ wrote <+: unwritten ∧
    ∀ attempt, out = .error attempt → ∃ why, attempt = .noStatus why

theorem Writes.refused {events : List (Event Addr)} (read : Stretch net net' [] [] events) (unwritten : Bytes)
    (why : String) : Writes net net' unwritten (.error (.noStatus why)) :=
  ⟨[], events, read, List.nil_prefix, fun _ same => ⟨why, (Except.error.inj same).symm⟩⟩

theorem send_writes {unwritten : Bytes} {turns : List (Except IoError Unit × Except IoError Nat)}
    {out : Except Attempt Unit} (ran : send script deadline host unwritten turns net = (out, net')) :
    Writes net net' unwritten out := by
  fun_induction send script deadline host unwritten turns net with
  | case1 turns unwritten net done =>
    cases ran
    exact ⟨[], [], Stretch.nothing, List.nil_prefix, nofun⟩
  | case2 turns unwritten net open_ mid time =>
    obtain ⟨instant, logged, _⟩ := left_reads time
    cases ran
    exact Writes.refused (Stretch.reading logged) _ _
  | case3 unwritten net open_ remaining mid time =>
    -- past the script the peer takes all of the rest
    obtain ⟨instant, logged, _⟩ := left_reads time
    cases ran
    exact ⟨unwritten, _, (Stretch.reading logged).trans (Stretch.wrote unwritten), List.prefix_refl _, nofun⟩
  | case4 unwritten net open_ remaining mid time unarmed call turns text =>
    obtain ⟨instant, logged, _⟩ := left_reads time
    cases ran
    exact Writes.refused (Stretch.reading logged) _ _
  | case5 unwritten net open_ remaining mid time armed count turns taken stuck =>
    obtain ⟨instant, logged, _⟩ := left_reads time
    cases ran
    exact Writes.refused (Stretch.reading logged) _ _
  | case6 unwritten net open_ remaining mid time armed count turns taken moved ih =>
    obtain ⟨instant, logged, _⟩ := left_reads time
    obtain ⟨wrote, events, rest, front, fails⟩ := ih ran
    refine ⟨taken ++ wrote, _, (Stretch.reading logged).trans ((Stretch.wrote taken).trans rest), ?_, fails⟩
    obtain ⟨tail, same⟩ := front
    exact ⟨tail, by rw [List.append_assoc, same, List.take_append_drop]⟩
  | case7 unwritten net open_ remaining mid time armed failed turns again ih =>
    obtain ⟨instant, logged, _⟩ := left_reads time
    obtain ⟨wrote, events, rest, front, fails⟩ := ih ran
    exact ⟨wrote, _, (Stretch.reading logged).trans rest, front, fails⟩
  | case8 unwritten net open_ remaining mid time armed failed turns text given_up =>
    obtain ⟨instant, logged, _⟩ := left_reads time
    cases ran
    exact Writes.refused (Stretch.reading logged) _ _

/-- At the end of the stream the deadline is asked once more. -/
theorem atEnd_reads {raw raw' : Bytes} {closed : Except String Unit}
    (ran : atEnd script deadline host raw net = (closed, raw', net')) :
    raw' = raw ∧ ∃ events, Stretch net net' [] [] events ∧ (closed = .ok () → ClosedBefore events deadline) := by
  unfold atEnd at ran
  cases time : left script deadline (net.add .closed) with
  | mk remaining mid =>
    obtain ⟨instant, logged, inTime⟩ := left_reads time
    rw [time] at ran
    cases remaining with
    | none =>
      cases ran
      exact ⟨rfl, _, Stretch.closed.trans (Stretch.reading logged), nofun⟩
    | some _ =>
      cases ran
      exact ⟨rfl, _, Stretch.closed.trans (Stretch.reading logged), fun _ => ⟨[], instant, rfl, inTime.mp rfl⟩⟩

/-- What the read loop leaves: what it is brought is kept, and it ends well only where the peer closed within the
cap and the deadline. -/
def Reads (deadline : Instant) (cap : Nat) (net net' : Net Addr) (raw raw' : Bytes) (closed : Except String Unit) : Prop :=
  ∃ got events, Stretch net net' [] got events ∧ raw' = raw ++ got ∧
    (closed = .ok () → raw'.length ≤ cap ∧ ClosedBefore events deadline)

namespace Reads

variable {cap : Nat} {raw raw' : Bytes} {closed : Except String Unit} {mid : Net Addr} {events : List (Event Addr)}

theorem refused (read : Stretch net net' [] [] events) (why : String) :
    Reads deadline cap net net' raw raw (.error why) := ⟨[], events, read, by simp, nofun⟩

theorem later {bytes : Bytes} (read : Stretch net mid [] bytes events)
    (rest : Reads deadline cap mid net' (raw ++ bytes) raw' closed) : Reads deadline cap net net' raw raw' closed := by
  obtain ⟨got, more, stretch, same, closes⟩ := rest
  refine ⟨bytes ++ got, events ++ more, read.trans stretch, by rw [same, List.append_assoc], ?_⟩
  exact fun done => ⟨(closes done).1, (closes done).2.append _⟩

theorem atEnd (room : raw.length ≤ cap + 1) (open_ : raw.length ≠ cap + 1)
    (ran : Http.atEnd script deadline host raw net = (closed, raw', net')) :
    Reads deadline cap net net' raw raw' closed := by
  obtain ⟨rfl, events, stretch, closes⟩ := atEnd_reads ran
  exact ⟨[], events, stretch, by simp, fun done => ⟨by omega, closes done⟩⟩

end Reads

theorem receive_reads {cap : Nat} {raw raw' : Bytes} {turns : List (Except IoError Unit × Except IoError Bytes)}
    {closed : Except String Unit} (room : raw.length ≤ cap + 1)
    (ran : receive script deadline cap host raw turns net = (closed, raw', net')) :
    Reads deadline cap net net' raw raw' closed := by
  fun_induction receive script deadline cap host raw turns net with
  | case1 turns raw net full =>
    cases ran
    exact Reads.refused Stretch.nothing _
  | case2 turns raw net open_ mid time =>
    obtain ⟨instant, logged, _⟩ := left_reads time
    cases ran
    exact Reads.refused (Stretch.reading logged) _
  | case3 raw net open_ remaining mid time =>
    -- past the script the peer has closed
    obtain ⟨instant, logged, _⟩ := left_reads time
    have ended := Reads.atEnd room open_ ran
    exact Reads.later (Stretch.reading logged) (by rwa [List.append_nil])
  | case4 raw net open_ remaining mid time unarmed call turns text =>
    obtain ⟨instant, logged, _⟩ := left_reads time
    cases ran
    exact Reads.refused (Stretch.reading logged) _
  | case5 raw net open_ remaining mid time armed brought turns bytes ended =>
    obtain ⟨instant, logged, _⟩ := left_reads time
    have ended := Reads.atEnd room open_ ran
    exact Reads.later (Stretch.reading logged) (by rwa [List.append_nil])
  | case6 raw net open_ remaining mid time armed brought turns bytes moved ih =>
    obtain ⟨instant, logged, _⟩ := left_reads time
    have fits : (raw ++ bytes).length ≤ cap + 1 := by
      rw [List.length_append, List.length_take]
      omega
    exact Reads.later ((Stretch.reading logged).trans (Stretch.received bytes)) (ih fits ran)
  | case7 raw net open_ remaining mid time armed failed turns again ih =>
    obtain ⟨instant, logged, _⟩ := left_reads time
    have rest := ih room ran
    exact Reads.later (Stretch.reading logged) (by rwa [List.append_nil])
  | case8 raw net open_ remaining mid time armed failed turns text given_up =>
    obtain ⟨instant, logged, _⟩ := left_reads time
    cases ran
    exact Reads.refused (Stretch.reading logged) _

theorem status_of_frame {raw body : Bytes} {status : Nat} (framed : frame raw host = .ok (status, body)) :
    strictStatus raw = some status := by
  obtain ⟨message, rfl, rfl, _⟩ := exists_message framed
  exact message.strictStatus_render

/-- A strict status is reported whatever became of the rest, and a body only with a whole response. -/
theorem report_cases (closed : Except String Unit) (raw : Bytes) :
    (∃ status body, report host closed raw = .status status (some body) ∧ closed = .ok () ∧
        frame raw host = .ok (status, body)) ∨
      (∃ status, report host closed raw = .status status none ∧ strictStatus raw = some status) ∨
      ∃ why, report host closed raw = .noStatus why ∧ strictStatus raw = none := by
  have fallen : ∀ why, (closed >>= fun _ => frame raw host) = .error why →
      (∃ status, report host closed raw = .status status none ∧ strictStatus raw = some status) ∨
        ∃ why, report host closed raw = .noStatus why ∧ strictStatus raw = none := by
    intro why failed
    unfold report
    rw [failed]
    cases read : strictStatus raw with
    | none => exact Or.inr ⟨why, rfl, rfl⟩
    | some status => exact Or.inl ⟨status, rfl, rfl⟩
  cases closed with
  | error why => exact Or.inr (fallen why rfl)
  | ok _ =>
    cases framed : frame raw host with
    | error why => exact Or.inr (fallen why framed)
    | ok response =>
      obtain ⟨status, body⟩ := response
      refine Or.inl ⟨status, body, ?_, rfl, rfl⟩
      unfold report
      simp only [bind, Except.bind, framed]

/-- What one exchange reports of the events it has seen. -/
structure Exchanged [ToString Addr] (addr : Addr) (request : Bytes) (deadline : Instant) (cap : Nat) (attempt : Attempt)
    (events : List (Event Addr)) : Prop where
  unsent : attempt.isNotSent = true ↔ ¬Connected events
  single : ∀ other, Event.connected other ∈ events → other = addr
  front : written events <+: request
  known : ∀ status, strictStatus (received events) = some status → ∃ body, attempt = .status status body
  honest : ∀ status body, attempt = .status status body → strictStatus (received events) = some status
  whole : ∀ status body, attempt = .status status (some body) → ClosedBefore events deadline ∧
    (received events).length ≤ cap ∧ frame (received events) (toString addr) = .ok (status, body)

/-- Without a status nothing that came in began with one. -/
theorem Exchanged.noStatus [ToString Addr] {addr : Addr} {request : Bytes} {cap : Nat} {events : List (Event Addr)}
    (connected : Connected events) (single : ∀ other, Event.connected other ∈ events → other = addr)
    (front : written events <+: request) (nothing : strictStatus (received events) = none) (why : String) :
    Exchanged addr request deadline cap (.noStatus why) events where
  unsent := ⟨nofun, fun unconnected => absurd connected unconnected⟩
  single := single
  front := front
  known := fun status read => by
    rw [nothing] at read
    cases read
  honest := nofun
  whole := nofun

theorem Exchanged.notSent [ToString Addr] {addr : Addr} {request : Bytes} {cap : Nat} {instant : Instant} (why : String) :
    Exchanged addr request deadline cap (.notSent why) [.reading instant] where
  unsent := ⟨fun _ => by simp [Connected], fun _ => rfl⟩
  single := by simp
  front := List.nil_prefix
  known := fun status read => by cases read
  honest := nofun
  whole := nofun

/-- A response that came in over the connection is reported for what it is. -/
theorem Exchanged.report [ToString Addr] {addr : Addr} {request : Bytes} {cap : Nat} {events : List (Event Addr)}
    {closed : Except String Unit} (connected : Connected events)
    (single : ∀ other, Event.connected other ∈ events → other = addr) (front : written events <+: request)
    (closes : closed = .ok () → (received events).length ≤ cap ∧ ClosedBefore events deadline) :
    Exchanged addr request deadline cap (report (toString addr) closed (received events)) events := by
  have unsent : ∀ status body, (Attempt.status status body).isNotSent = true ↔ ¬Connected events :=
    fun _ _ => ⟨nofun, fun unconnected => absurd connected unconnected⟩
  rcases report_cases closed (received events) with ⟨status, body, reported, done, framed⟩ | ⟨status, reported, read⟩ |
    ⟨why, reported, nothing⟩
  · have read := status_of_frame framed
    obtain ⟨fits, inTime⟩ := closes done
    rw [reported]
    refine ⟨unsent _ _, single, front, ?_, ?_, ?_⟩
    · intro other known
      rw [read] at known
      cases known
      exact ⟨_, rfl⟩
    · intro other content shown
      cases shown
      exact read
    · intro other content shown
      cases shown
      exact ⟨inTime, fits, framed⟩
  · rw [reported]
    refine ⟨unsent _ _, single, front, ?_, ?_, ?_⟩
    · intro other known
      rw [read] at known
      cases known
      exact ⟨_, rfl⟩
    · intro other content shown
      cases shown
      exact read
    · intro other content shown
      cases shown
  · rw [reported]
    exact Exchanged.noStatus connected single front nothing why

theorem bounded_exchanged [ToString Addr] {addr : Addr} {request : Bytes} {cap : Nat} {attempt : Attempt}
    (ran : bounded script addr request deadline cap net = (attempt, net')) :
    ∃ events, net'.log = net.log ++ events ∧ Exchanged addr request deadline cap attempt events := by
  unfold bounded at ran
  cases time : left script deadline net with
  | mk remaining start =>
    obtain ⟨instant, logged, _⟩ := left_reads time
    rw [time] at ran
    cases remaining with
    | none =>
      cases ran
      exact ⟨_, logged, Exchanged.notSent _⟩
    | some first =>
      cases peer : script.peer start.connects with
      | error failed =>
        simp only [connectTimeout, peer] at ran
        cases ran
        exact ⟨_, logged, Exchanged.notSent _⟩
      | ok connection =>
        simp only [connectTimeout, peer] at ran
        cases writing : send script deadline (toString addr) request connection.writes
            { start.add (.connected addr) with connects := start.connects + 1 } with
        | mk out sentNet =>
          obtain ⟨sent, sendEvents, sending, front, fails⟩ := send_writes writing
          have opened : sentNet.log = net.log ++ ([.reading instant, .connected addr] ++ sendEvents) := by
            rw [sending.logged, Net.add, logged]
            simp
          have connected : ∀ later, Connected ([.reading instant, .connected addr] ++ sendEvents ++ later) :=
            fun later => ⟨addr, by simp⟩
          have single : ∀ later, ¬Connected later → ∀ other,
              Event.connected other ∈ [.reading instant, .connected addr] ++ sendEvents ++ later → other = addr := by
            intro later apart other member
            rw [List.mem_append, List.mem_append] at member
            rcases member with (here | sending') | after
            · simpa using here
            · exact absurd ⟨other, sending'⟩ sending.apart
            · exact absurd ⟨other, after⟩ apart
          rw [writing] at ran
          cases out with
          | error stopped =>
            cases ran
            obtain ⟨why, rfl⟩ := fails attempt rfl
            have here := connected []
            have alone := single [] (by simp [Connected])
            rw [List.append_nil] at here alone
            refine ⟨_, opened, Exchanged.noStatus here alone ?_ ?_ why⟩
            · rw [written_append, sending.out]
              exact front
            · rw [received_append, sending.inward]
              rfl
          | ok _ =>
            simp only at ran
            cases reading : receive script deadline cap (toString addr) [] connection.reads sentNet with
            | mk closed rest =>
              obtain ⟨raw, last⟩ := rest
              obtain ⟨got, readEvents, receiving, same, closes⟩ := receive_reads (Nat.zero_le _) reading
              rw [reading] at ran
              cases ran
              rw [List.nil_append] at same
              subst same
              have inward : received ([.reading instant, .connected addr] ++ sendEvents ++ readEvents) = raw := by
                rw [received_append, received_append, sending.inward, receiving.inward]
                rfl
              have outward : written ([.reading instant, .connected addr] ++ sendEvents ++ readEvents) <+: request := by
                rw [written_append, written_append, sending.out, receiving.out, List.append_nil]
                exact front
              refine ⟨_, by rw [receiving.logged, opened, List.append_assoc], ?_⟩
              rw [← inward]
              apply Exchanged.report (connected _) (single readEvents receiving.apart) outward
              intro done
              rw [inward]
              exact ⟨(closes done).1, (closes done).2.append _⟩

end BtcPolicy.Http
