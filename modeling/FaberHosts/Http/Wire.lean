import FaberHosts.Coordinator.Identity
import FaberHosts.Kernel.Registry
import FaberHosts.Lib.Scan

/-!
# Requests and responses on the wire

`http/src/lib.rs`: the request a connection's bytes hold, read by `poll_request`, and
the response bytes of `format_response`, `format_chunked_open` and `format_chunk`.  What
a socket does during a call is a list of events.
-/

namespace FaberHosts.Http
open FaberHosts.Lib FaberHosts.Coordinator FaberHosts.Kernel

/-! ## Text -/

/-- The text of valid UTF-8. -/
def fromUtf8 (bytes : List UInt8) : Option String := String.fromUTF8? ⟨bytes.toArray⟩

def isTokenChar (c : Char) : Bool :=
  c.isDigit ∨ ('a' ≤ c ∧ c ≤ 'z') ∨ ('A' ≤ c ∧ c ≤ 'Z') ∨ c ∈ "!#$%&'*+-.^_\x60|~".toList

/-- Not empty, and every byte a token byte. -/
def isToken (text : String) : Bool := text ≠ "" ∧ text.toList.all isTokenChar

def isValidHeaderValue (value : String) : Bool :=
  value.toList.all (fun c => (0x20 ≤ c.toNat ∨ c = '\t') ∧ c.toNat ≠ 0x7f)

def eqIgnoreAsciiCase (a b : String) : Bool :=
  a.toList.map Char.toLower == b.toList.map Char.toLower

/-- The characters Unicode calls white space. -/
def isWhitespace (c : Char) : Bool :=
  (9 ≤ c.toNat ∧ c.toNat ≤ 13) ∨ (0x2000 ≤ c.toNat ∧ c.toNat ≤ 0x200a) ∨
    c.toNat ∈ [0x20, 0x85, 0xa0, 0x1680, 0x2028, 0x2029, 0x202f, 0x205f, 0x3000]

def trim (text : List Char) : List Char :=
  ((text.dropWhile isWhitespace).reverse.dropWhile isWhitespace).reverse

/-- The lines between the pairs of carriage return and line feed. -/
def crlfLines : List Char → List (List Char)
  | [] => [[]]
  | '\r' :: '\n' :: rest => [] :: crlfLines rest
  | c :: rest =>
    match crlfLines rest with
    | [] => [[c]]
    | line :: lines => (c :: line) :: lines

def isAsciiWhitespace (c : Char) : Bool := c ∈ [' ', '\t', '\n', '\x0c', '\r']

def splitAsciiWhitespace (text : List Char) : List String :=
  ((text.splitOnP isAsciiWhitespace).filter (· ≠ [])).map String.ofList

/-- What stands before and behind the first colon. -/
def splitOnceColon (line : List Char) : Option (List Char × List Char) :=
  if ':' ∈ line then some (line.takeWhile (· ≠ ':'), (line.dropWhile (· ≠ ':')).tail) else none

/-- `parse::<usize>`: digits behind an optional plus sign, below `2^64`. -/
def parseUsize (text : String) : Option Nat :=
  let digits := if text.toList.head? = some '+' then text.toList.tail else text.toList
  if digits = [] ∨ ¬ digits.all Char.isDigit then
    none
  else
    let value := digits.foldl (fun n c => 10 * n + (c.toNat - 48)) 0
    if value < 2 ^ 64 then some value else none

/-! ## The head of a request -/

def maxHeaderBytes : Nat := 64 * 1024

structure RequestParts where
  id : String
  method : String
  path : String
  headers : List (String × String)
  body : List UInt8
  deriving DecidableEq, Repr

structure ParsedHeaders where
  method : String
  path : String
  headers : List (String × String)
  contentLength : Nat
  deriving DecidableEq, Repr

/-- Where the first empty line starts. -/
def findHeaderEnd : List UInt8 → Option Nat
  | 13 :: 10 :: 13 :: 10 :: _ => some 0
  | _ :: rest => (findHeaderEnd rest).map (· + 1)
  | [] => none

/-- What the header loop carries from line to line. -/
structure HeaderScan where
  headers : List (String × String)
  contentLength : Option Nat
  hasHost : Bool

def scanHeader (scan : HeaderScan) (line : List Char) : Except HostError HeaderScan :=
  match splitOnceColon line with
  | none => .error (.invalidArgs "http:accept header is malformed")
  | some (rawName, rawValue) =>
    let name := String.ofList (trim rawName)
    let value := String.ofList (trim rawValue)
    if ¬ isToken name ∨ ¬ isValidHeaderValue value then
      .error (.invalidArgs "http:accept header is malformed")
    else if eqIgnoreAsciiCase name "transfer-encoding" then
      .error (.invalidArgs "http:accept transfer-encoding is unsupported")
    else
      let scan := { scan with
        headers := scan.headers ++ [(name, value)]
        hasHost := scan.hasHost || eqIgnoreAsciiCase name "host" }
      if eqIgnoreAsciiCase name "content-length" then
        match parseUsize value with
        | none => .error (.invalidArgs "http:accept content-length is malformed")
        | some length =>
          if scan.contentLength.isSome then
            .error (.invalidArgs "http:accept repeats content-length")
          else
            .ok { scan with contentLength := some length }
      else
        .ok scan

def parseRequestLine (line : List Char) : Except HostError (String × String) :=
  match splitAsciiWhitespace line with
  | [] => .error (.invalidArgs "http:accept request method is malformed")
  | method :: rest =>
    if ¬ isToken method then
      .error (.invalidArgs "http:accept request method is malformed")
    else
      match rest with
      | [] => .error (.invalidArgs "http:accept request path is malformed")
      | path :: version =>
        if version = ["HTTP/1.1"] then .ok (method, path)
        else .error (.invalidArgs "http:accept requires HTTP/1.1")

def parseHeaders (bytes : List UInt8) : Except HostError ParsedHeaders :=
  match fromUtf8 bytes with
  | none => .error (.invalidArgs "http:accept headers are not UTF-8")
  | some text => do
    let lines := crlfLines text.toList
    let (method, path) ← parseRequestLine (lines.headD [])
    let scan ← (lines.tail.takeWhile (· ≠ [])).foldlM scanHeader ⟨[], none, false⟩
    if ¬ scan.hasHost then
      .error (.invalidArgs "http:accept HTTP/1.1 request requires a Host header")
    else
      .ok ⟨method, path, scan.headers, scan.contentLength.getD 0⟩

/-! ## Reading a request -/

/-- What a socket answers to a read. -/
inductive ReadEvent where
  | data (bytes : List UInt8)
  | ended
  | wouldBlock (cancelled expired : Bool)
  | interrupted
  | failed (error : String)
  deriving DecidableEq, Repr

/-- What `poll_request` works on. -/
structure ReadState where
  leftover : List UInt8
  idleSince : Nat
  readStarted : Option Nat
  ended : Bool
  deriving DecidableEq, Repr

inductive PollRead where
  | ready (parts : RequestParts)
  | idle
  | closed
  | expired
  deriving DecidableEq, Repr

/-- The request the buffered bytes start with, and the bytes behind it. -/
def bufferedRequest (maxBodyBytes : Nat) (id : String) (leftover : List UInt8) :
    Except HostError (Option (RequestParts × List UInt8)) :=
  match findHeaderEnd leftover with
  | none =>
    if maxHeaderBytes < leftover.length then
      .error (.invalidArgs "http:accept request headers exceed limit")
    else
      .ok none
  | some headerEnd => do
    let parsed ← parseHeaders (leftover.take headerEnd)
    if maxBodyBytes < parsed.contentLength then
      .error (.invalidArgs s!"http:accept request body exceeds max_body_bytes {maxBodyBytes}")
    else
      let bodyStart := headerEnd + 4
      let needed := bodyStart + parsed.contentLength
      if needed ≤ leftover.length then
        .ok (some (⟨id, parsed.method, parsed.path, parsed.headers,
          (leftover.take needed).drop bodyStart⟩, leftover.drop needed))
      else
        .ok none

/-- Read until a request is complete, the socket has nothing more, or an error.  `block`
    waits on a socket with nothing more until a window closes. -/
def pollRequest (maxBodyBytes : Nat) (stopped block : Bool) (id : String) (now : Nat) :
    ReadState → List ReadEvent → Except HostError PollRead × ReadState
  | state, events =>
    match bufferedRequest maxBodyBytes id state.leftover with
    | .error e => (.error e, state)
    | .ok (some (parts, rest)) =>
      (.ok (.ready parts), { state with
        leftover := rest
        idleSince := now
        readStarted := if rest = [] then none else some now })
    | .ok none =>
      match events with
      | [] => (.ok (if block then .expired else .idle), state)
      | .data bytes :: events =>
        pollRequest maxBodyBytes stopped block id now { state with
          leftover := state.leftover ++ bytes
          readStarted := some (state.readStarted.getD now) } events
      | .ended :: _ =>
        let state := { state with ended := true }
        if state.leftover = [] then
          (.ok .closed, state)
        else
          (.error (.invalidArgs "http:accept request ended before headers"), state)
      | .wouldBlock cancelled expired :: events =>
        if ¬ block then
          (.ok .idle, state)
        else if cancelled then
          (.error .cancelled, state)
        else if stopped then
          (.error (.invalidArgs "http:accept listener is stopped"), state)
        else if expired then
          (.ok .expired, state)
        else
          pollRequest maxBodyBytes stopped block id now state events
      | .interrupted :: events => pollRequest maxBodyBytes stopped block id now state events
      | .failed error :: _ => (.error (.internal s!"http:accept read failed: {error}"), state)

/-- `GET / HTTP/1.1` with an empty host. -/
def plainRequest : List UInt8 :=
  [71, 69, 84, 32, 47, 32, 72, 84, 84, 80, 47, 49, 46, 49, 13, 10, 72, 111, 115, 116, 58, 13, 10,
    13, 10]

theorem bufferedRequest_id {maxBodyBytes : Nat} {id : String} {leftover rest : List UInt8}
    {parts : RequestParts}
    (h : bufferedRequest maxBodyBytes id leftover = .ok (some (parts, rest))) : parts.id = id := by
  unfold bufferedRequest at h
  split at h
  · split at h <;> simp at h
  · obtain ⟨parsed, -, h⟩ := bind_ok_iff.mp h
    split at h
    · simp at h
    · simp only at h
      split at h
      · simp only [Except.ok.injEq, Option.some.injEq, Prod.mk.injEq] at h
        rw [← h.1]
      · simp at h

theorem pollRequest_ready_id {maxBodyBytes : Nat} {stopped block : Bool} {id : String} {now : Nat}
    {state after : ReadState} {events : List ReadEvent} {parts : RequestParts}
    (h : pollRequest maxBodyBytes stopped block id now state events = (.ok (.ready parts), after)) :
    parts.id = id := by
  fun_induction pollRequest maxBodyBytes stopped block id now state events with
  | case2 state events parts' rest hbuffered =>
    have hparts : parts' = parts := by simpa using congrArg Prod.fst h
    rw [← hparts]
    exact bufferedRequest_id hbuffered
  | case3 state hbuffered => cases block <;> simp at h
  | case4 state hbuffered bytes events ih => exact ih h
  | case11 state hbuffered cancelled events expired hcancelled hstopped hexpired hblock ih =>
    exact ih h
  | case12 state hbuffered events ih => exact ih h
  | _ => simp_all

/-! ## Responses -/

def reasonPhrase (status : UInt16) : String :=
  match status.toNat with
  | 200 => "OK"
  | 201 => "Created"
  | 202 => "Accepted"
  | 204 => "No Content"
  | 400 => "Bad Request"
  | 404 => "Not Found"
  | 413 => "Payload Too Large"
  | 500 => "Internal Server Error"
  | 503 => "Service Unavailable"
  | _ => "HTTP Status"

def crlf : List UInt8 := [13, 10]

def headerLine (name value : String) : List UInt8 :=
  utf8Bytes name ++ utf8Bytes ": " ++ utf8Bytes value ++ crlf

/-- The header lines and the empty line behind them. -/
def appendHeaders (headers : List (String × String)) : List UInt8 :=
  headers.flatMap (fun header => headerLine header.1 header.2) ++ crlf

def statusLine (status : UInt16) : List UInt8 :=
  utf8Bytes s!"HTTP/1.1 {status} {reasonPhrase status}" ++ crlf

def formatResponse (status : UInt16) (requestId : String) (headers : List (String × String))
    (body : List UInt8) : List UInt8 :=
  statusLine status ++ headerLine "connection" "close" ++
    headerLine "x-faber-request-id" requestId ++
    headerLine "content-length" (toString body.length) ++ appendHeaders headers ++ body

def formatChunkedOpen (status : UInt16) (requestId : String) (headers : List (String × String)) :
    List UInt8 :=
  statusLine status ++ headerLine "transfer-encoding" "chunked" ++
    headerLine "x-faber-request-id" requestId ++ appendHeaders headers

def hexText (n : Nat) : String := String.ofList (Nat.toDigits 16 n)

def formatChunk (data : List UInt8) : List UInt8 :=
  utf8Bytes (hexText data.length) ++ crlf ++ data ++ crlf

def lastChunk : List UInt8 := [48, 13, 10, 13, 10]

/-! ## Writing -/

/-- What a socket answers to a write, or what the writing loop sees before it. -/
inductive WriteEvent where
  | wrote (count : Nat)
  | wouldBlock
  | interrupted
  | cancelled
  | stopped
  | timedOut
  | failed (error : String)
  deriving DecidableEq, Repr

/-- `write_blocking`: the bytes that went out, and the answer. -/
def writeBlocking : List UInt8 → List WriteEvent → List UInt8 × Except HostError Unit
  | [], _ => ([], .ok ())
  | payload, .wrote (count + 1) :: events =>
    let rest := writeBlocking (payload.drop (count + 1)) events
    (payload.take (count + 1) ++ rest.1, rest.2)
  | _, .wrote 0 :: _ => ([], .error (.internal "http write failed: failed to write whole buffer"))
  | payload, .interrupted :: events => writeBlocking payload events
  | _, .failed error :: _ => ([], .error (.internal s!"http write failed: {error}"))
  | _, _ => ([], .error (.internal "http write failed: timed out"))

/-- The loop of `write_all_backpressure` while the listener is up: before each write it
    looks at the cancellation, the listener and its deadline. -/
def backpressureLoop : List UInt8 → List WriteEvent → List UInt8 × Except HostError Unit
  | [], _ => ([], .ok ())
  | payload, .wrote (count + 1) :: events =>
    let rest := backpressureLoop (payload.drop (count + 1)) events
    (payload.take (count + 1) ++ rest.1, rest.2)
  | _, .wrote 0 :: _ => ([], .error (.internal "http write closed"))
  | payload, .wouldBlock :: events => backpressureLoop payload events
  | payload, .interrupted :: events => backpressureLoop payload events
  | _, .cancelled :: _ => ([], .error .cancelled)
  | _, .stopped :: _ => ([], .error (.invalidArgs "http listener is stopped"))
  | _, .failed error :: _ => ([], .error (.internal s!"http write failed: {error}"))
  | _, _ => ([], .error (.internal "http write timed out under backpressure"))

/-- `write_all_backpressure`: on a listener that is stopped already nothing goes out. -/
def writeAllBackpressure (listenerIsStopped : Bool) (payload : List UInt8)
    (events : List WriteEvent) : List UInt8 × Except HostError Unit :=
  if payload ≠ [] ∧ listenerIsStopped then
    ([], .error (if events.head? = some .cancelled then .cancelled
      else .invalidArgs "http listener is stopped"))
  else
    backpressureLoop payload events

end FaberHosts.Http
