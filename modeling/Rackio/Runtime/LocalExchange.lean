import Rackio.Lib.Line
import Rackio.Lib.Run
import Rackio.Runtime.NodeId

/-!
# One exchange over the local IPC

The two ends of a local connection: `request_local` writes a command as one line of JSON and reads
one line back, `serve_local_stream_prefixed` reads one bounded line, runs the command and writes the
response. In between the bytes of both directions travel in any pieces, the two sides take turns as
they like, and every wait may fail, end with a timeout, or with the other side gone.

A client is given by the bytes it has to write, so it may be any program. The commands and responses
are types of their own; what `serde_json` makes of them is the parameter `LocalJson`. On Windows the
first byte is read before the others and put in front of them again, which makes no difference here.
-/

namespace Rackio

open Lts

/-! ## Text -/

/-- The bytes of a text. -/
def utf8 (text : String) : List UInt8 := text.toByteArray.data.toList

/-- The text with these bytes. -/
def fromUtf8 (bytes : List UInt8) : Option String := String.fromUTF8? ⟨bytes.toArray⟩

/-- The source's `str::trim_end`. -/
def trimEnd (text : String) : String := String.ofList (text.toList.rdropWhile isWhitespace)

/-- A line without its ending, as `Lines::next_line` returns it. -/
def withoutEnding (line : String) : String :=
  if line.toList.getLast? = some '\n' then
    let body := line.toList.dropLast
    String.ofList (if body.getLast? = some '\r' then body.dropLast else body)
  else line

/-- How `serde_json` prints and parses the two messages. -/
structure LocalJson (κ ρ : Type) where
  printCommand : κ → String
  /-- The source's `serde_json::from_str::<LocalCommand>`. -/
  parseCommand : String → Except String κ
  printResponse : ρ → String
  /-- The source's `serde_json::from_str::<LocalResponse>`. -/
  parseResponse : String → Except String ρ
  /-- The source's `LocalResponse::failure`. -/
  failure : String → ρ

/-- The newline, as a byte. -/
def newline : UInt8 := 10

/-- The source's `MAX_LOCAL_REQUEST_BYTES`. -/
def maxLocalRequestBytes : Nat := 64 * 1024

variable {κ ρ : Type} (json : LocalJson κ ρ)

/-! ## The server -/

/-- How the wait for a line ends. -/
inductive LineRead
  | timedOut
  | error (text : String)
  | line (bytes : List UInt8)

/-- The failure of a request that takes too long. -/
def requestTimedOut : String := "local request timed out before a complete command"

/-- The failure of a request without a byte. -/
def requestEmpty : String := "empty local request"

/-- The failure of a request that ends or reaches the limit before its newline. -/
def requestTooLong : String :=
  "local request exceeded " ++ toString maxLocalRequestBytes ++ " bytes without a newline"

/-- The error of `read_line` for bytes that are no text. -/
def requestNotUtf8 : String := "stream did not contain valid UTF-8"

/-- The source's `read_local_request`, once the line is read. -/
def readLocalRequest : LineRead → Except String κ
  | .timedOut => .error requestTimedOut
  | .error text => .error text
  | .line bytes =>
    match fromUtf8 bytes with
    | none => .error requestNotUtf8
    | some line =>
      if bytes = [] then .error requestEmpty
      else if line.toList.getLast? ≠ some '\n' then .error requestTooLong
      else json.parseCommand (trimEnd line)

/-- The line of a response. -/
def responseBytes (response : ρ) : List UInt8 := utf8 (json.printResponse response) ++ [newline]

/-- Where `serve_local_stream_prefixed` is. -/
inductive ServerPhase (κ : Type)
  | reading (taken : List UInt8)
  /-- In `handle_local`. -/
  | handling (command : κ)
  | writing (unsent : List UInt8)
  /-- Its stream is dropped. -/
  | closed

/-! ## The client -/

/-- Why a client has no response. -/
inductive LocalError
  | io (text : String)
  | timeout
  | closed
  | notUtf8
  | json (text : String)
  deriving DecidableEq, Repr

/-- What `request_local` makes of the line it has read. -/
def readLocalResponse (bytes : List UInt8) : Except LocalError ρ :=
  if bytes = [] then .error .closed
  else match fromUtf8 bytes with
    | none => .error .notUtf8
    | some line => (json.parseResponse (withoutEnding line)).mapError .json

/-- The line of a command. -/
def requestBytes (command : κ) : List UInt8 := utf8 (json.printCommand command) ++ [newline]

/-! ## The exchange -/

/-- A local connection with its two ends. -/
structure LocalExchange (κ ρ : Type) where
  /-- What the client has left to write. -/
  unsent : List UInt8
  /-- Written by the client and not read by the server. -/
  up : List UInt8
  server : ServerPhase κ
  /-- The calls of `handle_local` that have returned, with what they returned. -/
  executed : List (κ × ρ)
  /-- Written by the server and not read by the client. -/
  down : List UInt8
  /-- What the client has of the line it reads. -/
  taken : List UInt8
  /-- What the client has returned; then its stream is dropped. -/
  outcome : Option (Except LocalError ρ)

namespace LocalExchange

/-- What can happen next on a local connection. -/
inductive Event (ρ : Type)
  /-- The client writes the next `n` bytes of its request. -/
  | send (n : Nat)
  /-- The server reads the next `n` bytes. -/
  | read (n : Nat)
  /-- The server finds that the client has gone. -/
  | readEof
  | readError (text : String)
  /-- `LOCAL_REQUEST_TIMEOUT` is over. -/
  | timeout
  /-- `handle_local` returns. -/
  | handle (response : ρ)
  /-- The server writes the next `n` bytes of its response. -/
  | write (n : Nat)
  /-- The server cannot write and drops its stream. -/
  | writeError
  /-- The client reads the next `n` bytes. -/
  | receive (n : Nat)
  /-- The client finds that the server has gone. -/
  | receiveEof
  /-- The client fails, or the time of its caller is over. -/
  | giveUp (error : LocalError)
  deriving DecidableEq, Repr

/-- A connection that was just made, with what the client has to write. -/
def opened (request : List UInt8) : LocalExchange κ ρ where
  unsent := request
  up := []
  server := .reading []
  executed := []
  down := []
  taken := []
  outcome := none

/-- The server has read what it reads: it runs the command, or answers why there is none. -/
def request (s : LocalExchange κ ρ) (read : LineRead) : LocalExchange κ ρ :=
  match readLocalRequest json read with
  | .ok command => { s with server := .handling command }
  | .error text => { s with server := .writing (responseBytes json (json.failure text)) }

/-- One step of one of the two ends. -/
def step (s : LocalExchange κ ρ) : Event ρ → Option (LocalExchange κ ρ)
  | .send n =>
    if s.outcome.isNone ∧ 0 < n ∧ n ≤ s.unsent.length then
      some { s with unsent := s.unsent.drop n, up := s.up ++ s.unsent.take n }
    else none
  | .read n =>
    match s.server with
    | .reading taken =>
      -- The reader takes no more than the limit leaves.
      if 0 < n ∧ n ≤ s.up.length ∧ taken.length + n ≤ maxLocalRequestBytes then
        let s' := { s with up := s.up.drop n }
        match Line.read newline (some maxLocalRequestBytes) taken (s.up.take n) with
        | .more taken => some { s' with server := .reading taken }
        | .line bytes => some (s'.request json (.line bytes))
      else none
    | _ => none
  | .readEof =>
    match s.server with
    | .reading taken =>
      if s.outcome.isSome ∧ s.up = [] then some (s.request json (.line taken)) else none
    | _ => none
  | .readError text =>
    match s.server with
    | .reading _ => some (s.request json (.error text))
    | _ => none
  | .timeout =>
    match s.server with
    | .reading _ => some (s.request json .timedOut)
    | _ => none
  | .handle response =>
    match s.server with
    | .handling command =>
      some
        { s with
          server := .writing (responseBytes json response)
          executed := s.executed ++ [(command, response)] }
    | _ => none
  | .write n =>
    match s.server with
    | .writing unsent =>
      if 0 < n ∧ n ≤ unsent.length then
        some
          { s with
            server := if n = unsent.length then .closed else .writing (unsent.drop n)
            down := s.down ++ unsent.take n }
      else none
    | _ => none
  | .writeError =>
    match s.server with
    | .writing _ => some { s with server := .closed }
    | _ => none
  | .receive n =>
    if s.outcome.isNone ∧ s.unsent = [] ∧ 0 < n ∧ n ≤ s.down.length then
      let s' := { s with down := s.down.drop n }
      match Line.read newline none s.taken (s.down.take n) with
      | .more taken => some { s' with taken := taken }
      | .line bytes => some { s' with outcome := some (readLocalResponse json bytes) }
    else none
  | .receiveEof =>
    match s.server with
    | .closed =>
      if s.outcome.isNone ∧ s.unsent = [] ∧ s.down = [] then
        some { s with outcome := some (readLocalResponse json s.taken) }
      else none
    | _ => none
  | .giveUp error =>
    if s.outcome.isNone then some { s with outcome := some (.error error) } else none

end LocalExchange

/-! ## Lines of text -/

section
variable {text line : String} {bytes : List UInt8}

theorem fromUtf8_utf8 (text : String) : fromUtf8 (utf8 text) = some text := by
  rw [fromUtf8, utf8, String.fromUTF8?, dif_pos text.isValidUTF8]
  rfl

theorem utf8_of_fromUtf8 (h : fromUtf8 bytes = some text) : utf8 text = bytes := by
  unfold fromUtf8 String.fromUTF8? at h
  split at h
  · cases h
    rfl
  · cases h

theorem utf8_append (a b : String) : utf8 (a ++ b) = utf8 a ++ utf8 b := by
  simp [utf8]

theorem utf8_newline : utf8 "\n" = [newline] := by rfl

/-- A text that ends with a newline has its byte. -/
theorem newline_mem (h : fromUtf8 bytes = some line) (hlast : line.toList.getLast? = some '\n') :
    newline ∈ bytes := by
  obtain ⟨init, hinit⟩ := List.getLast?_eq_some_iff.1 hlast
  have hline : line = String.ofList init ++ "\n" := by
    rw [← String.ofList_toList (s := line), hinit, String.ofList_append]
  rw [← utf8_of_fromUtf8 h, hline, utf8_append, utf8_newline]
  exact List.mem_append_right _ (.head _)

end

end Rackio
