import Rackio.Protocol.Framing

/-!
# Errors of the remote components

The error enumerations of pairing, transport and the remote fleet, with the texts they print. The
cause an error of another crate carries is its text.
-/

namespace Rackio

/-- The text of a frame error. -/
def FrameError.toString : FrameError → String
  | .endOfStream => "stream ended before a frame was available"
  | .tooLarge actual maximum =>
    s!"frame length {actual} exceeds the {maximum}-byte protocol boundary"
  | .io .unexpectedEof => "I/O failed while transferring a frame: early eof"
  | .io (.other detail) => s!"I/O failed while transferring a frame: {detail}"
  | .decode detail => s!"protobuf frame could not be decoded: {detail}"
  | .encode detail => s!"protobuf frame could not be encoded: {detail}"

/-- The source's `PairingError`. -/
inductive PairingError
  | windowClosed
  | expired
  | rejected
  | invalidSecret
  | invalidBundle
  | registryUnavailable
  | io (detail : String)
  | json (detail : String)
  deriving DecidableEq, Repr

/-- The text of a pairing error. -/
def PairingError.toString : PairingError → String
  | .windowClosed => "no pairing window is active"
  | .expired => "pairing window has expired"
  | .rejected => "pairing request was rejected"
  | .invalidSecret => "pairing secret is malformed"
  | .invalidBundle => "pairing bundle is malformed"
  | .registryUnavailable => "peer registry lock is unavailable"
  | .io detail => s!"peer registry I/O failed: {detail}"
  | .json detail => s!"peer registry is invalid: {detail}"

/-- The `TransportError`s a session can end with. -/
inductive TransportError
  | connect (detail : String)
  | connection (detail : String)
  | streamClosed (detail : String)
  | frame (error : FrameError)
  | remote (code message : String)
  deriving DecidableEq, Repr

/-- The text of a transport error. -/
def TransportError.toString : TransportError → String
  | .connect detail => s!"connection failed: {detail}"
  | .connection detail => s!"connection stream failed: {detail}"
  | .streamClosed detail => s!"connection stream was closed: {detail}"
  | .frame error => s!"protocol frame failed: {error.toString}"
  | .remote code message => s!"remote request failed with {code}: {message}"

/-- The source's `RemoteFleetError`. -/
inductive RemoteFleetError
  | pairing (error : PairingError)
  | transport (error : TransportError)
  | timeout (operation : String)
  | identityMismatch
  | pairingRejected
  | unexpectedResponse (expected : String)
  | alreadyPaired
  | unknownMachine
  | invalidHistoryRange
  | historyResponseTooLarge
  | registryUnavailable
  | io (detail : String)
  | json (detail : String)
  deriving DecidableEq, Repr

/-- The text of a fleet error. -/
def RemoteFleetError.toString : RemoteFleetError → String
  | .pairing error => s!"pairing failed: {error.toString}"
  | .transport error => s!"remote transport failed: {error.toString}"
  | .timeout operation => s!"remote operation timed out: {operation}"
  | .identityMismatch => "paired machine identity does not match the pinned bundle"
  | .pairingRejected => "pairing response was not accepted"
  | .unexpectedResponse expected => s!"remote response did not contain the expected {expected}"
  | .alreadyPaired => "machine is already paired"
  | .unknownMachine => "paired machine was not found"
  | .invalidHistoryRange => "history range is invalid or exceeds seven days"
  | .historyResponseTooLarge => "paired machine returned more history than its retention can hold"
  | .registryUnavailable => "paired machine registry lock is unavailable"
  | .io detail => s!"paired machine registry I/O failed: {detail}"
  | .json detail => s!"paired machine registry is invalid: {detail}"

end Rackio
