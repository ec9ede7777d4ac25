import Rackio.Runtime.LocalExchange

/-!
# The invariants of a local exchange

Every step of an exchange keeps two invariants. `Sound` is about the server: it has read a part of
the request that is below the limit, or it has decoded its first line, and nothing else was run.
`Answered` is about the client: it has a part of a response, and `Answers` says why this response.
-/

namespace Rackio

open Lts

namespace LocalExchange

section
variable {κ ρ : Type} {json : LocalJson κ ρ} {bytes line : List UInt8} {command : κ}
  {s : LocalExchange κ ρ}

/-! ## Requests -/

/-- The first line of the request is within the limit and is the text of this command. -/
def Decodes (json : LocalJson κ ρ) (bytes : List UInt8) (command : κ) : Prop :=
  ∃ line text, Line.IsFirst newline bytes line ∧ line.length ≤ maxLocalRequestBytes ∧
    fromUtf8 line = some text ∧ json.parseCommand (trimEnd text) = .ok command

/-- Only a line with its newline is a command. -/
theorem readLocalRequest_eq_ok {read : LineRead} (h : readLocalRequest json read = .ok command) :
    ∃ bytes text, read = .line bytes ∧ newline ∈ bytes ∧ fromUtf8 bytes = some text ∧
      json.parseCommand (trimEnd text) = .ok command := by
  cases read with
  | timedOut => cases h
  | error => cases h
  | line bytes =>
    rw [readLocalRequest] at h
    cases htext : fromUtf8 bytes with
    | none =>
      rw [htext] at h
      cases h
    | some text =>
      simp only [htext] at h
      split at h
      · cases h
      split at h
      · cases h
      next hlast => exact ⟨bytes, text, rfl, newline_mem htext (of_not_not hlast), htext, h⟩

/-- What the server reads, and what it does then. -/
inductive Requested (json : LocalJson κ ρ) (s : LocalExchange κ ρ) (read : LineRead) :
    LocalExchange κ ρ → Prop
  | runs {command : κ} (h : readLocalRequest json read = .ok command) :
    Requested json s read { s with server := .handling command }
  | refuses {text : String} (h : readLocalRequest json read = .error text) :
    Requested json s read { s with server := .writing (responseBytes json (json.failure text)) }

theorem requested (s : LocalExchange κ ρ) (read : LineRead) :
    Requested json s read (s.request json read) := by
  unfold request
  cases h : readLocalRequest json read with
  | ok command => exact .runs h
  | error text => exact .refuses h

/-! ## Steps -/

/-- The steps of an exchange, each with what it needs. -/
inductive Step (json : LocalJson κ ρ) (s : LocalExchange κ ρ) : Event ρ → LocalExchange κ ρ → Prop
  | send {n : Nat} (hopen : s.outcome = none) (hn : 0 < n) (hle : n ≤ s.unsent.length) :
    Step json s (.send n) { s with unsent := s.unsent.drop n, up := s.up ++ s.unsent.take n }
  | readMore {n : Nat} {taken more : List UInt8} (hserver : s.server = .reading taken) (hn : 0 < n)
    (hle : n ≤ s.up.length) (hlimit : taken.length + n ≤ maxLocalRequestBytes)
    (hread : Line.read newline (some maxLocalRequestBytes) taken (s.up.take n) = .more more) :
    Step json s (.read n) { s with up := s.up.drop n, server := .reading more }
  | readLine {n : Nat} {taken line : List UInt8} {s' : LocalExchange κ ρ}
    (hserver : s.server = .reading taken) (hn : 0 < n) (hle : n ≤ s.up.length)
    (hlimit : taken.length + n ≤ maxLocalRequestBytes)
    (hread : Line.read newline (some maxLocalRequestBytes) taken (s.up.take n) = .line line)
    (hs' : Requested json { s with up := s.up.drop n } (.line line) s') : Step json s (.read n) s'
  | readEof {taken : List UInt8} {s' : LocalExchange κ ρ} (hserver : s.server = .reading taken)
    (hgone : s.outcome.isSome) (hs' : Requested json s (.line taken) s') : Step json s .readEof s'
  | readError {taken : List UInt8} {text : String} {s' : LocalExchange κ ρ}
    (hserver : s.server = .reading taken) (hs' : Requested json s (.error text) s') :
    Step json s (.readError text) s'
  | timeout {taken : List UInt8} {s' : LocalExchange κ ρ} (hserver : s.server = .reading taken)
    (hs' : Requested json s .timedOut s') : Step json s .timeout s'
  | handle {command : κ} {response : ρ} (hserver : s.server = .handling command) :
    Step json s (.handle response)
      { s with
        server := .writing (responseBytes json response)
        executed := s.executed ++ [(command, response)] }
  | write {n : Nat} {unsent : List UInt8} (hserver : s.server = .writing unsent) (hn : 0 < n)
    (hlt : n < unsent.length) :
    Step json s (.write n)
      { s with server := .writing (unsent.drop n), down := s.down ++ unsent.take n }
  | writeLast {unsent : List UInt8} (hserver : s.server = .writing unsent)
    (hn : 0 < unsent.length) :
    Step json s (.write unsent.length) { s with server := .closed, down := s.down ++ unsent }
  | writeError {unsent : List UInt8} (hserver : s.server = .writing unsent) :
    Step json s .writeError { s with server := .closed }
  | receiveMore {n : Nat} {more : List UInt8} (hopen : s.outcome = none) (hsent : s.unsent = [])
    (hn : 0 < n) (hle : n ≤ s.down.length)
    (hread : Line.read newline none s.taken (s.down.take n) = .more more) :
    Step json s (.receive n) { s with down := s.down.drop n, taken := more }
  | receiveLine {n : Nat} {line : List UInt8} (hopen : s.outcome = none) (hsent : s.unsent = [])
    (hn : 0 < n) (hle : n ≤ s.down.length)
    (hread : Line.read newline none s.taken (s.down.take n) = .line line) :
    Step json s (.receive n)
      { s with down := s.down.drop n, outcome := some (readLocalResponse json line) }
  | receiveEof (hserver : s.server = .closed) (hopen : s.outcome = none) (hsent : s.unsent = [])
    (hdown : s.down = []) :
    Step json s .receiveEof { s with outcome := some (readLocalResponse json s.taken) }
  | giveUp {error : LocalError} (hopen : s.outcome = none) :
    Step json s (.giveUp error) { s with outcome := some (.error error) }

variable {t : LocalExchange κ ρ} {e : Event ρ} {es : List (Event ρ)}

theorem step_eq_some_send {n : Nat} (h : step json s (.send n) = some t) :
    Step json s (.send n) t := by
  simp only [step, Option.isNone_iff_eq_none] at h
  split at h
  · next hif =>
    cases h
    exact .send hif.1 hif.2.1 hif.2.2
  · cases h

theorem step_eq_some_read {n : Nat} (h : step json s (.read n) = some t) :
    Step json s (.read n) t := by
  simp only [step] at h
  split at h
  · next taken hserver =>
    split at h
    · next hif =>
      obtain ⟨hn, hle, hlimit⟩ := hif
      split at h
      · next more hread =>
        cases h
        exact .readMore hserver hn hle hlimit hread
      · next line hread =>
        cases h
        exact .readLine hserver hn hle hlimit hread (requested _ _)
    · cases h
  · cases h

theorem step_eq_some_readEof (h : step json s .readEof = some t) : Step json s .readEof t := by
  simp only [step] at h
  split at h
  · next taken hserver =>
    split at h
    · next hif =>
      cases h
      exact .readEof hserver hif.1 (requested _ _)
    · cases h
  · cases h

theorem step_eq_some_readError {text : String} (h : step json s (.readError text) = some t) :
    Step json s (.readError text) t := by
  simp only [step] at h
  split at h
  · next taken hserver =>
    cases h
    exact .readError hserver (requested _ _)
  · cases h

theorem step_eq_some_timeout (h : step json s .timeout = some t) : Step json s .timeout t := by
  simp only [step] at h
  split at h
  · next taken hserver =>
    cases h
    exact .timeout hserver (requested _ _)
  · cases h

theorem step_eq_some_handle {response : ρ} (h : step json s (.handle response) = some t) :
    Step json s (.handle response) t := by
  simp only [step] at h
  split at h
  · next command hserver =>
    cases h
    exact .handle hserver
  · cases h

theorem step_eq_some_write {n : Nat} (h : step json s (.write n) = some t) :
    Step json s (.write n) t := by
  simp only [step] at h
  split at h
  · next unsent hserver =>
    split at h
    · next hif =>
      cases h
      by_cases hall : n = unsent.length
      · subst hall
        rw [if_pos rfl, List.take_length]
        exact .writeLast hserver hif.1
      · rw [if_neg hall]
        exact .write hserver hif.1 (Nat.lt_of_le_of_ne hif.2 hall)
    · cases h
  · cases h

theorem step_eq_some_writeError (h : step json s .writeError = some t) :
    Step json s .writeError t := by
  simp only [step] at h
  split at h
  · next unsent hserver =>
    cases h
    exact .writeError hserver
  · cases h

theorem step_eq_some_receive {n : Nat} (h : step json s (.receive n) = some t) :
    Step json s (.receive n) t := by
  simp only [step, Option.isNone_iff_eq_none] at h
  split at h
  · next hif =>
    obtain ⟨hopen, hsent, hn, hle⟩ := hif
    split at h
    · next more hread =>
      cases h
      exact .receiveMore hopen hsent hn hle hread
    · next line hread =>
      cases h
      exact .receiveLine hopen hsent hn hle hread
  · cases h

theorem step_eq_some_receiveEof (h : step json s .receiveEof = some t) :
    Step json s .receiveEof t := by
  simp only [step, Option.isNone_iff_eq_none] at h
  split at h
  · next hserver =>
    split at h
    · next hif =>
      cases h
      exact .receiveEof hserver hif.1 hif.2.1 hif.2.2
    · cases h
  · cases h

theorem step_eq_some_giveUp {error : LocalError} (h : step json s (.giveUp error) = some t) :
    Step json s (.giveUp error) t := by
  simp only [step, Option.isNone_iff_eq_none] at h
  split at h
  · next hopen =>
    cases h
    exact .giveUp hopen
  · cases h

/-- What `step` does is a step. -/
theorem step_eq_some (h : step json s e = some t) : Step json s e t := by
  cases e with
  | send n => exact step_eq_some_send h
  | read n => exact step_eq_some_read h
  | readEof => exact step_eq_some_readEof h
  | readError text => exact step_eq_some_readError h
  | timeout => exact step_eq_some_timeout h
  | handle response => exact step_eq_some_handle h
  | write n => exact step_eq_some_write h
  | writeError => exact step_eq_some_writeError h
  | receive n => exact step_eq_some_receive h
  | receiveEof => exact step_eq_some_receiveEof h
  | giveUp error => exact step_eq_some_giveUp h

/-! ## The server -/

/-- What the server has of the request, or has made of it. -/
inductive Sound (json : LocalJson κ ρ) (bytes : List UInt8) (s : LocalExchange κ ρ) : Prop
  | reading {taken : List UInt8} (hserver : s.server = .reading taken)
    (hbytes : bytes = taken ++ (s.up ++ s.unsent)) (hno : newline ∉ taken)
    (hlimit : taken.length < maxLocalRequestBytes) (hexecuted : s.executed = [])
  | handling {command : κ} (hserver : s.server = .handling command)
    (hcommand : Decodes json bytes command) (hexecuted : s.executed = [])
  | answering (hserver : (∃ unsent, s.server = .writing unsent) ∨ s.server = .closed)
    (hexecuted : s.executed = [] ∨
      ∃ command response, s.executed = [(command, response)] ∧ Decodes json bytes command)

/-- The client may write, read and go, and the server is where it was. -/
theorem Sound.congr (h : Sound json bytes s) (hserver : t.server = s.server)
    (hsent : t.up ++ t.unsent = s.up ++ s.unsent) (hexecuted : t.executed = s.executed) :
    Sound json bytes t := by
  cases h with
  | reading hs hbytes hno hlimit hnone =>
    exact .reading (hserver.trans hs) (hsent ▸ hbytes) hno hlimit (hexecuted.trans hnone)
  | handling hs hcommand hnone =>
    exact .handling (hserver.trans hs) hcommand (hexecuted.trans hnone)
  | answering hs hdone => exact .answering (hserver ▸ hs) (hexecuted ▸ hdone)

/-- A line that is read is the first one of the request, or has no newline. -/
theorem Sound.requested {read : LineRead} (h : Requested json s read t) (hnone : s.executed = [])
    (hread : ∀ line, read = .line line →
      Line.IsFirst newline bytes line ∧ line.length ≤ maxLocalRequestBytes ∨ newline ∉ line) :
    Sound json bytes t := by
  cases h with
  | runs h =>
    obtain ⟨line, text, hline, hnewline, htext, hparse⟩ := readLocalRequest_eq_ok h
    obtain ⟨hfirst, hlimit⟩ := (hread line hline).resolve_right (not_not.2 hnewline)
    exact .handling rfl ⟨line, text, hfirst, hlimit, htext, hparse⟩ hnone
  | refuses => exact .answering (.inl ⟨_, rfl⟩) (.inl hnone)

/-- What a reader that is at `taken` has of the request, when it reads on. -/
theorem Sound.of_reading {taken : List UInt8} (h : Sound json bytes s)
    (hserver : s.server = .reading taken) :
    bytes = taken ++ (s.up ++ s.unsent) ∧ newline ∉ taken ∧ taken.length < maxLocalRequestBytes ∧
      s.executed = [] := by
  cases h with
  | reading hs hbytes hno hlimit hnone =>
    cases hserver.symm.trans hs
    exact ⟨hbytes, hno, hlimit, hnone⟩
  | handling hs =>
    cases hserver.symm.trans hs
  | answering hs =>
    rcases hs with ⟨_, hs⟩ | hs <;> cases hserver.symm.trans hs

/-- While a command runs none has returned. -/
theorem Sound.of_handling (h : Sound json bytes s) (hserver : s.server = .handling command) :
    Decodes json bytes command ∧ s.executed = [] := by
  cases h with
  | reading hs => cases hserver.symm.trans hs
  | handling hs hcommand hnone =>
    cases hserver.symm.trans hs
    exact ⟨hcommand, hnone⟩
  | answering hs => rcases hs with ⟨_, hs⟩ | hs <;> cases hserver.symm.trans hs

/-- The line that a read ends with: the first one of the request, or the request up to the limit. -/
def Cut (bytes line : List UInt8) : Prop :=
  Line.IsFirst newline bytes line ∧ line.length ≤ maxLocalRequestBytes ∨
    newline ∉ line ∧ line <+: bytes ∧ line.length = maxLocalRequestBytes

theorem cut_of_read {taken : List UInt8} {n : Nat} (h : Sound json bytes s)
    (hserver : s.server = .reading taken) (hle : n ≤ s.up.length)
    (hlimit : taken.length + n ≤ maxLocalRequestBytes)
    (hread : Line.read newline (some maxLocalRequestBytes) taken (s.up.take n) = .line line) :
    Cut bytes line := by
  obtain ⟨hbytes, hno, -, -⟩ := h.of_reading hserver
  have hlength : (taken ++ s.up.take n).length = taken.length + n := by
    rw [List.length_append, List.length_take, Nat.min_eq_left hle]
  have hsplit : bytes = taken ++ s.up.take n ++ (s.up.drop n ++ s.unsent) := by
    rw [hbytes, List.append_assoc, ← List.append_assoc (s.up.take n), List.take_append_drop]
  rcases Line.read_eq_line hno hsplit hread with ⟨hfirst, hle'⟩ | ⟨hnone, rfl, bound, hbound, hmax⟩
  · exact .inl ⟨hfirst, hle'.trans (hlength ▸ hlimit)⟩
  · cases hbound
    exact .inr ⟨hnone, ⟨_, hsplit.symm⟩, le_antisymm (hlength ▸ hlimit) hmax⟩

/-- No step makes the server run anything else. -/
theorem Sound.step (h : Sound json bytes s) (hstep : Step json s e t) : Sound json bytes t := by
  cases hstep with
  | send =>
    exact h.congr rfl (by rw [List.append_assoc, List.take_append_drop]) rfl
  | @readMore n taken more hserver hn hle hlimit hread =>
    obtain ⟨hbytes, hno, -, hnone⟩ := h.of_reading hserver
    obtain ⟨rfl, hmore, hbound⟩ := Line.read_eq_more hno hread
    refine .reading rfl ?_ hmore (hbound _ rfl) hnone
    rw [hbytes, List.append_assoc, ← List.append_assoc (s.up.take n), List.take_append_drop]
  | readLine hserver hn hle hlimit hread ht =>
    obtain ⟨-, -, -, hnone⟩ := h.of_reading hserver
    refine .requested ht hnone fun line' hline => ?_
    cases hline
    exact (cut_of_read h hserver hle hlimit hread).imp_right fun hcut => hcut.1
  | readEof hserver hgone ht =>
    obtain ⟨-, hno, -, hnone⟩ := h.of_reading hserver
    refine .requested ht hnone fun line' hline => ?_
    cases hline
    exact .inr hno
  | readError hserver ht =>
    obtain ⟨-, -, -, hnone⟩ := h.of_reading hserver
    exact .requested ht hnone (by simp)
  | timeout hserver ht =>
    obtain ⟨-, -, -, hnone⟩ := h.of_reading hserver
    exact .requested ht hnone (by simp)
  | @handle command response hserver =>
    obtain ⟨hcommand, hnone⟩ := h.of_handling hserver
    refine .answering (.inl ⟨_, rfl⟩) (.inr ⟨command, response, ?_, hcommand⟩)
    rw [hnone, List.nil_append]
  | write hserver | writeLast hserver | writeError hserver =>
    cases h with
    | reading hs => cases hserver.symm.trans hs
    | handling hs => cases hserver.symm.trans hs
    | answering _ hdone => exact .answering (by simp) hdone
  | receiveMore | receiveLine | receiveEof | giveUp => exact h.congr rfl rfl rfl

/-! ## The answer -/

/-- The response the server gives, and why. -/
inductive Answers (json : LocalJson κ ρ) (bytes : List UInt8) (es : List (Event ρ)) :
    List (κ × ρ) → ρ → Prop
  | handled {command : κ} {response : ρ} (h : .handle response ∈ es) :
    Answers json bytes es [(command, response)] response
  | timedOut (h : .timeout ∈ es) : Answers json bytes es [] (json.failure requestTimedOut)
  | readError {text : String} (h : .readError text ∈ es) :
    Answers json bytes es [] (json.failure text)
  | refused {line : List UInt8} {text : String} (hline : Cut bytes line)
    (h : readLocalRequest json (.line line) = .error text) :
    Answers json bytes es [] (json.failure text)

/-- What the client ends with when it is answered with `answer`: what it makes of the first line of
the response, or of what it has of it when the server has gone, or its own failure. -/
def Received (json : LocalJson κ ρ) (es : List (Event ρ)) (answer : ρ)
    (outcome : Except LocalError ρ) : Prop :=
  (∃ line, outcome = readLocalResponse json line ∧
    (Line.IsFirst newline (responseBytes json answer) line ∨
      .receiveEof ∈ es ∧ newline ∉ line ∧ line <+: responseBytes json answer)) ∨
  ∃ error, outcome = .error error ∧ .giveUp error ∈ es

/-- The server has this much of its response left, or has lost it. -/
def Left (es : List (Event ρ)) (server : ServerPhase κ) (rest : List UInt8) : Prop :=
  server = .writing rest ∨ server = .closed ∧ (rest ≠ [] → .writeError ∈ es)

/-- What the client has of the response. -/
inductive Answered (json : LocalJson κ ρ) (bytes : List UInt8) (es : List (Event ρ))
    (s : LocalExchange κ ρ) : Prop
  | waiting
    (hserver : (∃ taken, s.server = .reading taken) ∨ ∃ command, s.server = .handling command)
    (hdown : s.down = []) (htaken : s.taken = [])
    (houtcome : ∀ outcome, s.outcome = some outcome →
      ∃ error, outcome = .error error ∧ .giveUp error ∈ es)
  | answered {answer : ρ} {rest : List UInt8}
    (hserver : Left es s.server rest)
    -- The server answers a client that has gone, too.
    (hanswer : Answers json bytes es s.executed answer ∨
      .readEof ∈ es ∧ ∃ error, s.outcome = some (.error error))
    (hopen : s.outcome = none →
      newline ∉ s.taken ∧ s.taken ++ s.down ++ rest = responseBytes json answer)
    (houtcome : ∀ outcome, s.outcome = some outcome → Received json es answer outcome)

section
variable {answer : ρ} {executed : List (κ × ρ)} {outcome : Except LocalError ρ}

/-- More events change no answer. -/
theorem Answers.mono (h : Answers json bytes es executed answer) (e : Event ρ) :
    Answers json bytes (es ++ [e]) executed answer := by
  cases h with
  | handled h => exact .handled (List.mem_append_left _ h)
  | timedOut h => exact .timedOut (List.mem_append_left _ h)
  | readError h => exact .readError (List.mem_append_left _ h)
  | refused hline h => exact .refused hline h

theorem Left.mono {server : ServerPhase κ} {rest : List UInt8} (h : Left es server rest)
    (e : Event ρ) : Left (es ++ [e]) server rest :=
  h.imp_right fun ⟨hclosed, hlost⟩ => ⟨hclosed, fun hrest => List.mem_append_left _ (hlost hrest)⟩

theorem Received.mono (h : Received json es answer outcome) (e : Event ρ) :
    Received json (es ++ [e]) answer outcome := by
  refine h.imp ?_ ?_
  · rintro ⟨line, hline, hfirst⟩
    exact ⟨line, hline, hfirst.imp_right fun ⟨h, hline⟩ => ⟨List.mem_append_left _ h, hline⟩⟩
  · rintro ⟨error, herror, h⟩
    exact ⟨error, herror, List.mem_append_left _ h⟩

end

/-- A wait that ends without a command is answered. -/
theorem Answered.requested {read : LineRead} (h : Requested json s read t) (hdown : s.down = [])
    (htaken : s.taken = [])
    (houtcome : ∀ outcome, s.outcome = some outcome →
      ∃ error, outcome = .error error ∧ .giveUp error ∈ es)
    (hanswer : ∀ text, readLocalRequest json read = .error text →
      Answers json bytes es s.executed (json.failure text) ∨
        .readEof ∈ es ∧ ∃ error, s.outcome = some (.error error)) :
    Answered json bytes es t := by
  cases h with
  | runs => exact .waiting (.inr ⟨_, rfl⟩) hdown htaken houtcome
  | @refuses text h =>
    refine .answered (.inl rfl) (hanswer text h) (fun _ => ?_) fun outcome ho => ?_
    · simp [hdown, htaken]
    · exact .inr (houtcome outcome ho)

/-- While the server reads or runs the command there is no answer yet. -/
theorem Answered.of_waiting (h : Answered json bytes es s)
    (hserver : (∃ taken, s.server = .reading taken) ∨ ∃ command, s.server = .handling command) :
    s.down = [] ∧ s.taken = [] ∧ ∀ outcome, s.outcome = some outcome →
      ∃ error, outcome = .error error ∧ .giveUp error ∈ es := by
  cases h with
  | waiting _ hdown htaken houtcome => exact ⟨hdown, htaken, houtcome⟩
  | answered hs =>
    rcases hs with hs | ⟨hs, -⟩ <;> rcases hserver with ⟨_, h⟩ | ⟨_, h⟩ <;> cases h.symm.trans hs

/-- While the server writes, the client waits for what is left, or has ended. -/
theorem Answered.of_writing {unsent : List UInt8} (h : Answered json bytes es s)
    (hserver : s.server = .writing unsent) :
    ∃ answer, (Answers json bytes es s.executed answer ∨
        .readEof ∈ es ∧ ∃ error, s.outcome = some (.error error)) ∧
      (s.outcome = none →
        newline ∉ s.taken ∧ s.taken ++ s.down ++ unsent = responseBytes json answer) ∧
      ∀ outcome, s.outcome = some outcome → Received json es answer outcome := by
  cases h with
  | waiting hs => rcases hs with ⟨_, hs⟩ | ⟨_, hs⟩ <;> cases hserver.symm.trans hs
  | @answered answer rest hs hanswer hopen houtcome =>
    rcases hs with hs | ⟨hs, -⟩
    · cases hserver.symm.trans hs
      exact ⟨answer, hanswer, hopen, houtcome⟩
    · cases hserver.symm.trans hs

/-- A client that waits while the server has answered has a part of the answer. -/
theorem Answered.of_open (h : Answered json bytes es s) (hout : s.outcome = none)
    (hanswering : s.down ≠ [] ∨ s.server = .closed) :
    ∃ answer rest, Left es s.server rest ∧ Answers json bytes es s.executed answer ∧
      newline ∉ s.taken ∧ s.taken ++ s.down ++ rest = responseBytes json answer := by
  cases h with
  | waiting hs hdown =>
    rcases hanswering with hne | hclosed
    · exact absurd hdown hne
    · rcases hs with ⟨_, hs⟩ | ⟨_, hs⟩ <;> cases hclosed.symm.trans hs
  | @answered answer rest hs hanswer hopen =>
    obtain ⟨hno, hwhole⟩ := hopen hout
    refine ⟨answer, rest, hs, hanswer.resolve_right ?_, hno, hwhole⟩
    rintro ⟨-, error, herror⟩
    cases hout.symm.trans herror

/-- A step on the way of the request changes nothing the client sees. -/
theorem Answered.congr (h : Answered json bytes es s) (e : Event ρ) (hserver : t.server = s.server)
    (hexecuted : t.executed = s.executed) (hdown : t.down = s.down) (htaken : t.taken = s.taken)
    (houtcome : t.outcome = s.outcome) : Answered json bytes (es ++ [e]) t := by
  cases h with
  | waiting hs hd ht ho =>
    refine .waiting (hserver ▸ hs) (hdown.trans hd) (htaken.trans ht) fun outcome houtcome' => ?_
    obtain ⟨error, rfl, hmem⟩ := ho outcome (houtcome ▸ houtcome')
    exact ⟨error, rfl, List.mem_append_left _ hmem⟩
  | @answered answer rest hs ha hopen ho =>
    have ha' : Answers json bytes (es ++ [e]) t.executed answer ∨
        .readEof ∈ es ++ [e] ∧ ∃ error, t.outcome = some (.error error) := by
      rw [hexecuted, houtcome]
      exact ha.imp (·.mono e) (And.imp_left (List.mem_append_left _))
    refine .answered (hserver ▸ hs.mono e) ha' ?_ ?_
    · rw [houtcome, htaken, hdown]
      exact hopen
    · rw [houtcome]
      exact fun outcome houtcome' => (ho outcome houtcome').mono e

/-! ### The steps

Each takes the invariant of the client from before the step, and that of the server where it reads
or runs the command.
-/

section
variable {n : Nat} {taken unsent : List UInt8}

/-- A client that gave up has still given up after an event. -/
theorem gaveUp_mono
    (h : ∀ outcome, s.outcome = some outcome → ∃ error, outcome = .error error ∧ .giveUp error ∈ es)
    (e : Event ρ) (outcome : Except LocalError ρ) (ho : s.outcome = some outcome) :
    ∃ error, outcome = .error error ∧ .giveUp error ∈ es ++ [e] := by
  obtain ⟨error, herror, hmem⟩ := h outcome ho
  exact ⟨error, herror, List.mem_append_left _ hmem⟩

/-- The server reads a part of the line. -/
theorem Answered.readMore {more : List UInt8} (h : Answered json bytes es s)
    (hserver : s.server = .reading taken) :
    Answered json bytes (es ++ [.read n])
      { s with up := s.up.drop n, server := .reading more } := by
  obtain ⟨hdown, htaken, houtcome⟩ := h.of_waiting (.inl ⟨_, hserver⟩)
  exact .waiting (.inl ⟨_, rfl⟩) hdown htaken (gaveUp_mono houtcome _)

/-- The server has read a line. -/
theorem Answered.readLine (h : Answered json bytes es s) (hsound : Sound json bytes s)
    (hserver : s.server = .reading taken) (hcut : Cut bytes line)
    (ht : Requested json { s with up := s.up.drop n } (.line line) t) :
    Answered json bytes (es ++ [.read n]) t := by
  obtain ⟨hdown, htaken, houtcome⟩ := h.of_waiting (.inl ⟨_, hserver⟩)
  obtain ⟨-, -, -, hnone⟩ := hsound.of_reading hserver
  refine .requested ht hdown htaken (gaveUp_mono houtcome _) fun text htext => .inl ?_
  exact hnone ▸ .refused hcut htext

/-- The server finds that the client has gone, and answers nobody. -/
theorem Answered.readEof (h : Answered json bytes es s) (hserver : s.server = .reading taken)
    (hout : s.outcome.isSome) (ht : Requested json s (.line taken) t) :
    Answered json bytes (es ++ [.readEof]) t := by
  obtain ⟨hdown, htaken, houtcome⟩ := h.of_waiting (.inl ⟨_, hserver⟩)
  refine .requested ht hdown htaken (gaveUp_mono houtcome _) fun text htext =>
    .inr ⟨List.mem_append_right _ (.head _), ?_⟩
  obtain ⟨outcome, ho⟩ := Option.isSome_iff_exists.1 hout
  obtain ⟨error, rfl, -⟩ := houtcome outcome ho
  exact ⟨error, ho⟩

/-- The server cannot read. -/
theorem Answered.readError {text : String} (h : Answered json bytes es s)
    (hsound : Sound json bytes s) (hserver : s.server = .reading taken)
    (ht : Requested json s (.error text) t) : Answered json bytes (es ++ [.readError text]) t := by
  obtain ⟨hdown, htaken, houtcome⟩ := h.of_waiting (.inl ⟨_, hserver⟩)
  obtain ⟨-, -, -, hnone⟩ := hsound.of_reading hserver
  refine .requested ht hdown htaken (gaveUp_mono houtcome _) fun _ htext => .inl ?_
  cases htext
  exact hnone ▸ .readError (List.mem_append_right _ (.head _))

/-- The time of the server is over. -/
theorem Answered.timeout (h : Answered json bytes es s) (hsound : Sound json bytes s)
    (hserver : s.server = .reading taken) (ht : Requested json s .timedOut t) :
    Answered json bytes (es ++ [.timeout]) t := by
  obtain ⟨hdown, htaken, houtcome⟩ := h.of_waiting (.inl ⟨_, hserver⟩)
  obtain ⟨-, -, -, hnone⟩ := hsound.of_reading hserver
  refine .requested ht hdown htaken (gaveUp_mono houtcome _) fun _ htext => .inl ?_
  cases htext
  exact hnone ▸ .timedOut (List.mem_append_right _ (.head _))

/-- The command returns, and its response is the answer. -/
theorem Answered.handle {response : ρ} (h : Answered json bytes es s) (hsound : Sound json bytes s)
    (hserver : s.server = .handling command) :
    Answered json bytes (es ++ [.handle response])
      { s with
        server := .writing (responseBytes json response)
        executed := s.executed ++ [(command, response)] } := by
  obtain ⟨hdown, htaken, houtcome⟩ := h.of_waiting (.inr ⟨_, hserver⟩)
  have hnone : s.executed = [] := (hsound.of_handling hserver).2
  have hanswer : Answers json bytes (es ++ [.handle response])
      (s.executed ++ [(command, response)]) response := by
    rw [hnone]
    exact .handled (List.mem_append_right _ (.head _))
  exact .answered (.inl rfl) (.inl hanswer) (fun _ => by simp [hdown, htaken])
    fun outcome ho => .inr (gaveUp_mono houtcome _ outcome ho)

/-- The server writes a part of what is left. -/
theorem Answered.write (h : Answered json bytes es s) (hserver : s.server = .writing unsent) :
    Answered json bytes (es ++ [.write n])
      { s with server := .writing (unsent.drop n), down := s.down ++ unsent.take n } := by
  obtain ⟨answer, hanswer, hopen, houtcome⟩ := h.of_writing hserver
  refine .answered (.inl rfl) (hanswer.imp (·.mono _) (And.imp_left (List.mem_append_left _)))
    (fun ho => ?_) fun outcome ho => (houtcome outcome ho).mono _
  obtain ⟨hno, hwhole⟩ := hopen ho
  refine ⟨hno, ?_⟩
  rw [← hwhole, ← List.append_assoc, List.append_assoc _ (unsent.take n), List.take_append_drop]

/-- The server writes all that is left. -/
theorem Answered.writeLast (h : Answered json bytes es s) (hserver : s.server = .writing unsent) :
    Answered json bytes (es ++ [.write unsent.length])
      { s with server := .closed, down := s.down ++ unsent } := by
  obtain ⟨answer, hanswer, hopen, houtcome⟩ := h.of_writing hserver
  have hleft : Left (es ++ [.write unsent.length]) (.closed : ServerPhase κ) [] :=
    .inr ⟨rfl, fun hne => absurd rfl hne⟩
  refine .answered hleft
    (hanswer.imp (·.mono _) (And.imp_left (List.mem_append_left _))) (fun ho => ?_)
    fun outcome ho => (houtcome outcome ho).mono _
  obtain ⟨hno, hwhole⟩ := hopen ho
  exact ⟨hno, by rw [← hwhole, List.append_nil, List.append_assoc]⟩

/-- The server loses what is left. -/
theorem Answered.writeError (h : Answered json bytes es s) (hserver : s.server = .writing unsent) :
    Answered json bytes (es ++ [.writeError]) { s with server := .closed } := by
  obtain ⟨answer, hanswer, hopen, houtcome⟩ := h.of_writing hserver
  have hleft : Left (es ++ [.writeError]) (.closed : ServerPhase κ) unsent :=
    .inr ⟨rfl, fun _ => List.mem_append_right _ (.head _)⟩
  exact .answered hleft
    (hanswer.imp (·.mono _) (And.imp_left (List.mem_append_left _))) hopen
    fun outcome ho => (houtcome outcome ho).mono _

/-- The client reads a part of the line. -/
theorem Answered.receiveMore {more : List UInt8} (h : Answered json bytes es s)
    (hout : s.outcome = none) (hn : 0 < n) (hle : n ≤ s.down.length)
    (hread : Line.read newline none s.taken (s.down.take n) = .more more) :
    Answered json bytes (es ++ [.receive n]) { s with down := s.down.drop n, taken := more } := by
  have hdown : s.down ≠ [] := List.ne_nil_of_length_pos (hn.trans_le hle)
  obtain ⟨answer, rest, hs, hanswer, hno, hwhole⟩ := h.of_open hout (.inl hdown)
  obtain ⟨rfl, hmore, -⟩ := Line.read_eq_more hno hread
  refine .answered (hs.mono _) (.inl (hanswer.mono _)) (fun _ => ⟨hmore, ?_⟩) fun outcome ho => ?_
  · rw [← hwhole, List.append_assoc s.taken, List.take_append_drop]
  · cases hout.symm.trans ho

/-- The client has read a line. -/
theorem Answered.receiveLine (h : Answered json bytes es s) (hout : s.outcome = none) (hn : 0 < n)
    (hle : n ≤ s.down.length)
    (hread : Line.read newline none s.taken (s.down.take n) = .line line) :
    Answered json bytes (es ++ [.receive n])
      { s with down := s.down.drop n, outcome := some (readLocalResponse json line) } := by
  have hdown : s.down ≠ [] := List.ne_nil_of_length_pos (hn.trans_le hle)
  obtain ⟨answer, rest, hs, hanswer, hno, hwhole⟩ := h.of_open hout (.inl hdown)
  have hsplit : responseBytes json answer =
      s.taken ++ s.down.take n ++ (s.down.drop n ++ rest) := by
    rw [← hwhole, List.append_assoc s.taken (s.down.take n), ← List.append_assoc (s.down.take n),
      List.take_append_drop, List.append_assoc]
  refine .answered (hs.mono _) (.inl (hanswer.mono _)) (fun ho => by cases ho) fun outcome ho => ?_
  cases ho
  rcases Line.read_eq_line hno hsplit hread with ⟨hfirst, -⟩ | ⟨-, -, _, hbound, -⟩
  · exact .inl ⟨line, rfl, .inl hfirst⟩
  · cases hbound

/-- The client finds that the server has gone. -/
theorem Answered.receiveEof (h : Answered json bytes es s) (hserver : s.server = .closed)
    (hout : s.outcome = none) (hdown : s.down = []) :
    Answered json bytes (es ++ [.receiveEof])
      { s with outcome := some (readLocalResponse json s.taken) } := by
  obtain ⟨answer, rest, hs, hanswer, hno, hwhole⟩ := h.of_open hout (.inr hserver)
  rw [hdown, List.append_nil] at hwhole
  refine .answered (hs.mono _) (.inl (hanswer.mono _)) (fun ho => by cases ho) fun outcome ho => ?_
  cases ho
  exact .inl ⟨s.taken, rfl, .inr ⟨List.mem_append_right _ (.head _), hno, rest, hwhole⟩⟩

/-- The client gives up. -/
theorem Answered.giveUp {error : LocalError} (h : Answered json bytes es s)
    (hout : s.outcome = none) :
    Answered json bytes (es ++ [.giveUp error]) { s with outcome := some (.error error) } := by
  have hlast : Event.giveUp error ∈ es ++ [.giveUp error] := List.mem_append_right _ (.head _)
  cases h with
  | waiting hs hdown htaken =>
    refine .waiting hs hdown htaken fun outcome ho => ?_
    cases ho
    exact ⟨error, rfl, hlast⟩
  | answered hs hanswer =>
    have hanswer' := hanswer.resolve_right fun ⟨_, _, herror⟩ => by cases hout.symm.trans herror
    refine .answered (hs.mono _) (.inl (hanswer'.mono _)) (fun ho => by cases ho)
      fun outcome ho => ?_
    cases ho
    exact .inr ⟨error, rfl, hlast⟩

end

/-- Every step leaves the client without an answer, or with a part of one, or with its end. -/
theorem Answered.step (h : Answered json bytes es s) (hsound : Sound json bytes s)
    (hstep : Step json s e t) : Answered json bytes (es ++ [e]) t := by
  cases hstep with
  | send => exact h.congr _ rfl rfl rfl rfl rfl
  | readMore hserver => exact h.readMore hserver
  | readLine hserver hn hle hlimit hread ht =>
    exact h.readLine hsound hserver (cut_of_read hsound hserver hle hlimit hread) ht
  | readEof hserver hout ht => exact h.readEof hserver hout ht
  | readError hserver ht => exact h.readError hsound hserver ht
  | timeout hserver ht => exact h.timeout hsound hserver ht
  | handle hserver => exact h.handle hsound hserver
  | write hserver => exact h.write hserver
  | writeLast hserver => exact h.writeLast hserver
  | writeError hserver => exact h.writeError hserver
  | receiveMore hout hsent hn hle hread => exact h.receiveMore hout hn hle hread
  | receiveLine hout hsent hn hle hread => exact h.receiveLine hout hn hle hread
  | receiveEof hserver hout hsent hdown => exact h.receiveEof hserver hout hdown
  | giveUp hout => exact h.giveUp hout

/-- Both hold in every run. -/
theorem of_run (hrun : Run (Fires (step json)) (opened bytes) es s) :
    Sound json bytes s ∧ Answered json bytes es s := by
  refine hrun.history (I := fun es s => Sound json bytes s ∧ Answered json bytes es s) ?_ ?_
  · refine ⟨.reading rfl rfl List.not_mem_nil (by decide) rfl, ?_⟩
    exact .waiting (.inl ⟨_, rfl⟩) rfl rfl fun outcome ho => by cases ho
  · intro es t e u _ h hfires
    have hstep := step_eq_some hfires
    exact ⟨h.1.step hstep, h.2.step h.1 hstep⟩

end

end LocalExchange

end Rackio
