import Rackio.Runtime.LocalAnswer

/-!
# Commands and their answers

What a local exchange is for. Whatever is written to a connection and however it is cut, the server
runs the command of its first line and no other (`executes_first_line`); a client that gets an
answer gets the whole answer to its own command (`answer_is_own`); and without failures and timeouts
it gets one (`exchange_completes`).
-/

namespace Rackio

open Lts

/-! ## The messages -/

section
variable {κ ρ : Type} {json : LocalJson κ ρ} {command command' : κ} {answer : ρ}

/-- The command prints as one JSON object on one line, which parses to it. -/
structure LocalJson.Sends (json : LocalJson κ ρ) (command : κ) : Prop where
  oneLine : newline ∉ utf8 (json.printCommand command)
  object : (json.printCommand command).toList.getLast? = some '}'
  parses : json.parseCommand (json.printCommand command) = .ok command

/-- The response prints as one JSON object on one line, no part of which parses. -/
structure LocalJson.Responds (json : LocalJson κ ρ) (answer : ρ) : Prop where
  oneLine : newline ∉ utf8 (json.printResponse answer)
  object : (json.printResponse answer).toList.getLast? = some '}'
  whole : ∀ text response, utf8 text <+: utf8 (json.printResponse answer) →
    text ≠ json.printResponse answer → json.parseResponse text ≠ .ok response

/-- Of a line that ends with an object only the newline is trimmed. -/
theorem trimEnd_line {text : String} (h : text.toList.getLast? = some '}') :
    trimEnd (text ++ "\n") = text := by
  obtain ⟨init, hinit⟩ := List.getLast?_eq_some_iff.1 h
  have hnewline : isWhitespace '\n' = true := by decide
  have hbrace : ¬ isWhitespace '}' = true := by decide
  rw [trimEnd, String.toList_append, show "\n".toList = ['\n'] from rfl, hinit,
    List.rdropWhile_concat_pos _ _ _ hnewline, List.rdropWhile_concat_neg _ _ _ hbrace, ← hinit,
    String.ofList_toList]

theorem withoutEnding_line {text : String} (h : text.toList.getLast? = some '}') :
    withoutEnding (text ++ "\n") = text := by
  have hline : (text ++ "\n").toList = text.toList ++ ['\n'] := by
    rw [String.toList_append]
    rfl
  have hreturn : ¬ text.toList.getLast? = some '\r' := by
    rw [h]
    decide
  rw [withoutEnding, hline, List.getLast?_concat, if_pos rfl, List.dropLast_concat]
  simp only [if_neg hreturn, String.ofList_toList]

/-- A text without a newline is left as it is. -/
theorem withoutEnding_eq_self {bytes : List UInt8} {text : String}
    (htext : fromUtf8 bytes = some text) (hno : newline ∉ bytes) : withoutEnding text = text := by
  rw [withoutEnding, if_neg fun hlast => hno (newline_mem htext hlast)]

theorem fromUtf8_line (text : String) :
    fromUtf8 (utf8 text ++ [newline]) = some (text ++ "\n") := by
  rw [← utf8_newline, ← utf8_append, fromUtf8_utf8]

namespace LocalJson

/-- The server runs this command when it has read its line. -/
theorem Sends.readLocalRequest (h : json.Sends command) :
    readLocalRequest json (.line (requestBytes json command)) = .ok command := by
  have hne : requestBytes json command ≠ [] := by simp [requestBytes]
  have htext : fromUtf8 (requestBytes json command) = some (json.printCommand command ++ "\n") :=
    fromUtf8_line _
  have hlast : ((json.printCommand command) ++ "\n").toList.getLast? = some '\n' := by
    rw [String.toList_append]
    exact List.getLast?_concat
  simp only [Rackio.readLocalRequest, htext]
  rw [if_neg hne, if_neg (not_not.2 hlast), trimEnd_line h.object, h.parses]

/-- A line of this command is read as no other. -/
theorem Sends.decodes_iff (h : json.Sends command) :
    LocalExchange.Decodes json (requestBytes json command) command' ↔
      command' = command ∧ (requestBytes json command).length ≤ maxLocalRequestBytes := by
  have hparse : json.parseCommand (trimEnd (json.printCommand command ++ "\n")) = .ok command := by
    rw [trimEnd_line h.object, h.parses]
  constructor
  · rintro ⟨line, text, hfirst, hlimit, htext, hcommand⟩
    have hline : line = requestBytes json command := (Line.isFirst_singleton_iff h.oneLine).1 hfirst
    subst hline
    rw [requestBytes, fromUtf8_line] at htext
    cases htext
    rw [hparse] at hcommand
    cases hcommand
    exact ⟨rfl, hlimit⟩
  · rintro ⟨rfl, hlimit⟩
    exact ⟨_, _, (Line.isFirst_singleton_iff h.oneLine).2 rfl, hlimit, fromUtf8_line _, hparse⟩

/-- The server refuses the line of this command only for its length. Where the limit cuts a
character in two, what it has is no text. -/
theorem Sends.too_long_of_cut (h : json.Sends command) {line : List UInt8} {text : String}
    (hcut : LocalExchange.Cut (requestBytes json command) line)
    (hread : Rackio.readLocalRequest json (.line line) = .error text) :
    (text = requestTooLong ∨ text = requestNotUtf8) ∧
      maxLocalRequestBytes < (requestBytes json command).length := by
  rcases hcut with ⟨hfirst, -⟩ | ⟨hno, hstart, hlength⟩
  · have hline : line = requestBytes json command := (Line.isFirst_singleton_iff h.oneLine).1 hfirst
    rw [hline, h.readLocalRequest] at hread
    cases hread
  · refine ⟨?_, ?_⟩
    · have hne : line ≠ [] := by
        rintro rfl
        cases hlength
      rw [Rackio.readLocalRequest] at hread
      cases htext : fromUtf8 line with
      | none =>
        rw [htext] at hread
        cases hread
        exact .inr rfl
      | some cut =>
        have hlast : cut.toList.getLast? ≠ some '\n' := fun hlast => hno (newline_mem htext hlast)
        rw [htext] at hread
        simp only [if_neg hne, if_pos hlast] at hread
        cases hread
        exact .inl rfl
    · rw [← hlength]
      refine Nat.lt_of_le_of_ne hstart.length_le fun heq => hno ?_
      rw [hstart.eq_of_length heq]
      exact List.mem_append_right _ (.head _)

/-- What the client makes of the whole line of a response. -/
theorem Responds.readLocalResponse (h : json.Responds answer) :
    readLocalResponse json (responseBytes json answer) =
      (json.parseResponse (json.printResponse answer)).mapError .json := by
  have hne : responseBytes json answer ≠ [] := by simp [responseBytes]
  rw [Rackio.readLocalResponse, if_neg hne, responseBytes, fromUtf8_line]
  simp only [withoutEnding_line h.object]

/-- A client that has an answer has all of it. -/
theorem Responds.of_received (h : json.Responds answer) {es : List (LocalExchange.Event ρ)}
    {response : ρ} (hreceived : LocalExchange.Received json es answer (.ok response)) :
    json.parseResponse (json.printResponse answer) = .ok response := by
  have hwhole (h : (json.parseResponse (json.printResponse answer)).mapError LocalError.json =
      .ok response) : json.parseResponse (json.printResponse answer) = .ok response := by
    cases hparse : json.parseResponse (json.printResponse answer) with
    | ok value =>
      rw [hparse] at h
      cases h
      rfl
    | error text =>
      rw [hparse] at h
      cases h
  rcases hreceived with ⟨line, hread, hfirst | ⟨-, hno, hstart⟩⟩ | ⟨_, herror, -⟩
  · have hline : line = responseBytes json answer := (Line.isFirst_singleton_iff h.oneLine).1 hfirst
    rw [hline, h.readLocalResponse] at hread
    exact hwhole hread.symm
  · -- The server has gone: the line may be cut anywhere before its newline.
    have hpart : line <+: utf8 (json.printResponse answer) := by
      rcases List.prefix_concat_iff.1 hstart with rfl | hpart
      · exact absurd (List.mem_append_right _ (.head _)) hno
      · exact hpart
    rw [Rackio.readLocalResponse] at hread
    split at hread
    · cases hread
    cases htext : fromUtf8 line with
    | none =>
      rw [htext] at hread
      cases hread
    | some text =>
      rw [htext] at hread
      simp only [withoutEnding_eq_self htext hno] at hread
      by_cases htotal : text = json.printResponse answer
      · subst htotal
        exact hwhole hread.symm
      · have hfails := h.whole text response (by rwa [utf8_of_fromUtf8 htext]) htotal
        cases hparse : json.parseResponse text with
        | ok value =>
          rw [hparse] at hread
          cases hread
          exact absurd hparse hfails
        | error =>
          rw [hparse] at hread
          cases hread
  · cases herror

end LocalJson

end

namespace LocalExchange

section
variable {κ ρ : Type} {json : LocalJson κ ρ} {bytes : List UInt8} {command : κ} {answer : ρ}
  {s t : LocalExchange κ ρ} {e : Event ρ} {es : List (Event ρ)}

/-! ## An exchange in whole pieces -/

/-- The request and the response arrive as one piece each. -/
def wholePieces (json : LocalJson κ ρ) (command : κ) (answer : ρ) : List (Event ρ) :=
  [.send (requestBytes json command).length, .read (requestBytes json command).length,
    .handle answer, .write (responseBytes json answer).length,
    .receive (responseBytes json answer).length]

/-- The end of an exchange without failures. -/
def served (json : LocalJson κ ρ) (command : κ) (answer : ρ) : LocalExchange κ ρ where
  unsent := []
  up := []
  server := .closed
  executed := [(command, answer)]
  down := []
  taken := []
  outcome := some (readLocalResponse json (responseBytes json answer))

/-- A command that fits can be served. -/
theorem run_wholePieces (hsends : json.Sends command)
    (hfits : (requestBytes json command).length ≤ maxLocalRequestBytes)
    (hanswer : newline ∉ utf8 (json.printResponse answer)) :
    Run (Fires (step json)) (opened (requestBytes json command))
      (wholePieces json command answer) (served json command answer) := by
  have hrequest : 0 < (requestBytes json command).length := by simp [requestBytes]
  have hresponse : 0 < (responseBytes json answer).length := by simp [responseBytes]
  have hread : Line.read newline (some maxLocalRequestBytes) [] (requestBytes json command) =
      .line (requestBytes json command) := Line.read_line hsends.oneLine
  have hreceive : Line.read newline none [] (responseBytes json answer) =
      .line (responseBytes json answer) := Line.read_line hanswer
  refine run_of_exec ?_
  simp [wholePieces, served, opened, step, request, hrequest, hresponse, hread, hreceive, hfits,
    hsends.readLocalRequest]

end

/-- The list of peers, asked for and answered, as `serde_json` prints them. -/
def peerListJson : LocalJson Unit (Option String) where
  printCommand _ := "\x7b\"command\":\"peer_list\"\x7d"
  parseCommand text :=
    if text = "\x7b\"command\":\"peer_list\"\x7d" then .ok () else .error "expected value"
  printResponse
    | none => "\x7b\"ok\":true,\"data\":[],\"error\":null\x7d"
    | some error => "\x7b\"ok\":false,\"data\":null,\"error\":\"" ++ error ++ "\"\x7d"
  parseResponse text :=
    if text = "\x7b\"ok\":true,\"data\":[],\"error\":null\x7d" then .ok none
    else .error "EOF while parsing an object"
  failure := some

theorem peerListJson_sends : peerListJson.Sends () where
  oneLine := by decide
  object := by decide
  parses := by decide

theorem peerListJson_responds : peerListJson.Responds none where
  oneLine := by decide
  object := by decide
  whole := by
    intro text response _ hne h
    have hparse : peerListJson.parseResponse text = .error "EOF while parsing an object" :=
      if_neg hne
    cases hparse.symm.trans h

/-- The peers are asked for and listed. -/
theorem run_peerList : Run (Fires (step peerListJson)) (opened (requestBytes peerListJson ()))
    (wholePieces peerListJson () none) (served peerListJson () none) :=
  run_wholePieces peerListJson_sends (by decide) peerListJson_responds.oneLine

/-! ## One command, and its answer -/

section
variable {κ ρ : Type} {json : LocalJson κ ρ} {bytes : List UInt8} {command : κ} {answer : ρ}
  {s t : LocalExchange κ ρ} {e : Event ρ} {es : List (Event ρ)}

/-- Whatever a client writes and whatever fails, the server runs at most one command, and only the
one that the first line of the request decodes to, whole with its newline and within the limit; and
while it reads it holds no more than the limit. -/
theorem executes_first_line (hrun : Run (Fires (step json)) (opened bytes) es s) :
    (∀ taken, s.server = .reading taken →
        taken <+: bytes ∧ taken.length < maxLocalRequestBytes ∧ s.executed = []) ∧
      (∀ command, s.server = .handling command →
        Decodes json bytes command ∧ s.executed = []) ∧
      (s.executed = [] ∨
        ∃ command response, s.executed = [(command, response)] ∧ Decodes json bytes command) := by
  have hsound := (of_run hrun).1
  refine ⟨fun taken hserver => ?_, fun command hserver => hsound.of_handling hserver, ?_⟩
  · obtain ⟨hbytes, -, hlimit, hnone⟩ := hsound.of_reading hserver
    exact ⟨⟨_, hbytes.symm⟩, hlimit, hnone⟩
  · cases hsound with
    | reading _ _ _ _ hnone => exact .inl hnone
    | handling _ _ hnone => exact .inl hnone
    | answering _ hdone => exact hdone

/-- The list of peers is the one command that was run. -/
theorem executes_first_line_peer_list :
    Run (Fires (step peerListJson)) (opened (requestBytes peerListJson ()))
        (wholePieces peerListJson () none) (served peerListJson () none) ∧
      ∃ command response, (served peerListJson () none).executed = [(command, response)] ∧
        Decodes peerListJson (requestBytes peerListJson ()) command := by
  obtain ⟨-, -, hnone | hone⟩ := executes_first_line run_peerList
  · cases hnone
  · exact ⟨run_peerList, hone⟩

/-- A client that has its answer was answered. -/
theorem answered_of_ok {response : ρ} (h : Answered json bytes es s)
    (houtcome : s.outcome = some (.ok response)) :
    ∃ answer, Answers json bytes es s.executed answer ∧ Received json es answer (.ok response) := by
  cases h with
  | waiting _ _ _ hout =>
    obtain ⟨_, herror, -⟩ := hout _ houtcome
    cases herror
  | @answered answer _ _ hanswer _ hout =>
    refine ⟨answer, hanswer.resolve_right ?_, hout _ houtcome⟩
    rintro ⟨-, _, herror⟩
    cases houtcome.symm.trans herror

/-- The command that ran is the one that was sent. -/
theorem executed_command {command' : κ} {response : ρ} (hsends : json.Sends command)
    (h : Sound json (requestBytes json command) s)
    (hexecuted : s.executed = [(command', response)]) : command' = command := by
  cases h with
  | reading _ _ _ _ hnone | handling _ _ hnone => cases hexecuted.symm.trans hnone
  | answering _ hdone =>
    rcases hdone with hnone | ⟨_, _, hone, hdecodes⟩
    · cases hexecuted.symm.trans hnone
    · cases hexecuted.symm.trans hone
      exact (hsends.decodes_iff.1 hdecodes).1

/-- A client that gets a response to its command gets the whole of an answer, and the answer is what
this command returned, which ran once; or it did not run, and the answer says that it came too late
or could not be read, or that it was cut off, because it is longer than the limit. -/
theorem answer_is_own {response : ρ} (hsends : json.Sends command)
    (hrun : Run (Fires (step json)) (opened (requestBytes json command)) es s)
    (hresponds : ∀ answer, Answers json (requestBytes json command) es s.executed answer →
      json.Responds answer)
    (houtcome : s.outcome = some (.ok response)) :
    ∃ answer, json.parseResponse (json.printResponse answer) = .ok response ∧
      (s.executed = [(command, answer)] ∨
        s.executed = [] ∧ ∃ text, answer = json.failure text ∧
          (text = requestTimedOut ∧ .timeout ∈ es ∨ .readError text ∈ es ∨
            (text = requestTooLong ∨ text = requestNotUtf8) ∧
              maxLocalRequestBytes < (requestBytes json command).length)) := by
  obtain ⟨hsound, hanswered⟩ := of_run hrun
  obtain ⟨answer, hanswer, hreceived⟩ := answered_of_ok hanswered houtcome
  refine ⟨answer, (hresponds answer hanswer).of_received hreceived, ?_⟩
  generalize hexecuted : s.executed = executed at hanswer ⊢
  cases hanswer with
  | @handled command' => exact .inl (executed_command hsends hsound hexecuted ▸ rfl)
  | timedOut h => exact .inr ⟨rfl, _, rfl, .inl ⟨rfl, h⟩⟩
  | readError h => exact .inr ⟨rfl, _, rfl, .inr (.inl h)⟩
  | refused hcut hread => exact .inr ⟨rfl, _, rfl, .inr (.inr (hsends.too_long_of_cut hcut hread))⟩

/-- The client that asked for the peers has the list that was returned. -/
theorem answer_is_own_peer_list :
    ∃ answer, peerListJson.parseResponse (peerListJson.printResponse answer) = .ok none ∧
      ((served peerListJson () none).executed = [((), answer)] ∨
        (served peerListJson () none).executed = [] ∧ ∃ text, answer = peerListJson.failure text ∧
          (text = requestTimedOut ∧ .timeout ∈ wholePieces peerListJson () none ∨
            .readError text ∈ wholePieces peerListJson () none ∨
            (text = requestTooLong ∨ text = requestNotUtf8) ∧
              maxLocalRequestBytes < (requestBytes peerListJson ()).length)) := by
  refine answer_is_own peerListJson_sends run_peerList (fun answer hanswer => ?_) ?_
  · cases hanswer with
    | handled => exact peerListJson_responds
  · exact congrArg some peerListJson_responds.readLocalResponse

/-! ## Exchanges without failures -/

/-- Nothing fails, and no time is over. -/
def Event.Regular : Event ρ → Prop
  | .send _ | .read _ | .handle _ | .write _ | .receive _ => True
  | _ => False

/-- No regular step is left. -/
def Stuck (json : LocalJson κ ρ) (s : LocalExchange κ ρ) : Prop :=
  ∀ e : Event ρ, e.Regular → step json s e = none

/-- A client that has bytes left can write one. -/
theorem Stuck.unsent (h : Stuck json s) (hopen : s.outcome = none) : s.unsent = [] := by
  have hsend := h (.send 1) trivial
  simp only [step, hopen, Option.isNone_none, true_and, ite_eq_right_iff, reduceCtorEq, imp_false,
    Nat.not_le, Nat.lt_one_iff] at hsend
  exact List.length_eq_zero_iff.1 hsend

/-- A server below its limit can read a byte that is there. -/
theorem Stuck.up {taken : List UInt8} (h : Stuck json s) (hserver : s.server = .reading taken)
    (hlimit : taken.length < maxLocalRequestBytes) : s.up = [] := by
  have hread := h (.read 1) trivial
  simp only [step, hserver] at hread
  split at hread
  · split at hread <;> cases hread
  · next hnot =>
    refine List.length_eq_zero_iff.1 (Nat.lt_one_iff.1 (Nat.lt_of_not_le fun hle => hnot ?_))
    exact ⟨Nat.one_pos, hle, hlimit⟩

/-- A command returns. -/
theorem Stuck.not_handling (h : Stuck json s) : s.server ≠ .handling command := by
  intro hserver
  have hhandle := h (.handle (json.failure "")) trivial
  simp only [step, hserver, reduceCtorEq] at hhandle

/-- A server that has bytes left can write one. -/
theorem Stuck.writing {unsent : List UInt8} (h : Stuck json s)
    (hserver : s.server = .writing unsent) : unsent = [] := by
  have hwrite := h (.write 1) trivial
  simp only [step, hserver, true_and, ite_eq_right_iff, reduceCtorEq, imp_false, Nat.not_le,
    Nat.lt_one_iff] at hwrite
  exact List.length_eq_zero_iff.1 hwrite

/-- A client that waits can read a byte that is there. -/
theorem Stuck.down (h : Stuck json s) (hopen : s.outcome = none) : s.down = [] := by
  have hreceive := h (.receive 1) trivial
  simp only [step, hopen, h.unsent hopen, Option.isNone_none, Nat.one_pos, true_and] at hreceive
  split at hreceive
  · split at hreceive <;> cases hreceive
  · next hnot => exact List.length_eq_zero_iff.1 (Nat.lt_one_iff.1 (Nat.lt_of_not_le hnot))

/-- A line cannot be all of a list without a newline. -/
theorem requestBytes_ne {taken : List UInt8} (hno : newline ∉ taken) :
    requestBytes json command ≠ taken :=
  fun heq => hno (heq ▸ List.mem_append_right _ (.head _))

theorem responseBytes_ne {taken : List UInt8} (hno : newline ∉ taken) :
    responseBytes json answer ≠ taken :=
  fun heq => hno (heq ▸ List.mem_append_right _ (.head _))

/-- Without failures a client that still waits can go on. -/
theorem Stuck.outcome (h : Stuck json s) (hregular : ∀ e ∈ es, e.Regular)
    (hsound : Sound json (requestBytes json command) s)
    (hanswered : Answered json (requestBytes json command) es s) : s.outcome ≠ none := by
  intro hopen
  cases hanswered with
  | waiting hserver =>
    rcases hserver with ⟨taken, hserver⟩ | ⟨command, hserver⟩
    · obtain ⟨hbytes, hno, hlimit, -⟩ := hsound.of_reading hserver
      rw [h.up hserver hlimit, h.unsent hopen, List.append_nil, List.append_nil] at hbytes
      exact requestBytes_ne hno hbytes
    · exact h.not_handling hserver
  | @answered answer rest hserver _ hwaits =>
    obtain ⟨hno, hwhole⟩ := hwaits hopen
    have hrest : rest = [] := by
      rcases hserver with hserver | ⟨-, hlost⟩
      · exact h.writing hserver
      · by_contra hne
        exact hregular _ (hlost hne)
    rw [h.down hopen, hrest, List.append_nil, List.append_nil] at hwhole
    exact responseBytes_ne hno hwhole.symm

/-- How many phases the server has before it, and how many bytes of its response. -/
def phaseLeft : ServerPhase κ → Nat × Nat
  | .reading _ => (2, 0)
  | .handling _ => (1, 0)
  | .writing unsent => (0, unsent.length)
  | .closed => (0, 0)

/-- What is left to do: first phases, then bytes, each that is not written yet counted twice. -/
def remaining (s : LocalExchange κ ρ) : Nat ×ₗ Nat :=
  toLex ((phaseLeft s.server).1,
    2 * s.unsent.length + s.up.length + 2 * (phaseLeft s.server).2 + s.down.length)

theorem remaining_lt_of_phase (h : (phaseLeft t.server).1 < (phaseLeft s.server).1) :
    t.remaining < s.remaining :=
  Prod.Lex.toLex_lt_toLex.2 (.inl h)

theorem remaining_lt_of_bytes (hphase : (phaseLeft t.server).1 = (phaseLeft s.server).1)
    (h : 2 * t.unsent.length + t.up.length + 2 * (phaseLeft t.server).2 + t.down.length <
      2 * s.unsent.length + s.up.length + 2 * (phaseLeft s.server).2 + s.down.length) :
    t.remaining < s.remaining :=
  Prod.Lex.toLex_lt_toLex.2 (.inr ⟨hphase, h⟩)

/-- Every regular step leaves less to do. -/
theorem remaining_lt (hregular : e.Regular) (hstep : Step json s e t) :
    t.remaining < s.remaining := by
  cases hstep with
  | send hopen hn hle =>
    refine remaining_lt_of_bytes rfl ?_
    simp only [List.length_drop, List.length_append, List.length_take]
    omega
  | readMore hserver hn hle =>
    refine remaining_lt_of_bytes (by rw [hserver]; rfl) ?_
    simp only [List.length_drop, hserver, phaseLeft]
    omega
  | readLine hserver hn hle hlimit hread ht =>
    refine remaining_lt_of_phase ?_
    rw [hserver]
    cases ht with
    | runs => exact Nat.one_lt_two
    | refuses => exact Nat.two_pos
  | handle hserver =>
    refine remaining_lt_of_phase ?_
    rw [hserver]
    exact Nat.one_pos
  | write hserver hn hlt =>
    refine remaining_lt_of_bytes (by rw [hserver]; rfl) ?_
    simp only [List.length_drop, List.length_append, List.length_take, hserver, phaseLeft]
    omega
  | writeLast hserver hn =>
    refine remaining_lt_of_bytes (by rw [hserver]; rfl) ?_
    simp only [List.length_append, hserver, phaseLeft]
    omega
  | receiveMore hopen hsent hn hle | receiveLine hopen hsent hn hle =>
    refine remaining_lt_of_bytes rfl ?_
    simp only [List.length_drop]
    omega
  | readEof | readError | timeout | writeError | receiveEof | giveUp => exact hregular.elim

/-- A command that fits is answered: an exchange without failures ends, and at its end the command
has run once and the client has what it returned. -/
theorem exchange_completes (hsends : json.Sends command)
    (hfits : (requestBytes json command).length ≤ maxLocalRequestBytes) :
    (∀ es s, Run (Fires (step json)) (opened (requestBytes json command)) es s →
      (∀ e ∈ es, e.Regular) → (∀ answer, .handle answer ∈ es → json.Responds answer) →
      Stuck json s →
        ∃ answer, s.executed = [(command, answer)] ∧ s.outcome =
          some ((json.parseResponse (json.printResponse answer)).mapError .json)) ∧
      WellFounded fun t s : LocalExchange κ ρ => ∃ e, e.Regular ∧ step json s e = some t := by
  constructor
  · intro es s hrun hregular hresponds hstuck
    obtain ⟨hsound, hanswered⟩ := of_run hrun
    obtain ⟨outcome, houtcome⟩ :=
      Option.ne_none_iff_exists'.1 (hstuck.outcome hregular hsound hanswered)
    cases hanswered with
    | waiting _ _ _ hout =>
      obtain ⟨_, -, hgone⟩ := hout _ houtcome
      exact (hregular _ hgone).elim
    | @answered answer _ _ hanswer _ hout =>
      have hanswer := hanswer.resolve_right fun ⟨heof, _⟩ => hregular _ heof
      generalize hexecuted : s.executed = executed at hanswer
      cases hanswer with
      | timedOut h | readError h => exact (hregular _ h).elim
      | refused hcut hread =>
        exact absurd (hsends.too_long_of_cut hcut hread).2 (Nat.not_lt.2 hfits)
      | @handled command' _ h =>
        have hanswers := hresponds answer h
        refine ⟨answer, executed_command hsends hsound hexecuted ▸ rfl, ?_⟩
        rcases hout _ houtcome with ⟨line, rfl, hfirst | ⟨heof, -⟩⟩ | ⟨_, -, hgone⟩
        · rw [houtcome, (Line.isFirst_singleton_iff hanswers.oneLine).1 hfirst]
          exact congrArg some hanswers.readLocalResponse
        · exact (hregular _ heof).elim
        · exact (hregular _ hgone).elim
  · refine Subrelation.wf ?_ (InvImage.wf remaining wellFounded_lt)
    rintro t s ⟨e, hregular, hstep⟩
    exact remaining_lt hregular (step_eq_some hstep)

end

/-- The end of the exchange over the list of peers. -/
theorem exchange_completes_peer_list :
    ∃ answer, (served peerListJson () none).executed = [((), answer)] ∧
      (served peerListJson () none).outcome =
        some ((peerListJson.parseResponse (peerListJson.printResponse answer)).mapError .json) := by
  refine (exchange_completes peerListJson_sends (by decide)).1 _ _ run_peerList ?_ ?_ ?_
  · intro e he
    simp only [wholePieces, List.mem_cons, List.not_mem_nil, or_false] at he
    rcases he with rfl | rfl | rfl | rfl | rfl <;> exact trivial
  · intro answer hanswer
    simp [wholePieces] at hanswer
    exact hanswer ▸ peerListJson_responds
  · intro e he
    cases e <;> first | exact he.elim | simp [step, served]

end LocalExchange

end Rackio
