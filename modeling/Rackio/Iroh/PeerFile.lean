import Rackio.Lib.Mirror
import Rackio.Iroh.Pairing

/-!
# The allowlist and its file

`PeerRegistry` of `rackio-iroh/src/pairing.rs` as it is kept: a map in memory and the file it was
loaded from. Every call takes the write lock, makes the next map out of a clone, persists it and
puts it in place of the old one, so a call is a transaction of a `Mirror`.

`peers_file_agrees` is about every run of calls, with any of their writes failing at any step.
-/

namespace Rackio

open Lts

/-- The source's `PeerRegistry`, with the file at its path. -/
abbrev PeerFile (δ : Type) : Type := Mirror (Table String PeerRecord) δ

/-- The source's `PeerRegistry` as the components that only read it see it. -/
def PeerFile.registry {δ : Type} (m : PeerFile δ) : PeerRegistry := ⟨m.memory⟩

namespace PeerFile

section
variable {δ : Type} (json : Serializer (Table String PeerRecord) δ)

/-- The file of the allowlist: `serde_json` as `json`, and an empty map where there is none. -/
def format : FileFormat (Table String PeerRecord) δ PairingError := .of json .empty .io .json

/-- The source's `PeerRegistry::load`. -/
def load (path : FileContent δ) : Except PairingError (PeerFile δ) := Mirror.load (format json) path

/-- The map of the source's `authorize` at `nowMs`. -/
def authorizeNext (nowMs : Int) (peer : EndpointId) (permissions : PeerPermissions)
    (records : Table String PeerRecord) :
    Except PairingError (Unit × Option (Table String PeerRecord)) :=
  .ok ((), some (records.insert peer.toString
    { endpointId := peer.toString, pairedAtMs := nowMs, permissions := permissions }))

/-- The map of the source's `authorize_preserving` at `nowMs`. -/
def authorizePreservingNext (nowMs : Int) (peer : EndpointId) (records : Table String PeerRecord) :
    Except PairingError (PeerPermissions × Option (Table String PeerRecord)) :=
  let key := peer.toString
  let permissions := ((records.find key).map (·.permissions)).getD default
  .ok (permissions, some (records.insert key
    { endpointId := key, pairedAtMs := nowMs, permissions := permissions }))

/-- The map of the source's `revoke`. -/
def revokeNext (endpointId : String) (records : Table String PeerRecord) :
    Except PairingError (Bool × Option (Table String PeerRecord)) :=
  if (records.find endpointId).isSome then .ok (true, some (records.erase endpointId))
  else .ok (false, none)

/-- The source's `authorize`, with the outcomes of `persist_records`. -/
def authorize (m : PeerFile δ) (write : AtomicWrite) (nowMs : Int) (peer : EndpointId)
    (permissions : PeerPermissions) : Except PairingError Unit × PeerFile δ :=
  m.transact (format json) write (authorizeNext nowMs peer permissions)

/-- The source's `authorize_preserving`, with the outcomes of `persist_records`. -/
def authorizePreserving (m : PeerFile δ) (write : AtomicWrite) (nowMs : Int) (peer : EndpointId) :
    Except PairingError PeerPermissions × PeerFile δ :=
  m.transact (format json) write (authorizePreservingNext nowMs peer)

/-- The source's `revoke`, with the outcomes of `persist_records`. -/
def revoke (m : PeerFile δ) (write : AtomicWrite) (endpointId : String) :
    Except PairingError Bool × PeerFile δ :=
  m.transact (format json) write (revokeNext endpointId)

end

/-! ## Runs -/

/-- A call that may write the allowlist. -/
inductive Call
  | authorize (nowMs : Int) (peer : EndpointId) (permissions : PeerPermissions)
  | authorizePreserving (nowMs : Int) (peer : EndpointId)
  | revoke (endpointId : String)

/-- What a call answers. -/
def Call.Answer : Call → Type
  | .authorize .. => Unit
  | .authorizePreserving .. => PeerPermissions
  | .revoke .. => Bool

/-- The map of a call. -/
def Call.next : (call : Call) → Table String PeerRecord →
    Except PairingError (call.Answer × Option (Table String PeerRecord))
  | .authorize nowMs peer permissions => authorizeNext nowMs peer permissions
  | .authorizePreserving nowMs peer => authorizePreservingNext nowMs peer
  | .revoke endpointId => revokeNext endpointId

/-- The endpoint a call is about. -/
def Call.endpointId : Call → String
  | .authorize _ peer _ => peer.toString
  | .authorizePreserving _ peer => peer.toString
  | .revoke endpointId => endpointId

/-- Every record stands under its own endpoint. -/
def Keyed (records : Table String PeerRecord) : Prop :=
  ∀ k record, records.find k = some record → record.endpointId = k

section
variable {δ : Type} {json : Serializer (Table String PeerRecord) δ} {m m' : PeerFile δ}
  {write : AtomicWrite} {calls : List (Call × AtomicWrite)}

/-- A next map has every other record as it was. -/
theorem Call.find_next {call : Call} {records next : Table String PeerRecord} {answer : call.Answer}
    (h : call.next records = .ok (answer, some next)) {k : String} (hk : k ≠ call.endpointId) :
    next.find k = records.find k := by
  cases call with
  | authorize nowMs peer permissions =>
    cases h
    rw [Table.find_insert]
    exact if_neg hk
  | authorizePreserving nowMs peer =>
    cases h
    rw [Table.find_insert]
    exact if_neg hk
  | revoke endpointId =>
    simp only [Call.next, revokeNext] at h
    split at h
    · cases h
      rw [Table.find_erase]
      exact if_neg hk
    · cases h

/-- A next map has its records under their own endpoints. -/
theorem Call.keyed_next {call : Call} {records next : Table String PeerRecord}
    {answer : call.Answer} (h : call.next records = .ok (answer, some next))
    (hkeyed : Keyed records) : Keyed next := by
  cases call with
  | authorize nowMs peer permissions =>
    cases h
    exact Table.forall_insert hkeyed rfl
  | authorizePreserving nowMs peer =>
    cases h
    exact Table.forall_insert hkeyed rfl
  | revoke endpointId =>
    simp only [Call.next, revokeNext] at h
    split at h
    · cases h
      exact Table.forall_erase hkeyed endpointId
    · cases h

/-- What the server sees of `authorize_preserving` is the call on the map in memory, with the
outcome of the write. -/
theorem registry_authorizePreserving (m : PeerFile δ) (write : AtomicWrite) (nowMs : Int)
    (peer : EndpointId) :
    ∃ persist, m.registry.authorizePreserving persist nowMs peer =
      ((m.authorizePreserving json write nowMs peer).1,
        (m.authorizePreserving json write nowMs peer).2.registry) := by
  simp only [authorizePreserving, Mirror.transact, authorizePreservingNext]
  split
  · exact ⟨.ok (), rfl⟩
  · next e _ _ => exact ⟨.error e, rfl⟩

/-- What the server sees of `revoke` is the call on the map in memory, with the outcome of the
write. -/
theorem registry_revoke (m : PeerFile δ) (write : AtomicWrite) (endpointId : String) :
    ∃ persist, m.registry.revoke persist endpointId =
      ((m.revoke json write endpointId).1, (m.revoke json write endpointId).2.registry) := by
  simp only [revoke, Mirror.transact, revokeNext]
  cases hfind : m.memory.find endpointId with
  | none =>
    refine ⟨.ok (), ?_⟩
    simp [PeerRegistry.revoke, registry, hfind]
  | some record =>
    simp only [Option.isSome_some, if_true]
    split
    · refine ⟨.ok (), ?_⟩
      simp [PeerRegistry.revoke, registry, hfind]
    · next e _ _ =>
      refine ⟨.error e, ?_⟩
      simp [PeerRegistry.revoke, registry, hfind]

/-- The map in memory is the one a load of the file gives, after every call of every run; a call
that fails changes neither, and one that succeeds no other record than its own. -/
theorem peers_file_agrees (hjson : ∀ records, (format json).ReadsBack records)
    {path : FileContent δ} (hload : load json path = .ok m)
    (hrun : Run (Mirror.Step (format json) Call.next) m calls m') :
    load json m'.path = .ok m' ∧ (Keyed m.memory → Keyed m'.memory) ∧
      (∀ (call : Call) write e m'', m'.transact (format json) write call.next = (.error e, m'') →
        m'' = m') ∧
      (∀ (call : Call) write answer m'',
        m'.transact (format json) write call.next = (.ok answer, m'') →
          ∀ k, k ≠ call.endpointId → m''.memory.find k = m'.memory.find k) ∧
      ∀ endpointId write, m'.memory.find endpointId = none →
        m'.revoke json write endpointId = (.ok false, m') := by
  have hsynced := Mirror.synced_of_load hload
  refine ⟨Mirror.Synced.load ?_, ?_, ?_, ?_, ?_⟩
  · refine hsynced.run (hrun.guard ?_)
    intro _ _ _ _ records _
    exact hjson records
  · intro hkeyed
    exact Mirror.memory_run hrun hkeyed fun call records _ _ hrecords h =>
      Call.keyed_next h hrecords
  · intro call write e m'' h
    exact Mirror.transact_error h
  · intro call write answer m'' h k hk
    rcases Mirror.transact_ok h with ⟨-, rfl⟩ | hnext
    · rfl
    · exact Call.find_next hnext hk
  · intro endpointId write hnone
    refine Mirror.transact_of_unchanged ?_
    simp [revokeNext, hnone]

end

/-! ## One pairing and its revocation -/

/-- A serializer for which a file is the map it was made of. -/
def plainJson : Serializer (Table String PeerRecord) (Table String PeerRecord) := ⟨.ok, .ok⟩

/-- A viewer is authorized, and revoked with a write that does not get to its rename. -/
def revokeUnwritten : List (Call × AtomicWrite) :=
  [(.authorize 5 ⟨"peer"⟩ default, .succeeds),
    (.revoke "peer", { AtomicWrite.succeeds with persist := .error "disk full" })]

/-- The viewer is still there, in memory and in the file. -/
theorem peers_file_agrees_unwritten :
    load plainJson (.holds (Table.empty.insert "peer" ⟨"peer", 5, default⟩)) =
      .ok ⟨Table.empty.insert "peer" ⟨"peer", 5, default⟩,
        .holds (Table.empty.insert "peer" ⟨"peer", 5, default⟩)⟩ := by
  have hback : ∀ records, (format plainJson).ReadsBack records := by
    intro records content h
    cases h
    rfl
  let start : PeerFile (Table String PeerRecord) := ⟨.empty, .absent⟩
  have hload : load plainJson .absent = .ok start := rfl
  have hrun := run_foldl (fun (m : PeerFile (Table String PeerRecord)) call =>
    (m.transact (format plainJson) call.2 call.1.next).2) start revokeUnwritten
  exact (peers_file_agrees hback hload hrun).1

end PeerFile

end Rackio
