import Rackio.Lib.Distinct
import Rackio.Protocol.Conversion

/-!
# Connection paths

What `transport.rs` makes of the paths of a connection: which of the four names the selected path
gets, and which direct addresses of the peer are observed. `settle` of `server.rs` looks again while
the path is unknown, eleven times at most. The paths and their selection are those of the endpoint,
which is code of another crate.
-/

namespace Rackio

/-! ## Local addresses -/

/-- The leading bits of the address are those of the network. -/
def inNetwork {w : Nat} (bits network : BitVec w) (length : Nat) : Bool :=
  bits.toNat / 2 ^ (w - length) = network.toNat / 2 ^ (w - length)

/-- The source's `Ipv4Addr::is_private`: 10.0.0.0/8, 172.16.0.0/12 and 192.168.0.0/16. -/
def isPrivate (bits : BitVec 32) : Bool :=
  inNetwork bits 0x0a000000 8 || inNetwork bits 0xac100000 12 || inNetwork bits 0xc0a80000 16

/-- The source's `Ipv4Addr::is_loopback`: 127.0.0.0/8. -/
def isLoopbackV4 (bits : BitVec 32) : Bool := inNetwork bits 0x7f000000 8

/-- The source's `Ipv4Addr::is_link_local`: 169.254.0.0/16. -/
def isLinkLocal (bits : BitVec 32) : Bool := inNetwork bits 0xa9fe0000 16

/-- The source's `Ipv6Addr::is_loopback`: ::1. -/
def isLoopbackV6 (bits : BitVec 128) : Bool := bits = 1

/-- The source's `Ipv6Addr::is_unique_local`: fc00::/7. -/
def isUniqueLocal (bits : BitVec 128) : Bool :=
  inNetwork bits 0xfc000000000000000000000000000000 7

/-- The source's `Ipv6Addr::is_unicast_link_local`: fe80::/10. -/
def isUnicastLinkLocal (bits : BitVec 128) : Bool :=
  inNetwork bits 0xfe800000000000000000000000000000 10

/-- The source's `Ipv6Addr::to_ipv4_mapped`: ::ffff:0:0/96. -/
def toIpv4Mapped (bits : BitVec 128) : Option (BitVec 32) :=
  if inNetwork bits 0xffff00000000 96 then some (bits.setWidth 32) else none

/-- The source's `is_private_or_local_v4`. -/
def isPrivateOrLocalV4 (bits : BitVec 32) : Bool :=
  isPrivate bits || isLoopbackV4 bits || isLinkLocal bits

/-- The source's `is_private_or_local`. -/
def isPrivateOrLocal : IpAddr → Bool
  | .v4 bits => isPrivateOrLocalV4 bits
  | .v6 bits =>
    -- An IPv4-mapped address describes the same IPv4 host.
    match toIpv4Mapped bits with
    | none => isLoopbackV6 bits || isUniqueLocal bits || isUnicastLinkLocal bits
    | some bits => isPrivateOrLocalV4 bits

/-! ## Classification -/

/-- The source's `TransportAddr`. -/
inductive TransportAddr
  | ip (address : SocketAddr)
  /-- A relay, or any other transport. -/
  | other (address : String)
  deriving DecidableEq, Repr

/-- What the code asks of an `iroh::endpoint::Path`. -/
structure Path where
  isSelected : Bool
  isRelay : Bool
  remoteAddr : TransportAddr
  /-- The round-trip time in nanoseconds. -/
  rtt : Nat
  deriving DecidableEq, Repr

/-- The source's `ConnectionDetails`. -/
structure ConnectionDetails where
  path : ConnectionPath
  rttMs : UInt64
  deriving DecidableEq, Repr

/-- The source's `direct_path`. -/
def directPath : TransportAddr → ConnectionPath
  | .ip address => if isPrivateOrLocal address.ip then .lanDirect else .wanDirect
  | .other _ => .unknown

/-- The source's `duration_millis`. -/
def durationMillis (duration : Nat) : UInt64 :=
  let millis := duration / 1000000
  if millis < 2 ^ 64 then UInt64.ofNat millis else UInt64.ofNat (2 ^ 64 - 1)

/-- The source's `classify_connection`. -/
def classifyConnection (paths : List Path) : ConnectionDetails :=
  match paths.find? (·.isSelected) with
  | none => { path := .unknown, rttMs := 0 }
  | some selected =>
    { path := if selected.isRelay then .relayed else directPath selected.remoteAddr
      rttMs := durationMillis selected.rtt }

/-! ## Settling -/

/-- The loop of `settle` from the look `look` on, with `left` looks after it; `classify look` is
what the closure answers there. -/
def settleFrom (classify : Nat → ConnectionDetails) (look : Nat) : Nat → ConnectionDetails
  | 0 => classify look
  | left + 1 =>
    if (classify look).path ≠ .unknown then classify look
    else settleFrom classify (look + 1) left

/-- The source's `settle`. -/
def settle (classify : Nat → ConnectionDetails) : ConnectionDetails := settleFrom classify 0 10

/-- The source's `settled_connection_details`, over the paths each look finds. -/
def settledConnectionDetails (looks : Nat → List Path) : ConnectionDetails :=
  settle fun look => classifyConnection (looks look)

/-- What the server answers to `GetConnectionPath`. -/
def answerConnectionPath (looks : Nat → List Path) : Wire.ConnectionDetails :=
  let details := settledConnectionDetails looks
  connectionDetails details.path details.rttMs

/-! ## Observed addresses -/

/-- The address of an IP path. -/
def Path.ipAddress? (path : Path) : Option SocketAddr :=
  match path.remoteAddr with
  | .ip address => some address
  | .other _ => none

namespace SocketAddr

/-- The order of `SocketAddr`: IPv4 first, then by address, port, flow information and scope. -/
def key (address : SocketAddr) : Nat ×ₗ Nat ×ₗ Nat ×ₗ Nat ×ₗ Nat :=
  match address.ip with
  | .v4 bits => toLex (0, toLex (bits.toNat, toLex (address.port.toNat,
      toLex (address.flowinfo.toNat, address.scopeId.toNat))))
  | .v6 bits => toLex (1, toLex (bits.toNat, toLex (address.port.toNat,
      toLex (address.flowinfo.toNat, address.scopeId.toNat))))

theorem key_injective : Function.Injective key := by
  intro a b h
  obtain ⟨aip, aport, aflowinfo, ascopeId⟩ := a
  obtain ⟨bip, bport, bflowinfo, bscopeId⟩ := b
  cases aip <;> cases bip <;>
    simp only [key, EmbeddingLike.apply_eq_iff_eq, Prod.mk.injEq, UInt16.toNat_inj,
      UInt32.toNat_inj, BitVec.toNat_inj, zero_ne_one, one_ne_zero, false_and, true_and] at h
  all_goals
    obtain ⟨rfl, rfl, rfl, rfl⟩ := h
    rfl

instance : LinearOrder SocketAddr := LinearOrder.lift' key key_injective

end SocketAddr

/-- The source's `observed_direct_addresses`. -/
def observedDirectAddresses (paths : List Path) : List SocketAddr :=
  Distinct.canonical (paths.filterMap Path.ipAddress?)

/-! ## The mapped form of an address -/

/-- The IPv6 address that stands for an IPv4 address. -/
def mappedV6 (bits : BitVec 32) : BitVec 128 := 0xffff#96 ++ bits

/-- The path with its IPv4 address written as an IPv6 address. -/
def Path.mapped (path : Path) : Path :=
  match path.remoteAddr with
  | .ip address =>
    match address.ip with
    | .v4 bits => { path with remoteAddr := .ip { address with ip := .v6 (mappedV6 bits) } }
    | .v6 _ => path
  | .other _ => path

theorem toIpv4Mapped_mappedV6 (bits : BitVec 32) : toIpv4Mapped (mappedV6 bits) = some bits := by
  have hnat : (mappedV6 bits).toNat = 0xffff * 2 ^ 32 + bits.toNat := by
    rw [mappedV6, BitVec.toNat_append, ← Nat.shiftLeft_add_eq_or_of_lt bits.isLt, Nat.shiftLeft_eq]
    rfl
  have hin : inNetwork (mappedV6 bits) 0xffff00000000 96 := by
    have hlt := bits.isLt
    have hnetwork : (0xffff00000000 : BitVec 128).toNat = 0xffff * 2 ^ 32 := rfl
    simp only [inNetwork, hnat, hnetwork, decide_eq_true_eq]
    omega
  have hwidth : (mappedV6 bits).setWidth 32 = bits := BitVec.setWidth_append_eq_right
  rw [toIpv4Mapped, if_pos hin, hwidth]

/-- An address and its mapped form are local together. -/
theorem isPrivateOrLocal_mappedV6 (bits : BitVec 32) :
    isPrivateOrLocal (.v6 (mappedV6 bits)) = isPrivateOrLocal (.v4 bits) := by
  simp only [isPrivateOrLocal, toIpv4Mapped_mappedV6]

namespace Path

@[simp] theorem isSelected_mapped (path : Path) : path.mapped.isSelected = path.isSelected := by
  unfold mapped
  split <;> try split
  all_goals rfl

@[simp] theorem isRelay_mapped (path : Path) : path.mapped.isRelay = path.isRelay := by
  unfold mapped
  split <;> try split
  all_goals rfl

@[simp] theorem rtt_mapped (path : Path) : path.mapped.rtt = path.rtt := by
  unfold mapped
  split <;> try split
  all_goals rfl

@[simp] theorem directPath_mapped (path : Path) :
    directPath path.mapped.remoteAddr = directPath path.remoteAddr := by
  unfold mapped
  split
  · next address haddress =>
    split
    · next bits hip => simp only [haddress, directPath, hip, isPrivateOrLocal_mappedV6]
    · rfl
  · rfl

end Path

/-- How IPv4 addresses are written does not matter. -/
theorem classifyConnection_mapped (paths : List Path) :
    classifyConnection (paths.map Path.mapped) = classifyConnection paths := by
  have hselected : (Path.isSelected ∘ Path.mapped) = Path.isSelected :=
    funext Path.isSelected_mapped
  unfold classifyConnection
  rw [List.find?_map, hselected]
  cases paths.find? Path.isSelected with
  | none => rfl
  | some selected => simp

/-! ## What the looks find -/

/-- The loop answers with the first look that knows the path, or with the last one. -/
theorem exists_look_settleFrom (classify : Nat → ConnectionDetails) (look left : Nat) :
    ∃ k ≤ left, settleFrom classify look left = classify (look + k) ∧
      (∀ j < k, (classify (look + j)).path = .unknown) ∧
      (k < left → (classify (look + k)).path ≠ .unknown) := by
  induction left generalizing look with
  | zero => exact ⟨0, le_rfl, rfl, by simp, by simp⟩
  | succ left ih =>
    by_cases hknown : (classify look).path ≠ .unknown
    · refine ⟨0, Nat.zero_le _, ?_, by simp, fun _ => hknown⟩
      rw [settleFrom, if_pos hknown, Nat.add_zero]
    · obtain ⟨k, hk, hsettle, hbefore, hlast⟩ := ih (look + 1)
      have hshift : ∀ j, look + 1 + j = look + (j + 1) := by omega
      refine ⟨k + 1, by omega, ?_, ?_, fun h => hshift k ▸ hlast (by omega)⟩
      · rw [settleFrom, if_neg hknown, hsettle, hshift]
      · intro j hj
        cases j with
        | zero => exact of_not_not hknown
        | succ j => exact hshift j ▸ hbefore j (by omega)

/-- The selected path is no relay and reaches an address of the machine's own networks. -/
def Path.IsLan (path : Path) : Prop :=
  path.isRelay = false ∧ ∃ address, path.remoteAddr = .ip address ∧ isPrivateOrLocal address.ip

/-- The selected path is no relay and reaches another IP address. -/
def Path.IsWan (path : Path) : Prop :=
  path.isRelay = false ∧
    ∃ address, path.remoteAddr = .ip address ∧ isPrivateOrLocal address.ip = false

/-- The name a look gives to a connection, read off its selected path. -/
def Named (selected : Option Path) : ConnectionPath → Prop
  | .lanDirect => ∃ path ∈ selected, path.IsLan
  | .wanDirect => ∃ path ∈ selected, path.IsWan
  | .relayed => ∃ path ∈ selected, path.isRelay = true
  | .unknown => ∀ path ∈ selected, path.isRelay = false ∧ path.ipAddress? = none

/-- A name stands for one kind of selected path only. -/
theorem classifyConnection_path_iff (paths : List Path) (name : ConnectionPath) :
    (classifyConnection paths).path = name ↔ Named (paths.find? (·.isSelected)) name := by
  unfold classifyConnection
  cases paths.find? (·.isSelected) with
  | none => cases name <;> simp [Named]
  | some path =>
    obtain ⟨isSelected, isRelay, remoteAddr, rtt⟩ := path
    cases isRelay with
    | true => cases name <;> simp [Named, Path.IsLan, Path.IsWan]
    | false =>
      cases remoteAddr with
      | other => cases name <;> simp [Named, Path.IsLan, Path.IsWan, directPath, Path.ipAddress?]
      | ip address =>
        cases hlocal : isPrivateOrLocal address.ip <;> cases name <;>
          simp [Named, Path.IsLan, Path.IsWan, directPath, Path.ipAddress?, hlocal]

/-! ## What is observed -/

@[simp] theorem mem_observedDirectAddresses {paths : List Path} {address : SocketAddr} :
    address ∈ observedDirectAddresses paths ↔ ∃ path ∈ paths, path.remoteAddr = .ip address := by
  have hip : ∀ path : Path, path.ipAddress? = some address ↔ path.remoteAddr = .ip address := by
    intro path
    unfold Path.ipAddress?
    cases path.remoteAddr <;> simp
  simp only [observedDirectAddresses, Distinct.mem_canonical, List.mem_filterMap, hip]

/-- Connections over the same IP addresses observe the same. -/
theorem observedDirectAddresses_congr {paths paths' : List Path}
    (h : ∀ address, (∃ path ∈ paths, path.remoteAddr = .ip address) ↔
      ∃ path ∈ paths', path.remoteAddr = .ip address) :
    observedDirectAddresses paths = observedDirectAddresses paths' := by
  refine Distinct.canonical_congr fun address => ?_
  have hmem : address ∈ observedDirectAddresses paths ↔
      address ∈ observedDirectAddresses paths' :=
    mem_observedDirectAddresses.trans ((h address).trans mem_observedDirectAddresses.symm)
  rwa [observedDirectAddresses, observedDirectAddresses, Distinct.mem_canonical,
    Distinct.mem_canonical] at hmem

end Rackio
