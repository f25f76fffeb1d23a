/-
# Hive.Candidate — which addresses a record may name

`candidate.rs`: the classes of addresses of the standard library, the one canonical spelling of a
socket, and the check every candidate passes when it is built, by the device that signs it and
again by the peer that reads it.

* `EndpointCandidate.new`, `Built.valid` — the constructor and what it leaves to know.
* `SocketAddr.bare`, `Built.new_bare` — an address without its flow label and scope, and that the
  check does not depend on them.
-/
import Supgang.Hive.Record

namespace Supgang.Record

set_option autoImplicit false

open Theory

/-- A reason an endpoint candidate was rejected. -/
inductive CandidateError where
  | unknownKind
  | unknownTransport
  | zeroPort
  | unspecified
  | multicastOrBroadcast
  | localScopeMismatch
  | nonGlobalScope
  | globalMarkedLocal
deriving DecidableEq, Repr

def CandidateKind.tryFrom (value : UInt8) : Except CandidateError CandidateKind :=
  if value = 0 then .ok .local_
  else if value = 1 then .ok .direct
  else if value = 2 then .ok .reflexive
  else if value = 3 then .ok .mapped
  else if value = 4 then .ok .ownedRelay
  else .error .unknownKind

def CandidateTransport.tryFrom (value : UInt8) : Except CandidateError CandidateTransport :=
  if value = 0 then .ok .quicV1 else .error .unknownTransport

@[simp] theorem CandidateKind.tryFrom_toU8 (kind : CandidateKind) :
    CandidateKind.tryFrom kind.toU8 = .ok kind := by
  cases kind <;> rfl

@[simp] theorem CandidateTransport.tryFrom_toU8 (transport : CandidateTransport) :
    CandidateTransport.tryFrom transport.toU8 = .ok transport := by
  cases transport
  rfl

/-! ## Classes of addresses -/

/-- An address of the standard library. -/
inductive IpAddr where
  | v4 (octets : FixedBytes 4)
  | v6 (octets : FixedBytes 16)
deriving DecidableEq, Repr

namespace IpAddr

def isUnspecified : IpAddr → Bool
  | v4 octets => octets.1.all (· == 0)
  | v6 octets => octets.1.all (· == 0)

def isMulticast : IpAddr → Bool
  | v4 octets => octets.1.headD 0 &&& 0xf0 == 0xe0
  | v6 octets => octets.1.headD 0 == 0xff

def isLoopback : IpAddr → Bool
  | v4 octets => octets.1.headD 0 == 127
  | v6 octets => octets.1 == List.replicate 15 0 ++ [1]

def isBroadcast : IpAddr → Bool
  | v4 octets => octets.1.all (· == 255)
  | v6 _ => false

def isLinkLocal : IpAddr → Bool
  | v4 octets => [169, 254].isPrefixOf octets.1
  | v6 octets =>
    match octets.1 with
    | first :: second :: _ => first == 0xfe && second &&& 0xc0 == 0x80
    | _ => false

/-- `Ipv4Addr::is_private`. -/
def isPrivate (octets : Bytes) : Bool :=
  match octets with
  | first :: second :: _ =>
    first == 10 || (first == 172 && 16 ≤ second && second ≤ 31) || (first == 192 && second == 168)
  | _ => false

/-- `Ipv4Addr::is_documentation`. -/
def isDocumentation (octets : Bytes) : Bool :=
  [192, 0, 2].isPrefixOf octets || [198, 51, 100].isPrefixOf octets ||
    [203, 0, 113].isPrefixOf octets

def isMulticastOrBroadcast (ip : IpAddr) : Bool := ip.isMulticast || ip.isBroadcast

def isLocalScope (ip : IpAddr) : Bool := ip.isLoopback || ip.isLinkLocal

def isGloballyRoutable (ip : IpAddr) : Bool :=
  match ip with
  | v4 octets =>
    match octets.1 with
    | [first, second, third, _] =>
      let shared := first == 100 && 64 ≤ second && second ≤ 127
      let protocolAssignment := first == 192 && second == 0 && third == 0
      let deprecatedRelay := first == 192 && second == 88 && third == 99
      let benchmarking := first == 198 && (second == 18 || second == 19)
      first != 0 && first < 224 && !isPrivate octets.1 && !ip.isLoopback && !ip.isLinkLocal &&
        !isDocumentation octets.1 && !shared && !protocolAssignment && !deprecatedRelay &&
        !benchmarking
    | _ => false
  | v6 octets =>
    match octets.1 with
    | first :: second :: third :: fourth :: _ =>
      let globalUnicast := first &&& 0xe0 == 0x20
      let documentation := first == 0x20 && second == 0x01 && third == 0x0d && fourth == 0xb8
      globalUnicast && !documentation
    | _ => false

end IpAddr

/-! ## Candidates -/

namespace SocketAddr

def ip : SocketAddr → IpAddr
  | v4 octets _ => .v4 octets
  | v6 octets _ _ _ => .v6 octets

/-- `SocketAddr::new`: no flow label and no scope. -/
def new : IpAddr → UInt16 → SocketAddr
  | .v4 octets, port => .v4 octets port
  | .v6 octets, port => .v6 octets port 0 0

/-- The IPv4 address an IPv4-mapped IPv6 address carries. -/
def toIpv4Mapped (octets : FixedBytes 16) : Option (FixedBytes 4) :=
  if (List.replicate 10 (0 : UInt8) ++ [0xff, 0xff]).isPrefixOf octets.1 then
    some ⟨octets.1.drop 12, by rw [List.length_drop, octets.2]⟩
  else none

/-- Converts IPv4-mapped IPv6 sockets to the one canonical IPv4 form. -/
def canonicalSocketAddress (address : SocketAddr) : SocketAddr :=
  match address with
  | v6 octets port _ _ =>
    match toIpv4Mapped octets with
    | some ipv4 => new (.v4 ipv4) port
    | none => address
  | v4 _ _ => address

/-- The address as it travels: neither flow label nor scope. -/
def bare (address : SocketAddr) : SocketAddr := new address.ip address.port

@[simp] theorem bare_ip (address : SocketAddr) : address.bare.ip = address.ip := by
  cases address <;> rfl

@[simp] theorem bare_port (address : SocketAddr) : address.bare.port = address.port := by
  cases address <;> rfl

@[simp] theorem bare_octets (address : SocketAddr) : address.bare.octets = address.octets := by
  cases address <;> rfl

/-- The address carries neither flow label nor scope. -/
def Unscoped : SocketAddr → Prop
  | v4 _ _ => True
  | v6 _ _ flowinfo scopeId => flowinfo = 0 ∧ scopeId = 0

theorem bare_eq_self {address : SocketAddr} : address.bare = address ↔ address.Unscoped := by
  cases address with
  | v4 octets port => exact ⟨fun _ => trivial, fun _ => rfl⟩
  | v6 octets port flowinfo scopeId =>
    simp only [bare, new, ip, SocketAddr.port, v6.injEq, true_and, Unscoped, eq_comm]

theorem canonical_bare {address : SocketAddr}
    (canonical : address.canonicalSocketAddress = address) :
    address.bare.canonicalSocketAddress = address.bare := by
  cases address with
  | v4 octets port => rfl
  | v6 octets port flowinfo scopeId =>
    unfold canonicalSocketAddress at canonical
    unfold bare ip new canonicalSocketAddress
    cases mapped : toIpv4Mapped octets with
    | none => simp only [mapped]
    | some ipv4 =>
      simp only [mapped] at canonical
      cases canonical

theorem canonical_idem (address : SocketAddr) :
    address.canonicalSocketAddress.canonicalSocketAddress = address.canonicalSocketAddress := by
  cases address with
  | v4 octets port => rfl
  | v6 octets port flowinfo scopeId =>
    cases mapped : toIpv4Mapped octets with
    | none => simp only [canonicalSocketAddress, mapped]
    | some ipv4 => simp only [canonicalSocketAddress, mapped, new]

end SocketAddr

def validateAddress (kind : CandidateKind) (address : SocketAddr) :
    Except CandidateError Unit := do
  reject (address.port = 0) CandidateError.zeroPort
  let ip := address.ip
  reject ip.isUnspecified CandidateError.unspecified
  reject ip.isMulticastOrBroadcast CandidateError.multicastOrBroadcast
  reject (ip.isLocalScope ∧ kind ≠ .local_) CandidateError.localScopeMismatch
  reject (kind = .local_ ∧ ip.isGloballyRoutable) CandidateError.globalMarkedLocal
  reject (kind ≠ .local_ ∧ ¬ip.isGloballyRoutable) CandidateError.nonGlobalScope

namespace EndpointCandidate

/-- Validates and constructs a candidate. -/
def new (kind : CandidateKind) (transport : CandidateTransport) (address : SocketAddr) :
    Except CandidateError EndpointCandidate := do
  let address := address.canonicalSocketAddress
  validateAddress kind address
  return { kind, transport, address }

/-- The candidate came from the constructor. -/
def Built (candidate : EndpointCandidate) : Prop :=
  ∃ kind transport address, new kind transport address = .ok candidate

/-- The candidate as it travels. -/
def bare (candidate : EndpointCandidate) : EndpointCandidate :=
  { candidate with address := candidate.address.bare }

variable {candidate : EndpointCandidate}

theorem Built.valid (built : candidate.Built) :
    candidate.address.canonicalSocketAddress = candidate.address ∧
      validateAddress candidate.kind candidate.address = .ok () := by
  obtain ⟨kind, transport, address, built⟩ := built
  obtain ⟨_, valid, made⟩ := bind_eq_ok.mp built
  obtain rfl := pure_eq_ok.mp made
  exact ⟨address.canonical_idem, valid⟩

theorem validateAddress_bare (kind : CandidateKind) (address : SocketAddr) :
    validateAddress kind address.bare = validateAddress kind address := by
  unfold validateAddress
  rw [SocketAddr.bare_port, SocketAddr.bare_ip]

/-- Flow label and scope decide nothing. -/
theorem new_bare (kind : CandidateKind) (transport : CandidateTransport) (address : SocketAddr) :
    new kind transport address.bare = (new kind transport address).map bare := by
  have hcanonical : address.bare.canonicalSocketAddress = address.canonicalSocketAddress.bare := by
    cases address with
    | v4 octets port => rfl
    | v6 octets port flowinfo scopeId =>
      simp only [SocketAddr.bare, SocketAddr.ip, SocketAddr.new, SocketAddr.port,
        SocketAddr.canonicalSocketAddress]
      cases SocketAddr.toIpv4Mapped octets <;> rfl
  simp only [new, hcanonical, validateAddress_bare]
  cases validateAddress kind address.canonicalSocketAddress <;> rfl

/-- A peer that builds the candidate from what travels gets it without flow label and scope. -/
theorem Built.new_bare (built : candidate.Built) :
    new candidate.kind candidate.transport candidate.address.bare = .ok candidate.bare := by
  obtain ⟨canonical, valid⟩ := built.valid
  simp only [new, SocketAddr.canonical_bare canonical, validateAddress_bare, valid, ok_bind]
  rfl

end EndpointCandidate

end Supgang.Record
