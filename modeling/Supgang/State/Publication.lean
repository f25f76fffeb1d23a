/-
# State.Publication — what a device signs and what its peers read

A device builds its record from its own claims and signs it; a peer reads the record from its
encoding and checks it against the membership and the root. The two agree on everything a record
says, with one exception: the flow label and the scope of an IPv6 socket are signed with the record
in memory and are not encoded.

* `signEndpointRecord_returns` — the record that is returned and the checks it passed.
* `signed_record_travels_iff` — every device: the record reaches the peers unchanged, and is
  accepted by them, exactly if no claimed address carries a flow label or a scope.
-/
import Supgang.State.Lifetime
import Supgang.Hive.Wire

namespace Supgang.State

set_option autoImplicit false

open Theory List Supgang.Membership Record Journal

section Publication

variable [Sha256] [Ed25519] {device after : Device} {displayName : String}
  {transportKeyId : TransportKeyId} {claims : EndpointClaims} {issuedAt expiresAt : UInt64}
  {signed : SignedEndpointRecord}

/-- What has been checked of a record that is returned. -/
structure Returns (state : LocalState) (displayName : String) (transportKeyId : TransportKeyId)
    (claims : EndpointClaims) (issuedAt expiresAt : UInt64) (signed : SignedEndpointRecord)
    (membership : SignedMembership) (next : UInt64) : Prop where
  local_ : state.localMembership = some membership
  within : expiresAt ≤ membership.certificate.expiresAt
  introducer : ¬(claims.capabilities.contains .introducer = true ∧
    ¬membership.certificate.roles.contains .introducer = true)
  relay : ¬(claims.capabilities.contains .controlRelay = true ∧
    ¬membership.certificate.roles.contains .controlRelay = true)
  signed : SignedEndpointRecord.sign (state.endpointRecord displayName transportKeyId claims
    issuedAt expiresAt next).canonicalizeCandidates state.identity.device = .ok signed

theorem signEndpointRecord_returns
    (run : (signEndpointRecord displayName transportKeyId claims issuedAt expiresAt).run device =
      .ok signed after) :
    ∃ membership next, Returns device.state displayName transportKeyId claims issuedAt expiresAt
      signed membership next := by
  have ends : Ends device
      (signEndpointRecord displayName transportKeyId claims issuedAt expiresAt)
      (fun signed _ => ∃ membership next, Returns device.state displayName transportKeyId claims
        issuedAt expiresAt signed membership next) fun _ => True := by
    refine .get (.ofExcept trivial fun membership found => .reject trivial fun within =>
      .reject trivial fun introducer => .reject trivial fun relay =>
      .ofExcept trivial fun next _ => .ofExcept trivial fun _ _ => ?_)
    refine .seq (P := fun _ _ => True) ?_ fun persisted _ _ => .reject trivial fun _ =>
      .of_ofExcept trivial fun signed made => ?_
    · unfold Ends
      split <;> trivial
    · exact ⟨membership, next, okOr_eq_ok.mp found, not_lt.mp within, introducer, relay,
        mapError_eq_ok.mp made⟩
  exact ends.ok run

/-- The arguments are values of the source's types: a name, candidates and service names come from
their constructors. -/
structure TypedClaims (displayName : String) (claims : EndpointClaims) : Prop where
  named : PeerName.new displayName = .ok displayName
  built : ∀ candidate ∈ claims.candidates, candidate.Built
  services : ∀ service ∈ claims.services, ServiceName.new service.name = .ok service.name

theorem TypedClaims.typed (typed : TypedClaims displayName claims) (state : LocalState)
    (transportKeyId : TransportKeyId) (issuedAt expiresAt next : UInt64) :
    (state.endpointRecord displayName transportKeyId claims issuedAt expiresAt next).Typed := by
  refine ⟨?_, typed.built, typed.services⟩
  rintro name ⟨⟩
  exact typed.named

/-- A record a device has returned verifies for its peers throughout its life. -/
theorem Returns.accepted (correct : Ed25519.Correct) {state : LocalState} (sound : Sound state)
    {membership : SignedMembership} {next now : UInt64}
    (returns : Returns state displayName transportKeyId claims issuedAt expiresAt signed membership
      next) (issued : signed.record.issuedAt ≤ now) (alive : now ≤ signed.record.expiresAt) :
    signed.verifyAuthorized membership state.identity.rootVerifyingKey now = .ok () := by
  obtain ⟨founder, others, certificate, roster⟩ := sound.roster
  obtain rfl : founder = membership :=
    Option.some.inj ((roster.localMembership_eq certificate).symm.trans returns.local_)
  obtain ⟨same, _, _, _, verified⟩ := verify_sign correct returns.signed
  refine verifyAuthorized_of_verify ?_ certificate.verified ?_ ?_ ?_ ?_ ?_ ?_ issued alive
  · rw [certificate.key_eq]
    exact verified
  · rw [certificate.key_eq]
    exact correct.wellFormed _
  · rw [same]
    exact certificate.hive_eq.symm
  · rw [same]
    exact certificate.node_eq.symm
  · rw [same]
    exact returns.within
  · rw [same]
    exact returns.introducer
  · rw [same]
    exact returns.relay

/-- **What a device signs, its peers read and accept, exactly if no address is scoped.** Over every
lifetime of a device and for all claims, the record that is returned encodes, reads back as it is
and is accepted under the local membership throughout its life if and only if none of the claimed
addresses carries a flow label or a scope. -/
theorem signed_record_travels_iff (correct : Ed25519.Correct) {seen : Set Bytes}
    (free : CollisionFree seen) {start : Device} {records : List SignedEndpointRecord}
    (started : Started start) (life : Lifetime seen start records device)
    (typed : TypedClaims displayName claims)
    (run : (signEndpointRecord displayName transportKeyId claims issuedAt expiresAt).run device =
      .ok signed after) :
    (∃ membership bytes, device.state.localMembership = some membership ∧
      encodeSignedEndpointRecord signed = .ok bytes ∧
      decodeSignedEndpointRecord bytes = .ok signed ∧
      ∀ now, signed.record.issuedAt ≤ now → now ≤ signed.record.expiresAt →
        signed.verifyAuthorized membership device.state.identity.rootVerifyingKey now = .ok ()) ↔
      ∀ candidate ∈ claims.candidates, candidate.address.Unscoped := by
  obtain ⟨_, holds⟩ := started.holds correct
  obtain ⟨⟨_, holds⟩, _⟩ := life.invariant correct free holds
  obtain ⟨membership, next, returns⟩ := signEndpointRecord_returns run
  obtain ⟨same, shape, full, ⟨payload, encoded⟩, _⟩ := verify_sign correct returns.signed
  have wire := encodeSigned_of_encode full encoded
  have reads : decodeSignedEndpointRecord (signedEnvelope payload signed.signature) =
      .ok { signed with record := signed.record.bare } := by
    refine decodeSigned_encodeSigned ?_ shape full encoded
    rw [same]
    exact (typed.typed device.state transportKeyId issuedAt expiresAt next).canonicalize.canonicalize
  have members : ∀ candidate, candidate ∈ signed.record.candidates ↔
      candidate ∈ claims.candidates := by
    intro candidate
    rw [same, mem_candidates_canonicalize, mem_candidates_canonicalize]
    rfl
  constructor
  · rintro ⟨_, bytes, _, wired, received, _⟩
    obtain rfl : signedEnvelope payload signed.signature = bytes :=
      Except.ok.inj (wire.symm.trans wired)
    have unchanged : signed.record.bare = signed.record :=
      congrArg SignedEndpointRecord.record (Except.ok.inj (reads.symm.trans received))
    exact fun candidate member => bare_eq_self_iff.mp unchanged candidate
      ((members candidate).mpr member)
  · intro unscoped
    have unchanged : signed.record.bare = signed.record :=
      bare_eq_self_iff.mpr fun candidate member => unscoped candidate ((members candidate).mp member)
    rw [unchanged] at reads
    exact ⟨membership, _, returns.local_, wire, reads, fun now =>
      returns.accepted correct holds.sound⟩

end Publication

/-! ## Scoped and unscoped claims -/

attribute [local instance] countingSha256 acceptingEd25519

/-- A link-local address of one interface. -/
def linkLocal (scopeId : UInt32) : EndpointCandidate where
  kind := .local_
  transport := .quicV1
  address := .v6 ⟨[0xfe, 0x80, 0, 0, 0, 0, 0, 0, 0, 0, 0, 0, 0, 0, 0, 1], rfl⟩ 7777 0 scopeId

/-- What a new hive's founder signs for a minute with these addresses, read back by a peer. -/
def foundAndSign (candidates : List EndpointCandidate) :
    Option (Device × SignedEndpointRecord × Device) :=
  match (initializeState none ⟨FixedBytes.replicate 32 1⟩ ⟨FixedBytes.replicate 32 2⟩ 0).run
      (Tape.start ⟨[], [], none⟩) with
  | .error _ _ => none
  | .ok state tape =>
    match (signEndpointRecord "node" (FixedBytes.replicate 32 3) ⟨candidates, ⟨0⟩, []⟩ 0 60).run
        ⟨state, tape⟩ with
    | .error _ _ => none
    | .ok signed after => some (⟨state, tape⟩, signed, after)

theorem foundAndSign_spec {candidates : List EndpointCandidate} {device after : Device}
    {signed : SignedEndpointRecord} (h : foundAndSign candidates = some (device, signed, after)) :
    Started device ∧ (signEndpointRecord "node" (FixedBytes.replicate 32 3) ⟨candidates, ⟨0⟩, []⟩
      0 60).run device = .ok signed after := by
  unfold foundAndSign at h
  split at h
  · cases h
  · rename_i state tape started
    split at h
    · cases h
    · rename_i run
      cases h
      exact ⟨.initialized started, run⟩

theorem linkLocal_typed (scopes : List UInt32) :
    TypedClaims "node" ⟨scopes.map linkLocal, ⟨0⟩, []⟩ := by
  refine ⟨by decide +kernel, ?_, forall_mem_nil _⟩
  intro candidate member
  obtain ⟨scopeId, _, rfl⟩ := mem_map.mp member
  exact ⟨.local_, .quicV1, (linkLocal scopeId).address, rfl⟩

/-- The same address on two interfaces: the record is signed, and no peer accepts it, because what
they read names one address twice. -/
theorem scoped_record_refused : ∃ device signed after,
    Started device ∧ TypedClaims "node" ⟨[linkLocal 1, linkLocal 2], ⟨0⟩, []⟩ ∧
    (signEndpointRecord "node" (FixedBytes.replicate 32 3) ⟨[linkLocal 1, linkLocal 2], ⟨0⟩, []⟩
      0 60).run device = .ok signed after ∧
    ∃ bytes received, encodeSignedEndpointRecord signed = .ok bytes ∧
      decodeSignedEndpointRecord bytes = .ok received ∧ received ≠ signed ∧
      received.verify device.state.identity.device.verifyingKey = .error .candidatesNotCanonical := by
  have runs : ∃ device signed after, foundAndSign [linkLocal 1, linkLocal 2] =
      some (device, signed, after) := by
    have : (foundAndSign [linkLocal 1, linkLocal 2]).isSome = true := by decide +kernel
    obtain ⟨⟨device, signed, after⟩, h⟩ := Option.isSome_iff_exists.mp this
    exact ⟨device, signed, after, h⟩
  obtain ⟨device, signed, after, found⟩ := runs
  obtain ⟨started, run⟩ := foundAndSign_spec found
  refine ⟨device, signed, after, started, linkLocal_typed [1, 2], run, ?_⟩
  have reads : (foundAndSign [linkLocal 1, linkLocal 2]).all (fun run =>
      match encodeSignedEndpointRecord run.2.1 with
      | .error _ => false
      | .ok bytes =>
        match decodeSignedEndpointRecord bytes with
        | .error _ => false
        | .ok received => received ≠ run.2.1 ∧
            received.verify run.1.state.identity.device.verifyingKey =
              .error .candidatesNotCanonical) = true := by decide +kernel
  rw [found, Option.all_some] at reads
  split at reads
  · cases reads
  · rename_i bytes encoded
    split at reads
    · cases reads
    · rename_i received decoded
      obtain ⟨differ, refused⟩ := of_decide_eq_true reads
      exact ⟨bytes, received, encoded, decoded, differ, refused⟩

theorem signed_record_travels_iff_linkLocal : ∃ device signed after,
    (signEndpointRecord "node" (FixedBytes.replicate 32 3) ⟨[linkLocal 0], ⟨0⟩, []⟩ 0 60).run
      device = .ok signed after ∧
    ∃ bytes, encodeSignedEndpointRecord signed = .ok bytes ∧
      decodeSignedEndpointRecord bytes = .ok signed := by
  have : (foundAndSign [linkLocal 0]).isSome = true := by decide +kernel
  obtain ⟨⟨device, signed, after⟩, found⟩ := Option.isSome_iff_exists.mp this
  obtain ⟨started, run⟩ := foundAndSign_spec found
  have unscoped : ∀ candidate ∈ [linkLocal 0], candidate.address.Unscoped := by
    intro candidate member
    rw [mem_singleton.mp member]
    exact ⟨rfl, rfl⟩
  obtain ⟨_, bytes, _, encoded, decoded, _⟩ := (signed_record_travels_iff acceptingEd25519_correct
    (Set.injOn_empty _) started .start (linkLocal_typed [0]) run).mpr unscoped
  exact ⟨device, signed, after, run, bytes, encoded, decoded⟩

end Supgang.State
