/-
# Threshold.Nonces — no nonce pair signs twice

A participant calls into FROST in two stages: round one runs once a step is locked, and round two
once the nonces of the attempt are durably spent on a package. Its processes log their own calls, so
that what is said here of the log is said of the code.

* `Intact.one_share`, `Intact.source` — the share of an attempt, and the call that returned it.
* `Intact.sign_retry` — a share that left is what every retry returns.
* `nonces_sign_once` — the main result.
-/
import Supgang.Threshold.Custody

namespace Supgang.Threshold

set_option autoImplicit false
set_option linter.unusedSectionVars false

open Theory List

section Machine

variable [Sha256] [Ed25519] [P256] [Frost]

namespace Custodian

variable {packages : Set Package} {machine : Machine} {calls : Calls} {answers : List Answer}

/-- Where round one never returned one pair twice, round two never got one twice. -/
theorem Intact.nonces_nodup (intact : Intact packages machine calls answers)
    (distinct : (calls.draws.map Draw.nonces).Nodup) :
    (calls.uses.map Use.nonces).Nodup := by
  refine pairwise_map.mpr ?_
  have once := pairwise_map.mp intact.once
  refine once.imp_of_mem fun {first second} one two differ same => differ ?_
  have draw := intact.drawn first one
  have draw' := intact.drawn second two
  exact congrArg Draw.id (inj_on_of_nodup_map distinct draw draw' same)

section RoundTrip

variable (roundTrip : SharesRoundTrip)

include roundTrip

/-- The answers for one attempt are the share that its record caches. -/
theorem Intact.one_share (intact : Intact packages machine calls answers) {first second : Answer}
    (one : first ∈ answers) (two : second ∈ answers) (same : first.package.id = second.package.id) :
    (∃ digest, first.package.digest = .ok digest ∧ second.package.digest = .ok digest) ∧
      first.share = second.share := by
  obtain ⟨_, record, here, binds, _, caches⟩ := intact.answered first one
  obtain ⟨bytes, cached, parsed⟩ := caches roundTrip
  obtain ⟨_, record', here', binds', _, caches'⟩ := intact.answered second two
  obtain ⟨bytes', cached', parsed'⟩ := caches' roundTrip
  obtain rfl := intact.kept.eq_of_id here here' (binds.named.trans (same.trans binds'.named.symm))
  obtain ⟨digest, hashed, packaged⟩ := binds.bound
  obtain ⟨digest', hashed', packaged'⟩ := binds'.bound
  obtain rfl := Option.some.inj (packaged.symm.trans packaged')
  obtain rfl := Option.some.inj (cached.symm.trans cached')
  exact ⟨⟨digest, hashed, hashed'⟩, Option.some.inj (parsed.symm.trans parsed')⟩

/-- Each answer is what one call of round two returned, for a package of the same digest. -/
theorem Intact.source (intact : Intact packages machine calls answers) {answer : Answer}
    (member : answer ∈ answers) :
    ∃ use ∈ calls.uses, use.share = some answer.share ∧
      ∃ digest, use.package.digest = .ok digest ∧ answer.package.digest = .ok digest := by
  obtain ⟨_, record, here, binds, _, caches⟩ := intact.answered answer member
  obtain ⟨bytes, cached, parsed⟩ := caches roundTrip
  obtain ⟨share, rfl, use, called, _, gave, digest, hashed, packaged⟩ :=
    intact.sourced record here bytes cached
  obtain ⟨digest', hashed', packaged'⟩ := binds.bound
  obtain rfl := Option.some.inj (packaged.symm.trans packaged')
  rw [roundTrip] at parsed
  exact ⟨use, called, gave.trans parsed, digest, hashed, hashed'⟩

/-- Whatever happened since, a usable session returns the share again, and changes nothing. -/
theorem Intact.sign_retry {session : Session} {now : UInt64}
    (intact : Intact packages (.running session) calls answers) {answer : Answer}
    (member : answer ∈ answers) (usable : session.poisoned = false)
    (time : session.store.state.lastTime ≤ now) {revision : UInt64}
    (room : checkedAdd session.store.state.revision 1 = some revision) :
    (Session.sign answer.package now).run session = .ok answer.share session := by
  have steady := intact.steady session rfl
  obtain ⟨_, record, here, binds, _, caches⟩ := intact.answered answer member
  obtain ⟨bytes, cached, parsed⟩ := caches roundTrip
  obtain ⟨digest, hashed, packaged⟩ := binds.bound
  have valid := binds.valid session rfl steady.keyed
  have durable : session.store.durable.records = session.store.state.records := by
    rw [(steady.clean usable).2]
  rw [Machine.store, durable] at here
  have ready : session.next now = .ok ⟨revision, now, session.store.state.records⟩ := by
    unfold Session.next
    rw [reject_bind, if_neg (by simp [usable, time]), room]
    rfl
  have found : session.record answer.package.id = .ok record := by
    unfold Session.record
    rw [reject_bind, if_neg (by simp [usable]), okOr_eq_ok]
    cases search : session.store.state.records.find? fun record =>
        record.id = answer.package.id with
    | none =>
      have absent := List.find?_eq_none.mp search record here
      simp [binds.named] at absent
    | some other =>
      have named : other.id = answer.package.id := by simpa using List.find?_some search
      exact congrArg some (inj_on_of_nodup_map steady.view
        (mem_of_find?_eq_some search) here (named.trans binds.named.symm))
  simp only [Session.sign, Session.consume, Session.conclude, EStateM.run_bind, EStateM.run_get,
    EStateM.run_pure, ready, found, valid, hashed, run_ofExcept_ok, packaged, cached, parsed,
    okOr_some, run_reject, ne_eq, not_true_eq_false, if_false]

end RoundTrip

end Custodian

/-! ## Packages -/

/-- What the digest of a package is over. -/
def Package.wire (package : Package) (signing : Bytes) : Bytes :=
  Cbor.array 5 ++ (Cbor.unsigned 1 ++ (Cbor.bytes package.id.1 ++
    (Cbor.bytes package.descriptor.1 ++ (Cbor.u64 package.generation ++ Cbor.bytes signing))))

theorem Package.digest_eq_ok {package : Package} {digest : Digest}
    (hashed : package.digest = .ok digest) :
    ∃ signing, Frost.serializePackage package.signing = some signing ∧
      Sha256.digest (package.wire signing) = digest := by
  unfold Package.digest at hashed
  obtain ⟨_, hashed⟩ := reject_bind_eq_ok.mp hashed
  obtain ⟨signing, serialized, hashed⟩ := bind_eq_ok.mp hashed
  exact ⟨signing, okOr_eq_ok.mp serialized, pure_eq_ok.mp hashed⟩

def readWire : Cbor.Reader Error (SessionId × Digest × UInt64 × Bytes) := do
  array 5
  version
  let id ← fixed 32
  let descriptor ← fixed 32
  let generation ← Cbor.readU64
  let signing ← Cbor.readBytes
  return (id, descriptor, generation, signing)

theorem readWire_run (package : Package) {signing : Bytes} (fits : signing.length < 2 ^ 64) :
    readWire.run (package.wire signing) =
      .ok ((package.id, package.descriptor, package.generation, signing), []) := by
  rw [← append_nil (package.wire signing)]
  simp (disch := omega) only [Package.wire, readWire, append_assoc, array, fixed, Cbor.bind_reads,
    bind_version]
  rfl

/-- Over these packages serialization and hash tell one from another. -/
structure PackagesTell (packages : Set Package) : Prop where
  fits : ∀ package ∈ packages, ∀ bytes ∈ Frost.serializePackage package.signing,
    bytes.length < 2 ^ 64
  serial : ∀ first ∈ packages, ∀ second ∈ packages, ∀ bytes : Bytes,
    Frost.serializePackage first.signing = some bytes →
    Frost.serializePackage second.signing = some bytes → first.signing = second.signing
  free : CollisionFree { bytes | ∃ package ∈ packages, ∃ signing,
    Frost.serializePackage package.signing = some signing ∧ package.wire signing = bytes }

theorem PackagesTell.digest_inj {packages : Set Package} (tell : PackagesTell packages)
    {first second : Package} (one : first ∈ packages) (two : second ∈ packages) {digest : Digest}
    (hashed : first.digest = .ok digest) (hashed' : second.digest = .ok digest) :
    first = second := by
  obtain ⟨signing, serialized, hash⟩ := Package.digest_eq_ok hashed
  obtain ⟨signing', serialized', hash'⟩ := Package.digest_eq_ok hashed'
  have wires : first.wire signing = second.wire signing' :=
    tell.free ⟨first, one, signing, serialized, rfl⟩ ⟨second, two, signing', serialized', rfl⟩
      (hash.trans hash'.symm)
  have read := readWire_run first (tell.fits first one signing serialized)
  rw [wires, readWire_run second (tell.fits second two signing' serialized')] at read
  simp only [Except.ok.injEq, Prod.mk.injEq, and_true] at read
  obtain ⟨id, descriptor, generation, rfl⟩ := read
  have same := tell.serial first one second two _ serialized serialized'
  cases first
  cases second
  simp only at id descriptor generation same
  rw [id, descriptor, generation, same]

/-! ## A run -/

/-- **No nonce is used twice.** Over every run, with any packages, failing writes and restarts:
each attempt draws its nonces once and signs with them at most once, so no pair is signed with
twice; round two is called only over a durable record that is permanent with the digest of the
package; every share returned is what one call of round two returned for that package; the shares
returned for an attempt are one share for one package; and a retry returns it. -/
theorem nonces_sign_once (binding : Binding) (fates : List Fate) (calls : List Call)
    (roundTrip : SharesRoundTrip)
    (tell : PackagesTell { package | ∃ now, Call.sign package now ∈ calls }) :
    let custodian := (Custodian.start binding fates).run calls
    ((custodian.calls.draws.map Draw.id).Nodup ∧
      (custodian.calls.uses.map fun use => use.package.id).Nodup ∧
      (∀ use ∈ custodian.calls.uses, ⟨use.package.id, use.nonces⟩ ∈ custodian.calls.draws) ∧
      ((custodian.calls.draws.map Draw.nonces).Nodup →
        (custodian.calls.uses.map Use.nonces).Nodup)) ∧
    (∀ answer ∈ custodian.answers, ∃ use ∈ custodian.calls.uses,
      use.package = answer.package ∧ use.share = some answer.share) ∧
    (∀ first ∈ custodian.answers, ∀ second ∈ custodian.answers,
      first.package.id = second.package.id →
        first.package = second.package ∧ first.share = second.share) ∧
    (∀ answer ∈ custodian.answers, ∀ session now revision,
      custodian.machine = .running session → session.poisoned = false →
      session.store.state.lastTime ≤ now →
      checkedAdd session.store.state.revision 1 = some revision →
        (Session.sign answer.package now).run session = .ok answer.share session) ∧
    (∀ use ∈ custodian.calls.uses, ∃ record ∈ use.durable.records,
      record.id = use.package.id ∧ record.permanent = true ∧
        ∃ digest, use.package.digest = .ok digest ∧ record.packageDigest = some digest) := by
  have intact : ((Custodian.start binding fates).run calls).Sound
      { package | ∃ now, Call.sign package now ∈ calls } :=
    (Custodian.start_sound _ binding fates).run fun _ now member => ⟨now, member⟩
  refine ⟨⟨intact.fresh, intact.once, intact.drawn, intact.nonces_nodup⟩, ?_, ?_, ?_,
    fun use member => (intact.locked use member).2⟩
  · intro answer member
    obtain ⟨use, called, gave, digest, hashed, hashed'⟩ := intact.source roundTrip member
    have asked := (intact.locked use called).1
    have asked' := (intact.answered answer member).1
    exact ⟨use, called, tell.digest_inj asked asked' hashed hashed', gave⟩
  · intro first one second two same
    obtain ⟨⟨digest, hashed, hashed'⟩, share⟩ := intact.one_share roundTrip one two same
    have asked := (intact.answered first one).1
    have asked' := (intact.answered second two).1
    exact ⟨tell.digest_inj asked asked' hashed hashed', share⟩
  · intro answer member session now revision running usable time room
    rw [Custodian.Sound, running] at intact
    exact intact.sign_retry roundTrip member usable time room

end Machine

/-! ## A member of a pair that loses a write, signs and is asked again -/

attribute [local instance] proposerSha256 nonemptyEd25519 anyP256 unitFrost

/-- The share of one member of the pair. -/
def pairKey (participant : UInt16) : Frost.KeyPackage where
  identifier := participant
  signingShare := ()
  verifyingShare := FixedBytes.replicate 32 participant.toUInt8
  verifyingKey := FixedBytes.replicate 32 1
  minSigners := 2

def pairPackage : Package where
  id := FixedBytes.replicate 32 9
  descriptor := (pairGroup 1).digest.toOption.getD default
  generation := 0
  signing := {
    signingCommitments := [((1 : UInt16), ()), ((2 : UInt16), ())]
    message := payloadStep.step.message.toOption.getD [] }

def custodyCalls : List Call :=
  let asked := Call.propose (FixedBytes.replicate 32 9) payloadStep.step 0
  let committed := Call.commit (FixedBytes.replicate 32 9) 0
    (ChainPolicy.review ⟨pairStart.offers [firstStep], .root⟩) (fun _ => true) (some default)
  [.restart (pairKey 1), asked, .restart (pairKey 1), asked, committed, .sign pairPackage 1,
    .restart (pairKey 1), .sign pairPackage 2]

theorem custodyCalls_asked {package : Package} {now : UInt64}
    (asked : Call.sign package now ∈ custodyCalls) : package = pairPackage := by
  simp only [custodyCalls, mem_cons, reduceCtorEq, Call.sign.injEq, not_mem_nil,
    false_or, or_false] at asked
  rcases asked with ⟨same, _⟩ | ⟨same, _⟩
  · exact same
  · exact same

theorem custodyCalls_tell :
    PackagesTell { package | ∃ now, Call.sign package now ∈ custodyCalls } := by
  refine ⟨?_, ?_, ?_⟩
  · rintro package _ _ ⟨⟩
    decide
  · rintro first ⟨_, one⟩ second ⟨_, two⟩ _ _ _
    rw [custodyCalls_asked one, custodyCalls_asked two]
  · rintro _ ⟨first, ⟨_, one⟩, _, ⟨⟩, rfl⟩ _ ⟨second, ⟨_, two⟩, _, ⟨⟩, rfl⟩ _
    rw [custodyCalls_asked one, custodyCalls_asked two]

/-- The member has called round two once, and answered twice, the second time after a restart. -/
theorem nonces_sign_once_pair :
    let custodian :=
      (Custodian.start ⟨pairHive, pairGroup 1, 1⟩ [.lost .store false]).run custodyCalls
    custodian.calls.uses.length = 1 ∧ custodian.answers.length = 2 ∧
      (∀ answer ∈ custodian.answers, ∃ use ∈ custodian.calls.uses,
        use.package = answer.package ∧ use.share = some answer.share) ∧
      (custodian.calls.uses.map fun use => use.package.id).Nodup := by
  have once := nonces_sign_once ⟨pairHive, pairGroup 1, 1⟩ [.lost .store false] custodyCalls
    (fun _ => rfl) custodyCalls_tell
  exact ⟨by decide +kernel, by decide +kernel, once.2.1, once.1.2.1⟩

end Supgang.Threshold
