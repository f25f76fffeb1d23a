/-
# Authority.Issuer — an issuer never says two things at one revision

`authority/update.rs` over the file store, with every way an attempt can end: a refused check, a
failed or half-done replacement of the file, a signer that refuses or never answers, a crash that
brings an unsynchronized file back. What counts is what reached the signer, whether or not the
signature came back.

* `Request.apply` — one update, with its environment as an argument.
* `Issued` — what holds of the contents that reached the signer.
* `issuer_never_equivocates` — **safety** over every run of updates, crashes and reopenings.
-/
import Supgang.Authority.Store

namespace Supgang.Authority

set_option autoImplicit false
set_option linter.unusedSectionVars false

open Theory List Record

section Issuer

variable [P256]

/-- One owner-approved authority change, validated before revision reservation. -/
structure AuthorityUpdate where
  /-- Newly possessed certificates; ids may never be reused. -/
  add : List CertifiedKey
  /-- Ids to revoke, including previously omitted ids. -/
  revoke : List CertificateId
  /-- Replace all service claims, or retain the existing claims. -/
  services : Option (List NamedService)
  /-- Advance exactly one epoch, clearing certificates and revocations first. -/
  advanceEpoch : Bool
deriving DecidableEq

/-- One call of `apply`, without the store. -/
structure Request where
  update : AuthorityUpdate
  current : Option AuthorityManifest
  hive : HiveId
  signer : DevicePublicKey
  issuedAt : UInt64
  nextUpdate : UInt64
deriving DecidableEq

/-- Adds an id to a sorted set of revocations. -/
def revokeId (ids : List CertificateId) (id : CertificateId) : List CertificateId :=
  if id ∈ ids then ids else ids.orderedInsert (· ≤ ·) id

/-- The largest revision. -/
def maxRevision : UInt64 := 0xffffffffffffffff

namespace Request

/-- The predecessor whose certificates and revocations an update keeps. -/
def kept (request : Request) : Option AuthorityManifest :=
  if request.update.advanceEpoch then none else request.current

def revocations (request : Request) : List CertificateId :=
  request.update.revoke.foldl revokeId
    ((request.kept.map (·.content.revocations.ids)).getD [])

/-- The predecessor's certificates that are not revoked now. -/
def retained (request : Request) : List CertifiedKey :=
  ((request.kept.map (·.content.certificates)).getD []).filter fun certificate =>
    decide (certificate.claims.id ∉ request.revocations)

def certificates (request : Request) : List CertifiedKey :=
  (request.retained ++ request.update.add).insertionSort fun first second =>
    first.claims.id ≤ second.claims.id

def services (request : Request) : List NamedService :=
  request.update.services.getD ((request.current.map (·.content.services)).getD [])

def oldEpoch (request : Request) : UInt64 := (request.current.map (·.content.epoch)).getD 0

def epoch (request : Request) : Except AuthorityError UInt64 :=
  if request.update.advanceEpoch then okOr (checkedAdd request.oldEpoch 1) .bound
  else .ok request.oldEpoch

def content (request : Request) (epoch revision : UInt64) : AuthorityContent where
  epoch
  revision
  issuedAt := request.issuedAt
  nextUpdate := request.nextUpdate
  certificates := request.certificates
  revocations := ⟨request.revocations⟩
  services := request.services

variable [Sha256] [Ed25519]

/-- A new certificate is proved, of this issuer and epoch, and its id is new to the predecessor. -/
def checkAdded (request : Request) (epoch : UInt64) (certificate : CertifiedKey) :
    Except AuthorityError Unit := do
  certificate.verifyPossession
  reject (¬certificate.claims.Names request.hive (deviceNodeId request.signer) epoch)
    AuthorityError.issuer
  reject ((∃ manifest ∈ request.current, certificate.claims.id ∈ manifest.content.ids) ∨
    certificate.claims.id ∈ request.revocations) AuthorityError.reusedId

/-- The checks of `apply` before the content is put together. -/
def checkUpdate (request : Request) : Except AuthorityError Unit := do
  let update := request.update
  reject (maxCertificates < update.add.length ∨ maxRevocations < update.revoke.length)
    AuthorityError.bound
  reject (update.advanceEpoch = true ∧ update.revoke ≠ []) AuthorityError.invalid
  update.services.forM fun services =>
    (validateServices (services.map (·.1))).mapError AuthorityError.service
  request.current.forM fun manifest => do
    manifest.verify request.hive request.signer
    reject (request.issuedAt < manifest.content.issuedAt) AuthorityError.older

/-- Everything `apply` does before it touches the store. The size is checked for the largest
revision there is, so the real reservation never needs more bytes. -/
def propose (request : Request) : Except AuthorityError AuthorityContent := do
  request.checkUpdate
  let epoch ← request.epoch
  request.update.add.forM (request.checkAdded epoch)
  (request.content epoch 1).validate
  let proposed := request.content epoch maxRevision
  let payload ← contentBytes proposed
  reject (maxManifestBytes < payload.length + 72) AuthorityError.bound
  return proposed

end Request

/-! ## One attempt -/

/-- What the signer does with a payload. -/
inductive SignerFate where
  /-- The process stops before the signer sees the payload. -/
  | stopped
  | refused (error : DeviceKeyError)
  | signed (signature : DeviceSignature)
deriving DecidableEq

/-- How the outside of one attempt behaves. -/
structure Attempt where
  reserve : Fate
  signer : SignerFate
  commit : Fate
deriving DecidableEq

/-- A store and the contents that have reached the signer. -/
structure Desk where
  store : Store
  signed : List AuthorityContent
deriving DecidableEq

abbrev DeskM := EStateM AuthorityError Desk

/-- Runs a program over the store. -/
def onStore {α : Type} (program : StoreM α) : DeskM α := fun desk =>
  match program.run desk.store with
  | .ok value store => .ok value { desk with store }
  | .error error store => .error error { desk with store }

/-- Passes a content to the signer. -/
def signContent (fate : SignerFate) (content : AuthorityContent) : DeskM DeviceSignature := do
  match fate with
  | .stopped => throw .io
  | .refused error => do
      modify fun desk => { desk with signed := desk.signed ++ [content] }
      throw (.key error)
  | .signed signature => do
      modify fun desk => { desk with signed := desk.signed ++ [content] }
      return signature

variable [Sha256] [Ed25519]

/-- Validates, durably reserves a revision, signs and durably commits it. -/
def Request.apply (request : Request) (attempt : Attempt) : DeskM AuthorityManifest := do
  let proposed ← ofExcept request.propose
  let content ← onStore (reserve attempt.reserve request.current proposed)
  let _ ← ofExcept (contentBytes content)
  let signature ← signContent attempt.signer content
  let manifest := { content, signature }
  ofExcept (manifest.verify request.hive request.signer)
  onStore (commit attempt.commit manifest)
  return manifest

/-! ## Runs -/

/-- An issuer's store and everything it has done. -/
structure World where
  desk : Desk
  opened : Bool
  produced : List AuthorityManifest
deriving DecidableEq

inductive Event where
  | open (fate : Fate)
  /-- The process ends and the file is one of those that may survive. -/
  | crash (kept : Nat)
  | apply (request : Request) (attempt : Attempt)
deriving DecidableEq

/-- A store that was never written, bound to this hive and device. -/
def World.start (hive : HiveId) (key : DevicePublicKey) : World where
  desk := ⟨⟨hive, key, ⟨none, []⟩, .empty, true⟩, []⟩
  opened := false
  produced := []

/-- What a crash leaves of the file. -/
def StateFile.crash (file : StateFile) (kept : Nat) : StateFile :=
  ⟨(file.survivors[kept]?).getD file.current, []⟩

def World.step (world : World) : Event → World
  | .open fate =>
    match (onStore (openStore fate)).run world.desk with
    | .ok _ desk => { world with desk, opened := true }
    | .error _ desk => { world with desk, opened := false }
  | .crash kept =>
    { world with
      desk := { world.desk with
        store := { world.desk.store with file := world.desk.store.file.crash kept } }
      opened := false }
  | .apply request attempt =>
    if world.opened then
      match (request.apply attempt).run world.desk with
      | .ok manifest desk => { world with desk, produced := world.produced ++ [manifest] }
      | .error _ desk => { world with desk }
    else world

def World.run (world : World) (events : List Event) : World := events.foldl World.step world

/-! ## What reached the signer -/

/-- What holds of the contents that reached the signer, in order. -/
structure Issued (signed : List AuthorityContent) : Prop where
  valid : ∀ content ∈ signed, content.Valid
  increasing : signed.Pairwise fun earlier later => earlier.watermark < later.watermark
  /-- An id has one certificate. -/
  one : ∀ first ∈ signed, ∀ second ∈ signed, ∀ c ∈ first.certificates, ∀ d ∈ second.certificates,
    c.claims.id = d.claims.id → c = d
  /-- After a revocation an id is certified only as it already was before. -/
  revoked : ∀ before content after, signed = before ++ content :: after → ∀ later ∈ after,
    ∀ certificate ∈ later.certificates, certificate.claims.id ∈ content.revocations.ids →
      ∃ earlier ∈ before, certificate ∈ earlier.certificates

/-- A content that may take the place of an earlier one of the same issuer: in one epoch revocations
stay, and a certificate goes only by being revoked. -/
structure Succeeds (earlier later : AuthorityContent) : Prop where
  newer : earlier.watermark < later.watermark
  not_earlier : earlier.issuedAt ≤ later.issuedAt
  revocations : later.epoch = earlier.epoch →
    ∀ id ∈ earlier.revocations.ids, id ∈ later.revocations.ids
  certificates : later.epoch = earlier.epoch → ∀ certificate ∈ earlier.certificates,
    certificate ∈ later.certificates ∨ certificate.claims.id ∈ later.revocations.ids

theorem Succeeds.epoch_le {earlier later : AuthorityContent} (h : Succeeds earlier later) :
    earlier.epoch ≤ later.epoch := by
  rcases Prod.Lex.lt_iff.mp h.newer with less | ⟨same, -⟩
  · exact le_of_lt less
  · exact le_of_eq same

theorem Succeeds.trans {first second third : AuthorityContent} (h : Succeeds first second)
    (h' : Succeeds second third) : Succeeds first third := by
  have between : third.epoch = first.epoch →
      second.epoch = first.epoch ∧ third.epoch = second.epoch := by
    intro same
    have le := h.epoch_le
    have le' := h'.epoch_le
    rw [same] at le'
    have middle := le_antisymm le' le
    exact ⟨middle, by rw [same, middle]⟩
  refine ⟨h.newer.trans h'.newer, h.not_earlier.trans h'.not_earlier, ?_, ?_⟩
  · intro same id inside
    obtain ⟨low, high⟩ := between same
    exact h'.revocations high id (h.revocations low id inside)
  · intro same certificate inside
    obtain ⟨low, high⟩ := between same
    rcases h.certificates low certificate inside with kept | revoked
    · exact h'.certificates high certificate kept
    · exact .inr (h'.revocations high _ revoked)

/-- A stored state knows of everything that reached the signer, and its committed content is the last
of a chain through everything that was handed out. -/
structure Covers (signed produced : List AuthorityContent) (state : StoreState) : Prop where
  older : ∀ content ∈ signed, content.watermark ≤ state.watermark
  used : ∀ content ∈ signed, ∀ id ∈ content.ids, id ∈ state.used
  lineage : ∃ chain : List AuthorityContent, chain.Pairwise Succeeds ∧
    (∀ content ∈ chain, content ∈ signed) ∧ produced.Sublist chain ∧
    chain.getLast? = state.current.map (·.content)

variable {produced : List AuthorityContent} {content : AuthorityContent} {desk : Desk}
  {hive : HiveId} {key : DevicePublicKey} {world : World}

variable {state : StoreState} {proposed : AuthorityContent}

theorem Covers.current {signed : List AuthorityContent} (covers : Covers signed produced state)
    (manifest : AuthorityManifest) (held : manifest ∈ state.current) :
    manifest.content ∈ signed := by
  obtain ⟨chain, -, within, -, last⟩ := covers.lineage
  rw [Option.mem_def.mp held, Option.map_some] at last
  exact within _ (mem_of_getLast? last)

theorem mem_ids_certificate {certificate : CertifiedKey}
    (inside : certificate ∈ content.certificates) : certificate.claims.id ∈ content.ids :=
  mem_append_left _ (mem_map_of_mem inside)

theorem mem_ids_revoked {id : CertificateId} (inside : id ∈ content.revocations.ids) :
    id ∈ content.ids :=
  mem_append_right _ inside

section Reserving

variable {signed produced : List AuthorityContent} {state state' : StoreState}
  {current : Option AuthorityManifest} {proposed reserved : AuthorityContent}

theorem Covers.forget {content : AuthorityContent}
    (covers : Covers signed (produced ++ [content]) state) : Covers signed produced state := by
  obtain ⟨chain, ordered, within, through, last⟩ := covers.lineage
  exact ⟨covers.older, covers.used, chain, ordered, within,
    (sublist_append_left produced [content]).trans through, last⟩

section Covers

variable (covers : Covers signed produced state)

include covers

theorem Covers.reserves (reserves : Reserves state current proposed reserved state') :
    Covers signed produced state' := by
  refine ⟨?_, ?_, ?_⟩
  · intro content inside
    rw [reserves.watermark_eq]
    exact (covers.older content inside).trans (le_of_lt reserves.newer)
  · intro content inside id member
    exact (reserves.mem_used id).mpr (.inl (covers.used content inside id member))
  · rw [reserves.current_eq]
    exact covers.lineage

theorem Covers.append (reserves : Reserves state current proposed reserved state') :
    Covers (signed ++ [reserved]) produced state' := by
  obtain ⟨older, used, chain, ordered, within, through, last⟩ := covers.reserves reserves
  refine ⟨?_, ?_, chain, ordered, ?_, through, last⟩
  · rw [forall_mem_append, forall_mem_singleton]
    exact ⟨older, le_of_eq reserves.watermark_eq.symm⟩
  · rw [forall_mem_append, forall_mem_singleton]
    exact ⟨used, fun id member => (reserves.mem_used id).mpr (.inr member)⟩
  · intro content inside
    exact mem_append_left _ (within content inside)

theorem Covers.clear : Covers signed produced { state with pending := none } :=
  ⟨covers.older, covers.used, covers.lineage⟩

/-- The committed content extends the chain, whether or not it is handed out. -/
theorem Covers.commit (manifest : AuthorityManifest) (last : manifest.content ∈ signed)
    (succeeds : ∀ old ∈ state.current, Succeeds old.content manifest.content) :
    Covers signed (produced ++ [manifest.content])
      { state with current := some manifest, pending := none } := by
  obtain ⟨chain, ordered, within, through, ending⟩ := covers.lineage
  refine ⟨covers.older, covers.used, chain ++ [manifest.content], ?_, ?_,
    through.append (List.Sublist.refl _), by simp⟩
  · rw [pairwise_append]
    refine ⟨ordered, pairwise_singleton _ _, ?_⟩
    intro content inside next isNext
    rw [mem_singleton.mp isNext]
    rcases eq_nil_or_concat chain with rfl | ⟨front, tip, rfl⟩
    · cases inside
    rw [concat_eq_append, List.getLast?_concat] at ending
    obtain ⟨old, held, tip_eq⟩ := Option.map_eq_some_iff.mp ending.symm
    have tip_succeeds : Succeeds tip manifest.content := tip_eq ▸ succeeds old held
    rw [concat_eq_append] at ordered inside
    rw [mem_append, mem_singleton] at inside
    rcases inside with earlier | rfl
    · exact ((pairwise_append.mp ordered).2.2 content earlier tip (by simp)).trans tip_succeeds
    · exact tip_succeeds
  · rw [forall_mem_append, forall_mem_singleton]
    exact ⟨within, last⟩

omit covers in
/-- A reserved content succeeds the committed one. -/
theorem Reserves.succeeds {hive : HiveId} {key : DevicePublicKey} (stored : state.Stored hive key)
    (reserves : Reserves state current proposed reserved state')
    (kept : ∀ manifest ∈ current, proposed.epoch = manifest.content.epoch →
      ∀ certificate ∈ manifest.content.certificates,
        certificate ∈ proposed.certificates ∨
          certificate.claims.id ∈ proposed.revocations.ids)
    (old : AuthorityManifest) (held : old ∈ state.current) :
    Succeeds old.content reserved := by
  refine ⟨lt_of_le_of_lt (stored.within old held) reserves.newer, reserves.not_earlier old held,
    reserves.extends_revocations old held, ?_⟩
  have same := reserves.predecessor_eq
  rw [Option.mem_def.mp held, Option.map_some] at same
  obtain ⟨given, isGiven, content_eq⟩ := Option.map_eq_some_iff.mp same
  rw [reserves.reserved_eq, ← content_eq]
  exact kept given isGiven

/-- A certificate of a reserved content whose id was ever used is one of a signed content. -/
theorem Covers.retained (reserves : Reserves state current proposed reserved state')
    {certificate : CertifiedKey} (inside : certificate ∈ reserved.certificates)
    {old : AuthorityContent} (known : old ∈ signed) (reused : certificate.claims.id ∈ old.ids) :
    ∃ committed ∈ signed, certificate ∈ committed.certificates := by
  rcases reserves.fresh certificate inside with ⟨manifest, held, listed⟩ | unused
  · exact ⟨manifest.content, covers.current manifest held, listed⟩
  · exact absurd (covers.used old known _ reused) unused

end Covers

theorem distinct_eq {certificates : List CertifiedKey} (distinct : DistinctIds certificates)
    {c d : CertifiedKey} (inside : c ∈ certificates) (inside' : d ∈ certificates)
    (same : c.claims.id = d.claims.id) : c = d := by
  have nodup : (certificates.map (·.claims.id)).Nodup := pairwise_map.mpr distinct
  exact inj_on_of_nodup_map nodup inside inside' same

theorem Issued.append (issued : Issued signed) (covers : Covers signed produced state)
    (reserves : Reserves state current proposed reserved state') :
    Issued (signed ++ [reserved]) := by
  have retained := fun {certificate : CertifiedKey} (inside : certificate ∈ reserved.certificates)
    {old : AuthorityContent} (known : old ∈ signed) => covers.retained reserves inside known
  refine ⟨?_, ?_, ?_, ?_⟩
  · rw [forall_mem_append, forall_mem_singleton]
    exact ⟨issued.valid, reserves.valid⟩
  · rw [pairwise_append]
    refine ⟨issued.increasing, pairwise_singleton _ _, ?_⟩
    intro content inside last isLast
    rw [mem_singleton.mp isLast]
    exact lt_of_le_of_lt (covers.older content inside) reserves.newer
  · -- An old id of the new content is the committed certificate, and ids were unique before.
    have across : ∀ old ∈ signed, ∀ c ∈ old.certificates, ∀ d ∈ reserved.certificates,
        c.claims.id = d.claims.id → c = d := by
      intro old known c listed d inside same
      obtain ⟨committed, known', listed'⟩ :=
        retained inside known (same ▸ mem_ids_certificate listed)
      exact issued.one old known committed known' c listed d listed' same
    intro first inFirst second inSecond c inC d inD same
    rw [mem_append, mem_singleton] at inFirst inSecond
    rcases inFirst with old | rfl <;> rcases inSecond with old' | rfl
    · exact issued.one first old second old' c inC d inD same
    · exact across first old c inC d inD same
    · exact (across second old' d inD c inC same.symm).symm
    · exact distinct_eq reserves.valid.distinct inC inD same
  · intro before content after split later inLater certificate listed revoked
    rcases eq_nil_or_concat after with rfl | ⟨rest, last, rfl⟩
    · cases inLater
    rw [concat_eq_append, ← cons_append, ← append_assoc] at split
    obtain ⟨signed_eq, last_eq⟩ := append_inj' split rfl
    cases last_eq
    rw [concat_eq_append, mem_append, mem_singleton] at inLater
    rcases inLater with inRest | rfl
    · exact issued.revoked before content rest signed_eq later inRest certificate listed revoked
    · have known : content ∈ signed := by rw [signed_eq]; simp
      obtain ⟨committed, known', listed'⟩ := retained listed known (mem_ids_revoked revoked)
      rw [signed_eq, mem_append, mem_cons] at known'
      rcases known' with earlier | rfl | between
      · exact ⟨committed, earlier, listed'⟩
      · exact absurd revoked ((issued.valid _ known).unrevoked certificate listed')
      · exact issued.revoked before content rest signed_eq committed between certificate listed'
          revoked

end Reserving

/-! ## One attempt keeps the issuer honest -/

/-- In one epoch an update drops a certificate only by revoking it. -/
theorem propose_keeps {request : Request} (h : request.propose = .ok proposed) :
    ∀ manifest ∈ request.current, proposed.epoch = manifest.content.epoch →
      ∀ certificate ∈ manifest.content.certificates,
        certificate ∈ proposed.certificates ∨ certificate.claims.id ∈ proposed.revocations.ids := by
  simp only [Request.propose, ok_steps] at h
  obtain ⟨_, -, epoch, numbered, _, -, _, -, _, -, _, -, rfl⟩ := h
  intro manifest given same certificate inside
  have old : request.oldEpoch = manifest.content.epoch := by
    rw [Request.oldEpoch, Option.mem_def.mp given]
    rfl
  unfold Request.epoch at numbered
  split at numbered
  · -- A new epoch is not the old one.
    have counted := checkedAdd_eq_some.mp (okOr_eq_ok.mp numbered)
    have one : UInt64.toNat 1 = 1 := rfl
    rw [old, ← same] at counted
    simp only [Request.content] at counted
    omega
  · rename_i stays
    have kept : request.kept = some manifest := by
      rw [Request.kept, if_neg stays]
      exact Option.mem_def.mp given
    by_cases revoked : certificate.claims.id ∈ request.revocations
    · exact .inr revoked
    · left
      show certificate ∈ request.certificates
      rw [Request.certificates, mem_insertionSort, mem_append, Request.retained, kept]
      left
      simpa [inside] using revoked

/-- What holds of the desk between attempts. -/
def Desk.Sound (produced : List AuthorityContent) (desk : Desk) : Prop :=
  Issued desk.signed ∧ desk.store.Holds (Covers desk.signed produced)

theorem onStore_ends {α : Type} {program : StoreM α} {Q : α → Store → Prop} {E : Store → Prop}
    (h : Ends desk.store program Q E) :
    Ends desk (onStore program) (fun value after => Q value after.store ∧ after.signed = desk.signed)
      (fun after => E after.store ∧ after.signed = desk.signed) := by
  have step : (onStore program).run desk = match program.run desk.store with
      | .ok value store => .ok value { desk with store }
      | .error error store => .error error { desk with store } := rfl
  rw [Ends] at h ⊢
  rw [step]
  cases run : program.run desk.store with
  | ok value store =>
    rw [run] at h
    exact ⟨h, rfl⟩
  | error error store =>
    rw [run] at h
    exact ⟨h, rfl⟩

/-- Passing on a content that was just reserved. -/
theorem signContent_ends {current : Option AuthorityManifest} (issued : Issued desk.signed)
    (covers : Covers desk.signed produced state) (settled : desk.store.Settled)
    (reserves : Reserves state current proposed content desk.store.state) (fate : SignerFate) :
    Ends desk (signContent fate content)
      (fun _ after => after.store = desk.store ∧ after.signed = desk.signed ++ [content] ∧
        Issued after.signed ∧ Covers after.signed produced desk.store.state)
      (fun after => after.Sound produced ∧ after.store = desk.store) := by
  have issued' := issued.append covers reserves
  have covers' := covers.append reserves
  cases fate with
  | stopped => exact ⟨⟨issued, settled.holds (covers.reserves reserves)⟩, rfl⟩
  | refused error => exact ⟨⟨issued', settled.holds covers'⟩, rfl⟩
  | signed signature => exact ⟨rfl, rfl, issued', covers'⟩

theorem apply_sound (request : Request) (attempt : Attempt) (sound : desk.Sound produced) :
    Ends desk (request.apply attempt)
      (fun manifest after => after.Sound (produced ++ [manifest.content]) ∧
        desk.store.SameBinding after.store ∧
        manifest.Verified desk.store.hive desk.store.key)
      (fun after => after.Sound produced ∧ desk.store.SameBinding after.store) := by
  obtain ⟨issued, holds⟩ := sound
  refine .ofExcept ⟨⟨issued, holds⟩, rfl, rfl⟩ fun proposed proposing => ?_
  have reserving := onStore_ends (reserve_ends holds attempt.reserve request.current proposed
    fun _ _ covers _ reserves => covers.reserves reserves)
  refine .seq (reserving.mono_error ?_) ?_
  · rintro after ⟨⟨held, same⟩, signed_eq⟩
    rw [Desk.Sound, signed_eq]
    exact ⟨⟨issued, held⟩, same⟩
  rintro content middle ⟨⟨settled, same, covers, stored, reserves⟩, signed_eq⟩
  rw [← signed_eq] at issued covers
  refine .ofExcept ⟨⟨issued, settled.holds (covers.reserves reserves)⟩, same⟩ fun _ _ => ?_
  refine .seq ((signContent_ends issued covers settled reserves attempt.signer).mono_error ?_) ?_
  · rintro after ⟨sound, store_eq⟩
    exact ⟨sound, by rw [store_eq]; exact same⟩
  rintro signature signed ⟨store_eq, log_eq, issued', covers'⟩
  have held : signed.store.Holds (Covers signed.signed produced) := by
    rw [store_eq]
    exact settled.holds covers'
  have last : content ∈ signed.signed := by rw [log_eq]; simp
  have same' : desk.store.SameBinding signed.store := by rw [store_eq]; exact same
  have succeeds : ∀ old ∈ signed.store.state.current, Succeeds old.content content := by
    rw [store_eq, reserves.current_eq]
    exact reserves.succeeds stored (propose_keeps proposing)
  refine .ofExcept ⟨⟨issued', held⟩, same'⟩ fun _ _ => ?_
  have committing := onStore_ends (commit_ends held attempt.commit ⟨content, signature⟩
    (fun _ => by rw [store_eq]; exact ⟨covers'.older content last, covers'.used content last⟩)
    fun covered _ => (covered.commit _ last succeeds).forget)
  refine .seq (committing.mono_error ?_) ?_
  · rintro after ⟨⟨kept, binding⟩, log_eq'⟩
    rw [Desk.Sound, log_eq']
    exact ⟨⟨issued', kept⟩, binding.1.trans same'.1, binding.2.trans same'.2⟩
  · rintro _ after ⟨⟨settled', binding, state_eq, covered, verified⟩, log_eq'⟩
    have done := covered.commit ⟨content, signature⟩ last succeeds
    rw [← state_eq, ← log_eq'] at done
    rw [← log_eq'] at issued'
    rw [same'.1, same'.2] at verified
    exact .pure ⟨⟨issued', settled'.holds done⟩,
      ⟨binding.1.trans same'.1, binding.2.trans same'.2⟩, verified⟩

/-! ## Every run -/

/-- The contents of the manifests handed out. -/
def World.contents (world : World) : List AuthorityContent := world.produced.map (·.content)

/-- What holds of an issuer at every moment: its file, whatever a crash leaves of it, covers what
reached the signer, and so does an open handle. -/
structure World.Sound (hive : HiveId) (key : DevicePublicKey) (world : World) : Prop where
  hive_eq : world.desk.store.hive = hive
  key_eq : world.desk.store.key = key
  issued : Issued world.desk.signed
  survives : ∀ content ∈ world.desk.store.file.survivors,
    Written hive key (Covers world.desk.signed world.contents) content
  opened : world.opened = true → world.desk.Sound world.contents
  verified : ∀ manifest ∈ world.produced, manifest.Verified hive key

theorem start_sound (hive : HiveId) (key : DevicePublicKey) :
    (World.start hive key).Sound hive key := by
  refine ⟨rfl, rfl, ⟨nofun, .nil, nofun, ?_⟩, ?_, nofun, nofun⟩
  · intro before content after split
    simp [World.start] at split
  · rintro content survives
    rcases mem_singleton.mp survives with rfl
    exact ⟨.empty, StoreState.empty_stored hive key,
      ⟨nofun, nofun, [], .nil, nofun, List.Sublist.refl _, rfl⟩, rfl⟩

theorem crash_survivors {file : StateFile} {kept : Nat} {content : Option Bytes}
    (survives : content ∈ (file.crash kept).survivors) : content ∈ file.survivors := by
  rcases mem_singleton.mp survives with rfl
  rw [StateFile.crash]
  cases found : file.survivors[kept]? with
  | none => exact mem_cons_self
  | some content => exact mem_of_getElem? found

theorem open_sound (fate : Fate) (sound : world.Sound hive key) :
    (world.step (.open fate)).Sound hive key := by
  obtain ⟨rfl, rfl, issued, survives, -, verified⟩ := sound
  have opening := onStore_ends (openStore_ends survives (fun _ covers => covers.clear) fate)
  show World.Sound _ _ (match (onStore (openStore fate)).run world.desk with
    | .ok _ desk => { world with desk, opened := true }
    | .error _ desk => { world with desk, opened := false })
  unfold Ends at opening
  split at opening <;> rename_i desk run
  · obtain ⟨⟨holds, binding⟩, signed_eq⟩ := opening
    rw [run]
    rw [← signed_eq] at issued holds
    have survives := holds.survives
    rw [binding.1, binding.2] at survives
    exact ⟨binding.1, binding.2, issued, survives, fun _ => ⟨issued, holds⟩, verified⟩
  · obtain ⟨⟨survives, binding⟩, signed_eq⟩ := opening
    rw [run]
    rw [← signed_eq] at survives issued
    rw [binding.1, binding.2] at survives
    exact ⟨binding.1, binding.2, issued, survives, nofun, verified⟩

theorem apply_keeps (request : Request) (attempt : Attempt) (sound : world.Sound hive key) :
    (world.step (.apply request attempt)).Sound hive key := by
  show World.Sound _ _ (if world.opened then
    match (request.apply attempt).run world.desk with
    | .ok manifest desk => { world with desk, produced := world.produced ++ [manifest] }
    | .error _ desk => { world with desk }
    else world)
  split
  case isFalse => exact sound
  case isTrue isOpen =>
    have applied := apply_sound request attempt (sound.opened isOpen)
    obtain ⟨rfl, rfl, -, -, -, verified⟩ := sound
    unfold Ends at applied
    split at applied <;> rename_i desk run
    · obtain ⟨⟨issued, holds⟩, binding, good⟩ := applied
      rw [run]
      rename_i manifest
      have contents_eq : World.contents
          { world with desk, produced := world.produced ++ [manifest] } =
            world.contents ++ [manifest.content] := map_append
      have survives := holds.survives
      rw [binding.1, binding.2] at survives
      refine ⟨binding.1, binding.2, issued, ?_, fun _ => ?_, ?_⟩
      · rw [contents_eq]
        exact survives
      · rw [contents_eq]
        exact ⟨issued, holds⟩
      · rw [forall_mem_append, forall_mem_singleton]
        exact ⟨verified, good⟩
    · obtain ⟨⟨issued, holds⟩, binding⟩ := applied
      rw [run]
      have survives := holds.survives
      rw [binding.1, binding.2] at survives
      exact ⟨binding.1, binding.2, issued, survives, fun _ => ⟨issued, holds⟩, verified⟩

theorem step_sound (event : Event) (sound : world.Sound hive key) :
    (world.step event).Sound hive key := by
  cases event with
  | «open» fate => exact open_sound fate sound
  | crash kept =>
    exact ⟨sound.hive_eq, sound.key_eq, sound.issued,
      fun content survives => sound.survives content (crash_survivors survives), nofun,
      sound.verified⟩
  | apply request attempt => exact apply_keeps request attempt sound

theorem run_sound (events : List Event) (sound : world.Sound hive key) :
    (world.run events).Sound hive key := by
  induction events generalizing world with
  | nil => exact sound
  | cons event events ih => exact ih (step_sound event sound)

/-- Over every run of updates, crashes and reopenings of one store: contents that reached the signer
strictly increase in (epoch, revision), so no two of them share one; an id has one certificate for
ever, and an id that was revoked is only ever certified again as it already was before. -/
theorem issuer_never_equivocates (hive : HiveId) (key : DevicePublicKey) (events : List Event) :
    let signed := ((World.start hive key).run events).desk.signed
    (signed.Pairwise fun earlier later => earlier.watermark < later.watermark) ∧
    (∀ first ∈ signed, ∀ second ∈ signed, first.watermark = second.watermark → first = second) ∧
    (∀ first ∈ signed, ∀ second ∈ signed, ∀ c ∈ first.certificates, ∀ d ∈ second.certificates,
      c.claims.id = d.claims.id → c = d) ∧
    ∀ before content after, signed = before ++ content :: after → ∀ later ∈ after,
      ∀ certificate ∈ later.certificates, certificate.claims.id ∈ content.revocations.ids →
        ∃ earlier ∈ before, certificate ∈ earlier.certificates := by
  intro signed
  have issued : Issued signed := (run_sound events (start_sound hive key)).issued
  refine ⟨issued.increasing, ?_, issued.one, issued.revoked⟩
  intro first inFirst second inSecond same
  have marks : (signed.map AuthorityContent.watermark).Nodup :=
    pairwise_map.mpr (issued.increasing.imp fun less => ne_of_lt less)
  exact inj_on_of_nodup_map marks inFirst inSecond same

end Issuer

end Supgang.Authority
