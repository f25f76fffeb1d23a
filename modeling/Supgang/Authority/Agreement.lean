/-
# Authority.Agreement — what an issuer hands out, a verifier accepts

The manifests one store hands out form a chain: revocations and the used ids only grow, and within an
epoch a certificate leaves only by being revoked. A verifier that sees any of them, in order, meets
none of its refusals and holds exactly the certificates of the last one it saw.

* `Handed`, `handed_of_run` — what the contents handed out over a run have in common.
* `Tracks` — a device that has followed some of them; `ready_next` is one more.
* `issuer_verifier_agree` — **agreement** of issuer and verifier.
-/
import Supgang.Authority.Issuer
import Supgang.Authority.Retention

namespace Supgang.Authority

set_option autoImplicit false
set_option linter.unusedSectionVars false

open Theory List

section Agreement

variable [P256] [Sha256] [Ed25519]

/-! ## The contents of one issuer -/

/-- What the contents that one issuer hands out have in common. -/
structure Handed (contents : List AuthorityContent) : Prop where
  valid : ∀ content ∈ contents, content.Valid
  succeeds : contents.Pairwise Succeeds
  one : ∀ first ∈ contents, ∀ second ∈ contents, ∀ c ∈ first.certificates,
    ∀ d ∈ second.certificates, c.claims.id = d.claims.id → c = d
  unrevoked : contents.Pairwise fun earlier later =>
    ∀ certificate ∈ later.certificates, certificate.claims.id ∉ earlier.revocations.ids
  bounded : ∃ used : List CertificateId, used.length ≤ maxUsedIds ∧
    ∀ content ∈ contents, ∀ id ∈ content.ids, id ∈ used

theorem Handed.sublist {contents some : List AuthorityContent} (handed : Handed contents)
    (within : some.Sublist contents) : Handed some := by
  obtain ⟨used, few, covered⟩ := handed.bounded
  exact ⟨fun content inside => handed.valid content (within.subset inside),
    handed.succeeds.sublist within,
    fun first inFirst second inSecond =>
      handed.one first (within.subset inFirst) second (within.subset inSecond),
    handed.unrevoked.sublist within,
    used, few, fun content inside => covered content (within.subset inside)⟩

/-- A certificate is never certified after its id was revoked by a content of the chain: it would be
of the epoch of a still earlier content. -/
theorem Issued.unrevoked {signed : List AuthorityContent} (issued : Issued signed)
    {earlier later : AuthorityContent} (inEarlier : earlier ∈ signed) (inLater : later ∈ signed)
    (succeeds : Succeeds earlier later) {certificate : CertifiedKey}
    (inside : certificate ∈ later.certificates) :
    certificate.claims.id ∉ earlier.revocations.ids := by
  intro revoked
  obtain ⟨before, after, split⟩ := append_of_mem inEarlier
  have ordered := issued.increasing
  rw [split, pairwise_append, pairwise_cons] at ordered
  rw [split, mem_append, mem_cons] at inLater
  rcases inLater with low | rfl | high
  · exact absurd succeeds.newer (not_lt_of_gt (ordered.2.2 later low earlier mem_cons_self))
  · exact absurd succeeds.newer (lt_irrefl _)
  · obtain ⟨first, inFirst, listed⟩ :=
      issued.revoked before earlier after split later high certificate inside revoked
    have first_epoch : certificate.claims.epoch = first.epoch :=
      (issued.valid first (by rw [split]; exact mem_append_left _ inFirst)).epoch_eq _ listed
    have later_valid : later.Valid :=
      issued.valid later (by rw [split]; exact mem_append_right _ (mem_cons_of_mem _ high))
    have later_epoch := later_valid.epoch_eq _ inside
    have low : first.watermark < earlier.watermark :=
      ordered.2.2 first inFirst earlier mem_cons_self
    have first_le : first.epoch ≤ earlier.epoch := by
      rcases Prod.Lex.lt_iff.mp low with less | ⟨same, -⟩
      · exact le_of_lt less
      · exact le_of_eq same
    have same : later.epoch = earlier.epoch :=
      le_antisymm (by rw [← later_epoch, first_epoch]; exact first_le) succeeds.epoch_le
    exact later_valid.unrevoked certificate inside (succeeds.revocations same _ revoked)

theorem handed_of_run (hive : HiveId) (key : DevicePublicKey) (events : List Event) :
    Handed ((World.start hive key).run events).contents := by
  have sound := run_sound events (start_sound hive key)
  generalize (World.start hive key).run events = world at sound
  obtain ⟨state, stored, covers, -⟩ := sound.survives _ mem_cons_self
  obtain ⟨chain, ordered, within, through, -⟩ := covers.lineage
  have issued := sound.issued
  have chained : Handed chain := by
    refine ⟨fun content inside => issued.valid content (within content inside), ordered, ?_, ?_,
      state.used, stored.used_le, fun content inside => covers.used content (within content inside)⟩
    · intro first inFirst second inSecond
      exact issued.one first (within first inFirst) second (within second inSecond)
    · refine ordered.imp_of_mem ?_
      intro earlier later inEarlier inLater succeeds certificate inside
      exact issued.unrevoked (within earlier inEarlier) (within later inLater) succeeds inside
  exact chained.sublist through

/-! ## One more manifest -/

/-- A device that may see `content` next, after it has seen `seen`. -/
structure Ready (seen : List AuthorityContent) (content : AuthorityContent) (base : DeviceState) :
    Prop where
  open_ : base.historyExhausted = false
  not_earlier : base.issuedAt ≤ content.issuedAt
  extends_ : content.epoch = base.epoch → content.revocations.extends_ base.revocations = .ok ()
  history : ∀ (id : CertificateId) (d : Digest), base.history[id]? = some d →
    ∃ old ∈ seen, (∃ certificate ∈ old.certificates, certificate.claims.id = id ∧
      d = certificate.digest) ∨ id ∈ old.revocations.ids
  certificates : content.epoch = base.epoch → ∀ (id : CertificateId) (certificate : CertifiedKey),
    base.certificates[id]? = some certificate → certificate.claims.id = id ∧
      (certificate ∈ content.certificates ∨ id ∈ content.revocations.ids)

/-- A device after it has seen `seen`, the last of which is `content`, accepted at `now`. -/
structure Tracks (seen : List AuthorityContent) (content : AuthorityContent) (now : UInt64)
    (state : DeviceState) : Prop where
  watermark_eq : state.watermark = content.watermark
  issuedAt_eq : state.issuedAt = content.issuedAt
  revocations_eq : state.revocations = content.revocations
  manifest : ∃ manifest, state.manifest = some manifest ∧ manifest.content = content
  open_ : state.historyExhausted = false
  history : ∀ (id : CertificateId) (d : Digest), state.history[id]? = some d →
    ∃ old ∈ seen, (∃ certificate ∈ old.certificates, certificate.claims.id = id ∧
      d = certificate.digest) ∨ id ∈ old.revocations.ids
  certificates : ∀ (id : CertificateId) (certificate : CertifiedKey),
    state.certificates[id]? = some certificate ↔ certificate ∈ content.certificates ∧
      certificate.claims.id = id ∧ now ≤ certificate.claims.notAfter

theorem fresh_ready (content : AuthorityContent) (digest : Digest) (valid : content.Valid) :
    Ready [] content (.fresh content digest) := by
  refine ⟨rfl, le_refl _, ?_, ?_, ?_⟩
  · intro _
    have checked : content.revocations.validate = .ok () :=
      CertifiedKeyRevocations.validate_eq_ok.mpr ⟨valid.revocations_le, valid.revocations_sorted⟩
    simp [CertifiedKeyRevocations.extends_, checked, DeviceState.fresh, ok_bind]
    rfl
  · intro id d found
    simp [DeviceState.fresh] at found
  · intro _ id certificate found
    simp [DeviceState.fresh] at found

variable {seen : List AuthorityContent} {state : DeviceState} {used : List CertificateId}
  {hive : HiveId} {key : DevicePublicKey} {verifier : AuthorityVerifier} {calls : List Call}

theorem Tracks.ready {last content : AuthorityContent} {now : UInt64}
    (tracks : Tracks seen last now state) (valid : last.Valid) (valid' : content.Valid)
    (succeeds : Succeeds last content) : Ready seen content state := by
  have epoch_eq : state.epoch = last.epoch := by
    rw [DeviceState.epoch, tracks.watermark_eq]
    rfl
  refine ⟨tracks.open_, by rw [tracks.issuedAt_eq]; exact succeeds.not_earlier, ?_, tracks.history,
    ?_⟩
  · intro same
    rw [epoch_eq] at same
    have checked : content.revocations.validate = .ok () :=
      CertifiedKeyRevocations.validate_eq_ok.mpr ⟨valid'.revocations_le, valid'.revocations_sorted⟩
    have checked' : last.revocations.validate = .ok () :=
      CertifiedKeyRevocations.validate_eq_ok.mpr ⟨valid.revocations_le, valid.revocations_sorted⟩
    rw [tracks.revocations_eq, CertifiedKeyRevocations.extends_, checked, ok_bind, checked', ok_bind,
      reject_eq_ok]
    rintro ⟨id, inside, missing⟩
    exact missing (succeeds.revocations same id inside)
  · intro same id certificate found
    rw [epoch_eq] at same
    obtain ⟨inside, rfl, -⟩ := (tracks.certificates id certificate).mp found
    exact ⟨rfl, succeeds.certificates same certificate inside⟩

/-- Learning succeeds when no id changes its certificate and all ids are among few enough. -/
theorem learnAll_ok (now : UInt64) (few : used.length ≤ maxUsedIds)
    {certificates : List CertifiedKey} (distinct : DistinctIds certificates)
    (covered : ∀ certificate ∈ certificates, certificate.claims.id ∈ used) (state : DeviceState)
    (known : ∀ id ∈ state.history, id ∈ used)
    (consistent : ∀ certificate ∈ certificates, ∀ old : Digest,
      state.history[certificate.claims.id]? = some old → old = certificate.digest) :
    ∃ state', certificates.foldlM (learn now) state = .ok state' := by
  induction certificates generalizing state with
  | nil => exact ⟨state, rfl⟩
  | cons certificate certificates ih =>
    rw [forall_mem_cons] at covered consistent
    obtain ⟨differs, distinct⟩ := pairwise_cons.mp distinct
    have room : certificate.claims.id ∈ state.history ∨ state.history.size ≠ maxUsedIds := by
      by_cases inside : certificate.claims.id ∈ state.history
      · exact .inl inside
      · have := size_lt_of_mem known covered.1 inside
        exact .inr (by omega)
    have first : learn now state certificate = .ok _ :=
      learn_eq_ok.mpr ⟨consistent.1, room, rfl⟩
    rw [foldlM_cons, first, ok_bind]
    apply ih distinct covered.2
    · intro id inside
      rcases mem_insert_iff.mp inside with rfl | old
      · exact covered.1
      · exact known id old
    · intro other inside old found
      apply consistent.2 other inside
      dsimp only at found
      rw [getElem?_insert_eq, if_neg (differs other inside)] at found
      exact found

theorem buryAll_ok {ids : List CertificateId} (few : used.length ≤ maxUsedIds)
    (covered : ∀ id ∈ ids, id ∈ used) (history : Std.ExtTreeMap CertificateId Digest)
    (known : ∀ id ∈ history, id ∈ used) : ∃ history', ids.foldlM bury history = .ok history' := by
  induction ids generalizing history with
  | nil => exact ⟨history, rfl⟩
  | cons id ids ih =>
    rw [forall_mem_cons] at covered
    rw [foldlM_cons]
    by_cases inside : id ∈ history
    · rw [bury, if_pos inside, ok_bind]
      exact ih covered.2 history known
    · have := size_lt_of_mem known covered.1 inside
      have first : rememberDigest history id tombstone = .ok _ :=
        rememberDigest_eq_ok.mpr ⟨.inr (by omega), rfl⟩
      rw [bury, if_neg inside, first, ok_bind]
      apply ih covered.2
      intro other member
      rcases mem_insert_iff.mp member with rfl | old
      · exact covered.1
      · exact known other old

/-- A device that is ready for a content takes it. -/
theorem ready_next {manifest : AuthorityManifest} (handed : Handed (seen ++ [manifest.content]))
    {previous : Option DeviceState} (digest : Digest) (now : UInt64)
    (ready : Ready seen manifest.content (previous.getD (.fresh manifest.content digest))) :
    ∃ state, nextState previous manifest digest now = .ok state ∧
      Tracks (seen ++ [manifest.content]) manifest.content now state := by
  obtain ⟨used, few, covered⟩ := handed.bounded
  have valid : manifest.content.Valid := handed.valid _ (by simp)
  have listed : ∀ id ∈ manifest.content.ids, id ∈ used := covered _ (by simp)
  have unrevoked : ∀ old ∈ seen, ∀ certificate ∈ manifest.content.certificates,
      certificate.claims.id ∉ old.revocations.ids := fun old inside =>
    (pairwise_append.mp handed.unrevoked).2.2 old inside _ (by simp)
  have one : ∀ old ∈ seen, ∀ c ∈ old.certificates, ∀ d ∈ manifest.content.certificates,
      c.claims.id = d.claims.id → c = d := fun old inside =>
    handed.one old (mem_append_left _ inside) _ (by simp)
  -- Every check of the source passes, in its order.
  obtain ⟨base, base_eq⟩ : ∃ base, previous.getD (.fresh manifest.content digest) = base := ⟨_, rfl⟩
  rw [base_eq] at ready
  have known : ∀ id ∈ base.history, id ∈ used := by
    intro id inside
    obtain ⟨d, found⟩ := exists_getElem? inside
    obtain ⟨old, inOld, ⟨certificate, member, rfl, -⟩ | revoked⟩ := ready.history id d found
    · exact covered old (mem_append_left _ inOld) _ (mem_ids_certificate member)
    · exact covered old (mem_append_left _ inOld) _ (mem_ids_revoked revoked)
  obtain ⟨entered, entering⟩ : ∃ entered, enterEpoch base manifest.content = .ok entered := by
    unfold enterEpoch
    split
    · rename_i same
      rw [ready.extends_ same]
      exact ⟨_, rfl⟩
    · exact ⟨_, rfl⟩
  obtain ⟨history_eq, -, -, -⟩ := enterEpoch_eq_ok entering
  have carried_history : (carried now manifest.content entered).history = base.history := history_eq
  obtain ⟨learned, learning⟩ := learnAll_ok now few valid.distinct
    (fun certificate inside => listed _ (mem_ids_certificate inside))
    (carried now manifest.content entered) (by rw [carried_history]; exact known) (by
      intro certificate inside old found
      rw [carried_history] at found
      obtain ⟨content, inOld, ⟨c, inC, same, rfl⟩ | revoked⟩ := ready.history _ old found
      · rw [one content inOld c inC certificate inside same]
      · exact absurd revoked (unrevoked content inOld certificate inside))
  have after := learnAll valid.distinct learning
  have learned_known : ∀ id ∈ learned.history, id ∈ used := by
    intro id inside
    by_cases named : ∃ certificate ∈ manifest.content.certificates, certificate.claims.id = id
    · obtain ⟨certificate, member, rfl⟩ := named
      exact listed _ (mem_ids_certificate member)
    · obtain ⟨d, found⟩ := exists_getElem? inside
      rw [after.other_history id (by simpa using named), carried_history] at found
      exact known id (mem_of_getElem? found)
  obtain ⟨history, burying⟩ := buryAll_ok few (fun id inside => listed id (mem_ids_revoked inside))
    learned.history learned_known
  have held := held_after entering after
  have from_last : ∀ (id : CertificateId) (certificate : CertifiedKey),
      learned.certificates[id]? = some certificate →
        certificate ∈ manifest.content.certificates ∧ certificate.claims.id = id ∧
          now ≤ certificate.claims.notAfter := by
    intro id certificate found
    rcases held id certificate found with own | ⟨same, old, live, unrevoked⟩
    · exact own
    · obtain ⟨id_eq, kept | revoked⟩ := ready.certificates same id certificate old
      · exact ⟨kept, id_eq, live⟩
      · exact absurd revoked unrevoked
  have room : ¬maxCertificates < learned.certificates.size := by
    have within : ∀ id ∈ learned.certificates,
        id ∈ manifest.content.certificates.map (·.claims.id) := by
      intro id inside
      obtain ⟨certificate, found⟩ := exists_getElem? inside
      obtain ⟨member, rfl, -⟩ := from_last id certificate found
      exact mem_map_of_mem member
    have := size_le_of_mem within
    have := valid.certificates_le
    rw [length_map] at *
    omega
  have moved : nextState previous manifest digest now = .ok
      { learned with
        history
        watermark := manifest.content.watermark
        issuedAt := manifest.content.issuedAt
        digest
        revocations := manifest.content.revocations
        manifest := some manifest } := by
    simp only [nextState, base_eq, reject_bind, ready.open_, not_lt.mpr ready.not_earlier, entering,
      ok_bind, learning, burying, room, if_false, Bool.false_eq_true]
    rfl
  refine ⟨_, moved, ?_⟩
  have follows := nextState_follows valid.distinct moved
  rw [base_eq] at follows
  refine ⟨follows.watermark_eq, follows.issuedAt_eq, follows.revocations_eq,
    ⟨manifest, follows.manifest_eq, rfl⟩, follows.exhausted_eq, ?_, ?_⟩
  · intro id d found
    dsimp only at found
    rw [buryAll_lookup burying id] at found
    have own : manifest.content ∈ seen ++ [manifest.content] := by simp
    split at found
    · by_cases named : ∃ certificate ∈ manifest.content.certificates, certificate.claims.id = id
      · obtain ⟨certificate, member, rfl⟩ := named
        rw [after.remembered certificate member] at found
        exact ⟨_, own, .inl ⟨certificate, member, rfl, (Option.some.inj found).symm⟩⟩
      · rw [after.other_history id (by simpa using named), carried_history] at found
        obtain ⟨old, inOld, facts⟩ := ready.history id d found
        exact ⟨old, mem_append_left _ inOld, facts⟩
    split at found
    · exact ⟨_, own, .inr ‹_›⟩
    · cases found
  · intro id certificate
    constructor
    · exact from_last id certificate
    · rintro ⟨inside, rfl, live⟩
      exact follows.held certificate inside live

/-! ## Accepting a chain -/

/-- A manifest that is newer than what is held, not from the future and taken by its device is
accepted. -/
theorem accept_advances (call : Call) (verifier : AuthorityVerifier)
    (verified : call.manifest.Verified verifier.hive call.key)
    (newer : ∀ old, verifier.devices[call.node]? = some old →
      old.watermark < call.content.watermark ∧ old.manifest ≠ none)
    (room : verifier.devices[call.node]? = none → verifier.devices.size ≠ maxDevices)
    (due : call.content.issuedAt.toNat ≤ call.now.toNat + 300)
    (moved : nextState verifier.devices[call.node]? call.manifest call.digest call.now =
      .ok state) :
    call.outcome verifier = .ok () (verifier.put call.node state) := by
  have on_time : ¬saturatingAdd call.now 300 < call.manifest.content.issuedAt := by
    rw [not_lt, UInt64.le_iff_toNat_le, toNat_saturatingAdd]
    have bound := call.manifest.content.issuedAt.toNat_lt
    have skew : UInt64.toNat 300 = 300 := rfl
    have due' : call.manifest.content.issuedAt.toNat ≤ call.now.toNat + 300 := due
    omega
  have advanced : (AuthorityVerifier.advance call.manifest call.node call.digest call.now).run
      verifier = .ok () (verifier.put call.node state) := by
    rw [AuthorityVerifier.advance, run_reject_bind_of_not on_time]
    show (ofExcept (nextState verifier.devices[call.node]? call.manifest call.digest call.now) >>= _ :
      EStateM AuthorityError AuthorityVerifier Unit).run verifier = _
    rw [moved]
    rfl
  have checked : call.manifest.verify verifier.hive call.key = .ok () := verify_eq_ok.mpr verified
  have payload : contentBytes call.manifest.content = .ok (contentFields call.manifest.content) :=
    contentBytes_eq_ok.mpr ⟨verified.valid, rfl⟩
  rw [Call.outcome, AuthorityVerifier.accept]
  cases known : verifier.devices[call.node]? with
  | none =>
    have found : verifier.devices[deviceNodeId call.key]? = none := known
    simp only [EStateM.run_bind, EStateM.run_get, checked, payload, run_ofExcept_ok, found,
      run_reject, if_neg (room known)]
    exact advanced
  | some old =>
    obtain ⟨less, opened⟩ := newer old known
    have found : verifier.devices[deviceNodeId call.key]? = some old := known
    have not_older : ¬call.manifest.content.watermark < old.watermark := not_lt_of_gt less
    have differs : call.manifest.content.watermark ≠ old.watermark := ne_of_gt less
    simp only [EStateM.run_bind, EStateM.run_get, checked, payload, run_ofExcept_ok, found,
      run_reject, if_neg not_older, if_neg differs, opened, and_false, if_false]
    exact advanced

/-- A manifest of this hive and device, given to a verifier no earlier than its time allows. -/
structure Call.Given (hive : HiveId) (key : DevicePublicKey) (call : Call) : Prop where
  key_eq : call.key = key
  verified : call.manifest.Verified hive key
  due : call.content.issuedAt.toNat ≤ call.now.toNat + 300

/-- The verifier after some manifests of one device: it has the device only if it saw one, and then
tracks the last of them. -/
structure Stands (hive : HiveId) (node : NodeId) (verifier : AuthorityVerifier)
    (calls : List Call) : Prop where
  hive_eq : verifier.hive = hive
  unseen : calls = [] → verifier.devices[node]? = none ∧ verifier.devices.size < maxDevices
  seen : ∀ front last, calls = front ++ [last] → ∃ state, verifier.devices[node]? = some state ∧
    Tracks (calls.map (·.content)) last.content last.now state

theorem stands_next {call : Call} (stands : Stands hive (deviceNodeId key) verifier calls)
    (given : call.Given hive key) (handed : Handed ((calls ++ [call]).map (·.content))) :
    ∃ next, call.outcome verifier = .ok () next ∧
      Stands hive (deviceNodeId key) next (calls ++ [call]) := by
  obtain ⟨rfl, verified, due⟩ := given
  rw [map_append, map_singleton] at handed
  have valid : call.content.Valid := verified.valid
  have ready : Ready (calls.map (·.content)) call.content
      (verifier.devices[call.node]?.getD (.fresh call.content call.digest)) := by
    rcases eq_nil_or_concat calls with rfl | ⟨front, last, rfl⟩
    · have unseen : verifier.devices[call.node]? = none := (stands.unseen rfl).1
      rw [unseen]
      exact fresh_ready _ _ valid
    · obtain ⟨state, known, tracks⟩ := stands.seen front last concat_eq_append
      have known : verifier.devices[call.node]? = some state := known
      rw [known, Option.getD_some]
      have inside : last.content ∈ (front.concat last).map (·.content) := by simp
      exact tracks.ready (handed.valid _ (mem_append_left _ inside)) valid
        ((pairwise_append.mp handed.succeeds).2.2 _ inside _ (by simp))
  obtain ⟨state, moved, tracks⟩ := ready_next handed call.digest call.now ready
  have accepted := accept_advances call verifier (by rw [stands.hive_eq]; exact verified) ?_ ?_ due
    moved
  · refine ⟨_, accepted, stands.hive_eq, ?_, ?_⟩
    · intro empty
      simp at empty
    · intro front last split
      obtain ⟨-, last_eq⟩ := append_inj' split rfl
      cases last_eq
      refine ⟨state, by simp [AuthorityVerifier.put, Call.node], ?_⟩
      rw [map_append, map_singleton]
      exact tracks
  · intro old known
    rcases eq_nil_or_concat calls with rfl | ⟨front, last, rfl⟩
    · cases (stands.unseen rfl).1.symm.trans known
    · obtain ⟨state', known', tracks'⟩ := stands.seen front last concat_eq_append
      obtain rfl := Option.some.inj (known'.symm.trans known)
      have inside : last.content ∈ (front.concat last).map (·.content) := by simp
      have succeeds : Succeeds last.content call.content :=
        (pairwise_append.mp handed.succeeds).2.2 _ inside _ (by simp)
      obtain ⟨manifest, held, -⟩ := tracks'.manifest
      exact ⟨by rw [tracks'.watermark_eq]; exact succeeds.newer, by simp [held]⟩
  · intro unknown
    rcases eq_nil_or_concat calls with rfl | ⟨front, last, rfl⟩
    · exact ne_of_lt (stands.unseen rfl).2
    · obtain ⟨state', known', -⟩ := stands.seen front last concat_eq_append
      cases known'.symm.trans unknown

theorem acceptAll_stands (hive_eq : verifier.hive = hive)
    (unknown : verifier.devices[deviceNodeId key]? = none)
    (room : verifier.devices.size < maxDevices) (given : ∀ call ∈ calls, call.Given hive key)
    (handed : Handed (calls.map (·.content))) :
    Stands hive (deviceNodeId key) (acceptAll verifier calls) calls := by
  induction calls using List.reverseRecOn with
  | nil => exact ⟨hive_eq, fun _ => ⟨unknown, room⟩, fun front last split => by simp at split⟩
  | append_singleton calls call ih =>
    have before : Handed (calls.map (·.content)) :=
      handed.sublist (by rw [map_append]; exact sublist_append_left _ _)
    have stands := ih (fun c inside => given c (mem_append_left _ inside)) before
    obtain ⟨next, accepted, stands'⟩ := stands_next stands (given call (by simp)) handed
    have reached : acceptAll verifier (calls ++ [call]) = next := by
      rw [acceptAll, foldl_append]
      show call.after (acceptAll verifier calls) = next
      rw [Call.after, accepted]
    rw [reached]
    exact stands'

/-- Over every run of an issuer and every verifier of its hive with room for the device: any of the
manifests handed out, given in order and not before their time, are all accepted, and from the last
acceptance on, while the last manifest is fresh, lookups answer with exactly those of its
certificates that are valid. -/
theorem issuer_verifier_agree (hive : HiveId) (key : DevicePublicKey) (events : List Event)
    (verifier : AuthorityVerifier) (hive_eq : verifier.hive = hive)
    (unknown : verifier.devices[deviceNodeId key]? = none)
    (room : verifier.devices.size < maxDevices) (calls : List Call)
    (keys : ∀ call ∈ calls, call.key = key)
    (within : (calls.map (·.manifest)).Sublist ((World.start hive key).run events).produced)
    (due : ∀ call ∈ calls, call.content.issuedAt.toNat ≤ call.now.toNat + 300) :
    (∀ before call after, calls = before ++ call :: after →
      ∃ next, call.outcome (acceptAll verifier before) = .ok () next) ∧
    ∀ before last, calls = before ++ [last] → ∀ now maxStatusAge, last.now ≤ now →
      last.content.issuedAt ≤ now → now ≤ last.content.nextUpdate →
      now - last.content.issuedAt ≤ maxStatusAge →
      ∀ id purpose certificate,
        (acceptAll verifier calls).certificateFor (deviceNodeId key) id purpose now maxStatusAge =
            .ok certificate ↔
          certificate ∈ last.content.certificates ∧ certificate.claims.id = id ∧
            certificate.claims.purpose = purpose ∧ certificate.claims.notBefore ≤ now ∧
            now ≤ certificate.claims.notAfter := by
  have sound := run_sound events (start_sound hive key)
  have given : ∀ call ∈ calls, call.Given hive key := fun call inside =>
    ⟨keys call inside, sound.verified _ (within.subset (mem_map_of_mem inside)),
      due call inside⟩
  have handed : Handed (calls.map (·.content)) := by
    have contents := within.map (·.content)
    rw [map_map] at contents
    exact (handed_of_run hive key events).sublist contents
  constructor
  · rintro before call after rfl
    have front : Handed (before.map (·.content)) :=
      handed.sublist (by rw [map_append]; exact sublist_append_left _ _)
    have stands := acceptAll_stands hive_eq unknown room
      (fun c inside => given c (mem_append_left _ inside)) front
    have upto : ((before ++ [call]).map (·.content)).Sublist
        ((before ++ call :: after).map (·.content)) := by
      rw [append_cons before call after]
      exact (sublist_append_left _ _).map _
    obtain ⟨next, accepted, -⟩ := stands_next stands (given call (by simp)) (handed.sublist upto)
    exact ⟨next, accepted⟩
  · intro before last split now maxStatusAge later issued fresh aged id purpose certificate
    have stands := acceptAll_stands hive_eq unknown room given handed
    obtain ⟨state, known, tracks⟩ := stands.seen before last split
    obtain ⟨manifest, held, content_eq⟩ := tracks.manifest
    have valid : last.content.Valid := handed.valid _ (by rw [split]; simp)
    rw [certificateFor_eq_ok]
    constructor
    · rintro ⟨state', known', usable⟩
      obtain rfl := Option.some.inj (known.symm.trans known')
      obtain ⟨_, -, -, -, found, -, purpose_eq, begun, live⟩ := usable_eq_some.mp usable
      obtain ⟨inside, id_eq, -⟩ := (tracks.certificates id certificate).mp found
      exact ⟨inside, id_eq, purpose_eq, begun, live⟩
    · rintro ⟨inside, rfl, purpose_eq, begun, live⟩
      refine ⟨state, known, usable_eq_some.mpr ⟨manifest, held, ?_, ?_, ?_, ?_, purpose_eq, begun,
        live⟩⟩
      · rw [content_eq]
        exact ⟨issued, fresh, aged⟩
      · rw [content_eq]
        exact valid.unrevoked certificate inside
      · exact (tracks.certificates _ certificate).mpr ⟨inside, rfl, later.trans live⟩
      · rw [content_eq]
        exact valid.epoch_eq certificate inside

end Agreement

/-! ## A run -/

attribute [local instance] endSha256 openP256 openEd25519

def issuerKey : DevicePublicKey := openKey

def issuerHive : HiveId := FixedBytes.replicate 32 3

/-- A file-backed key certified for attestation. -/
def attestingKey : CertifiedKey where
  claims :=
    { hive := issuerHive, issuer := deviceNodeId issuerKey, epoch := 0
      id := FixedBytes.replicate 16 5, subject := .ed25519 (FixedBytes.replicate 32 9)
      custody := .file, purpose := .attest, audience := .attest (FixedBytes.replicate 16 6)
      operations := [], notBefore := 0, notAfter := 100, policy := 1 }
  possession := FixedBytes.replicate 64 4

/-- A signer refuses, and the next update certifies a key. -/
def certifying : List Event :=
  [.open .done,
    .apply ⟨⟨[], [], none, false⟩, none, issuerHive, issuerKey, 10, 20⟩
      ⟨.done, .refused .custodyRefused, .done⟩,
    .apply ⟨⟨[attestingKey], [], none, false⟩, none, issuerHive, issuerKey, 10, 20⟩
      ⟨.done, .signed openSignature, .done⟩]

/-- Whether one manifest was produced, and it certifies the key. -/
def certified : List AuthorityManifest → Bool
  | [manifest] => manifest.content.issuedAt = 10 ∧ manifest.content.nextUpdate = 20 ∧
      manifest.content.certificates = [attestingKey]
  | _ => false

theorem issuer_verifier_agree_certified :
    ∃ manifest, ((World.start issuerHive issuerKey).run certifying).produced = [manifest] ∧
      (∃ next, (Call.mk manifest issuerKey 10).outcome (.new issuerHive) = .ok () next) ∧
      (acceptAll (.new issuerHive) [⟨manifest, issuerKey, 10⟩]).certificateFor
        (deviceNodeId issuerKey) (FixedBytes.replicate 16 5) .attest 15 60 = .ok attestingKey := by
  have answer : certified ((World.start issuerHive issuerKey).run certifying).produced = true := by
    decide +kernel
  unfold certified at answer
  split at answer
  case h_2 => cases answer
  case h_1 manifest produced =>
    obtain ⟨issued, due, certified⟩ := of_decide_eq_true answer
    have agree := issuer_verifier_agree issuerHive issuerKey certifying (.new issuerHive) rfl
      (by simp [AuthorityVerifier.new]) (by simp [AuthorityVerifier.new, maxDevices])
      [⟨manifest, issuerKey, 10⟩] (by simp) (by rw [produced]; exact List.Sublist.refl _)
      (by simp [Call.content, issued])
    refine ⟨manifest, produced, agree.1 [] _ [] rfl, ?_⟩
    have fresh : (15 : UInt64) ≤ manifest.content.nextUpdate := by rw [due]; decide
    have begun : manifest.content.issuedAt ≤ (15 : UInt64) := by rw [issued]; decide
    have aged : (15 : UInt64) - manifest.content.issuedAt ≤ 60 := by rw [issued]; decide
    have later : (10 : UInt64) ≤ 15 := by decide
    refine (agree.2 [] _ rfl 15 60 later begun fresh aged _ _ _).mpr ⟨?_, rfl, rfl, ?_, ?_⟩
    · show attestingKey ∈ manifest.content.certificates
      rw [certified]
      exact mem_singleton.mpr rfl
    · decide
    · decide

end Supgang.Authority
