/-
# State.Replay — replay as a transition system, and the snapshot that stands for a history

Replay is read as a machine: `Admissible state event` are the checks of one ordinary event and
`effect state event` what it does, so that the operations of a running device and the replay of
its journal can be compared event by event.

* `replay_concat` — an admissible event behind a journal that replays extends its replay.
* `Sound state` — what replay has checked of a state: a roster of consecutive serials over the
  local certificate, and a verified revocation list; `replay_sound`.
* `replay_snapshot` — **the snapshot replays to the state it was taken of**; `Sound.compaction`
  says that every sound state has one, and of bounded size.
-/
import Supgang.State.Model

namespace Supgang.State

set_option autoImplicit false

open Theory List Supgang.Membership Revocation Invitation Record Journal

variable [Sha256] [Ed25519]

/-! ## One event -/

/-- The checks replay makes of an event that is neither a genesis nor a checkpoint. -/
def Admissible (state : LocalState) : StateEvent → Prop
  | .sequence generation sequence =>
    generation = state.generation ∧ checkedAdd state.sequence 1 = some sequence
  | .membership signed =>
    signed.verify state.identity.rootVerifyingKey = .ok () ∧
      checkedAdd state.lastMembershipSerial 1 = some signed.certificate.serial ∧
      state.memberships.size < maxHiveMembers ∧ signed.certificate.nodeId ∉ state.memberships
  | .revocation signed =>
    signed.verify state.identity.rootVerifyingKey = .ok () ∧
      state.revocations.list.serial < signed.list.serial ∧
      state.revocations.list.issuedAt ≤ signed.list.issuedAt ∧
      state.revocations.list.revokedNodes ⊆ signed.list.revokedNodes
  | .genesis .. | .checkpoint .. => False

/-- What an event does to the state it is applied to. -/
def effect (state : LocalState) : StateEvent → LocalState
  | .sequence _ sequence =>
    { state with sequence, eventCount := saturatingAdd state.eventCount 1 }
  | .membership signed =>
    { state with
      memberships := state.memberships.insert signed.certificate.nodeId signed
      lastMembershipSerial := signed.certificate.serial
      eventCount := saturatingAdd state.eventCount 1 }
  | .revocation signed =>
    { state with revocations := signed, eventCount := saturatingAdd state.eventCount 1 }
  | .checkpoint _ _ _ sequence _ _ =>
    { state with sequence, eventCount := saturatingAdd state.eventCount 1 }
  | .genesis .. => state

variable {event : StateEvent} {state : LocalState} {done frames : List Bytes} {seen : Bool}
  {identity : LocalIdentity} {journal : Option Journal}

variable {state' : LocalState} {frame first : Bytes}

theorem applyReplayed_eq_ok : applyReplayed state event = .ok state' ↔
      Admissible state event ∧ state' = effect state event := by
  cases event with
  | genesis member revoked => simp [applyReplayed, Admissible]
  | checkpoint hiveId nodeId generation sequence digest signature =>
    simp [applyReplayed, Admissible]
  | sequence generation sequence =>
    simp only [applyReplayed, ok_steps, exists_unit, not_not, ↓existsAndEq, true_and, Admissible,
      effect, and_assoc, eq_comm (a := state')]
  | membership signed =>
    simp only [applyReplayed, ok_steps, exists_unit, not_not, not_le, ↓existsAndEq, true_and,
      Admissible, effect, and_assoc, eq_comm (a := state')]
  | revocation signed =>
    simp only [applyReplayed, ok_steps, exists_unit, not_or, not_exists, not_and, contains_iff,
      not_not, not_le, not_lt, ↓existsAndEq, true_and, Admissible, effect, and_assoc,
      eq_comm (a := state')]
    rfl

/-- The checks replay makes of a checkpoint behind the frames `done`. -/
structure CheckpointHolds (done : List Bytes) (state : LocalState) (hiveId : HiveId)
    (nodeId : NodeId) (generation sequence : UInt64) (digest : Digest) (signature : Signature) :
    Prop where
  fresh : state.sequence = 0
  generation_eq : generation = state.generation
  hive_eq : hiveId = state.identity.hiveId
  node_eq : nodeId = state.identity.device.nodeId
  digest_eq : snapshotDigest done = digest
  signed : verifyDomain state.identity.device.verifyingKey checkpointDomain
    (checkpointSignaturePayload hiveId nodeId generation sequence digest) signature = true

theorem replayEvent_ordinary (admissible : Admissible state event) :
    replayEvent done state seen event = .ok (effect state event, seen) := by
  have happly := applyReplayed_eq_ok.mpr ⟨admissible, rfl⟩
  cases event with
  | checkpoint hiveId nodeId generation sequence digest signature => exact admissible.elim
  | genesis member revoked => exact admissible.elim
  | sequence generation sequence => simp only [replayEvent, happly, ok_bind]; rfl
  | membership signed => simp only [replayEvent, happly, ok_bind]; rfl
  | revocation signed => simp only [replayEvent, happly, ok_bind]; rfl

theorem replayEvent_checkpoint {hiveId : HiveId} {nodeId : NodeId} {generation sequence : UInt64}
    {digest : Digest} {signature : Signature}
    (holds : CheckpointHolds done state hiveId nodeId generation sequence digest signature) :
    replayEvent done state false
        (.checkpoint hiveId nodeId generation sequence digest signature) =
      .ok (effect state (.checkpoint hiveId nodeId generation sequence digest signature), true) := by
  obtain ⟨hfresh, hgeneration, hhive, hnode, hdigest, hsigned⟩ := holds
  simp only [replayEvent, reject_bind]
  rw [if_neg (by simp [hfresh, hgeneration]), if_neg (by simp [hhive, hnode]),
    if_neg (by simp [hdigest, hsigned])]
  rfl

/-- Everything one turn of the replay loop can do. -/
theorem replayEvent_cases {seen' : Bool}
    (h : replayEvent done state seen event = .ok (state', seen')) :
    state' = effect state event ∧ (Admissible state event ∧ seen' = seen ∨
      ∃ hiveId nodeId generation sequence digest signature,
        event = .checkpoint hiveId nodeId generation sequence digest signature ∧
        CheckpointHolds done state hiveId nodeId generation sequence digest signature ∧
        seen = false ∧ seen' = true) := by
  have hother : ∀ {found : LocalState}, applyReplayed state event = .ok found → found = state' →
      seen = seen' → state' = effect state event ∧ Admissible state event ∧ seen' = seen := by
    rintro found happly rfl rfl
    obtain ⟨hadmissible, hfound⟩ := applyReplayed_eq_ok.mp happly
    exact ⟨hfound, hadmissible, rfl⟩
  cases event with
  | checkpoint hiveId nodeId generation sequence digest signature =>
    simp only [replayEvent, ok_steps, Prod.mk.injEq] at h
    obtain ⟨_, hfirst, _, hidentity, _, hsigned, rfl, rfl⟩ := h
    simp only [not_or, not_not] at hfirst hidentity hsigned
    exact ⟨rfl, .inr ⟨hiveId, nodeId, generation, sequence, digest, signature, rfl,
      ⟨hfirst.2.1, hfirst.2.2, hidentity.1, hidentity.2, hsigned.1, hsigned.2⟩,
      by simpa using hfirst.1, rfl⟩⟩
  | genesis member revoked =>
    simp only [replayEvent, ok_steps, Prod.mk.injEq] at h
    obtain ⟨found, happly, hfound, hseen⟩ := h
    exact (hother happly hfound hseen).imp_right .inl
  | sequence generation sequence =>
    simp only [replayEvent, ok_steps, Prod.mk.injEq] at h
    obtain ⟨found, happly, hfound, hseen⟩ := h
    exact (hother happly hfound hseen).imp_right .inl
  | membership signed =>
    simp only [replayEvent, ok_steps, Prod.mk.injEq] at h
    obtain ⟨found, happly, hfound, hseen⟩ := h
    exact (hother happly hfound hseen).imp_right .inl
  | revocation signed =>
    simp only [replayEvent, ok_steps, Prod.mk.injEq] at h
    obtain ⟨found, happly, hfound, hseen⟩ := h
    exact (hother happly hfound hseen).imp_right .inl

/-! ## The loop -/

theorem replayLoop_append (done first second : List Bytes) (state : LocalState) (seen : Bool) :
    replayLoop done (first ++ second) state seen = (do
      let (state, seen) ← replayLoop done first state seen
      replayLoop (done ++ first) second state seen) := by
  induction first generalizing done state seen with
  | nil => simp [replayLoop, ok_bind]
  | cons frame first ih =>
    simp only [cons_append, replayLoop, bind_assoc, ih, append_assoc, nil_append]

theorem replayLoop_singleton (decoded : decodeEvent frame = .ok event) :
    replayLoop done [frame] state seen = replayEvent done state seen event := by
  simp only [replayLoop, decoded, ok_bind]
  cases replayEvent done state seen event <;> rfl

/-- An admissible event behind a journal that replays extends its replay. -/
theorem replay_concat (replayed : replay identity journal frames = .ok state)
    (decoded : decodeEvent frame = .ok event) (admissible : Admissible state event) :
    replay identity journal (frames ++ [frame]) = .ok (effect state event) := by
  cases frames with
  | nil => cases replayed
  | cons first rest =>
    simp only [replay, ok_steps] at replayed
    obtain ⟨opened, hgenesis, ⟨last, seen⟩, hloop, rfl⟩ := replayed
    simp only [cons_append, replay, hgenesis, ok_bind, replayLoop_append, hloop,
      replayLoop_singleton decoded, replayEvent_ordinary admissible]
    rfl

/-- An invariant of single events, and of the genesis, is one of replay. -/
theorem replay_induction {P : LocalState → Prop}
    (genesis : ∀ first opened, replayGenesis identity journal first = .ok opened → P opened)
    (step : ∀ done before seen event after seen', P before →
      replayEvent done before seen event = .ok (after, seen') → P after)
    (h : replay identity journal frames = .ok state) : P state := by
  have loop : ∀ (rest done : List Bytes) (before : LocalState) (seen : Bool)
      (out : LocalState × Bool), P before → replayLoop done rest before seen = .ok out →
      P out.1 := by
    intro rest
    induction rest with
    | nil =>
      intro done before seen out holds hloop
      cases hloop
      exact holds
    | cons frame rest ih =>
      intro done before seen out holds hloop
      simp only [replayLoop, bind_eq_ok] at hloop
      obtain ⟨event, -, ⟨next, seen'⟩, hevent, hrest⟩ := hloop
      exact ih _ _ _ _ (step _ _ _ _ _ _ holds hevent) hrest
  cases frames with
  | nil => cases h
  | cons first rest =>
    simp only [replay, ok_steps] at h
    obtain ⟨opened, hgenesis, out, hloop, rfl⟩ := h
    exact loop rest [first] opened false out (genesis first opened hgenesis) hloop

/-! ## Sound states -/

/-- The members of a hive in the order of their serials: the local certificate, then one
consecutive serial each. -/
inductive Roster (rootKey : VerifyingKey) (founder : SignedMembership) :
    List SignedMembership → Std.ExtTreeMap NodeId SignedMembership → UInt64 → Prop
  | founder : Roster rootKey founder []
      ((∅ : Std.ExtTreeMap NodeId SignedMembership).insert founder.certificate.nodeId founder)
      founder.certificate.serial
  | join {others : List SignedMembership} {members : Std.ExtTreeMap NodeId SignedMembership}
      {last : UInt64} {signed : SignedMembership} (before : Roster rootKey founder others members last)
      (verified : signed.verify rootKey = .ok ())
      (serial : checkedAdd last 1 = some signed.certificate.serial)
      (room : members.size < maxHiveMembers) (new : signed.certificate.nodeId ∉ members) :
      Roster rootKey founder (others ++ [signed])
        (members.insert signed.certificate.nodeId signed) signed.certificate.serial

/-- The certificate is the local device's own. -/
structure LocalCertificate (identity : LocalIdentity) (founder : SignedMembership) : Prop where
  verified : founder.verify identity.rootVerifyingKey = .ok ()
  hive_eq : founder.certificate.hiveId = identity.hiveId
  node_eq : founder.certificate.nodeId = identity.device.nodeId
  key_eq : founder.certificate.deviceVerifyingKey = identity.device.verifyingKey

/-- What replay has checked of a state. -/
structure Sound (state : LocalState) : Prop where
  roster : ∃ founder others, LocalCertificate state.identity founder ∧
    Roster state.identity.rootVerifyingKey founder others state.memberships
      state.lastMembershipSerial
  revocations : state.revocations.verify state.identity.rootVerifyingKey = .ok ()
  generation : state.generation = 0

theorem Sound.effect (sound : Sound state) (admissible : Admissible state event) :
    Sound (effect state event) := by
  obtain ⟨⟨founder, others, hlocal, hroster⟩, hrevocations, hgeneration⟩ := sound
  cases event with
  | genesis member revoked => exact admissible.elim
  | checkpoint hiveId nodeId generation sequence digest signature => exact admissible.elim
  | sequence generation sequence =>
    exact ⟨⟨founder, others, hlocal, hroster⟩, hrevocations, hgeneration⟩
  | membership signed =>
    obtain ⟨hverify, hserial, hroom, hnew⟩ := admissible
    exact ⟨⟨founder, others ++ [signed], hlocal, hroster.join hverify hserial hroom hnew⟩,
      hrevocations, hgeneration⟩
  | revocation signed => exact ⟨⟨founder, others, hlocal, hroster⟩, admissible.1, hgeneration⟩

/-- The checks of the founder event, and the state it leaves. -/
theorem replayGenesis_eq_ok (h : replayGenesis identity journal first = .ok state) :
    ∃ founder revocations, decodeEvent first = .ok (.genesis founder revocations) ∧
      LocalCertificate identity founder ∧
      revocations.verify identity.rootVerifyingKey = .ok () ∧
      state = founderState identity journal founder revocations := by
  simp only [replayGenesis, bind_eq_ok] at h
  obtain ⟨event, hdecode, h⟩ := h
  cases event with
  | genesis founder revocations =>
    simp only [ok_steps, not_or, not_not] at h
    obtain ⟨_, hfounder, _, hrevocations, _, ⟨hhive, hnode, hkey⟩, rfl⟩ := h
    exact ⟨founder, revocations, hdecode, ⟨hfounder, hhive, hnode, hkey⟩, hrevocations, rfl⟩
  | sequence generation sequence => cases h
  | membership signed => cases h
  | revocation signed => cases h
  | checkpoint hiveId nodeId generation sequence digest signature => cases h

theorem replayGenesis_ok (journal : Option Journal) {founder : SignedMembership}
    {revocations : SignedRevocationList}
    (decoded : decodeEvent first = .ok (.genesis founder revocations))
    (certificate : LocalCertificate identity founder)
    (verified : revocations.verify identity.rootVerifyingKey = .ok ()) :
    replayGenesis identity journal first =
      .ok (founderState identity journal founder revocations) := by
  obtain ⟨hfounder, hhive, hnode, hkey⟩ := certificate
  simp only [replayGenesis, decoded, ok_bind, hfounder, verified, mapError_ok, reject_bind]
  rw [if_neg (by simp [hhive, hnode, hkey])]
  rfl

/-- **Replay returns a sound state** of the identity and the handle it was given. -/
theorem replay_sound (h : replay identity journal frames = .ok state) :
    Sound state ∧ state.identity = identity ∧ state.journal = journal := by
  refine replay_induction (P := fun state =>
    Sound state ∧ state.identity = identity ∧ state.journal = journal) ?_ ?_ h
  · intro first opened hgenesis
    obtain ⟨founder, revocations, -, hlocal, hrevocations, rfl⟩ := replayGenesis_eq_ok hgenesis
    exact ⟨⟨⟨founder, [], hlocal, .founder⟩, hrevocations, rfl⟩, rfl, rfl⟩
  · rintro done before seen event after seen' ⟨sound, hidentity, hjournal⟩ hevent
    obtain ⟨rfl, hcases⟩ := replayEvent_cases hevent
    rcases hcases with ⟨admissible, -⟩ | ⟨_, _, _, _, _, _, rfl, -⟩
    · refine ⟨sound.effect admissible, ?_⟩
      cases event <;> exact ⟨hidentity, hjournal⟩
    · exact ⟨⟨sound.roster, sound.revocations, sound.generation⟩, hidentity, hjournal⟩

/-- Replay does not look at the handle it stores. -/
theorem replay_handle (h : replay identity journal frames = .ok state) (journal' : Option Journal) :
    replay identity journal' frames = .ok { state with journal := journal' } := by
  have event : ∀ (done : List Bytes) (before after : LocalState) (seen seen' : Bool)
      (event : StateEvent), replayEvent done before seen event = .ok (after, seen') →
      replayEvent done { before with journal := journal' } seen event =
        .ok ({ after with journal := journal' }, seen') := by
    intro done before after seen seen' event hevent
    obtain ⟨rfl, hcases⟩ := replayEvent_cases hevent
    rcases hcases with ⟨hadmissible, rfl⟩ | ⟨_, _, _, _, _, _, rfl, holds, rfl, rfl⟩
    · rw [replayEvent_ordinary (show Admissible { before with journal := journal' } event by
        cases event <;> exact hadmissible)]
      cases event <;> rfl
    · exact replayEvent_checkpoint ⟨holds.fresh, holds.generation_eq, holds.hive_eq, holds.node_eq,
        holds.digest_eq, holds.signed⟩
  have loop : ∀ (rest done : List Bytes) (before after : LocalState) (seen seen' : Bool),
      replayLoop done rest before seen = .ok (after, seen') →
      replayLoop done rest { before with journal := journal' } seen =
        .ok ({ after with journal := journal' }, seen') := by
    intro rest
    induction rest with
    | nil =>
      intro done before after seen seen' hloop
      cases hloop
      rfl
    | cons frame rest ih =>
      intro done before after seen seen' hloop
      simp only [replayLoop, bind_eq_ok] at hloop
      obtain ⟨decoded, hdecode, ⟨next, seen''⟩, hevent, hrest⟩ := hloop
      simp only [replayLoop, hdecode, ok_bind, event _ _ _ _ _ _ hevent, ih _ _ _ _ _ hrest]
  cases frames with
  | nil => cases h
  | cons first rest =>
    simp only [replay, ok_steps] at h
    obtain ⟨opened, hgenesis, ⟨last, seen⟩, hloop, rfl⟩ := h
    obtain ⟨founder, revocations, hdecode, hlocal, hrevocations, rfl⟩ :=
      replayGenesis_eq_ok hgenesis
    have hstart : founderState identity journal' founder revocations =
        { founderState identity journal founder revocations with journal := journal' } := rfl
    simp only [replay, replayGenesis_ok journal' hdecode hlocal hrevocations, ok_bind, hstart,
      loop _ _ _ _ _ _ hloop]
    rfl

/-! ## The roster as the snapshot reads it -/

section Roster

variable {rootKey : VerifyingKey} {founder : SignedMembership} {others : List SignedMembership}
  {members : Std.ExtTreeMap NodeId SignedMembership} {last : UInt64}

theorem GoodMembership.of_verify {signed : SignedMembership}
    (h : signed.verify rootKey = .ok ()) : GoodMembership signed :=
  ⟨(Membership.verify_eq_ok h).1, (Membership.verify_eq_ok h).2.2⟩

theorem GoodRevocations.of_verify {signed : SignedRevocationList}
    (h : signed.verify rootKey = .ok ()) : GoodRevocations signed :=
  ⟨(Revocation.verify_eq_ok h).1, (Revocation.verify_eq_ok h).2.2⟩

omit [Sha256] [Ed25519] in
theorem membershipFrames_concat {admitted : List SignedMembership} {first reached : UInt64}
    {frames : List Bytes} {signed : SignedMembership} {frame : Bytes}
    (h : LocalState.membershipFrames admitted first = .ok (frames, reached))
    (serial : checkedAdd reached 1 = some signed.certificate.serial)
    (encoded : encodeEvent (.membership signed) = .ok frame) :
    LocalState.membershipFrames (admitted ++ [signed]) first =
      .ok (frames ++ [frame], signed.certificate.serial) := by
  induction admitted generalizing first frames with
  | nil =>
    cases h
    simp only [nil_append, LocalState.membershipFrames, serial, okOr_some, ok_bind,
      reject_bind, ne_eq, not_true_eq_false, if_false, encoded]
    rfl
  | cons earlier admitted ih =>
    simp only [LocalState.membershipFrames, ok_steps, Prod.mk.injEq] at h
    obtain ⟨expected, hexpected, _, hserial, head, hhead, ⟨more, stop⟩, hmore, rfl, rfl⟩ := h
    simp only [cons_append, LocalState.membershipFrames, hexpected, okOr_some, ok_bind,
      reject_bind, if_neg hserial, hhead, ih hmore]
    rfl

variable (roster : Roster rootKey founder others members last)

include roster

theorem Roster.size : members.size = others.length + 1 ∧ members.size ≤ maxHiveMembers := by
  induction roster with
  | founder =>
    rw [Std.ExtTreeMap.size_insert, if_neg (by simp)]
    exact ⟨by simp, by simp [maxHiveMembers]⟩
  | join before verified serial room new ih =>
    rw [Std.ExtTreeMap.size_insert, if_neg (by simpa using new), length_append,
      length_singleton, ih.1]
    exact ⟨rfl, ih.1 ▸ room⟩

theorem Roster.getElem? (nodeId : NodeId) (signed : SignedMembership) :
    members[nodeId]? = some signed ↔
      signed ∈ founder :: others ∧ signed.certificate.nodeId = nodeId := by
  induction roster with
  | founder =>
    rw [Std.ExtTreeMap.getElem?_insert]
    split
    · rename_i same
      have hsame := Std.LawfulEqCmp.eq_of_compare same
      simp only [Option.some.injEq, mem_singleton]
      constructor
      · rintro rfl
        exact ⟨rfl, hsame⟩
      · rintro ⟨rfl, -⟩
        rfl
    · rename_i different
      simp only [Std.ExtTreeMap.getElem?_empty, reduceCtorEq, mem_singleton, false_iff,
        not_and]
      rintro rfl rfl
      exact different (Std.ReflCmp.compare_self)
  | @join others members last newest before verified serial room new ih =>
    rw [Std.ExtTreeMap.getElem?_insert]
    split
    · rename_i same
      have hsame := Std.LawfulEqCmp.eq_of_compare same
      simp only [Option.some.injEq, mem_cons, mem_append, not_mem_nil, or_false]
      constructor
      · rintro rfl
        exact ⟨.inr (.inr rfl), hsame⟩
      · -- An earlier holder of the name would already be in the map.
        rintro ⟨hmem, hnode⟩
        by_contra hne
        refine new ?_
        have hearlier : signed ∈ founder :: others := by
          rcases hmem with h | h | h
          · exact h ▸ mem_cons_self
          · exact mem_cons_of_mem _ h
          · exact absurd h.symm hne
        rw [Std.ExtTreeMap.mem_iff_isSome_getElem?, hsame, (ih.mpr ⟨hearlier, hnode⟩)]
        rfl
    · rename_i different
      rw [ih]
      simp only [mem_cons, mem_append, not_mem_nil, or_false, ← or_assoc,
        and_congr_left_iff, iff_self_or]
      rintro hnode rfl
      exact absurd (hnode ▸ Std.ReflCmp.compare_self) different

theorem Roster.serials :
    (founder :: others).Pairwise (fun a b => a.certificate.serial < b.certificate.serial) ∧
      ∀ signed ∈ founder :: others, signed.certificate.serial ≤ last := by
  induction roster with
  | founder => exact ⟨pairwise_singleton .., by simp⟩
  | @join others members last newest before verified serial room new ih =>
    have hnext : last < newest.certificate.serial := by
      rw [UInt64.lt_iff_toNat_lt, checkedAdd_eq_some.mp serial]
      simp
    rw [← cons_append]
    refine ⟨pairwise_append.mpr ⟨ih.1, pairwise_singleton .., ?_⟩, ?_⟩
    · intro a ha b hb
      rw [mem_singleton.mp hb]
      exact lt_of_le_of_lt (ih.2 a ha) hnext
    · intro signed hsigned
      rcases mem_append.mp hsigned with h | h
      · exact (ih.2 signed h).trans hnext.le
      · rw [mem_singleton.mp h]

theorem Roster.nodup : (founder :: others).Nodup :=
  roster.serials.1.imp fun hlt heq => absurd (heq ▸ hlt) (lt_irrefl _)

/-- The map holds exactly the roster. -/
theorem Roster.values_perm : (members.toList.map Prod.snd).Perm (founder :: others) := by
  have hpairs : members.toList.Perm
      ((founder :: others).map fun signed => (signed.certificate.nodeId, signed)) := by
    refine (perm_ext_iff_of_nodup ?_ ?_).mpr ?_
    · refine Std.ExtTreeMap.distinct_keys_toList.imp ?_
      rintro a b hne rfl
      exact hne Std.ReflCmp.compare_self
    · exact roster.nodup.map fun a b h => (Prod.mk.inj h).2
    · rintro ⟨nodeId, signed⟩
      rw [Std.ExtTreeMap.mem_toList_iff_getElem?_eq_some, roster.getElem?, mem_map]
      constructor
      · rintro ⟨hmem, rfl⟩
        exact ⟨signed, hmem, rfl⟩
      · rintro ⟨found, hmem, hpair⟩
        obtain ⟨rfl, rfl⟩ := Prod.mk.inj hpair
        exact ⟨hmem, rfl⟩
  have hvalues := hpairs.map Prod.snd
  rwa [map_map, show Prod.snd ∘ (fun signed : SignedMembership =>
    (signed.certificate.nodeId, signed)) = id from rfl, map_id] at hvalues

omit roster in
/-- Sorting the other members by serial recovers the order they were admitted in. -/
theorem Roster.otherMemberships_eq {state : LocalState}
    (roster : Roster rootKey founder others state.memberships last) :
    state.otherMemberships founder.certificate.nodeId = others := by
  have hserials := roster.serials.1
  rw [pairwise_cons] at hserials
  have hdistinct : ∀ signed ∈ others, signed.certificate.nodeId ≠ founder.certificate.nodeId := by
    intro signed hsigned hsame
    have hfounder := (roster.getElem? founder.certificate.nodeId founder).mpr
      ⟨mem_cons_self, rfl⟩
    rw [(roster.getElem? _ signed).mpr ⟨mem_cons_of_mem _ hsigned, hsame⟩] at hfounder
    have hlt := hserials.1 signed hsigned
    rw [Option.some.inj hfounder] at hlt
    exact lt_irrefl _ hlt
  have hfilter : (((state.memberships.toList.map Prod.snd).filter fun signed =>
      signed.certificate.nodeId ≠ founder.certificate.nodeId)).Perm others := by
    refine (roster.values_perm.filter _).trans ?_
    rw [filter_cons_of_neg (by simp), filter_eq_self.mpr (by simpa using hdistinct)]
  have htotal : Std.Total fun a b : SignedMembership =>
      a.certificate.serial ≤ b.certificate.serial := ⟨fun a b => le_total _ _⟩
  have htrans : IsTrans SignedMembership fun a b =>
      a.certificate.serial ≤ b.certificate.serial := ⟨fun a b c => le_trans⟩
  have hperm := (perm_insertionSort (fun a b : SignedMembership =>
    a.certificate.serial ≤ b.certificate.serial) _).trans hfilter
  refine List.Perm.eq_of_pairwise ?_ (pairwise_insertionSort ..)
    (hserials.2.imp fun hlt => hlt.le) hperm
  intro a b ha hb hab hba
  -- Members of the roster with one serial are one member.
  have hnodup : (others.map fun signed => signed.certificate.serial).Nodup :=
    pairwise_map.mpr (hserials.2.imp ne_of_lt)
  exact inj_on_of_nodup_map hnodup (hperm.subset ha) hb (le_antisymm hab hba)

theorem Roster.verified : ∀ signed ∈ others, signed.verify rootKey = .ok () := by
  induction roster with
  | founder => simp
  | join before verified serial room new ih =>
    intro signed hsigned
    rcases mem_append.mp hsigned with h | h
    · exact ih signed h
    · rw [mem_singleton.mp h]
      exact verified

theorem Roster.membershipFrames_eq : LocalState.membershipFrames others founder.certificate.serial =
      .ok (others.map fun signed => eventBytes (.membership signed), last) := by
  induction roster with
  | founder => rfl
  | join before verified serial room new ih =>
    rw [map_append]
    exact membershipFrames_concat ih serial (encodeEvent_ok
      (show StateEvent.Storable (.membership _) from GoodMembership.of_verify verified))

end Roster

/-! ## The snapshot -/

/-- The frames of a snapshot before its checkpoint. -/
def snapshotBody (state : LocalState) (founder : SignedMembership)
    (others : List SignedMembership) : List Bytes :=
  eventBytes (.genesis founder state.revocations) ::
    others.map fun signed => eventBytes (.membership signed)

/-- The frames compaction writes for a state with this roster. -/
def snapshot (state : LocalState) (founder : SignedMembership) (others : List SignedMembership) :
    List Bytes :=
  snapshotBody state founder others ++ [eventBytes (signedCheckpoint state.identity
    state.generation state.sequence (snapshotBody state founder others))]

section Snapshot

variable {state : LocalState} {founder : SignedMembership} {others : List SignedMembership}

omit [Sha256] [Ed25519] in
theorem saturatingAdd_ofNat_one {n : Nat} (fits : n + 1 < 2 ^ 64) :
    saturatingAdd (UInt64.ofNat n) 1 = UInt64.ofNat (n + 1) := by
  have hword : (UInt64.ofNat n).toNat = n := by
    rw [UInt64.toNat_ofNat', Nat.mod_eq_of_lt (by omega)]
  rw [saturatingAdd, if_pos (by rw [hword]; exact fits)]
  apply UInt64.toNat.inj
  rw [toNat_add_of_lt (by rw [hword]; exact fits), hword, UInt64.toNat_ofNat',
    Nat.mod_eq_of_lt fits]
  rfl

/-- The membership frames of a snapshot rebuild the roster from the founder state. -/
theorem Roster.replayLoop_eq {identity : LocalIdentity} {last : UInt64}
    {members : Std.ExtTreeMap NodeId SignedMembership}
    (roster : Roster identity.rootVerifyingKey founder others members last)
    (journal : Option Journal) (revocations : SignedRevocationList) (first : Bytes) :
    replayLoop [first] (others.map fun signed => eventBytes (.membership signed))
        (founderState identity journal founder revocations) false =
      .ok ({ founderState identity journal founder revocations with
        memberships := members
        lastMembershipSerial := last
        eventCount := UInt64.ofNat (others.length + 1) }, false) := by
  induction roster with
  | founder => rfl
  | @join others members last signed before verified serial room new ih =>
    have hfits : others.length + 1 + 1 < 2 ^ 64 := by
      have := before.size
      unfold maxHiveMembers at this
      omega
    have hdecode := decodeEvent_eventBytes
      (show StateEvent.Storable (.membership signed) from .of_verify verified)
    rw [map_append, replayLoop_append, ih]
    simp only [ok_bind, map_singleton, replayLoop_singleton hdecode]
    rw [replayEvent_ordinary (show Admissible _ (.membership signed) from
      ⟨verified, serial, room, new⟩), effect, saturatingAdd_ofNat_one hfits,
      length_append, length_singleton]

theorem snapshot_length : (snapshot state founder others).length = others.length + 2 := by
  simp [snapshot, snapshotBody]

theorem snapshot_eq : snapshot state founder others =
    eventBytes (.genesis founder state.revocations) ::
      ((others.map fun signed => eventBytes (.membership signed)) ++
        [eventBytes (signedCheckpoint state.identity state.generation state.sequence
          (snapshotBody state founder others))]) := rfl

omit [Sha256] [Ed25519] in
theorem frameLength_le {payload : Bytes} {bound : Nat} (h : payload.length ≤ bound) :
    frameLength payload ≤ bound + 36 := by
  unfold frameLength lengthBytes checksumBytes
  omega

omit [Ed25519] in
theorem memberFrames_length_le
    (good : ∀ signed ∈ others, GoodMembership signed) :
    ((others.map fun signed => eventBytes (.membership signed)).flatMap frameBytes).length ≤
      636 * others.length := by
  induction others with
  | nil => simp
  | cons signed others ih =>
    have hhead := frameLength_le (eventBytes_length_le
      (show StateEvent.Storable (.membership signed) from good signed mem_cons_self))
    have hrest := ih fun other hother => good other (mem_cons_of_mem _ hother)
    rw [StateEvent.sizeBound] at hhead
    simp only [map_cons, flatMap_cons, length_append, frameBytes_length,
      length_cons]
    omega

variable (roster : Roster state.identity.rootVerifyingKey founder others state.memberships
    state.lastMembershipSerial) (certificate : LocalCertificate state.identity founder)

include roster certificate

theorem Roster.localMembership_eq : state.localMembership = some founder :=
  (roster.getElem? _ founder).mpr ⟨mem_cons_self, certificate.node_eq⟩

variable (verified : state.revocations.verify state.identity.rootVerifyingKey = .ok ())

include verified

theorem compactionFrames_eq : state.compactionFrames = .ok (snapshot state founder others) := by
  have hgenesis : encodeEvent (.genesis founder state.revocations) = .ok _ :=
    encodeEvent_ok ⟨.of_verify certificate.verified, .of_verify verified⟩
  have hcheckpoint : encodeEvent (signedCheckpoint state.identity state.generation state.sequence
      (snapshotBody state founder others)) = .ok _ := encodeEvent_ok trivial
  rw [snapshotBody] at hcheckpoint
  simp only [LocalState.compactionFrames, roster.localMembership_eq certificate, okOr_some,
    ok_bind, hgenesis, roster.otherMemberships_eq, roster.membershipFrames_eq, reject_bind, ne_eq,
    not_true_eq_false, if_false, hcheckpoint]
  rfl

/-- **The snapshot replays to the state it was taken of**, under any handle. -/
theorem replay_snapshot (correct : Ed25519.Correct) (generation : state.generation = 0)
    (journal : Option Journal) :
    replay state.identity journal (snapshot state founder others) = .ok { state with
      journal
      eventCount := UInt64.ofNat (snapshot state founder others).length } := by
  have hgenesis := decodeEvent_eventBytes (show StateEvent.Storable
    (.genesis founder state.revocations) from ⟨.of_verify certificate.verified, .of_verify verified⟩)
  have hcheckpoint : decodeEvent (eventBytes (signedCheckpoint state.identity state.generation
      state.sequence (snapshotBody state founder others))) = .ok _ := decodeEvent_eventBytes trivial
  have hfits : others.length + 1 + 1 < 2 ^ 64 := by
    have := roster.size
    unfold maxHiveMembers at this
    omega
  -- The membership frames rebuild the roster; the checkpoint then restores the sequence.
  have hloop : replayLoop [eventBytes (.genesis founder state.revocations)]
      ((others.map fun signed => eventBytes (.membership signed)) ++
        [eventBytes (signedCheckpoint state.identity state.generation state.sequence
          (snapshotBody state founder others))])
      (founderState state.identity journal founder state.revocations) false =
      .ok ({ state with journal, eventCount := UInt64.ofNat (others.length + 2) }, true) := by
    rw [replayLoop_append, roster.replayLoop_eq, ok_bind]
    show replayLoop (snapshotBody state founder others) _ _ false = _
    rw [replayLoop_singleton hcheckpoint]
    refine (replayEvent_checkpoint
      ⟨rfl, generation, rfl, rfl, rfl, verifyDomain_device correct ..⟩).trans ?_
    rw [effect, saturatingAdd_ofNat_one hfits, generation]
    rfl
  rw [snapshot_length, snapshot_eq, replay, replayGenesis_ok journal hgenesis certificate verified,
    ok_bind, hloop]
  rfl

/-- A snapshot is small: a full hive with a full revocation list stays far below the size at which
the journal is compacted. -/
theorem snapshot_image_length_le : (image (snapshot state founder others)).length ≤ 180000 := by
  have hgenesis := frameLength_le (eventBytes_length_le (show StateEvent.Storable
    (.genesis founder state.revocations) from
      ⟨.of_verify certificate.verified, .of_verify verified⟩))
  have hmembers := memberFrames_length_le fun signed hsigned =>
    GoodMembership.of_verify (roster.verified signed hsigned)
  have hcheckpoint := frameLength_le (eventBytes_length_le (show StateEvent.Storable
    (signedCheckpoint state.identity state.generation state.sequence
      (snapshotBody state founder others)) from trivial))
  have hsize := roster.size
  rw [signedCheckpoint, StateEvent.sizeBound] at hcheckpoint
  rw [StateEvent.sizeBound] at hgenesis
  unfold maxHiveMembers at hsize
  simp only [snapshot_eq, image, flatMap_cons, flatMap_append, flatMap_nil,
    length_append, frameBytes_length, journalMagic_length, length_nil, signedCheckpoint]
  omega

theorem snapshot_storable : Storable (snapshot state founder others) := by
  refine ⟨?_, (snapshot_image_length_le roster certificate verified).trans
    (by unfold maxJournalBytes; omega)⟩
  intro payload hpayload
  simp only [snapshot_eq, mem_cons, mem_append, mem_map, not_mem_nil,
    or_false] at hpayload
  rcases hpayload with rfl | ⟨signed, hsigned, rfl⟩ | rfl
  · exact eventBytes_validPayload
      ⟨.of_verify certificate.verified, .of_verify verified⟩
  · exact eventBytes_validPayload (show StateEvent.Storable (.membership signed) from
      .of_verify (roster.verified signed hsigned))
  · exact eventBytes_validPayload trivial

end Snapshot

/-- **A sound state can be compacted**: it has a snapshot, the snapshot is small, and it replays to
the state it was taken of. -/
theorem Sound.compaction (correct : Ed25519.Correct) (sound : Sound state) :
    ∃ frames, state.compactionFrames = .ok frames ∧ Storable frames ∧
      (image frames).length ≤ 180000 ∧ ∀ journal, replay state.identity journal frames =
        .ok { state with journal, eventCount := UInt64.ofNat frames.length } := by
  obtain ⟨⟨founder, others, hlocal, hroster⟩, hrevocations, hgeneration⟩ := sound
  exact ⟨snapshot state founder others, compactionFrames_eq hroster hlocal hrevocations,
    snapshot_storable hroster hlocal hrevocations,
    snapshot_image_length_le hroster hlocal hrevocations,
    replay_snapshot hroster hlocal hrevocations correct hgeneration⟩

end Supgang.State
