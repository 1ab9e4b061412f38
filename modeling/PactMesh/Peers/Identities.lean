import PactMesh.Peers.Admission
import PactMesh.Peers.TrustAcl

/-!
# The identities a peer manager remembers

For every peer, the manager remembers what its certificate says, with the capabilities that the state
grants.  The table is filled when a connection is admitted, brought up to date when a state arrives,
and cleared of peers that the state rejects.

Main results: `rejected_conn_traceless_iff`, `enforcement_complete_iff`.
-/

namespace PactMesh

open List Function

structure IdentityManager where
  node : PeerManagerNode
  peers : PeerMap
  identities : IdentityTable

namespace IdentityManager

variable (H : HandshakeSuite) (m : IdentityManager)

def currentState : Option SignedNetworkState :=
  match m.node.trustPool, m.node.trustContext with
  | some pool, some ctx => pool.networkState ctx.trustDomainId ctx.networkLocalId
  | _, _ => none

def effectiveCapsFor (fingerprint : MemberCertFingerprint) (baseline : Capabilities) : Capabilities :=
  match m.currentState with
  | some state => effectiveCapabilitiesByFingerprint fingerprint baseline state
  | none => baseline

def identityNow (cert : MemberCert) : TrustAclPeerIdentity :=
  identityOf H cert
    (m.effectiveCapsFor (cert.fingerprint H) cert.details.capabilities)

def rememberTrustAclIdentity (peerId : PeerId) (conn : PeerConn) : IdentityManager :=
  match conn.peerMemberCert H with
  | none => m
  | some cert => { m with identities := m.identities.insert peerId (m.identityNow H cert) }

/-- `PeerManager::add_new_peer_conn`: the identity is remembered before the peer map decides. -/
def addNewPeerConn (conn : PeerConn) : Except AdmissionError Unit × IdentityManager :=
  if m.node.secureMode ≠ !conn.noiseRemoteStaticPubkey.isEmpty then (.error .secureModeMismatch, m)
  else if !conn.matchesLocalTrustDomain H m.node then (.error .trustDomainIdentityNotMatch, m)
  else
    let m := m.rememberTrustAclIdentity H conn.getPeerId conn
    let out := m.peers.offerConn ⟨conn, m.node⟩
    (out.1, { m with peers := out.2 })

def aclNode : TrustAclNode := ⟨m.node.trustContext, m.node.trustPool, m.identities, m.node.now⟩

def refreshed (state : SignedNetworkState) (identity : TrustAclPeerIdentity) :
    TrustAclPeerIdentity :=
  let effective := effectiveCapabilitiesByFingerprint identity.memberCertFingerprint
    identity.certCapabilities state
  { identity with
    canRelayData := effective.canRelayData
    canRelayControl := effective.canRelayControl
    proxyCidrs := proxyCidrsFromCaps effective }

/-- `refresh_effective_trust_capabilities`, as far as peers are concerned. -/
def refreshEffectiveTrustCapabilities : IdentityManager :=
  match m.currentState with
  | none => m
  | some state =>
    { m with
      identities :=
        ⟨m.identities.entries.map (Sigma.map id fun _ => refreshed state), by
          rw [List.NodupKeys, List.keys, map_map]
          exact m.identities.nodupKeys⟩ }

def dropPeer (peerId : PeerId) : IdentityManager :=
  { m with
    identities := m.identities.erase peerId
    peers := update m.peers peerId none }

def enforceCurrentTrustState : IdentityManager :=
  m.identities.entries.foldl
    (fun m' entry =>
      if !peerIdentityAllowedByCurrentTrustState m.aclNode entry.2 then m'.dropPeer entry.1 else m')
    m

end IdentityManager

section Tables

variable {H : HandshakeSuite} {m : IdentityManager} {peerId : PeerId}

open IdentityManager

theorem lookup_refresh {state : SignedNetworkState} (h : m.currentState = some state) :
    m.refreshEffectiveTrustCapabilities.identities.lookup peerId =
      (m.identities.lookup peerId).map (refreshed state) := by
  rw [refreshEffectiveTrustCapabilities, h]
  exact dlookup_map₂ peerId

def Peer.Agrees (peer : Peer) (conn : PeerConn) : Prop :=
  (∀ t ∈ peer.peerIdentityType, t = conn.getPeerIdentityType) ∧
    ∀ key ∈ peer.peerPublicKey, key = conn.noiseRemoteStaticPubkey

theorem any_ne_iff {α : Type} [DecidableEq α] {o : Option α} {a : α} :
    o.any (· ≠ a) = true ↔ ¬ ∀ b ∈ o, b = a := by
  cases o <;> simp

theorem Peer.offerConn_cases (peer : Peer) (a : Admission) :
    (¬ (∀ t ∈ peer.peerIdentityType, t = a.conn.getPeerIdentityType) ∧
      peer.offerConn a = (.error .peerIdentityTypeMismatch, peer)) ∨
    ((∀ t ∈ peer.peerIdentityType, t = a.conn.getPeerIdentityType) ∧
      (¬ ∀ key ∈ peer.peerPublicKey, key = a.conn.noiseRemoteStaticPubkey) ∧
      peer.offerConn a = (.error .peerPublicKeyMismatch,
        { peer with peerIdentityType := some a.conn.getPeerIdentityType })) ∨
    (peer.Agrees a.conn ∧ peer.offerConn a = (.ok (),
      ⟨some a.conn.getPeerIdentityType, some a.conn.noiseRemoteStaticPubkey, a :: peer.conns⟩)) := by
  unfold Peer.offerConn
  by_cases htype : ∀ t ∈ peer.peerIdentityType, t = a.conn.getPeerIdentityType
  · rw [if_neg (by rw [any_ne_iff, not_not]; exact htype)]
    by_cases hkey : ∀ key ∈ peer.peerPublicKey, key = a.conn.noiseRemoteStaticPubkey
    · exact .inr (.inr ⟨⟨htype, hkey⟩, if_neg (by rw [any_ne_iff, not_not]; exact hkey)⟩)
    · exact .inr (.inl ⟨htype, hkey, if_pos (any_ne_iff.2 hkey)⟩)
  · exact .inl ⟨htype, if_pos (any_ne_iff.2 htype)⟩

theorem Peer.offerConn_eq_ok_iff {peer : Peer} {a : Admission} :
    (peer.offerConn a).1 = .ok () ↔ peer.Agrees a.conn := by
  obtain ⟨htype, h⟩ | ⟨-, hkey, h⟩ | ⟨hagrees, h⟩ := peer.offerConn_cases a
  · exact iff_of_false (by rw [h]; nofun) fun hagrees => htype hagrees.1
  · exact iff_of_false (by rw [h]; nofun) fun hagrees => hkey hagrees.2
  · exact iff_of_true (by rw [h]) hagrees

theorem Peer.offerConn_of_not_agrees {peer : Peer} {a : Admission} (h : ¬ peer.Agrees a.conn) :
    (peer.offerConn a).2 = peer ↔ peer.peerIdentityType.isSome = true := by
  obtain ⟨htype, hout⟩ | ⟨htype, hkey, hout⟩ | ⟨hagrees, -⟩ := peer.offerConn_cases a
  · rw [hout, eq_self_iff_true, true_iff, Option.isSome_iff_ne_none]
    intro hnone
    exact htype (by rw [hnone]; nofun)
  · rw [hout]
    cases ht : peer.peerIdentityType with
    | none =>
      refine iff_of_false (fun heq => ?_) nofun
      have hsome := congrArg Peer.peerIdentityType heq
      rw [ht] at hsome
      cases hsome
    | some t =>
      refine iff_of_true ?_ rfl
      rw [← htype t ht, ← ht]
  · exact absurd hagrees h

theorem PeerMap.offerConn_eq_ok_iff {peers : PeerMap} {a : Admission} :
    (peers.offerConn a).1 = .ok () ↔
      ∀ peer, peers a.conn.getPeerId = some peer → peer.Agrees a.conn := by
  unfold PeerMap.offerConn
  cases peers a.conn.getPeerId with
  | none => exact iff_of_true rfl nofun
  | some peer =>
    rw [Peer.offerConn_eq_ok_iff]
    exact ⟨fun h _ heq => Option.some.inj heq ▸ h, fun h => h peer rfl⟩

end Tables

namespace IdentityManager

def SameTables (m m' : IdentityManager) : Prop :=
  (∀ peerId, m'.identities.lookup peerId = m.identities.lookup peerId) ∧ m'.peers = m.peers

def PassesChecks (H : HandshakeSuite) (m : IdentityManager) (conn : PeerConn) : Prop :=
  m.node.secureMode = (!conn.noiseRemoteStaticPubkey.isEmpty) ∧
    conn.matchesLocalTrustDomain H m.node = true

variable {H : HandshakeSuite} {m : IdentityManager} {conn : PeerConn}

/-- A connection is refused by the peer manager itself, or the identity of its certificate is
remembered and the peer map decides. -/
theorem addNewPeerConn_cases (H : HandshakeSuite) (m : IdentityManager) (conn : PeerConn) :
    (¬ m.PassesChecks H conn ∧ ∃ e, m.addNewPeerConn H conn = (.error e, m)) ∨
    (m.PassesChecks H conn ∧ ∃ cert, conn.peerMemberCert H = some cert ∧
      m.addNewPeerConn H conn = ((m.peers.offerConn ⟨conn, m.node⟩).1, { m with
          identities := m.identities.insert conn.getPeerId (m.identityNow H cert)
          peers := (m.peers.offerConn ⟨conn, m.node⟩).2 })) := by
  unfold addNewPeerConn PassesChecks
  by_cases hmode : m.node.secureMode = (!conn.noiseRemoteStaticPubkey.isEmpty)
  · rw [if_neg (not_not.2 hmode)]
    by_cases hlocal : conn.matchesLocalTrustDomain H m.node = true
    · obtain ⟨-, cert, -, hcert, -⟩ := matchesLocalTrustDomain_iff.1 hlocal
      refine .inr ⟨⟨hmode, hlocal⟩, cert, hcert, ?_⟩
      simp [hlocal, rememberTrustAclIdentity, hcert]
    · refine .inl ⟨fun h => hlocal h.2, .trustDomainIdentityNotMatch, ?_⟩
      simp [hlocal]
  · exact .inl ⟨fun h => hmode h.1, .secureModeMismatch, if_pos hmode⟩

theorem lookup_insert_eq_iff {peerId : PeerId} {identity : TrustAclPeerIdentity}
    {identities : IdentityTable} :
    (∀ p, (identities.insert peerId identity).lookup p = identities.lookup p) ↔
      identities.lookup peerId = some identity := by
  constructor
  · intro h
    rw [← h peerId, AList.lookup_insert]
  · intro h p
    by_cases hp : p = peerId
    · rw [hp, AList.lookup_insert, h]
    · rw [AList.lookup_insert_ne hp]

end IdentityManager

open IdentityManager in
/-- **When a rejected connection leaves nothing behind**: it fails the checks of the peer manager,
or no peer under its id disagrees with it, or its identity is remembered already and the peer has an
identity type. -/
theorem rejected_conn_traceless_iff (H : HandshakeSuite) (m : IdentityManager) (conn : PeerConn) :
    ((m.addNewPeerConn H conn).1 ≠ .ok () → m.SameTables (m.addNewPeerConn H conn).2) ↔
      ¬ m.PassesChecks H conn ∨ (∀ peer, m.peers conn.getPeerId = some peer → peer.Agrees conn) ∨
        ((∀ cert, conn.peerMemberCert H = some cert →
            m.identities.lookup conn.getPeerId = some (m.identityNow H cert)) ∧
          ∀ peer, m.peers conn.getPeerId = some peer → peer.peerIdentityType.isSome = true) := by
  obtain ⟨hfails, e, hout⟩ | ⟨hpasses, cert, hcert, hout⟩ := m.addNewPeerConn_cases H conn
  · rw [hout]
    exact iff_of_true (fun _ => ⟨fun _ => rfl, rfl⟩) (.inl hfails)
  rw [hout]
  by_cases hagree : ∀ peer, m.peers conn.getPeerId = some peer → peer.Agrees conn
  · exact iff_of_true (fun h => absurd (PeerMap.offerConn_eq_ok_iff.2 hagree) h) (.inr (.inl hagree))
  · -- the connection is rejected by the peer under its id
    have hrejected : (m.peers.offerConn ⟨conn, m.node⟩).1 ≠ .ok () := fun h =>
      hagree (PeerMap.offerConn_eq_ok_iff.1 h)
    obtain ⟨peer, hpeer, hnot⟩ : ∃ peer, m.peers conn.getPeerId = some peer ∧ ¬ peer.Agrees conn := by
      simpa only [not_forall, exists_prop] using hagree
    have hpeers : (m.peers.offerConn ⟨conn, m.node⟩).2 = m.peers ↔
        peer.peerIdentityType.isSome = true := by
      rw [← Peer.offerConn_of_not_agrees (a := ⟨conn, m.node⟩) hnot]
      simp only [PeerMap.offerConn, hpeer]
      rw [update_eq_self_iff, hpeer, Option.some.injEq]
    have hidentity : (∀ cert, conn.peerMemberCert H = some cert →
        m.identities.lookup conn.getPeerId = some (m.identityNow H cert)) ↔
        m.identities.lookup conn.getPeerId = some (m.identityNow H cert) := by
      rw [hcert]
      exact ⟨fun h => h cert rfl, fun h _ hc => Option.some.inj hc ▸ h⟩
    simp only [SameTables, lookup_insert_eq_iff, hpeers, hidentity, hpasses, hnot, not_true,
      false_or, hpeer, Option.some.injEq, forall_eq', ne_eq, hrejected, not_false_eq_true,
      forall_const]

/-! A node in secure mode, and connections under the peer id 7 -/

def sampleIdentityManager : IdentityManager where
  node := { sampleHandshakeNode with secureMode := true, privateMode := false }
  peers _ := none
  identities := ∅

def connAs7 (device staticKey : UInt8) : PeerConn :=
  .ofNoise sampleHandshakeSuite
    { peerId := 7
      session := .new "office" 3 7 (all32 0) 1 0 "aes-gcm" "aes-gcm" none 0
      remoteStaticPubkey := List.replicate 32 staticKey
      secureAuthLevel := .trustDomainVerified
      peerIdentityType := .admin
      remoteNetworkName := "office"
      memberCert := some (sampleCert (all32 device))
      remoteEncryptAlgo := "aes-gcm" }

def managerWith7 : IdentityManager :=
  (sampleIdentityManager.addNewPeerConn sampleHandshakeSuite (connAs7 4 1)).2

def deviceIdentity (device : UInt8) : TrustAclPeerIdentity :=
  identityOf sampleSuite (sampleCert (all32 device)) ⟨true, true, [], false⟩

/-- **A connection that is rejected replaces the identity of the peer that is connected.** -/
theorem rejected_conn_replaces_identity :
    managerWith7.identities.lookup 7 = some (deviceIdentity 4) ∧
      (managerWith7.addNewPeerConn sampleHandshakeSuite (connAs7 5 2)).1 =
        .error .peerPublicKeyMismatch ∧
      (managerWith7.addNewPeerConn sampleHandshakeSuite (connAs7 5 2)).2.identities.lookup 7 =
        some (deviceIdentity 5) := by
  decide +kernel

/-- A connection with another key and the certificate of the peer that is connected is rejected
without a trace. -/
theorem same_device_rejected_traceless :
    (managerWith7.addNewPeerConn sampleHandshakeSuite (connAs7 4 2)).1 =
        .error .peerPublicKeyMismatch ∧ managerWith7.SameTables
        (managerWith7.addNewPeerConn sampleHandshakeSuite (connAs7 4 2)).2 := by
  have hrejected : (managerWith7.addNewPeerConn sampleHandshakeSuite (connAs7 4 2)).1 =
      .error .peerPublicKeyMismatch := by
    decide +kernel
  refine ⟨hrejected, (rejected_conn_traceless_iff _ _ _).2 (.inr (.inr ⟨?_, ?_⟩)) ?_⟩
  · rintro cert hcert
    cases hcert
    decide +kernel
  · intro peer hpeer
    have hall : (managerWith7.peers (connAs7 4 2).getPeerId).all fun peer =>
        peer.peerIdentityType.isSome := by
      decide +kernel
    rw [hpeer] at hall
    exact hall
  · rw [hrejected]
    nofun

namespace IdentityManager

variable {m : IdentityManager} {peerId : PeerId}

/-- What the tables hold for a peer. -/
def held (m : IdentityManager) (peerId : PeerId) : Option TrustAclPeerIdentity × Option Peer :=
  (m.identities.lookup peerId, m.peers peerId)

theorem held_dropPeer {p : PeerId} :
    (m.dropPeer p).held peerId = if p = peerId then (none, none) else m.held peerId := by
  split_ifs with hp
  · rw [hp]
    exact Prod.ext (AList.lookup_erase ..) (update_self ..)
  · exact Prod.ext (AList.lookup_erase_ne (Ne.symm hp)) (update_of_ne (Ne.symm hp) ..)

theorem held_foldl_dropPeer (rejected : TrustAclPeerIdentity → Bool)
    (entries : List (Σ _ : PeerId, TrustAclPeerIdentity)) (m : IdentityManager) :
    (entries.foldl (fun m' entry => if rejected entry.2 then m'.dropPeer entry.1 else m') m).held
      peerId = if entries.any fun entry => entry.1 = peerId && rejected entry.2 then (none, none)
        else m.held peerId := by
  induction entries generalizing m with
  | nil => rfl
  | cons entry entries ih =>
    rw [foldl_cons, ih, any_cons]
    by_cases hrej : rejected entry.2 = true
    · rw [if_pos hrej, held_dropPeer]
      grind
    · rw [if_neg hrej, Bool.eq_false_iff.2 hrej, Bool.and_false, Bool.false_or]

def Rejected (m : IdentityManager) (peerId : PeerId) : Prop :=
  ∃ identity, m.identities.lookup peerId = some identity ∧
    peerIdentityAllowedByCurrentTrustState m.aclNode identity = false

/-- **Enforcement drops and closes the peers that the state revokes or disables**, and touches no
other. -/
theorem enforce_spec (m : IdentityManager) (peerId : PeerId) :
    (m.Rejected peerId → m.enforceCurrentTrustState.identities.lookup peerId = none ∧
      m.enforceCurrentTrustState.peers peerId = none) ∧ (¬ m.Rejected peerId →
      m.enforceCurrentTrustState.identities.lookup peerId = m.identities.lookup peerId ∧
      m.enforceCurrentTrustState.peers peerId = m.peers peerId) := by
  have hmem : m.Rejected peerId ↔ (m.identities.entries.any fun entry => entry.1 = peerId &&
      !peerIdentityAllowedByCurrentTrustState m.aclNode entry.2) = true := by
    simp [Rejected, ← AList.mem_lookup_iff]
  have hheld := @held_foldl_dropPeer peerId
    (fun identity => !peerIdentityAllowedByCurrentTrustState m.aclNode identity)
    m.identities.entries m
  rw [hmem]
  exact ⟨fun h => Prod.ext_iff.1 (hheld.trans (if_pos h)),
    fun h => Prod.ext_iff.1 (hheld.trans (if_neg h))⟩

end IdentityManager

def TrustAclPeerIdentity.BelongsTo (T : TrustSuite) (identity : TrustAclPeerIdentity)
    (cert : MemberCert) : Prop := identity.memberCertFingerprint = cert.fingerprint T

def HandshakeNode.IsLocal (node : HandshakeNode) (cert : MemberCert) : Prop :=
  ∃ ctx, node.trustContext = some ctx ∧ cert.details.trustDomainId = ctx.trustDomainId ∧
    cert.details.networkLocalId = ctx.networkLocalId

/-- What enforcement does not look at: signature, expiry, a state as new as the certificate says,
and revocation in other networks. -/
structure PassesUnenforced (T : TrustSuite) (node : HandshakeNode) (pool : TrustDomainPool)
    (cert : MemberCert) (entry : TrustDomainEntry) (state : SignedNetworkState) : Prop where
  domain : pool.domains cert.details.trustDomainId = some entry
  signed : cert.verify T entry.pkRoot = .ok ()
  network : entry.networks cert.details.networkLocalId = some state
  notFuture : cert.details.networkStateVersionRef ≤ state.details.version
  notExpired : node.now < cert.details.expiresAt
  elsewhere : ¬ node.IsLocal cert → state.isRevoked (cert.fingerprint T) node.now = false ∧
    state.isDisabled (cert.fingerprint T) node.now = false

/-- For a node on the pool, a certificate passes the pool just if enforcement lets its identity stay
and the rest of the checks hold. -/
theorem verifyMemberCert_of_allowed {T : TrustSuite} {m : IdentityManager} {pool : TrustDomainPool}
    {cert : MemberCert} {identity : TrustAclPeerIdentity} (hpool : m.node.trustPool = some pool)
    (hcert : identity.BelongsTo T cert)
    (hallowed : peerIdentityAllowedByCurrentTrustState m.aclNode identity = true) :
    pool.verifyMemberCert T cert m.node.now = .ok cert ↔
      ∃ entry state, PassesUnenforced T m.node.toHandshakeNode pool cert entry state := by
  rw [TrustDomainPool.verifyMemberCert_eq_ok_iff]
  constructor
  · rintro ⟨-, entry, state, hdom, hsigned, hnet, hversion, hexp, hrev, hdis⟩
    exact ⟨entry, state, hdom, hsigned, hnet, hversion, hexp, fun _ => ⟨hrev, hdis⟩⟩
  · rintro ⟨entry, state, h⟩
    have hclear : state.isRevoked (cert.fingerprint T) m.node.now = false ∧
        state.isDisabled (cert.fingerprint T) m.node.now = false := by
      by_cases hlocal : m.node.toHandshakeNode.IsLocal cert
      · -- the state that enforcement looks at is the state of the certificate's network
        obtain ⟨ctx, hctx, htd, hnlid⟩ := hlocal
        have hstate : pool.networkState ctx.trustDomainId ctx.networkLocalId = some state := by
          rw [TrustDomainPool.networkState, ← htd, ← hnlid, h.domain, Option.bind_some, h.network]
        have hctx' : m.aclNode.trustContext = some ctx := hctx
        have hpool' : m.aclNode.trustPool = some pool := hpool
        simp only [peerIdentityAllowedByCurrentTrustState, hpool', hctx', hstate, Bool.and_eq_true,
          Bool.not_eq_true'] at hallowed
        rw [← hcert]
        exact hallowed
      · exact h.elsewhere hlocal
    exact ⟨rfl, entry, state, h.domain, h.signed, h.network, h.notFuture, h.notExpired, hclear⟩

/-- **When enforcement leaves only identities that would be admitted**: the certificates that it
does not find revoked or disabled are signed, have not expired and do not refer to a future state.
-/
theorem enforcement_complete_iff (T : TrustSuite) (m : IdentityManager) (pool : TrustDomainPool)
    (hpool : m.node.trustPool = some pool) :
    ((∀ peerId identity cert, m.enforceCurrentTrustState.identities.lookup peerId = some identity →
        identity.BelongsTo T cert → pool.verifyMemberCert T cert m.node.now = .ok cert) ∧
      ∀ peerId, m.enforceCurrentTrustState.identities.lookup peerId ≠ m.identities.lookup peerId →
        m.enforceCurrentTrustState.peers peerId = none) ↔
      ∀ peerId identity cert, m.identities.lookup peerId = some identity →
        identity.BelongsTo T cert →
        peerIdentityAllowedByCurrentTrustState m.aclNode identity = true →
        ∃ entry state, PassesUnenforced T m.node.toHandshakeNode pool cert entry state := by
  have hkept : ∀ {peerId identity}, m.identities.lookup peerId = some identity →
      peerIdentityAllowedByCurrentTrustState m.aclNode identity = true → ¬ m.Rejected peerId := by
    rintro peerId identity hlookup hallowed ⟨identity', hlookup', hrej⟩
    obtain rfl : identity' = identity := Option.some.inj (hlookup'.symm.trans hlookup)
    rw [hallowed] at hrej
    cases hrej
  constructor
  · rintro ⟨hall, -⟩ peerId identity cert hlookup hcert hallowed
    have hstays := ((m.enforce_spec peerId).2 (hkept hlookup hallowed)).1
    exact (verifyMemberCert_of_allowed hpool hcert hallowed).1
      (hall peerId identity cert (hstays.trans hlookup) hcert)
  · intro hcond
    refine ⟨fun peerId identity cert hlookup hcert => ?_, fun peerId hchanged => ?_⟩
    · by_cases hrej : m.Rejected peerId
      · rw [((m.enforce_spec peerId).1 hrej).1] at hlookup
        cases hlookup
      · have hbefore := ((m.enforce_spec peerId).2 hrej).1.symm.trans hlookup
        have hallowed : peerIdentityAllowedByCurrentTrustState m.aclNode identity = true := by
          by_contra hnot
          exact hrej ⟨identity, hbefore, Bool.eq_false_iff.2 hnot⟩
        exact (verifyMemberCert_of_allowed hpool hcert hallowed).2
          (hcond peerId identity cert hbefore hcert hallowed)
    · by_cases hrej : m.Rejected peerId
      · exact ((m.enforce_spec peerId).1 hrej).2
      · exact absurd ((m.enforce_spec peerId).2 hrej).1 hchanged

def managerWith7At (now : UInt64) : IdentityManager :=
  { managerWith7 with node := { managerWith7.node with now := now } }

/-- **An identity outlives its certificate**: the certificate of peer 7 has expired, and enforcement
leaves the peer and its identity. -/
theorem expired_identity_stays :
    ((managerWith7At 2000).enforceCurrentTrustState.identities.lookup 7 = some (deviceIdentity 4)) ∧
      ((managerWith7At 2000).enforceCurrentTrustState.peers 7).isSome = true ∧
      (deviceIdentity 4).BelongsTo sampleSuite (sampleCert (all32 4)) ∧
      (samplePool [1]).verifyMemberCert sampleSuite (sampleCert (all32 4)) 2000 =
        .error (.expired 2000 1000) :=
  ⟨by decide +kernel, by decide +kernel, rfl, by decide +kernel⟩

def fingerprint4 : MemberCertFingerprint := (sampleCert (all32 4)).fingerprint sampleSuite

def revokingPool : TrustDomainPool :=
  poolHolding (stateWith { samplePayload [1] with
    revokedCerts := [⟨fingerprint4, 0, .deviceLost, none⟩] })

/-- The node after a state that gives device 4 other capabilities than its certificate. -/
def nodeGranting (capabilities : Capabilities) : PeerManagerNode :=
  { managerWith7.node with
    trustPool := some (poolHolding (stateWith { samplePayload [1] with
      capabilityGrants := [⟨fingerprint4, capabilities, 0⟩] })) }

def revokingManager : IdentityManager :=
  { managerWith7 with node := { managerWith7.node with trustPool := some revokingPool } }

/-- A revoked peer is forgotten and closed, and nothing is left that would not be admitted. -/
theorem revoked_identity_dropped :
    (revokingManager.identities.lookup 7).isSome = true ∧
      revokingManager.enforceCurrentTrustState.peers 7 = none ∧ ∀ peerId identity cert,
        revokingManager.enforceCurrentTrustState.identities.lookup peerId = some identity →
        identity.BelongsTo sampleSuite cert →
        revokingPool.verifyMemberCert sampleSuite cert revokingManager.node.now = .ok cert := by
  have hentries : revokingManager.identities.entries = [⟨7, deviceIdentity 4⟩] := by decide +kernel
  have hcond : ∀ peerId identity cert, revokingManager.identities.lookup peerId = some identity →
      identity.BelongsTo sampleSuite cert →
      peerIdentityAllowedByCurrentTrustState revokingManager.aclNode identity = true →
      ∃ entry state, PassesUnenforced sampleSuite revokingManager.node.toHandshakeNode revokingPool
        cert entry state := by
    intro peerId identity cert hlookup _ hallowed
    have hmem := AList.mem_lookup_iff.1 hlookup
    rw [hentries] at hmem
    cases mem_singleton.1 hmem
    have hrevoked : peerIdentityAllowedByCurrentTrustState revokingManager.aclNode
        (deviceIdentity 4) = false := by
      decide +kernel
    rw [hrevoked] at hallowed
    cases hallowed
  obtain ⟨hall, hclosed⟩ := (enforcement_complete_iff sampleSuite revokingManager revokingPool
    rfl).2 hcond
  exact ⟨by decide +kernel, hclosed 7 (by decide +kernel), hall⟩

end PactMesh
