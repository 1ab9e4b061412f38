import PactMesh.Lib.Trans
import PactMesh.Peers.PeerConn

/-!
# Who is in the peer map

The peer manager takes and opens tunnels while its configuration changes and connections close.  Has
every connection in the peer map presented a certificate that the pool accepted for the local trust
domain and network?

Main result: `admitted_of_checksAnswer`.
-/

namespace PactMesh

structure PeerManager where
  node : PeerManagerNode
  store : PeerSessionStore
  peers : PeerMap

inductive ManagerEvent
  /-- a tunnel is accepted; `notLoop` says that it does not come from the virtual network -/
  | inbound (notLoop : Bool) (first : FirstPacket)
  /-- a tunnel is opened -/
  | outbound (conn : ClientConn) (inputs : ClientInputs)
  /-- a connection closes -/
  | close (peerId : PeerId) (i : Nat)
  /-- time passes, or the configuration, the trust context or the pool changes -/
  | reconfigure (node : PeerManagerNode)
  /-- the sessions change for another reason -/
  | sessions (store : PeerSessionStore)

namespace PeerManager

variable (H : HandshakeSuite) (m : PeerManager)

/-- `add_tunnel_as_server`: the peer map afterwards, and the sessions. -/
def addTunnelAsServer (notLoop : Bool) (first : FirstPacket) :
    Except AdmissionError PeerMap × PeerSessionStore :=
  if !notLoop then (.error .loop, m.store)
  else
    match m.node.trustContext with
    | none => (.error .trustContextNotConfigured, m.store)
    | some ctx =>
      match doHandshakeAsServerExt H m.node m.store first with
      | (.error e, store) => (.error (.handshake e), store)
      | (.ok conn, store) =>
        let isLocalNetwork := conn.matchesLocalTrustDomain H m.node
        let foreignNetworkAllowed := (conn.peerTrustDomainId H).any (· = ctx.trustDomainId)
        if !isLocalNetwork && m.node.privateMode && !foreignNetworkAllowed then
          (.error .privateMode, store)
        else if isLocalNetwork then (addNewPeerConn H m.node m.peers conn, store)
        -- the foreign network manager takes it: the local peer map stays as it is
        else (.ok m.peers, store)

/-- `add_client_tunnel_with_peer_id_hint` and `try_direct_connect_with_borrowed_proof`. -/
def addClientTunnel (cc : ClientConn) (inputs : ClientInputs) :
    Except AdmissionError PeerMap × PeerSessionStore :=
  match doHandshakeAsClient H m.node m.store cc inputs with
  | (.error e, store) => (.error (.handshake e), store)
  | (.ok conn, store) =>
    if conn.info.networkName = m.node.networkName then
      (addNewPeerConn H m.node m.peers conn, store)
    -- the foreign network client takes it
    else (.ok m.peers, store)

def withOutcome (out : Except AdmissionError PeerMap × PeerSessionStore) : PeerManager :=
  match out with
  | (.error _, store) => { m with store }
  | (.ok peers, store) => { m with store, peers }

def step : ManagerEvent → PeerManager
  | .inbound notLoop first => m.withOutcome (m.addTunnelAsServer H notLoop first)
  | .outbound cc inputs => m.withOutcome (m.addClientTunnel H cc inputs)
  | .close peerId i =>
    { m with
      peers := fun p => if p = peerId then (m.peers p).map (·.closeConn i) else m.peers p }
  | .reconfigure node => { m with node }
  | .sessions store => { m with store }

end PeerManager

open PeerManager

variable (H : HandshakeSuite)

/-- The connection presented a certificate that the pool accepted during the handshake, for the
local trust domain and network. -/
def Admission.Verified (a : Admission) : Prop :=
  ∃ cert pool ctx, a.conn.peerMemberCert H = some cert ∧ a.node.trustPool = some pool ∧
    pool.verifyMemberCert H cert a.node.now = .ok cert ∧
    a.node.trustContext = some ctx ∧ cert.details.trustDomainId = ctx.trustDomainId ∧
    cert.details.networkLocalId = ctx.networkLocalId

def AllVerified (m : PeerManager) : Prop :=
  ∀ peerId peer, m.peers peerId = some peer → ∀ a ∈ peer.conns, a.Verified H

/-- Without secure mode, a tunnel is opened only to a peer whose signed answers carry certificates
that the pool accepts. -/
def ChecksAnswer (m : PeerManager) : ManagerEvent → Prop
  | .outbound _ inputs => m.node.secureMode = false → ∀ req ∈ inputs.received, SignedRequest H req →
        ∃ cert, verifyCertCbor H m.node.toHandshakeNode req.memberCertCbor = .ok cert
  | _ => True

variable {H} {m : PeerManager}

theorem verified_of_addNewPeerConn {conn : PeerConn} {peers' : PeerMap}
    (hchecked : conn.Checked H m.node) (h : addNewPeerConn H m.node m.peers conn = .ok peers') :
    Admission.Verified H ⟨conn, m.node⟩ := by
  obtain ⟨cert, pool, hcert, hpool, hver⟩ := hchecked
  obtain ⟨ctx, cert', hctx, hcert', htd, hnl⟩ :=
    matchesLocalTrustDomain_iff.1 (addNewPeerConn_ok h).1
  rw [hcert, Option.some.injEq] at hcert'
  subst hcert'
  exact ⟨cert, pool, ctx, hcert, hpool, hver, hctx, htd, hnl⟩

theorem allVerified_add (hm : AllVerified H m) {conn : PeerConn} (hchecked : conn.Checked H m.node)
    (store : PeerSessionStore) :
    AllVerified H (m.withOutcome (addNewPeerConn H m.node m.peers conn, store)) := by
  cases h : addNewPeerConn H m.node m.peers conn with
  | error e => exact hm
  | ok peers' =>
    intro peerId peer hp a ha
    rw [(addNewPeerConn_ok h).2] at hp
    rcases PeerMap.mem_offerConn hp ha with rfl | ⟨old, hold, ha⟩
    · exact verified_of_addNewPeerConn hchecked h
    · exact hm peerId old hold a ha

theorem Peer.mem_of_mem_closeConn {peer : Peer} {i : Nat} {a : Admission}
    (h : a ∈ (peer.closeConn i).conns) : a ∈ peer.conns := by
  simp only [Peer.closeConn] at h
  split_ifs at h
  · cases h
  · exact List.mem_of_mem_eraseIdx h

theorem allVerified_inbound (hm : AllVerified H m) (notLoop : Bool) (first : FirstPacket) :
    AllVerified H (m.withOutcome (m.addTunnelAsServer H notLoop first)) := by
  unfold addTunnelAsServer
  cases notLoop with
  | false => exact hm
  | true =>
    cases m.node.trustContext with
    | none => exact hm
    | some ctx =>
      cases hout : doHandshakeAsServerExt H m.node m.store first with
      | mk result store =>
        cases result with
        | error e => exact hm
        | ok conn =>
          have hchecked : conn.Checked H m.node :=
            doHandshakeAsServerExt_checked (congrArg Prod.fst hout)
          simp only [if_not_true]
          split_ifs with _ hlocal
          · exact hm
          · exact allVerified_add hm hchecked store
          · exact hm

theorem allVerified_outbound (hm : AllVerified H m) {cc : ClientConn} {inputs : ClientInputs}
    (hguard : ChecksAnswer H m (.outbound cc inputs)) :
    AllVerified H (m.withOutcome (m.addClientTunnel H cc inputs)) := by
  unfold addClientTunnel
  cases hout : doHandshakeAsClient H m.node m.store cc inputs with
  | mk result store =>
    cases result with
    | error e => exact hm
    | ok conn =>
      simp only
      split_ifs with hname
      swap
      · exact hm
      refine allVerified_add hm ?_ store
      rcases doHandshakeAsClient_checked (congrArg Prod.fst hout) hname with
        ⟨-, hchecked⟩ | ⟨hmode, hconn, hmem, hsigned⟩
      · exact hchecked
      · -- the answer was only signed; that its certificate passes is the condition
        obtain ⟨cert, hv⟩ := hguard hmode conn.info hmem hsigned
        rw [hconn]
        exact checked_plain hv

theorem allVerified_step (hm : AllVerified H m) {ev : ManagerEvent} (hguard : ChecksAnswer H m ev) :
    AllVerified H (m.step H ev) := by
  cases ev with
  | inbound notLoop first => exact allVerified_inbound hm notLoop first
  | outbound cc inputs => exact allVerified_outbound hm hguard
  | close peerId i =>
    intro p peer hp a ha
    simp only [step] at hp
    split_ifs at hp
    · obtain ⟨old, hold, rfl⟩ := Option.map_eq_some_iff.1 hp
      exact hm p old hold a (Peer.mem_of_mem_closeConn ha)
    · exact hm p peer hp a ha
  | reconfigure node => exact hm
  | sessions store => exact hm

/-- **Every connection of the peer map has presented an accepted certificate**, over every run in
which a node without secure mode opens tunnels only to peers whose signed answers carry such
certificates. -/
theorem admitted_of_checksAnswer (H : HandshakeSuite) (node : PeerManagerNode)
    (store : PeerSessionStore) {events : List ManagerEvent} {m : PeerManager}
    (hrun : ((Trans.ofFun (step H)).guard (ChecksAnswer H)).Run
      ⟨node, store, fun _ => none⟩ events m) : AllVerified H m := by
  refine hrun.invariant (fun _ _ h => by cases h) ?_
  rintro s ev _ hs ⟨hguard, rfl⟩
  exact allVerified_step hs hguard

def sampleManager : PeerManager where
  node := { sampleHandshakeNode with secureMode := false, privateMode := false }
  store := .empty
  peers _ := none

/-- The request of the device with key `[7, 7, …]`, signed with that key. -/
def sampleRequest (memberCertCbor : List UInt8) : HandshakeRequest where
  magic := MAGIC
  myPeerId := 7
  version := VERSION
  features := []
  networkName := "office"
  memberCertCbor := memberCertCbor
  applicantNonce := List.replicate 16 0
  applicantSignature := List.replicate 64 7

def sampleAnswer (memberCertCbor : List UInt8) : ClientInputs where
  msg2 := none
  sent := true
  nowMs := 0
  received := [sampleRequest memberCertCbor]

/-- A member of the network that answers is admitted, and has been checked. -/
theorem signed_member_admitted :
    ∃ m, ((Trans.ofFun (step sampleHandshakeSuite)).guard
        (ChecksAnswer sampleHandshakeSuite)).Run sampleManager
        [.outbound (openConn 1) (sampleAnswer (1 :: List.replicate 32 7))] m ∧
      (m.peers 7).isSome = true ∧ AllVerified sampleHandshakeSuite m := by
  set ev : ManagerEvent := .outbound (openConn 1) (sampleAnswer (1 :: List.replicate 32 7))
  have hguard : ChecksAnswer sampleHandshakeSuite sampleManager ev := by
    rintro - req hreq -
    have hv : verifyCertCbor sampleHandshakeSuite sampleHandshakeNode
        (1 :: List.replicate 32 7) = .ok (sampleCert (all32 7)) := by decide +kernel
    rw [List.mem_singleton.1 hreq]
    exact ⟨_, hv⟩
  have hrun : ((Trans.ofFun (step sampleHandshakeSuite)).guard
      (ChecksAnswer sampleHandshakeSuite)).Run sampleManager [ev]
      (sampleManager.step sampleHandshakeSuite ev) := .cons ⟨hguard, rfl⟩ .nil
  exact ⟨_, hrun, by decide +kernel, admitted_of_checksAnswer _ _ _ hrun⟩

/-- **Without secure mode, a peer that signs its own certificate's key is admitted by the node that
calls it, although the root has signed nothing.** -/
theorem forged_cert_admitted :
    ∃ m, (Trans.ofFun (step sampleHandshakeSuite)).Run sampleManager
        [.outbound (openConn 1) (sampleAnswer (2 :: List.replicate 32 7))] m ∧
      ¬ AllVerified sampleHandshakeSuite m := by
  refine ⟨_, .cons rfl .nil, fun h => ?_⟩
  have hpeer : ((sampleManager.step sampleHandshakeSuite
      (.outbound (openConn 1) (sampleAnswer (2 :: List.replicate 32 7)))).peers 7).map (·.conns) =
      some [⟨⟨none, sampleRequest (2 :: List.replicate 32 7), true⟩, sampleManager.node⟩] := rfl
  obtain ⟨peer, hp, hconns⟩ := Option.map_eq_some_iff.1 hpeer
  obtain ⟨cert, pool, ctx, hcert, hpool, hver, -⟩ :=
    h 7 peer hp _ (hconns ▸ List.mem_singleton_self _)
  cases hpool
  cases hcert
  have hbad : (samplePool [1]).verifyMemberCert sampleHandshakeSuite
      { sampleCert (all32 7) with signature := [] } 5 ≠
      .ok { sampleCert (all32 7) with signature := [] } := by decide +kernel
  exact hbad hver

end PactMesh
