import PactMesh.Lib.NoiseXX
import PactMesh.Peers.Handshake

/-!
# Proof of possession in the Noise handshake

A member certificate names the device key of its holder.  The Noise handshake proves that the remote
has the secret of its Noise static key, and carries the certificate as payload.  Has a node that
accepts a certificate also been shown the secret of the device key?

The adversary is symbolic: it holds a set of terms, sees what the node sends, and sends what it can
derive.  Byte strings and connection ids have to be known before they can be put into a payload
(`Assemble`); numbers and names can be guessed.

Main result: `possession_iff`.
-/

namespace PactMesh

open Symbolic NoiseXX

inductive Secret
  | device (pk : Bytes32)
  | noise (pk : Key32)
deriving DecidableEq

def Secret.publicBytes : Secret → List UInt8
  | .device pk => pk.toList
  | .noise pk => pk.toList

inductive Payload
  | text (s : String)
  | connId (id : ConnId)
  | bytes (b : List UInt8)
  | msg1 (m : NoiseMsg1)
  | msg2 (m : NoiseMsg2)
  | msg3 (m : NoiseMsg3)
deriving DecidableEq

abbrev Wire := Term Secret Payload

inductive Assemble : List Payload → Payload → Prop
  | text (s : String) : Assemble [] (.text s)
  | msg1 (a : ConnId) (version : UInt32) (name : String) (generation : Option UInt32)
      (algorithm : String) :
      Assemble [.connId a] (.msg1 ⟨version, name, generation, some a, algorithm⟩)
  | msg2 (a b : ConnId) (rootKey cert : List UInt8) (name : String) (roleHint : UInt32)
      (action : Option PeerSessionAction) (generation epoch : UInt32) (algorithm : String) :
      Assemble [.connId a, .connId b, .bytes rootKey, .bytes cert]
        (.msg2 ⟨name, roleHint, action, generation, some rootKey, epoch, some b, some a, algorithm,
          cert⟩)
  | msg3 (a b : ConnId) (cert : List UInt8) :
      Assemble [.connId a, .connId b, .bytes cert] (.msg3 ⟨some a, some b, cert, none⟩)
  | msg3Borrowed (a b : ConnId) (cert proof : List UInt8) :
      Assemble [.connId a, .connId b, .bytes cert, .bytes proof]
        (.msg3 ⟨some a, some b, cert, some proof⟩)
  | msg1ConnId (m : NoiseMsg1) (a : ConnId) (h : m.aConnId = some a) :
      Assemble [.msg1 m] (.connId a)
  | msg2ConnId (m : NoiseMsg2) (b : ConnId) (h : m.bConnId = some b) :
      Assemble [.msg2 m] (.connId b)
  | msg2RootKey (m : NoiseMsg2) (k : List UInt8) (h : m.rootKey32 = some k) :
      Assemble [.msg2 m] (.bytes k)
  | msg2Cert (m : NoiseMsg2) : Assemble [.msg2 m] (.bytes m.memberCertCbor)
  | msg3Cert (m : NoiseMsg3) : Assemble [.msg3 m] (.bytes m.memberCertCbor)

/-- What can be put together from the knowledge. -/
abbrev Knows : Set Wire → Wire → Prop := Derivable Assemble

def noiseStart : SymmetricState Secret Payload :=
  .start (.data (.text "Noise_XX_25519_ChaChaPoly_SHA256"))
    (.data (.text "easytier-peerconn-noise"))

def Uncompromised (view : Set Wire) (secrets : List Secret) : Prop :=
  ∀ n ∈ secrets, ¬ Knows view (.sec n)

/-- Whoever has the device key took part in the handshake in which the node drew this ephemeral key:
one of the terms around was made with the device key for that handshake. -/
def HolderTookPart (knowledge : Set Wire) (cert : MemberCert) (ephemeral : Key32) : Prop :=
  ∃ t ∈ knowledge, t.Uses (.device cert.details.devicePk) ∧ t.Mentions (.noise ephemeral)

structure ResponderRun (H : HandshakeSuite) (node : HandshakeNode) where
  /-- what the adversary holds, and what others ever tell it -/
  knowledge : Set Wire
  wire1 : Wire
  wire1_derivable : Knows knowledge wire1
  remoteEphemeral : Secret
  msg1 : NoiseMsg1
  state1 : SymmetricState Secret Payload
  reads1 : readMsg1 noiseStart wire1 = some (remoteEphemeral, .data (.msg1 msg1), state1)
  /-- what the node finds and draws -/
  store : PeerSessionStore
  handshakeRecved : String → Except HandshakeError PeerId
  srcPeerId : PeerId
  newRootKey : Key32
  bConnId : ConnId
  nowMs : UInt64
  ephemeral : Key32
  pending : ServerPending
  msg2 : NoiseMsg2
  responds : (serverRespond H node store handshakeRecved srcPeerId msg1 newRootKey bConnId nowMs).1
    = .ok (pending, msg2)
  wire3 : Wire
  wire3_derivable : Knows (insert (writeMsg2 state1 remoteEphemeral (.noise ephemeral)
    (.noise node.localStaticPubkey) (.data (.msg2 msg2))).1 knowledge) wire3
  remoteStatic : Secret
  msg3 : NoiseMsg3
  state3 : SymmetricState Secret Payload
  reads3 : readMsg3 (writeMsg2 state1 remoteEphemeral (.noise ephemeral)
    (.noise node.localStaticPubkey) (.data (.msg2 msg2))).2 (.noise ephemeral) wire3
    = some (remoteStatic, .data (.msg3 msg3), state3)
  /-- the store when msg3 arrives, which other handshakes may have changed -/
  store3 : PeerSessionStore

namespace ResponderRun

variable {H : HandshakeSuite} {node : HandshakeNode} (run : ResponderRun H node)

def wire2 : Wire :=
  (writeMsg2 run.state1 run.remoteEphemeral (.noise run.ephemeral) (.noise node.localStaticPubkey)
    (.data (.msg2 run.msg2))).1

def view : Set Wire := insert run.wire2 run.knowledge

def Accepts (cert : MemberCert) : Prop :=
  ∃ r, (serverFinish H node run.store3 run.pending run.msg3 run.remoteStatic.publicBytes).1 = .ok r ∧
    r.memberCert = some cert

def Fair (cert : MemberCert) : Prop :=
  Uncompromised run.view
    [.noise run.ephemeral, .noise node.localStaticPubkey, .device cert.details.devicePk]

end ResponderRun

structure InitiatorRun (H : HandshakeSuite) (node : HandshakeNode) where
  knowledge : Set Wire
  conn : ClientConn
  /-- the store when the node starts -/
  store : PeerSessionStore
  ephemeral : Key32
  wire2 : Wire
  wire2_derivable : Knows (insert (writeMsg1 noiseStart (.noise ephemeral)
    (.data (.msg1 (clientStart node store conn).1))).1 knowledge) wire2
  srcPeerId : PeerId
  remoteEphemeral : Secret
  remoteStatic : Secret
  msg2 : NoiseMsg2
  state2 : SymmetricState Secret Payload
  reads2 : readMsg2 (writeMsg1 noiseStart (.noise ephemeral)
    (.data (.msg1 (clientStart node store conn).1))).2 (.noise ephemeral) wire2
    = some (remoteEphemeral, remoteStatic, .data (.msg2 msg2), state2)
  /-- the store when msg2 arrives -/
  store2 : PeerSessionStore
  msg3Sent : Bool
  nowMs : UInt64

namespace InitiatorRun

variable {H : HandshakeSuite} {node : HandshakeNode} (run : InitiatorRun H node)

def wire1 : Wire :=
  (writeMsg1 noiseStart (.noise run.ephemeral)
    (.data (.msg1 (clientStart node run.store run.conn).1))).1

def view : Set Wire := insert run.wire1 run.knowledge

def Accepts (cert : MemberCert) : Prop :=
  ∃ r, (clientFinish H node run.store2 run.conn run.srcPeerId run.msg2
      run.remoteStatic.publicBytes run.msg3Sent run.nowMs).1 = .ok r ∧ r.memberCert = some cert

def Fair (cert : MemberCert) : Prop :=
  Uncompromised run.view
    [.noise run.ephemeral, .noise node.localStaticPubkey, .device cert.details.devicePk]

end InitiatorRun

section

variable (H : HandshakeSuite) (node : HandshakeNode) (cert : MemberCert)

def ResponderProvesPossession : Prop :=
  ∀ run : ResponderRun H node, run.Fair cert → run.Accepts cert →
    HolderTookPart run.knowledge cert run.ephemeral

def InitiatorProvesPossession : Prop :=
  ∀ run : InitiatorRun H node, run.Fair cert → run.Accepts cert →
    HolderTookPart run.knowledge cert run.ephemeral

def ResponderMayAccept : Prop :=
  ∃ ctx msg3, node.trustContext = some ctx ∧ serverVerifyCert H node ctx msg3 = .ok cert

def InitiatorMayAccept : Prop :=
  (∃ ctx, node.trustContext = some ctx) ∧ ∃ bytes, verifyCertCbor H node bytes = .ok cert

end

def strangerKnowledge (own : Key32) (known : List (List UInt8)) : Set Wire :=
  {t | t = .sec (.noise own) ∨ t = .data (.connId 0) ∨ ∃ b ∈ known, t = .data (.bytes b)}

section Stranger

variable {own : Key32} {known : List (List UInt8)}

theorem stranger_not_holds {n : Secret} (hn : n ≠ .noise own) :
    ∀ t ∈ strangerKnowledge own known, ¬ t.Holds n := by
  rintro _ (rfl | rfl | ⟨b, -, rfl⟩)
  · exact fun h => hn (Eq.symm h)
  · exact fun h => h
  · exact fun h => h

theorem stranger_not_holder (cert : MemberCert) (ephemeral : Key32) :
    ¬ HolderTookPart (strangerKnowledge own known) cert ephemeral := by
  rintro ⟨_, rfl | rfl | ⟨b, -, rfl⟩, huses, -⟩ <;> cases huses

/-- What the stranger has, with one message of the node's that gives nothing away, leaves every key
but the stranger's own a secret. -/
theorem stranger_uncompromised {t : Wire} {names : List Secret} (hown : .noise own ∉ names)
    (ht : ∀ n, ¬ t.Holds n) : Uncompromised (insert t (strangerKnowledge own known)) names := by
  intro n hn
  have hne : n ≠ .noise own := by
    rintro rfl
    exact hown hn
  refine not_derivable_sec ?_
  rintro u (rfl | hu)
  · exact ht n
  · exact stranger_not_holds hne u hu

theorem stranger_key : Knows (strangerKnowledge own known) (.sec (.noise own)) :=
  .known (.inl rfl)

theorem stranger_connId : Knows (strangerKnowledge own known) (.data (.connId 0)) :=
  .known (.inr (.inl rfl))

theorem stranger_bytes {b : List UInt8} (hb : b ∈ known) :
    Knows (strangerKnowledge own known) (.data (.bytes b)) :=
  .known (.inr (.inr ⟨b, hb, rfl⟩))

end Stranger

theorem Assemble.derivable {K : Set Wire} {ds : List Payload} {d : Payload} (h : Assemble ds d)
    (hds : ∀ e ∈ ds, Knows K (.data e)) : Knows K (.data d) :=
  .compute hds h

theorem noiseStart_all {P : Wire → Prop} (hP : Closed P) (htext : ∀ s, P (.data (.text s))) :
    noiseStart.All P := all_start hP (htext _) (htext _)

theorem noiseStart_derivable (K : Set Wire) : noiseStart.All (Knows K) :=
  noiseStart_all (closed_derivable Assemble K) fun s => (Assemble.text s).derivable (by simp)

theorem derivable_msg3 {K : Set Wire} {a b : ConnId} {msg3 : NoiseMsg3}
    (ha : Knows K (.data (.connId a))) (hb : Knows K (.data (.connId b)))
    (hcert : Knows K (.data (.bytes msg3.memberCertCbor)))
    (hproof : ∀ p, msg3.borrowedRelayProof = some p → Knows K (.data (.bytes p))) :
    Knows K
      (.data (.msg3 { msg3 with aConnIdEcho := some a, bConnIdEcho := some b })) := by
  cases hp : msg3.borrowedRelayProof with
  | none =>
    refine (Assemble.msg3 a b msg3.memberCertCbor).derivable ?_
    simp only [List.forall_mem_cons]
    exact ⟨ha, hb, hcert, by simp⟩
  | some p =>
    refine (Assemble.msg3Borrowed a b msg3.memberCertCbor p).derivable ?_
    simp only [List.forall_mem_cons]
    exact ⟨ha, hb, hcert, hproof p hp, by simp⟩

theorem exists_key_ne (x y : Key32) : ∃ own : Key32, own ≠ x ∧ own ≠ y := by
  have hcard : ({x, y} : Finset Key32).card < ({all32 0, all32 1, all32 2} : Finset Key32).card :=
    lt_of_le_of_lt Finset.card_le_two (by decide +kernel)
  obtain ⟨own, -, hown⟩ := Finset.exists_mem_notMem_of_card_lt_card hcard
  exact ⟨own, by simpa [not_or] using hown⟩

/-! ### What the node sends gives no secret away -/

theorem not_holds_writeMsg1 (n : Secret) {e : Secret} {d : Payload} :
    ¬ (writeMsg1 noiseStart e (.data d)).1.Holds n ∧
      (writeMsg1 noiseStart e (.data d)).2.All (fun t => ¬ t.Holds n) :=
  writeMsg1_all (closed_not_holds n) (noiseStart_all (closed_not_holds n) fun _ =>
    not_holds_data _ _) (not_holds_pub _ _) (not_holds_data _ _)

theorem not_holds_writeMsg2 {n : Secret} {s : SymmetricState Secret Payload} {re e st : Secret}
    {d : Payload} (hs : s.All fun t => ¬ t.Holds n) : ¬ (writeMsg2 s re e st (.data d)).1.Holds n :=
  (writeMsg2_all (closed_not_holds n) hs (not_holds_pub _ _) (not_holds_dh _ _) (not_holds_pub _ _)
    (not_holds_dh _ _) (not_holds_data _ _)).1

/-! ### The stranger and the responder -/

section Responder

variable {H : HandshakeSuite} {node : HandshakeNode} {cert : MemberCert}

def strangerMsg1 (node : HandshakeNode) : NoiseMsg1 :=
  ⟨VERSION, node.networkName, none, some 0, node.encryptionAlgorithm⟩

/-- **Whatever the node draws, a stranger that has copied an acceptable certificate is accepted by
the responder.** -/
theorem exists_responderRun (hmay : ResponderMayAccept H node cert) (srcPeerId : PeerId)
    (newRootKey : Key32) (bConnId : ConnId) (ephemeral : Key32) :
    ∃ run : ResponderRun H node,
      (run.newRootKey = newRootKey ∧ run.bConnId = bConnId ∧ run.ephemeral = ephemeral) ∧
      run.Fair cert ∧ run.Accepts cert ∧ ¬ HolderTookPart run.knowledge cert run.ephemeral := by
  obtain ⟨ctx, msg3, hctx, hcert⟩ := hmay
  obtain ⟨own, hown, hown'⟩ := exists_key_ne ephemeral node.localStaticPubkey
  obtain ⟨pending, msg2, hresp, hnone⟩ : ∃ pending msg2, (serverRespond H node .empty
      (fun _ => .ok node.myPeerId) srcPeerId (strangerMsg1 node) newRootKey bConnId 0).1 =
        .ok (pending, msg2) ∧ pending.session.peerStaticPubkey = none := by
    simp only [serverRespond, hctx]
    exact ⟨_, _, rfl, rfl⟩
  obtain ⟨hctx', hpmsg1, hpconn, hconn⟩ := serverRespond_ok hresp
  set known := msg3.memberCertCbor :: msg3.borrowedRelayProof.toList with hknown
  set K := strangerKnowledge own known
  -- msg1 is the stranger's own
  set out1 := writeMsg1 noiseStart (.noise own) (.data (.msg1 (strangerMsg1 node)))
  have hpay1 : Knows K (.data (.msg1 (strangerMsg1 node))) :=
    (Assemble.msg1 0 VERSION node.networkName none node.encryptionAlgorithm).derivable
      (by simpa using stranger_connId)
  have h1 := writeMsg1_all (closed_derivable Assemble K) (noiseStart_derivable K) stranger_key.pub
    hpay1
  -- from msg2 it learns the connection id, and it has all it needs for msg3
  set out2 := writeMsg2 out1.2 (.noise own) (.noise ephemeral) (.noise node.localStaticPubkey)
    (.data (.msg2 msg2))
  set view := insert out2.1 K
  have hmono : ∀ {t}, Knows K t → Knows view t := fun h =>
    h.mono (Set.subset_insert _ _)
  have hs1 : out1.2.All (Knows view) := h1.2.imp fun _ => hmono
  obtain ⟨heph, hpay2, hs2⟩ := derivable_of_writeMsg2 hs1 (hmono stranger_key)
    (.known (Set.mem_insert _ _))
  have hpay3 : Knows view (.data (.msg3
      { msg3 with aConnIdEcho := some 0, bConnIdEcho := some bConnId })) := by
    refine derivable_msg3 (hmono stranger_connId) ?_ ?_ fun p hp => ?_
    · exact (Assemble.msg2ConnId msg2 bConnId hconn).derivable (by simpa using hpay2)
    · exact hmono (stranger_bytes (by simp [hknown]))
    · exact hmono (stranger_bytes (by simp [hknown, hp]))
  have h3 := derivable_writeMsg3 hs2 heph (hmono stranger_key) hpay3
  let run : ResponderRun H node :=
    { knowledge := K, wire1 := out1.1, wire1_derivable := h1.1, remoteEphemeral := .noise own
      msg1 := strangerMsg1 node, state1 := out1.2, reads1 := readMsg1_writeMsg1 ..
      store := .empty, handshakeRecved := fun _ => .ok node.myPeerId, srcPeerId, newRootKey
      bConnId, nowMs := 0, ephemeral, pending, msg2, responds := hresp, wire3 := _
      wire3_derivable := h3, remoteStatic := .noise own, msg3 := _, state3 := _
      reads3 := readMsg3_writeMsg3 .., store3 := .empty }
  refine ⟨run, ⟨rfl, rfl, rfl⟩, ?_, ?_, stranger_not_holder cert ephemeral⟩
  · exact stranger_uncompromised (by simp [run, hown, hown'])
      fun n => not_holds_writeMsg2 (not_holds_writeMsg1 n).2
  · refine serverFinish_accepts ⟨?_, ?_⟩ hnone ?_ .empty _
    · rw [hpmsg1]
      rfl
    · rw [hpconn]
    · rw [hctx, Option.some.injEq] at hctx'
      rw [← hctx']
      exact hcert

end Responder

/-! ### The stranger and the initiator -/

section Initiator

variable {H : HandshakeSuite} {node : HandshakeNode} {cert : MemberCert}

def strangerMsg2 (node : HandshakeNode) (aConnId : ConnId) (rootKey bytes : List UInt8) :
    NoiseMsg2 :=
  ⟨node.networkName, 1, some .create, 1, some rootKey, 0, some 0, some aConnId, "aes-gcm", bytes⟩

theorem clientFinish_accepts {ctx : TrustDomainContext} (hctx : node.trustContext = some ctx)
    {bytes rootKey : List UInt8} (hcert : verifyCertCbor H node bytes = .ok cert)
    (hlen : rootKey.length = 32) (aConnId : ConnId) (srcPeerId : PeerId)
    (remoteStatic : List UInt8) (nowMs : UInt64) :
    ∃ r, (clientFinish H node .empty (openConn aConnId) srcPeerId
      (strangerMsg2 node aConnId rootKey bytes) remoteStatic true nowMs).1 = .ok r ∧
      r.memberCert = some cert := by
  obtain ⟨rk, hrk⟩ := toKey32_isSome hlen
  have hcheck : clientCheckMsg2 node (openConn aConnId) srcPeerId
      (strangerMsg2 node aConnId rootKey bytes) = .ok (.create, ctx) := by
    simp [clientCheckMsg2, openConn, strangerMsg2, hctx]
  have hverify : clientVerifyCert H node (strangerMsg2 node aConnId rootKey bytes) =
      .ok (some cert) := by
    simp [clientVerifyCert, strangerMsg2, hcert, Except.map]
  have hlevel : clientAuthLevel node (openConn aConnId) (strangerMsg2 node aConnId rootKey bytes)
      remoteStatic (some cert) = .ok .trustDomainVerified := by
    simp [clientAuthLevel, strangerMsg2, verifyRemoteAuth_some]
  have hvalid : PeerSessionStore.valid .empty ⟨node.networkName, srcPeerId⟩ = none := rfl
  obtain ⟨s, hs⟩ := PeerSessionStore.applyInitiatorAction_create node.myPeerId 1 0
    node.encryptionAlgorithm "aes-gcm" (toKey32 remoteStatic) nowMs hvalid rk
  have hkey : (strangerMsg2 node aConnId rootKey bytes).rootKey32.bind toKey32 = some rk := hrk
  simp only [clientFinish, hcheck, hverify, hlevel, hkey, if_not_true]
  split
  next e _ he => cases (congrArg Prod.fst he).symm.trans hs
  next => exact ⟨_, rfl, rfl⟩

/-- **Whatever the node draws, a stranger that has copied an acceptable certificate is accepted by
the initiator.** -/
theorem exists_initiatorRun (hmay : InitiatorMayAccept H node cert) (aConnId : ConnId)
    (srcPeerId : PeerId) (ephemeral : Key32) :
    ∃ run : InitiatorRun H node, (run.conn.aConnId = aConnId ∧ run.ephemeral = ephemeral) ∧
      run.Fair cert ∧ run.Accepts cert ∧ ¬ HolderTookPart run.knowledge cert run.ephemeral := by
  obtain ⟨⟨ctx, hctx⟩, bytes, hcert⟩ := hmay
  obtain ⟨own, hown, hown'⟩ := exists_key_ne ephemeral node.localStaticPubkey
  set rootKey : List UInt8 := List.replicate 32 0 with hroot
  set K := strangerKnowledge own [rootKey, bytes]
  -- msg1 is in the clear
  set msg1 := (clientStart node .empty (openConn aConnId)).1 with hmsg1
  set out1 := writeMsg1 noiseStart (.noise ephemeral) (.data (.msg1 msg1))
  set view := insert out1.1 K
  have hmono : ∀ {t}, Knows K t → Knows view t := fun h =>
    h.mono (Set.subset_insert _ _)
  have hwire1 : Knows view (.pair (.pub (.noise ephemeral)) (.data (.msg1 msg1))) :=
    .known (Set.mem_insert _ _)
  have hs1 := (writeMsg1_all (closed_derivable Assemble view) (noiseStart_derivable view)
    hwire1.fst hwire1.snd).2
  -- the stranger echoes the connection id and adds what it has
  have hconn : Knows view (.data (.connId aConnId)) :=
    (Assemble.msg1ConnId msg1 aConnId rfl).derivable (by simpa using hwire1.snd)
  have hpay2 : Knows view
      (.data (.msg2 (strangerMsg2 node aConnId rootKey bytes))) := by
    refine (Assemble.msg2 aConnId 0 rootKey bytes node.networkName 1 (some .create) 1 0
      "aes-gcm").derivable ?_
    simp only [List.forall_mem_cons]
    exact ⟨hconn, hmono stranger_connId, hmono (stranger_bytes (by simp)),
      hmono (stranger_bytes (by simp)), by simp⟩
  have h2 := derivable_writeMsg2 hs1 hwire1.fst (hmono stranger_key) (hmono stranger_key) hpay2
  let run : InitiatorRun H node :=
    { knowledge := K, conn := openConn aConnId, store := .empty, ephemeral, wire2 := _
      wire2_derivable := h2, srcPeerId, remoteEphemeral := .noise own, remoteStatic := .noise own
      msg2 := _, state2 := _, reads2 := readMsg2_writeMsg2 .., store2 := .empty, msg3Sent := true
      nowMs := 0 }
  refine ⟨run, ⟨rfl, rfl⟩, ?_, ?_, stranger_not_holder cert ephemeral⟩
  · exact stranger_uncompromised (by simp [run, hown, hown']) fun n => (not_holds_writeMsg1 n).1
  · exact clientFinish_accepts hctx hcert (by simp [hroot]) aConnId srcPeerId _ 0

end Initiator

theorem ResponderRun.mayAccept {H : HandshakeSuite} {node : HandshakeNode} {cert : MemberCert}
    (run : ResponderRun H node) (h : run.Accepts cert) : ResponderMayAccept H node cert := by
  obtain ⟨r, hr, hcert⟩ := h
  obtain ⟨c, hc, hv⟩ := serverFinish_ok hr
  rw [hcert, Option.some.injEq] at hc
  exact ⟨_, run.msg3, (serverRespond_ok run.responds).1, hc ▸ hv⟩

theorem InitiatorRun.mayAccept {H : HandshakeSuite} {node : HandshakeNode} {cert : MemberCert}
    (run : InitiatorRun H node) (h : run.Accepts cert) : InitiatorMayAccept H node cert := by
  obtain ⟨r, hr, hcert⟩ := h
  obtain ⟨action, ctx, hcheck, hverify, -⟩ := clientFinish_ok hr
  rcases clientVerifyCert_ok hverify with ⟨-, c, hc, hv⟩ | ⟨-, hnone⟩
  · rw [hcert, Option.some.injEq] at hc
    exact ⟨⟨ctx, (clientCheckMsg2_ok hcheck).1⟩, _, hc ▸ hv⟩
  · rw [hcert] at hnone
    cases hnone

/-- **Accepting a certificate shows that its holder took part only where the certificate is not
accepted at all**, in both roles. -/
theorem possession_iff (H : HandshakeSuite) (node : HandshakeNode) (cert : MemberCert) :
    (ResponderProvesPossession H node cert ↔ ¬ ResponderMayAccept H node cert) ∧
      (InitiatorProvesPossession H node cert ↔ ¬ InitiatorMayAccept H node cert) := by
  refine ⟨⟨fun h hmay => ?_, fun h run _ hacc => absurd (run.mayAccept hacc) h⟩,
    ⟨fun h hmay => ?_, fun h run _ hacc => absurd (run.mayAccept hacc) h⟩⟩
  · obtain ⟨run, -, hfair, hacc, hpart⟩ := exists_responderRun hmay 0 (all32 0) 0
      (all32 0)
    exact hpart (h run hfair hacc)
  · obtain ⟨run, -, hfair, hacc, hpart⟩ := exists_initiatorRun hmay 0 0 (all32 0)
    exact hpart (h run hfair hacc)

/-- The certificate of the device with key `[7, 7, …]` is accepted from a stranger, by a responder
and by an initiator. -/
theorem stranger_accepted :
    (∃ run : ResponderRun sampleHandshakeSuite sampleHandshakeNode,
      run.Fair (sampleCert (all32 7)) ∧ run.Accepts (sampleCert (all32 7)) ∧
      ¬ HolderTookPart run.knowledge (sampleCert (all32 7)) run.ephemeral) ∧
    ∃ run : InitiatorRun sampleHandshakeSuite sampleHandshakeNode, run.Fair (sampleCert (all32 7)) ∧
      run.Accepts (sampleCert (all32 7)) ∧
      ¬ HolderTookPart run.knowledge (sampleCert (all32 7)) run.ephemeral := by
  have hcert : verifyCertCbor sampleHandshakeSuite sampleHandshakeNode
      (1 :: List.replicate 32 7) = .ok (sampleCert (all32 7)) := by
    decide +kernel
  constructor
  · have hmay : ResponderMayAccept sampleHandshakeSuite sampleHandshakeNode
        (sampleCert (all32 7)) :=
      ⟨sampleContext, ⟨none, none, 1 :: List.replicate 32 7, none⟩, rfl, by decide +kernel⟩
    obtain ⟨run, -, hrun⟩ := exists_responderRun hmay 8 (all32 6) 2
      (all32 5)
    exact ⟨run, hrun⟩
  · obtain ⟨run, -, hrun⟩ := exists_initiatorRun ⟨⟨sampleContext, rfl⟩, _, hcert⟩ 1 8
      (all32 5)
    exact ⟨run, hrun⟩

end PactMesh
