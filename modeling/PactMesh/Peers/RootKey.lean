import PactMesh.Peers.Handshake

/-!
# What a responder gives away before it knows the other side

The peer id and the session generation in msg1 can be anything.  The responder nevertheless looks the
session up, or creates one, before msg2, and writes the static keys of msg3 into it before it has
checked the certificate of msg3.

A handshake is *harmless* when it sends no root key that was in the store before the remote is
authenticated, and leaves the store as it was if it fails.

* `harmless_iff_guarded`: a handshake is harmless exactly if it is `Guarded`.
* `harmless_create`, `harmless_found`: the case of a new session, and that of one in the store.
* `stranger_gets_root_key`: a handshake that is not.
-/

namespace PactMesh

open PeerSession PeerSessionStore SecureDatagramSession

namespace PeerSession

/-- Writing the static key into the session changes nothing. -/
def Settled (s : PeerSession) (remoteStatic : List UInt8) : Prop :=
  remoteStatic.length = 32 → ∃ key, s.peerStaticPubkey = some key ∧
    (key.toList = remoteStatic → s.datagram.identityBinding.isSome = true)

variable {remoteStatic : List UInt8}

theorem bindStaticIdentities_eq_self {s : PeerSession} {key : Key32}
    (hlen : remoteStatic.length = 32) :
    s.bindStaticIdentities key.toList remoteStatic = s ↔
      s.datagram.identityBinding.isSome = true := by
  constructor
  · intro h
    have hd := congrArg (fun t : PeerSession => t.datagram.identityBinding) h
    cases hb : s.datagram.identityBinding with
    | none => simp [bindStaticIdentities, setIdentityBinding, hlen, hb] at hd
    | some b => rfl
  · intro h
    obtain ⟨b, hb⟩ := Option.isSome_iff_exists.1 h
    simp [bindStaticIdentities, setIdentityBinding, hlen, hb]

theorem settled_iff {s : PeerSession} (key : Key32) :
    s.Settled remoteStatic ↔ ∀ s', s.checkOrSetPeerStaticPubkey (toKey32 remoteStatic) = .ok s' →
      s'.bindStaticIdentities key.toList remoteStatic = s := by
  by_cases hlen : remoteStatic.length = 32
  swap
  · -- a static key of another size is neither stored nor bound
    have hnone : toKey32 remoteStatic = none := toKey32_eq_none.2 hlen
    refine ⟨fun _ s' h => ?_, fun _ h => absurd h hlen⟩
    simp only [hnone, checkOrSetPeerStaticPubkey, Except.ok.injEq] at h
    simp [← h, bindStaticIdentities, setIdentityBinding, hlen]
  obtain ⟨k, hk⟩ := toKey32_isSome hlen
  have hkl : k.toList = remoteStatic := toList_of_toKey32 hk
  simp only [Settled, hlen, forall_const, hk]
  cases hp : s.peerStaticPubkey with
  | none =>
    refine ⟨by simp, fun h => ?_⟩
    have heq := h { s with peerStaticPubkey := some k } (by simp [checkOrSetPeerStaticPubkey, hp])
    have hpub := congrArg PeerSession.peerStaticPubkey heq
    simp [bindStaticIdentities, hp] at hpub
  | some existing =>
    by_cases he : existing = k
    · subst he
      simp [checkOrSetPeerStaticPubkey, hp, hkl, bindStaticIdentities_eq_self hlen]
    · have hne : existing.toList ≠ remoteStatic := fun h =>
        he (Vector.toList_inj.1 (h.trans hkl.symm))
      simp [checkOrSetPeerStaticPubkey, hp, he, hne]

end PeerSession

/-- A root key of the store is sent only after the remote is authenticated. -/
def RootKeysKept (store : PeerSessionStore) (events : List ServerEvent) : Prop :=
  ∀ before msg2 after, events = before ++ .msg2Sent msg2 :: after →
    ∀ key session, store key = some session →
      msg2.rootKey32 = some session.datagram.rootKey.toList →
      ∃ cert, ServerEvent.remoteAuthenticated cert ∈ before

/-- A handshake that fails leaves the store as it was. -/
def NoEffectOnError (store : PeerSessionStore) (run : ServerRun) : Prop :=
  ∀ e, run.result = .error e → run.store = store

/-- A new root key is in no session. -/
def DrawsNewKey (store : PeerSessionStore) (newRootKey : Key32) : Prop :=
  ∀ key session, store key = some session → session.datagram.rootKey ≠ newRootKey

theorem rootKeysKept_nil (store : PeerSessionStore) : RootKeysKept store [] := by
  intro before msg2 after h
  cases before <;> cases h

theorem harmless_of_refused {store : PeerSessionStore} {run : ServerRun} {e : HandshakeError}
    (h : run = ⟨.error e, [], store⟩) : RootKeysKept store run.events ∧ NoEffectOnError store run := by
  subst h
  exact ⟨rootKeysKept_nil store, fun _ _ => rfl⟩

variable {msg2 : NoiseMsg2}

theorem rootKeysKept_msg2 {store : PeerSessionStore} {rest : List ServerEvent}
    (hrest : ∀ m, .msg2Sent m ∉ rest) :
    RootKeysKept store (.msg2Sent msg2 :: rest) ↔ ∀ key session, store key = some session →
        msg2.rootKey32 ≠ some session.datagram.rootKey.toList := by
  constructor
  · intro h key session hs hr
    obtain ⟨cert, hc⟩ := h [] msg2 rest rfl key session hs hr
    cases hc
  · intro h before m after he key session hs hr
    cases before with
    | nil =>
      cases he
      exact absurd hr (h key session hs)
    | cons e before =>
      cases he
      exact absurd (List.mem_append_right _ (List.mem_cons_self ..)) (hrest m)

section

variable (H : HandshakeSuite) (node : HandshakeNode) (store : PeerSessionStore)
  (inputs : ServerInputs)

/-- The handshake goes through to an accepted certificate. -/
def Completes (msg1 : NoiseMsg1) : Prop :=
  ∃ ctx msg3 remoteStatic cert, node.trustContext = some ctx ∧ inputs.msg2Sent = true ∧
    inputs.msg3 = some (msg3, remoteStatic) ∧ EchoOk msg1 inputs.bConnId msg3 ∧
    serverVerifyCert H node ctx msg3 = .ok cert

/-- What a handshake that finds a session must meet: the initiator knows the generation, so that no
root key is sent, and msg3 adds nothing to the session unless its certificate is accepted. -/
def GuardedJoin (msg1 : NoiseMsg1) (session : PeerSession) (ctx : TrustDomainContext) : Prop :=
  msg1.aSessionGeneration = some session.datagram.sessionGeneration ∧
    ∀ msg3 remoteStatic, inputs.msg3 = some (msg3, remoteStatic) → EchoOk msg1 inputs.bConnId msg3 →
      session.Settled remoteStatic ∨ ∃ cert, serverVerifyCert H node ctx msg3 = .ok cert

/-- The condition for a harmless handshake: msg1 is refused; or there is no valid session and the
handshake completes; or there is one, and msg1 does not fit it, or nothing is sent, or it is a
guarded join. -/
def Guarded : Prop :=
  ∀ msg1, inputs.msg1 = some msg1 →
    ∀ myPeerId, inputs.handshakeRecved msg1.aNetworkName = .ok myPeerId →
    match store.valid ⟨msg1.aNetworkName, inputs.srcPeerId⟩ with
    | none => Completes H node inputs msg1
    | some session =>
      session.datagram.checkEncryptAlgoSame node.encryptionAlgorithm
        msg1.clientEncryptionAlgorithm = true →
      ∀ ctx, node.trustContext = some ctx → inputs.msg2Sent = true →
        GuardedJoin H node inputs msg1 session ctx

end

section

variable {H : HandshakeSuite} {node : HandshakeNode} {store : PeerSessionStore}
  {inputs : ServerInputs}

variable {store' : PeerSessionStore} {session : PeerSession} {msg1 : NoiseMsg1} {myPeerId : PeerId}

theorem ne_of_valid {key : SessionKey} (hvalid : store.valid key = none)
    (hk : store' key = some session) (hs : session.isValid = true) : store' ≠ store := by
  rintro rfl
  rw [valid_eq_some_iff.2 ⟨hk, hs⟩] at hvalid
  cases hvalid

theorem isValid_bind_of_check {s s' : PeerSession} {key : Option Key32}
    (h : s.checkOrSetPeerStaticPubkey key = .ok s') (l r : List UInt8) :
    (s'.bindStaticIdentities l r).isValid = s.isValid := by
  obtain ⟨binding, hb⟩ := s'.datagram.setIdentityBinding_eq l r
  rw [PeerSession.bindStaticIdentities, hb, checkOrSetPeerStaticPubkey_ok h]
  rfl

/-- Once msg2 is ready, it is not sent; or it is sent, once, and the handshake fails and leaves the
store as it is, or fails after msg3 has been written into the session, or completes. -/
theorem serverAwaitMsg3_cases (H : HandshakeSuite) (node : HandshakeNode)
    (store : PeerSessionStore) (inputs : ServerInputs) (pending : ServerPending) (msg2 : NoiseMsg2) :
    let run := serverAwaitMsg3 H node store inputs pending msg2
    let bind (s : PeerSession) (remoteStatic : List UInt8) :=
      s.bindStaticIdentities node.localStaticPubkey.toList remoteStatic
    (inputs.msg2Sent = false ∧ run = ⟨.error .notSent, [], store⟩) ∨ inputs.msg2Sent = true ∧
      (∃ rest, run.events = .msg2Sent msg2 :: rest ∧ ∀ m, .msg2Sent m ∉ rest) ∧
      ((∃ e, run.result = .error e ∧ run.store = store ∧
        ∀ msg3 remoteStatic, inputs.msg3 = some (msg3, remoteStatic) →
          EchoOk pending.msg1 pending.bConnId msg3 →
          ∀ s, pending.session.checkOrSetPeerStaticPubkey (toKey32 remoteStatic) ≠ .ok s) ∨
      ∃ msg3 remoteStatic s, inputs.msg3 = some (msg3, remoteStatic) ∧
        EchoOk pending.msg1 pending.bConnId msg3 ∧
        pending.session.checkOrSetPeerStaticPubkey (toKey32 remoteStatic) = .ok s ∧
        run.store = store.insert pending.key (bind s remoteStatic) ∧
        ((∃ e, serverVerifyCert H node pending.trustContext msg3 = .error e ∧
            run.result = .error e) ∨
          ∃ cert r, serverVerifyCert H node pending.trustContext msg3 = .ok cert ∧
            run.result = .ok r)) := by
  simp only [serverAwaitMsg3]
  cases inputs.msg2Sent with
  | false => exact .inl ⟨rfl, rfl⟩
  | true =>
    refine .inr ⟨rfl, ?_⟩
    simp only [if_not_true]
    cases inputs.msg3 with
    | none => exact ⟨⟨[], rfl, nofun⟩, .inl ⟨.noMessage, rfl, rfl, nofun⟩⟩
    | some m3 =>
      obtain ⟨msg3, remoteStatic⟩ := m3
      rcases @serverFinish_cases H node store pending msg3 remoteStatic with
        ⟨e, hecho, hout⟩ | ⟨e, hecho, hcheck, hout⟩ | ⟨s, hecho, hcheck, ⟨e, hc, hout⟩ |
          ⟨cert, level, hc, hout⟩⟩
      all_goals simp only [hout]
      · refine ⟨⟨[], rfl, nofun⟩, .inl ⟨e, rfl, trivial, ?_⟩⟩
        rintro _ _ ⟨⟩ h
        exact absurd h hecho
      · refine ⟨⟨[], rfl, nofun⟩, .inl ⟨_, rfl, trivial, ?_⟩⟩
        rintro _ _ ⟨⟩ - s hs
        cases hcheck.symm.trans hs
      · exact ⟨⟨[], rfl, nofun⟩,
          .inr ⟨msg3, remoteStatic, s, rfl, hecho, hcheck, rfl, .inl ⟨e, hc, rfl⟩⟩⟩
      · exact ⟨⟨_, rfl, by simp⟩,
          .inr ⟨msg3, remoteStatic, s, rfl, hecho, hcheck, rfl, .inr ⟨cert, _, hc, rfl⟩⟩⟩

/-- The session that msg1 finds or creates. -/
def upsertFor (node : HandshakeNode) (store : PeerSessionStore) (inputs : ServerInputs)
    (msg1 : NoiseMsg1) (myPeerId : PeerId) :
    Except SessionError UpsertResponderSessionReturn × PeerSessionStore :=
  store.upsertResponderSession ⟨msg1.aNetworkName, inputs.srcPeerId⟩ myPeerId
    msg1.aSessionGeneration node.encryptionAlgorithm msg1.clientEncryptionAlgorithm none
    inputs.newRootKey inputs.nowMs

variable {ret : UpsertResponderSessionReturn}

theorem run_of_upsert (hmsg1 : inputs.msg1 = some msg1)
    (hhook : inputs.handshakeRecved msg1.aNetworkName = .ok myPeerId)
    (hupsert : upsertFor node store inputs msg1 myPeerId = (.ok ret, store')) :
    let run := doNoiseHandshakeAsServer H node store inputs
    (node.trustContext = none ∧ run = ⟨.error .trustContextNotConfigured, [], store'⟩) ∨
    ∃ ctx roleHint msg2, node.trustContext = some ctx ∧
      msg2.rootKey32 = ret.rootKey.map (·.toList) ∧
      run = serverAwaitMsg3 H node store' inputs ⟨⟨msg1.aNetworkName, inputs.srcPeerId⟩, ret.session,
        ctx, roleHint, msg1, inputs.bConnId⟩ msg2 := by
  rw [upsertFor] at hupsert
  simp only [doNoiseHandshakeAsServer, hmsg1, serverRespond, hhook, hupsert]
  cases node.trustContext with
  | none => exact .inl ⟨rfl, rfl⟩
  | some ctx => exact .inr ⟨ctx, _, _, rfl, rfl, rfl⟩

theorem rootKeysKept_of_new (hnew : DrawsNewKey store inputs.newRootKey) {pending : ServerPending}
    (hkey : msg2.rootKey32 = some inputs.newRootKey.toList) :
    RootKeysKept store (serverAwaitMsg3 H node store' inputs pending msg2).events := by
  rcases serverAwaitMsg3_cases H node store' inputs pending msg2 with
    ⟨-, hrun⟩ | ⟨-, ⟨rest, hev, hrest⟩, -⟩
  · rw [hrun]
    exact rootKeysKept_nil store
  · rw [hev, rootKeysKept_msg2 hrest]
    intro key session hs hr
    rw [hkey, Option.some.injEq, Vector.toList_inj] at hr
    exact hnew key session hs hr.symm

theorem harmless_create (hnew : DrawsNewKey store inputs.newRootKey)
    (hmsg1 : inputs.msg1 = some msg1)
    (hhook : inputs.handshakeRecved msg1.aNetworkName = .ok myPeerId)
    (hvalid : store.valid ⟨msg1.aNetworkName, inputs.srcPeerId⟩ = none)
    (hfresh : session.isValid = true ∧ session.peerStaticPubkey = none)
    (hupsert : upsertFor node store inputs msg1 myPeerId =
      (.ok ⟨session, .create, 1, some inputs.newRootKey, 0⟩,
        store.insert ⟨msg1.aNetworkName, inputs.srcPeerId⟩ session)) :
    let run := doNoiseHandshakeAsServer H node store inputs
    RootKeysKept store run.events ∧ NoEffectOnError store run ↔ Completes H node inputs msg1 := by
  intro run
  have hinserted := ne_of_valid hvalid (store.insert_self _ session) hfresh.1
  rcases run_of_upsert (H := H) hmsg1 hhook hupsert with
    ⟨hctx, hrun⟩ | ⟨ctx, roleHint, msg2, hctx, hkey, hrun⟩
  all_goals rw [show run = _ from hrun]
  · refine ⟨fun h => absurd (h.2 _ rfl) hinserted, ?_⟩
    rintro ⟨ctx, -, -, -, hsome, -⟩
    cases hctx.symm.trans hsome
  refine (and_iff_right (rootKeysKept_of_new hnew hkey)).trans ?_
  rcases serverAwaitMsg3_cases H node _ inputs _ msg2 with
    ⟨hnot, hrun⟩ | ⟨hsent, -, ⟨e, herr, hst, hno⟩ | ⟨msg3, rs, s, hm, hecho, hcheck, hst,
      ⟨e, hc, herr⟩ | ⟨cert, r, hc, hok⟩⟩⟩
  · rw [hrun]
    refine iff_of_false (fun h => hinserted (h _ rfl)) ?_
    rintro ⟨_, _, _, _, -, hsent, -⟩
    cases hnot.symm.trans hsent
  · -- it failed with the new session in the store
    refine ⟨fun h => absurd (hst.symm.trans (h e herr)) hinserted, ?_⟩
    rintro ⟨_, msg3, rs, _, -, -, hm, hecho, -⟩
    obtain ⟨s, hs⟩ := checkOrSetPeerStaticPubkey_of_none hfresh.2 (toKey32 rs)
    exact absurd hs (hno msg3 rs hm hecho s)
  · -- it failed with the new session, bound to the stranger, in the store
    refine ⟨fun h => ?_, ?_⟩
    · have hv := isValid_bind_of_check hcheck node.localStaticPubkey.toList rs
      refine absurd (h e herr) (ne_of_valid hvalid ?_ (hv.trans hfresh.1))
      rw [hst, insert_self]
    · rintro ⟨ctx', msg3', rs', cert, hctx', -, hm', -, hc'⟩
      cases hctx.symm.trans hctx'
      cases hm.symm.trans hm'
      cases hc.symm.trans hc'
  · refine ⟨fun _ => ⟨ctx, msg3, rs, cert, hctx, hsent, hm, hecho, hc⟩, fun _ e he => ?_⟩
    rw [hok] at he
    cases he

theorem noEffectOnError_iff_of_write {key : SessionKey} {s : PeerSession} {run : ServerRun}
    {e : HandshakeError} (hstored : store key = some session) (hst : run.store = store.insert key s)
    (herr : run.result = .error e) : NoEffectOnError store run ↔ s = session := by
  constructor
  · intro h
    have hk := congrFun (hst.symm.trans (h e herr)) key
    rwa [insert_self, hstored, Option.some.injEq] at hk
  · rintro rfl _ _
    rw [hst, insert_eq_self hstored]

/-- A handshake that waits for msg3 on a stored session has no effect on failure if and only if msg3
adds nothing to the session or carries an accepted certificate. -/
theorem noEffectOnError_join {pending : ServerPending}
    (hstored : store pending.key = some pending.session) (hsent : inputs.msg2Sent = true) :
    NoEffectOnError store (serverAwaitMsg3 H node store inputs pending msg2) ↔
      ∀ msg3 remoteStatic, inputs.msg3 = some (msg3, remoteStatic) →
        EchoOk pending.msg1 pending.bConnId msg3 → pending.session.Settled remoteStatic ∨
          ∃ cert, serverVerifyCert H node pending.trustContext msg3 = .ok cert := by
  rcases serverAwaitMsg3_cases H node store inputs pending msg2 with
    ⟨hnot, -⟩ | ⟨-, -, ⟨e, herr, hst, hno⟩ | ⟨msg3, rs, s, hm, hecho, hcheck, hst, ⟨e, hc, herr⟩ |
      ⟨cert, r, hc, hok⟩⟩⟩
  · cases hnot.symm.trans hsent
  · -- msg3 was not written: it did not come, is of another handshake, or has another static key
    refine iff_of_true (fun _ _ => hst) fun msg3 rs hm hecho => .inl ?_
    exact (settled_iff node.localStaticPubkey).2 fun s hs =>
      absurd hs (hno msg3 rs hm hecho s)
  · -- the certificate is refused: all depends on what msg3 has written
    rw [noEffectOnError_iff_of_write hstored hst herr]
    refine ⟨fun h msg3' rs' hm' _ => ?_, fun h => ?_⟩
    · cases hm.symm.trans hm'
      refine .inl ((settled_iff node.localStaticPubkey).2 fun s' hs' => ?_)
      rw [hcheck, Except.ok.injEq] at hs'
      rw [← hs']
      exact h
    · rcases h msg3 rs hm hecho with hset | ⟨cert, hc'⟩
      · exact (settled_iff node.localStaticPubkey).1 hset s hcheck
      · rw [hc] at hc'
        cases hc'
  · refine iff_of_true (fun e he => ?_) fun msg3' rs' hm' _ => .inr ⟨cert, ?_⟩
    · rw [hok] at he
      cases he
    · cases hm.symm.trans hm'
      exact hc

/-- Where there is a valid session that fits msg1, a handshake is harmless if and only if nothing is
sent or it is a guarded join. -/
theorem harmless_found (hmsg1 : inputs.msg1 = some msg1)
    (hhook : inputs.handshakeRecved msg1.aNetworkName = .ok myPeerId)
    (hstored : store ⟨msg1.aNetworkName, inputs.srcPeerId⟩ = some session)
    (hsession : ret.session = session)
    (hkey : ret.rootKey = if msg1.aSessionGeneration = some session.datagram.sessionGeneration then
      none else some session.datagram.rootKey)
    (hupsert : upsertFor node store inputs msg1 myPeerId = (.ok ret, store)) :
    let run := doNoiseHandshakeAsServer H node store inputs
    RootKeysKept store run.events ∧ NoEffectOnError store run ↔
      ∀ ctx, node.trustContext = some ctx → inputs.msg2Sent = true →
        GuardedJoin H node inputs msg1 session ctx := by
  intro run
  subst hsession
  rcases run_of_upsert (H := H) hmsg1 hhook hupsert with
    ⟨hctx, hrun⟩ | ⟨ctx, roleHint, msg2, hctx, hroot, hrun⟩
  · refine iff_of_true (harmless_of_refused hrun) fun ctx h => ?_
    cases hctx.symm.trans h
  rw [show run = _ from hrun, hctx]
  rcases serverAwaitMsg3_cases H node store inputs _ msg2 with
    ⟨hnot, hrun⟩ | ⟨hsent, ⟨rest, hev, hrest⟩, -⟩
  · exact iff_of_true (harmless_of_refused hrun) (by simp [hnot])
  rw [hev, rootKeysKept_msg2 hrest, hroot, hkey]
  by_cases hgen : msg1.aSessionGeneration = some ret.session.datagram.sessionGeneration
  · rw [if_pos hgen]
    refine (and_iff_right fun _ _ _ => by simp).trans ?_
    simp only [Option.some.injEq, forall_eq', hsent, forall_const, GuardedJoin, hgen, true_and]
    exact noEffectOnError_join hstored hsent
  · rw [if_neg hgen]
    exact iff_of_false (fun h => h.1 _ ret.session hstored rfl) fun h => hgen (h ctx rfl hsent).1

/-- **A handshake keeps the root keys of the store from unknown remotes, and undoes what it did if
it fails, if and only if it is guarded.** -/
theorem harmless_iff_guarded (H : HandshakeSuite) (node : HandshakeNode) (store : PeerSessionStore)
    (inputs : ServerInputs) (hnew : DrawsNewKey store inputs.newRootKey) :
    let run := doNoiseHandshakeAsServer H node store inputs
    RootKeysKept store run.events ∧ NoEffectOnError store run ↔ Guarded H node store inputs := by
  intro run
  cases hmsg1 : inputs.msg1 with
  | none =>
    have hrun : run = ⟨.error .noMessage, [], store⟩ := by
      simp only [run, doNoiseHandshakeAsServer, hmsg1]
    refine iff_of_true (harmless_of_refused hrun) fun msg1 h => ?_
    rw [hmsg1] at h
    cases h
  | some msg1 =>
    simp only [Guarded, hmsg1, Option.some.injEq, forall_eq']
    cases hhook : inputs.handshakeRecved msg1.aNetworkName with
    | error e =>
      have hrun : run = ⟨.error e, [], store⟩ := by
        simp only [run, doNoiseHandshakeAsServer, hmsg1, serverRespond, hhook]
      exact iff_of_true (harmless_of_refused hrun) fun _ h => by cases h
    | ok myPeerId =>
      simp only [Except.ok.injEq, forall_eq']
      rcases store.upsertResponderSession_cases ⟨msg1.aNetworkName, inputs.srcPeerId⟩ myPeerId
        msg1.aSessionGeneration node.encryptionAlgorithm msg1.clientEncryptionAlgorithm none
        inputs.newRootKey inputs.nowMs with
        ⟨hvalid, hupsert⟩ | ⟨session, e, hvalid, hcheck, hupsert⟩ | ⟨session, s', hvalid, hcheck, hout⟩
      all_goals rw [hvalid]
      · exact harmless_create hnew hmsg1 hhook hvalid ⟨rfl, rfl⟩ hupsert
      all_goals
        rw [checkHandshake_none] at hcheck
        split_ifs at hcheck with halgo
      · refine iff_of_true (harmless_of_refused (e := .session e) ?_) fun h => absurd h halgo
        simp only [run, doNoiseHandshakeAsServer, hmsg1, serverRespond, hhook, hupsert]
      · cases hcheck
        have hstored := (valid_eq_some_iff.1 hvalid).1
        rw [insert_eq_self hstored] at hout
        simp only [halgo, forall_const]
        obtain ⟨hgen, hupsert⟩ | ⟨hgen, hupsert⟩ := hout
        · exact harmless_found hmsg1 hhook hstored rfl (if_pos hgen).symm hupsert
        · exact harmless_found hmsg1 hhook hstored rfl (if_neg hgen).symm hupsert

end

def sampleKey : SessionKey := ⟨"office", 7⟩

def sampleStoredSession : PeerSession := .new "office" 3 7 (all32 5) 1 0 "aes-gcm" "aes-gcm" none 0

def sampleStore : PeerSessionStore := PeerSessionStore.empty.insert sampleKey sampleStoredSession

def strangerInputs (aSessionGeneration : Option UInt32) : ServerInputs where
  srcPeerId := 7
  msg1 := some ⟨1, "office", aSessionGeneration, some 1, "aes-gcm"⟩
  handshakeRecved _ := .ok 3
  newRootKey := all32 6
  bConnId := 2
  nowMs := 0
  msg2Sent := true
  msg3 := none

theorem sampleStore_draws_new : DrawsNewKey sampleStore (all32 6) := by
  intro key session h
  by_cases hk : key = sampleKey
  · subst hk
    rw [sampleStore, insert_self, Option.some.injEq] at h
    subst h
    decide +kernel
  · rw [sampleStore, insert_of_ne _ hk] at h
    cases h

/-- A handshake that joins the session and goes no further is harmless. -/
theorem join_without_msg3_harmless :
    DrawsNewKey sampleStore (all32 6) ∧
      RootKeysKept sampleStore (doNoiseHandshakeAsServer sampleHandshakeSuite sampleHandshakeNode
        sampleStore (strangerInputs (some 1))).events ∧
      NoEffectOnError sampleStore (doNoiseHandshakeAsServer sampleHandshakeSuite
        sampleHandshakeNode sampleStore (strangerInputs (some 1))) := by
  refine ⟨sampleStore_draws_new, (harmless_iff_guarded sampleHandshakeSuite sampleHandshakeNode
    sampleStore (strangerInputs (some 1)) sampleStore_draws_new).2 ?_⟩
  rintro _ ⟨⟩ myPeerId -
  have hvalid : sampleStore.valid ⟨"office", 7⟩ = some sampleStoredSession := rfl
  rw [show (strangerInputs (some 1)).srcPeerId = 7 from rfl, hvalid]
  rintro - ctx - -
  exact ⟨rfl, fun _ _ h => by cases h⟩

/-- **A stranger that names a known peer is sent the root key of its session**, and where there is
none it leaves one behind. -/
theorem stranger_gets_root_key :
    ¬ RootKeysKept sampleStore (doNoiseHandshakeAsServer sampleHandshakeSuite sampleHandshakeNode
        sampleStore (strangerInputs none)).events ∧
      ¬ NoEffectOnError PeerSessionStore.empty (doNoiseHandshakeAsServer sampleHandshakeSuite
        sampleHandshakeNode PeerSessionStore.empty (strangerInputs none)) := by
  constructor
  · intro h
    obtain ⟨cert, hc⟩ := h [] _ [] rfl sampleKey sampleStoredSession rfl rfl
    cases hc
  · intro h
    have hempty := congrFun (h .noMessage rfl) sampleKey
    cases hempty

end PactMesh
