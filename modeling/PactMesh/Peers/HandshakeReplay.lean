import PactMesh.Peers.Admission

/-!
# Recorded handshakes

Without secure mode a peer introduces itself by one signed request with a random nonce.  A connection
remembers the nonces it has accepted, but a new one starts with none.

* `accepted_eq_some_iff`: whether a request is accepted does not depend on the past.
* `plain_requests_accepted_once_iff`: every request is accepted once exactly if none that passes comes
  twice.
* `recorded_request_admitted`: a request that comes twice.
-/

namespace PactMesh

open PeerManager

variable (H : HandshakeSuite)

/-- What makes a request one of a kind: the device and its nonce. -/
def requestKey (req : HandshakeRequest) : Option (Bytes32 × List UInt8) :=
  (H.certFromCbor req.memberCertCbor).map fun cert => (cert.details.devicePk, req.applicantNonce)

namespace PeerManager

variable (m : PeerManager)

/-- The connection that an event establishes. -/
def handshakeDone : ManagerEvent → Option PeerConn
  | .inbound notLoop first =>
    if notLoop && m.node.trustContext.isSome then
      (doHandshakeAsServerExt H m.node m.store first).1.toOption
    else none
  | .outbound cc inputs => (doHandshakeAsClient H m.node m.store cc inputs).1.toOption
  | _ => none

/-- The plain request that an event accepts. -/
def accepted (ev : ManagerEvent) : Option HandshakeRequest :=
  (m.handshakeDone H ev).bind fun conn => if conn.noise.isNone then some conn.info else none

/-- The events of a run, with the manager before each. -/
def moments (m : PeerManager) : List ManagerEvent → List (PeerManager × ManagerEvent)
  | [] => []
  | ev :: events => (m, ev) :: moments (m.step H ev) events

/-- What a run accepts, in order. -/
def acceptedKeys (events : List ManagerEvent) : List (Bytes32 × List UInt8) :=
  (m.moments H events).filterMap fun x => (x.1.accepted H x.2).bind (requestKey H)

end PeerManager

/-! ### Which requests a connection accepts -/

/-- The event brings a request that passes the checks. -/
def Presents (m : PeerManager) : ManagerEvent → HandshakeRequest → Prop
  | .inbound notLoop (.handShake (some given) handshakeRecved sent), req =>
    notLoop = true ∧ given = req ∧ PassesAsServer H m.node req handshakeRecved sent
  | .outbound _ inputs, req => PassesAsClient H m.node inputs req
  | _, _ => False

section Accepted

variable {H} {m : PeerManager} {node : PeerManagerNode} {req : HandshakeRequest} {conn : PeerConn}

theorem noise_of_server {store : PeerSessionStore} {inputs : ServerInputs}
    (h : (doHandshakeAsServerExt H node store (.noiseMsg1 inputs)).1 = .ok conn) :
    conn.noise.isNone = false := by
  simp only [doHandshakeAsServerExt] at h
  split_ifs at h
  split at h
  · cases h
  · split at h
    · cases h
    · rw [checkPeerIdConflict_ok h]
      rfl

theorem noise_of_client {store : PeerSessionStore} {cc : ClientConn} {inputs : ClientInputs}
    (hsecure : node.secureMode = true)
    (h : (doHandshakeAsClient H node store cc inputs).1 = .ok conn) :
    conn.noise.isNone = false := by
  simp only [doHandshakeAsClient, hsecure, if_true] at h
  split at h
  · cases h
  · split at h
    · cases h
    · rw [checkPeerIdConflict_ok h]
      rfl

theorem toOption_eq_some_iff {ε α : Type*} {x : Except ε α} {a : α} :
    x.toOption = some a ↔ x = .ok a := by
  cases x <;> simp [Except.toOption]

theorem accepted_eq_some_iff_exists {ev : ManagerEvent} : m.accepted H ev = some req ↔
    ∃ conn, m.handshakeDone H ev = some conn ∧ conn.noise.isNone = true ∧ conn.info = req := by
  simp only [accepted, Option.bind_eq_some_iff, Option.ite_none_right_eq_some, Option.some.injEq]

/-- **What an event accepts is what it presents**: nothing that happened before matters. -/
theorem accepted_eq_some_iff {ev : ManagerEvent} :
    m.accepted H ev = some req ↔ Presents H m ev req := by
  rw [accepted_eq_some_iff_exists]
  cases ev with
  | inbound notLoop first =>
    simp only [handshakeDone, Option.ite_none_right_eq_some, toOption_eq_some_iff]
    cases first with
    | noiseMsg1 inputs =>
      refine iff_of_false ?_ nofun
      rintro ⟨conn, ⟨-, hdone⟩, hplain, -⟩
      rw [noise_of_server hdone] at hplain
      cases hplain
    | handShake given handshakeRecved sent =>
      cases given with
      | none => exact iff_of_false (fun ⟨_, ⟨_, hdone⟩, _⟩ => nomatch hdone) nofun
      | some given =>
        simp only [doHandshakeAsServerExt, plainHandshakeAsServer_eq_ok_iff, Presents,
          Bool.and_eq_true]
        constructor
        · rintro ⟨conn, ⟨⟨hloop, -⟩, rfl, hpasses⟩, -, rfl⟩
          exact ⟨hloop, rfl, hpasses⟩
        · rintro ⟨hloop, rfl, hpasses⟩
          exact ⟨_, ⟨⟨hloop, hpasses.context⟩, rfl, hpasses⟩, rfl, rfl⟩
    | other => exact iff_of_false (fun ⟨_, ⟨_, hdone⟩, _⟩ => nomatch hdone) nofun
  | outbound cc inputs =>
    simp only [handshakeDone, toOption_eq_some_iff, Presents]
    cases hmode : m.node.secureMode with
    | true =>
      refine iff_of_false ?_ fun h => ?_
      · rintro ⟨conn, hdone, hplain, -⟩
        rw [noise_of_client hmode hdone] at hplain
        cases hplain
      · rw [h.plain] at hmode
        cases hmode
    | false =>
      simp only [doHandshakeAsClient, hmode, Bool.false_eq_true, if_false,
        plainHandshakeAsClient_eq_ok_iff hmode]
      constructor
      · rintro ⟨conn, ⟨req', rfl, hpasses⟩, -, rfl⟩
        exact hpasses
      · intro hpasses
        exact ⟨_, ⟨req, rfl, hpasses⟩, rfl, rfl⟩
  | close peerId i => exact iff_of_false (fun ⟨_, hdone, _⟩ => nomatch hdone) nofun
  | reconfigure node => exact iff_of_false (fun ⟨_, hdone, _⟩ => nomatch hdone) nofun
  | sessions store => exact iff_of_false (fun ⟨_, hdone, _⟩ => nomatch hdone) nofun

end Accepted

/-- The event brings a passing request with this device and nonce. -/
def PresentsKey (m : PeerManager) (ev : ManagerEvent) (key : Bytes32 × List UInt8) : Prop :=
  ∃ req, Presents H m ev req ∧ requestKey H req = some key

/-- **When every plain request is accepted at most once over a run**: no two events present requests
with one device key and nonce that both pass. -/
theorem plain_requests_accepted_once_iff (m : PeerManager) (events : List ManagerEvent) :
    (m.acceptedKeys H events).Nodup ↔ (m.moments H events).Pairwise fun x y =>
        ∀ key, PresentsKey H x.1 x.2 key → ¬ PresentsKey H y.1 y.2 key := by
  rw [List.Nodup, acceptedKeys, List.pairwise_filterMap]
  have hkey : ∀ (x : PeerManager × ManagerEvent) (key : Bytes32 × List UInt8),
      (x.1.accepted H x.2).bind (requestKey H) = some key ↔ PresentsKey H x.1 x.2 key := by
    intro x key
    simp only [Option.bind_eq_some_iff, accepted_eq_some_iff, PresentsKey]
  simp only [hkey]
  constructor
  · intro h
    exact h.imp fun hxy key hx hy => hxy key hx key hy rfl
  · intro h
    refine h.imp fun hxy key hx key' hy => ?_
    rintro rfl
    exact hxy key hx hy

def tunnelWithRequest7 : ManagerEvent :=
  .inbound true (.handShake (some (sampleRequest (1 :: List.replicate 32 7))) (fun _ => .ok 1) true)

/-- **A recorded request is admitted again**: device 7 connects and leaves, and its request on
another tunnel is accepted. -/
theorem recorded_request_admitted :
    let events := [tunnelWithRequest7, .close 7 0, tunnelWithRequest7]
    let key := (all32 7, List.replicate 16 0)
    sampleManager.acceptedKeys sampleHandshakeSuite events = [key, key] ∧
      ((events.foldl (step sampleHandshakeSuite) sampleManager).peers 7).map
          (fun peer => peer.conns.map (·.conn.info)) =
        some [sampleRequest (1 :: List.replicate 32 7)] := by
  decide +kernel

end PactMesh
