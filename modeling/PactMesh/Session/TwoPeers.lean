import PactMesh.Lib.Trans
import PactMesh.Session.PeerSession

/-!
# Two peers and the handshakes between them

Two nodes of one network keep a session for each other and run handshakes in both directions, any
number of them at the same time.  One handshake is five steps of the system:

1. `start` : the initiator sends msg1 with the generation of its session, if it knows whom it calls;
2. `respond` : the responder calls `upsertResponderSession` and sends msg2;
3. `answer` : the initiator sends msg3;
4. `apply` : the initiator calls `applyInitiatorAction` and binds the static keys;
5. `finish` : the responder checks the initiator's static key and binds the static keys.

Beside them the nodes send and receive datagrams (`receive` takes any packet, so the network may
lose, reorder, repeat and forge), handshake messages are lost, and sessions are dropped.
-/

namespace PactMesh

open Function

/-- The two nodes: `a` has the smaller peer id. -/
inductive Side
  | a
  | b
deriving DecidableEq

def Side.other : Side → Side
  | a => b
  | b => a

@[simp] theorem Side.other_other (x : Side) : x.other.other = x := by cases x <;> rfl

@[simp] theorem Side.other_ne (x : Side) : x.other ≠ x := by cases x <;> decide

structure PeerPair where
  networkName : String
  lowId : PeerId
  highId : PeerId
  /-- the nodes have different ids -/
  lt : lowId < highId
  /-- the Noise static public keys -/
  staticKey : Side → Key32
  /-- the encryption algorithms the nodes are configured with -/
  algorithm : Side → String

/-- A handshake message under way, or a msg2 that its receiver has answered but not yet applied
(`answered`). -/
inductive Flight
  | msg1 (initiator : Side) (aSessionGeneration : Option UInt32)
  | msg2 (initiator : Side) (action : PeerSessionAction) (bSessionGeneration : UInt32)
      (rootKey : Option Key32) (initialEpoch : UInt32)
  | answered (initiator : Side) (action : PeerSessionAction) (bSessionGeneration : UInt32)
      (rootKey : Option Key32) (initialEpoch : UInt32)
  | msg3 (initiator : Side)
deriving DecidableEq

structure PairState where
  store : Side → PeerSessionStore
  flights : List Flight
  /-- the datagrams encrypted so far, the latest first -/
  used : List DatagramId
  /-- the root keys drawn so far -/
  drawn : List Key32

inductive PairEvent
  | start (x : Side) (hint : Bool)
  | respond (x : Side) (aSessionGeneration : Option UInt32) (newRootKey : Key32) (nowMs : UInt64)
  | answer (x : Side) (action : PeerSessionAction) (bSessionGeneration : UInt32)
      (rootKey : Option Key32) (initialEpoch : UInt32)
  | apply (x : Side) (action : PeerSessionAction) (bSessionGeneration : UInt32)
      (rootKey : Option Key32) (initialEpoch : UInt32) (nowMs : UInt64)
  | finish (x : Side)
  | lose (f : Flight)
  | send (x : Side) (pkt : Packet) (nowMs : UInt64)
  | receive (x : Side) (pkt : Packet) (nowMs : UInt64)
  | evict (x : Side)
  | invalidateForPeer (x : Side)

namespace PeerPair

variable (P : PeerPair) (C : CryptoSuite)

def id : Side → PeerId
  | .a => P.lowId
  | .b => P.highId

def key (x : Side) : SessionKey := ⟨P.networkName, P.id x.other⟩

def dir (x : Side) : SecureDatagramDirection := PeerSession.dirForSender (P.id x) (P.id x.other)

def init : PairState := ⟨fun _ => .empty, [], [], []⟩

def session (st : PairState) (x : Side) : Option PeerSession := st.store x (P.key x)

def respondStep (st : PairState) (x : Side) (aGen : Option UInt32) (newRootKey : Key32)
    (nowMs : UInt64) : PairState :=
  let y := x.other
  let out := (st.store y).upsertResponderSession (P.key y) (P.id y) aGen (P.algorithm y)
    (P.algorithm x) none newRootKey nowMs
  let flights := st.flights.erase (.msg1 x aGen)
  { st with
    store := update st.store y out.2
    flights := match out.1 with
      | .ok ret => .msg2 x ret.action ret.sessionGeneration ret.rootKey ret.initialEpoch :: flights
      | .error _ => flights
    drawn := if ((st.store y).valid (P.key y)).isNone then newRootKey :: st.drawn else st.drawn }

def applyStore (store : PeerSessionStore) (x : Side) (action : PeerSessionAction) (bGen : UInt32)
    (rootKey : Option Key32) (initialEpoch : UInt32) (nowMs : UInt64) : PeerSessionStore :=
  let out := store.applyInitiatorAction (P.key x) (P.id x) action bGen rootKey initialEpoch
    (P.algorithm x) (P.algorithm x.other) (some (P.staticKey x.other)) nowMs
  match out.1 with
  | .ok session => out.2.insert (P.key x)
      (session.bindStaticIdentities (P.staticKey x).toList (P.staticKey x.other).toList)
  | .error _ => out.2

def applyStep (st : PairState) (x : Side) (action : PeerSessionAction) (bGen : UInt32)
    (rootKey : Option Key32) (initialEpoch : UInt32) (nowMs : UInt64) : PairState :=
  { st with
    store := update st.store x
      (P.applyStore (st.store x) x action bGen rootKey initialEpoch nowMs)
    flights := st.flights.erase (.answered x action bGen rootKey initialEpoch) }

/-- The responder's store after msg3 of the initiator `x`: the initiator's static key is checked
and both are bound. -/
def finishStore (store : PeerSessionStore) (x : Side) : PeerSessionStore :=
  match store (P.key x.other) with
  | none => store
  | some session =>
    match session.checkOrSetPeerStaticPubkey (some (P.staticKey x)) with
    | .error _ => store
    | .ok session => store.insert (P.key x.other)
        (session.bindStaticIdentities (P.staticKey x.other).toList (P.staticKey x).toList)

def finishStep (st : PairState) (x : Side) : PairState :=
  { st with
    store := update st.store x.other (P.finishStore (st.store x.other) x)
    flights := st.flights.erase (.msg3 x) }

def sendStep (st : PairState) (x : Side) (pkt : Packet) (nowMs : UInt64) : PairState :=
  match P.session st x with
  | none => st
  | some s =>
    let out := s.encryptPayload C (P.id x) (P.id x.other) pkt nowMs
    { st with
      store := update st.store x ((st.store x).insert (P.key x) out.2)
      used := match out.1 with
        | .ok _ => s.datagram.txId (P.dir x) nowMs :: st.used
        | .error _ => st.used }

def receiveStep (st : PairState) (x : Side) (pkt : Packet) (nowMs : UInt64) : PairState :=
  match P.session st x with
  | none => st
  | some s =>
    let out := s.decryptPayload C (P.id x.other) (P.id x) pkt nowMs
    { st with store := update st.store x ((st.store x).insert (P.key x) out.2) }

def step (st : PairState) : PairEvent → PairState
  | .start x hint =>
    if hint then
      let out := (st.store x).get (P.key x)
      { st with
        store := update st.store x out.2
        flights := .msg1 x (out.1.map (·.datagram.sessionGeneration)) :: st.flights }
    else { st with flights := .msg1 x none :: st.flights }
  | .respond x aGen newRootKey nowMs =>
    if .msg1 x aGen ∈ st.flights then P.respondStep st x aGen newRootKey nowMs else st
  | .answer x action bGen rootKey epoch =>
    if .msg2 x action bGen rootKey epoch ∈ st.flights then
      { st with
        flights := .answered x action bGen rootKey epoch :: .msg3 x ::
          st.flights.erase (.msg2 x action bGen rootKey epoch) }
    else st
  | .apply x action bGen rootKey epoch nowMs =>
    if .answered x action bGen rootKey epoch ∈ st.flights then
      P.applyStep st x action bGen rootKey epoch nowMs
    else st
  | .finish x => if .msg3 x ∈ st.flights then P.finishStep st x else st
  | .lose f => { st with flights := st.flights.erase f }
  | .send x pkt nowMs => P.sendStep C st x pkt nowMs
  | .receive x pkt nowMs => P.receiveStep C st x pkt nowMs
  | .evict x => { st with store := update st.store x ((st.store x).remove (P.key x)) }
  | .invalidateForPeer x =>
    { st with store := update st.store x ((st.store x).invalidateForPeer (P.id x.other)) }

def sys : Trans PairState PairEvent := .ofFun (P.step C)

variable {P C} {st : PairState}

theorem session_update_cases {x y : Side} {store : PeerSessionStore} {flights : List Flight}
    {used : List DatagramId} {drawn : List Key32} {s : PeerSession}
    (h : P.session ⟨update st.store x store, flights, used, drawn⟩ y = some s) :
    y = x ∧ store (P.key x) = some s ∨ y ≠ x ∧ P.session st y = some s := by
  by_cases hy : y = x
  · subst hy
    exact .inl ⟨rfl, by simpa [session] using h⟩
  · exact .inr ⟨hy, by simpa [session, hy] using h⟩

theorem dir_a : P.dir .a = .aToB := by
  simp [dir, PeerSession.dirForSender, id, Side.other, P.lt]

theorem dir_b : P.dir .b = .bToA := by
  simp [dir, PeerSession.dirForSender, id, Side.other, UInt32.not_lt.2 (UInt32.le_of_lt P.lt)]

theorem dir_injective : Function.Injective P.dir := by
  intro x y h
  cases x <;> cases y <;> simp_all [dir_a, dir_b]

end PeerPair

def samplePair : PeerPair where
  networkName := "net"
  lowId := 1
  highId := 2
  lt := by decide
  staticKey
    | .a => key32 1
    | .b => key32 2
  algorithm _ := "aes-gcm"

end PactMesh
