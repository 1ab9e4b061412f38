import PactMesh.Session.RoundTrip
import PactMesh.Session.TwoPeers

/-!
# Two peers agree on their session

The two nodes of `TwoPeers` run handshakes in both directions, and nothing else happens.  When all
are over, both stores hold the same root key and generation, as long as a responder without a session
*creates* one only while the initiator has none either (`CreatesAlone`).  Two handshakes that cross
exchange the root keys.

The invariant `AgreeInv k` says that every session and every offer under way carries the root key
`k`, and that a node that lacks what the other one has is about to get it.

Main result: `agree_of_createsAlone`.
-/

namespace PactMesh

open PeerSessionStore List

def PairEvent.IsHandshake : PairEvent → Prop
  | .start .. | .respond .. | .answer .. | .apply .. | .finish .. => True
  | .lose .. | .send .. | .receive .. | .evict .. | .invalidateForPeer .. => False

instance : DecidablePred PairEvent.IsHandshake := fun ev => by
  cases ev <;> dsimp only [PairEvent.IsHandshake] <;> infer_instance

/-- The message offers a session to `x`. -/
def Flight.Offers (x : Side) : Flight → Prop
  | .msg2 y action _ _ _ | .answered y action _ _ _ => y = x ∧ action ≠ .join
  | .msg1 .. | .msg3 .. => False

/-- The message will make `x`, the responder, bind the static keys. -/
def Flight.Binds (x : Side) : Flight → Prop
  | .msg2 y _ _ _ _ | .msg3 y => y.other = x
  | .msg1 .. | .answered .. => False

namespace PeerPair

variable (P : PeerPair)

def CreatesAlone (st : PairState) : PairEvent → Prop
  | .respond x _ _ _ => ((st.store x.other).valid (P.key x.other)).isNone = true →
      ((st.store x).valid (P.key x)).isNone = true
  | _ => True

instance (st : PairState) : DecidablePred (P.CreatesAlone st) := fun ev => by
  cases ev <;> dsimp only [CreatesAlone] <;> infer_instance

def binding : List UInt8 :=
  if (P.staticKey .a).toList ≤ (P.staticKey .b).toList then
    (P.staticKey .a).toList ++ (P.staticKey .b).toList
  else (P.staticKey .b).toList ++ (P.staticKey .a).toList

/-- What a session of node `x` looks like when only handshakes have happened. -/
structure Good (x : Side) (k : Key32) (s : PeerSession) : Prop where
  rootKey : s.datagram.rootKey = k
  generation : s.datagram.sessionGeneration = 1
  kdfContext : s.datagram.kdfContext = some (.new P.networkName P.lowId P.highId)
  identityBinding : s.datagram.identityBinding = none ∨ s.datagram.identityBinding = some P.binding
  sendAlgorithm : s.datagram.sendCipherAlgorithm = P.algorithm x
  recvAlgorithm : s.datagram.recvCipherAlgorithm = P.algorithm x.other
  static : s.peerStaticPubkey = none ∨ s.peerStaticPubkey = some (P.staticKey x.other)
  valid : s.isValid = true
  cache : s.datagram.keyCache = fun _ => ⟨none, none⟩
  rxSlots : ∀ dir, s.datagram.replay.rxSlots dir = .empty
  graceSlots : ∀ dir, s.datagram.replay.graceSlots dir = .empty

variable {P} {x : Side} {k : Key32} {s : PeerSession}

theorem kdfContext_eq (x : Side) :
    SecureDatagramKdfContext.new P.networkName (P.id x) (P.id x.other) =
      .new P.networkName P.lowId P.highId := by
  cases x with
  | a => rfl
  | b => exact SecureDatagramKdfContext.new_comm _ _ _

theorem append_sorted_comm (l r : List UInt8) :
    (if l ≤ r then l ++ r else r ++ l) = if r ≤ l then r ++ l else l ++ r := by
  -- both comparisons hold only for equal lists, and they cannot both fail
  by_cases hlr : l ≤ r <;> by_cases hrl : r ≤ l
  · rw [List.le_antisymm hlr hrl]
  · rw [if_pos hlr, if_neg hrl]
  · rw [if_neg hlr, if_pos hrl]
  · exact absurd (List.le_total l r) (not_or.2 ⟨hlr, hrl⟩)

theorem setIdentityBinding_eq_binding (d : SecureDatagramSession) (x : Side)
    (h : d.identityBinding = none ∨ d.identityBinding = some P.binding) :
    d.setIdentityBinding (P.staticKey x).toList (P.staticKey x.other).toList =
      { d with identityBinding := some P.binding } := by
  have hbuf : ∀ x : Side, (if (P.staticKey x).toList ≤ (P.staticKey x.other).toList then
      (P.staticKey x).toList ++ (P.staticKey x.other).toList
      else (P.staticKey x.other).toList ++ (P.staticKey x).toList) = P.binding := by
    intro x
    cases x with
    | a => rfl
    | b => exact append_sorted_comm _ _
  have hlen : ∀ v : Key32, v.toList.length = 32 := fun v => by simp
  simp only [SecureDatagramSession.setIdentityBinding, hlen, ne_eq, not_true_eq_false, or_self,
    if_false, hbuf]
  obtain h | h := h
  · simp only [h]
  · simp only [h]
    cases d
    cases h
    rfl

namespace Good

theorem checkHandshake (h : P.Good x k s) {static : Option Key32}
    (hstatic : static = none ∨ static = some (P.staticKey x.other)) :
    ∃ s', s.checkHandshake (P.algorithm x) (P.algorithm x.other) static = .ok s' ∧
      P.Good x k s' ∧ s'.datagram = s.datagram := by
  unfold PeerSession.checkHandshake PeerSession.checkOrSetPeerStaticPubkey
  simp only [SecureDatagramSession.checkEncryptAlgoSame, h.sendAlgorithm, h.recvAlgorithm,
    beq_self_eq_true, Bool.and_self, if_true]
  obtain rfl | rfl := hstatic
  · exact ⟨s, rfl, h, rfl⟩
  · obtain hs | hs := h.static
    · exact ⟨{ s with peerStaticPubkey := some (P.staticKey x.other) }, by simp only [hs],
        { h with static := .inr rfl }, rfl⟩
    · exact ⟨s, by simp only [hs, if_true], h, rfl⟩

theorem bindStaticIdentities (h : P.Good x k s) :
    P.Good x k (s.bindStaticIdentities (P.staticKey x).toList (P.staticKey x.other).toList) ∧
      (s.bindStaticIdentities (P.staticKey x).toList
        (P.staticKey x.other).toList).datagram.identityBinding = some P.binding := by
  rw [PeerSession.bindStaticIdentities, setIdentityBinding_eq_binding _ x h.identityBinding]
  exact ⟨{ h with identityBinding := .inr rfl }, rfl⟩

theorem syncRootKey {k' : Key32} (h : P.Good x k' s) (epoch : UInt32) (preserve : Bool)
    (nowMs : UInt64) : P.Good x k (s.syncRootKey k 1 epoch preserve nowMs) := by
  refine { h with rootKey := rfl, generation := rfl, cache := rfl, rxSlots := ?_, graceSlots := ?_ }
  · intro dir
    simp only [PeerSession.syncRootKey, SecureDatagramSession.syncRootKey, ReplayState.sync]
    split <;> rfl
  · intro dir
    simp only [PeerSession.syncRootKey, SecureDatagramSession.syncRootKey, ReplayState.sync]
    split
    · simp only [ReplayState.graceSlots, h.rxSlots]
      split <;> rfl
    · rfl

theorem new (x : Side) (k : Key32) (epoch : UInt32) {static : Option Key32}
    (hstatic : static = none ∨ static = some (P.staticKey x.other)) (nowMs : UInt64) :
    P.Good x k (.new P.networkName (P.id x) (P.id x.other) k 1 epoch (P.algorithm x)
      (P.algorithm x.other) static nowMs) where
  rootKey := rfl
  generation := rfl
  kdfContext := congrArg some (kdfContext_eq x)
  identityBinding := .inl rfl
  sendAlgorithm := rfl
  recvAlgorithm := rfl
  static := hstatic
  valid := rfl
  cache := rfl
  rxSlots _ := rfl
  graceSlots _ := rfl

variable {store : PeerSessionStore}

section

variable {action : PeerSessionAction} (hstore : ∀ s, store (P.key x) = some s → P.Good x k s)
  {rootKey : Option Key32} (hjoin : action = .join → (store (P.key x)).isSome = true)
  (hroot : action ≠ .join → rootKey = some k) (epoch : UInt32) (nowMs : UInt64)

include hstore hjoin hroot

theorem applyInitiatorAction :
    ∃ s, (store.applyInitiatorAction (P.key x) (P.id x) action 1 rootKey epoch (P.algorithm x)
      (P.algorithm x.other) (some (P.staticKey x.other)) nowMs).1 = .ok s ∧ P.Good x k s := by
  have hstart : ∀ preserve, ∃ s, (store.startSession (P.key x) (P.id x) k 1 epoch preserve
      (P.algorithm x) (P.algorithm x.other) (some (P.staticKey x.other)) nowMs).1 = .ok s ∧
        P.Good x k s := by
    intro preserve
    simp only [PeerSessionStore.startSession]
    generalize hsess : (store.valid (P.key x)).getD _ = session
    have hgood : P.Good x k session := by
      cases hv : store.valid (P.key x) with
      | none =>
        rw [hv, Option.getD_none] at hsess
        exact hsess ▸ .new x k epoch (.inr rfl) nowMs
      | some s =>
        rw [hv, Option.getD_some] at hsess
        exact hsess ▸ hstore s (valid_eq_some_iff.1 hv).1
    obtain ⟨s', hs', hgood', -⟩ := hgood.checkHandshake (.inr rfl)
    simp only [hs']
    exact ⟨_, rfl, hgood'.syncRootKey epoch preserve nowMs⟩
  cases action with
  | join =>
    obtain ⟨s, hs⟩ := Option.isSome_iff_exists.1 (hjoin rfl)
    have hgood := hstore s hs
    have hget : store.get (P.key x) = (some s, store) := by
      simp [PeerSessionStore.get, hs, hgood.valid]
    obtain ⟨s', hs', hgood', -⟩ := hgood.checkHandshake (.inr rfl)
    refine ⟨s', ?_, hgood'⟩
    simp [PeerSessionStore.applyInitiatorAction, PeerSessionStore.joinSession, hget, hs',
      hgood'.generation]
  | sync =>
    rw [hroot (by simp)]
    exact hstart true
  | create =>
    rw [hroot (by simp)]
    exact hstart false

theorem applyStore : ∃ s, P.applyStore store x action 1 rootKey epoch nowMs (P.key x) = some s ∧
    P.Good x k s ∧ s.datagram.identityBinding = some P.binding := by
  obtain ⟨s, hs, hgood⟩ := applyInitiatorAction hstore hjoin hroot epoch nowMs
  refine ⟨_, ?_, hgood.bindStaticIdentities⟩
  simp only [PeerPair.applyStore, hs, insert_self]

end

theorem finishStore (hs : store (P.key x.other) = some s) (hgood : P.Good x.other k s) :
    ∃ s', P.finishStore store x (P.key x.other) = some s' ∧ P.Good x.other k s' ∧
      s'.datagram.identityBinding = some P.binding := by
  have hstatic : some (P.staticKey x) = some (P.staticKey x.other.other) := by
    rw [Side.other_other]
  have hcheck := hgood.checkHandshake (.inr hstatic)
  simp only [PeerSession.checkHandshake, SecureDatagramSession.checkEncryptAlgoSame,
    hgood.sendAlgorithm, hgood.recvAlgorithm, beq_self_eq_true, Bool.and_self, if_true] at hcheck
  obtain ⟨s', hs', hgood', -⟩ := hcheck
  have hbind := hgood'.bindStaticIdentities
  rw [Side.other_other] at hbind
  refine ⟨_, ?_, hbind⟩
  simp only [PeerPair.finishStore, hs, hs', insert_self]

end Good

def Has (P : PeerPair) (st : PairState) (x : Side) : Prop := (P.session st x).isSome = true

/-- A message under way fits the root key `k` and the sessions there are. -/
def FlightOk (k : Key32) (has : Side → Prop) : Flight → Prop
  | .msg1 x aGen => aGen.isSome = true → has x
  | .msg2 x action gen rootKey _ | .answered x action gen rootKey _ =>
    gen = 1 ∧ (action = .join → has x) ∧ (action ≠ .join → rootKey = some k) ∧ has x.other
  | .msg3 x => has x.other

/-- Everything is about the root key `k`, a node that lacks a session the other one has is offered
one, and a session without a binding is about to get it. -/
structure AgreeInv (P : PeerPair) (k : Key32) (st : PairState) : Prop where
  good : ∀ {x s}, P.session st x = some s → P.Good x k s
  flight : ∀ {f}, f ∈ st.flights → FlightOk k (P.Has st) f
  owed : ∀ {x}, ¬ P.Has st x → P.Has st x.other → ∃ f ∈ st.flights, Flight.Offers x f
  unbound : ∀ {x s}, P.session st x = some s → s.datagram.identityBinding = none →
    ∃ f ∈ st.flights, Flight.Binds x f

def Begun (P : PeerPair) (st : PairState) : Prop :=
  (∃ x, P.Has st x) ∨ ∃ f ∈ st.flights, ∃ x aGen, f = Flight.msg1 x aGen

theorem FlightOk.mono {has has' : Side → Prop} {f : Flight} (h : FlightOk k has f)
    (hhas : ∀ x, has x → has' x) : FlightOk k has' f := by
  cases f with
  | msg1 x aGen => exact fun hg => hhas x (h hg)
  | msg2 x action gen rootKey epoch | answered x action gen rootKey epoch =>
    obtain ⟨hgen, hjoin, hroot, hother⟩ := h
    exact ⟨hgen, fun ha => hhas x (hjoin ha), hroot, hhas _ hother⟩
  | msg3 x => exact hhas _ h

theorem FlightOk.of_none {has has' : Side → Prop} {f : Flight} (h : FlightOk k has f)
    (hnone : ∀ x, ¬ has x) (k' : Key32) : FlightOk k' has' f := by
  cases f with
  | msg1 x aGen => exact fun hg => absurd (h hg) (hnone x)
  | msg2 | answered => exact absurd h.2.2.2 (hnone _)
  | msg3 x => exact absurd h (hnone _)

theorem exists_mem_erase {l : List Flight} {g : Flight} {Q : Flight → Prop} (hg : ¬ Q g)
    (h : ∃ f ∈ l, Q f) : ∃ f ∈ l.erase g, Q f := by
  obtain ⟨f, hf, hq⟩ := h
  refine ⟨f, (mem_erase_of_ne ?_).2 hf, hq⟩
  rintro rfl
  exact hg hq

variable {st : PairState}

theorem has_update {z : Side} {store : PeerSessionStore} (hs : store (P.key z) = some s)
    {flights : List Flight} {used : List DatagramId} {drawn : List Key32} (y : Side)
    (h : y = z ∨ P.Has st y) :
    P.Has ⟨Function.update st.store z store, flights, used, drawn⟩ y := by
  by_cases hy : y = z
  · subst hy
    simp [Has, session, hs]
  · obtain h | h := h
    · exact absurd h hy
    · simpa [Has, session, hy] using h

namespace AgreeInv

variable (h : P.AgreeInv k st)
include h

theorem valid_eq (x : Side) : (st.store x).valid (P.key x) = P.session st x := by
  unfold PeerSessionStore.valid session
  cases hs : st.store x (P.key x) with
  | none => rfl
  | some s => simp [(h.good hs).valid]

theorem update {z : Side} {store : PeerSessionStore}
    (hs : store (P.key z) = some s) (hgood : P.Good z k s) {flights : List Flight}
    {drawn : List Key32}
    (hflights : ∀ {f}, f ∈ flights → f ∈ st.flights ∨ FlightOk k (fun y => y = z ∨ P.Has st y) f)
    (howed : ¬ P.Has st z.other → ∃ f ∈ flights, Flight.Offers z.other f)
    (hself : s.datagram.identityBinding = none → ∃ f ∈ flights, Flight.Binds z f)
    (hother : (∃ f ∈ st.flights, Flight.Binds z.other f) → ∃ f ∈ flights, Flight.Binds z.other f) :
    P.AgreeInv k ⟨Function.update st.store z store, flights, st.used, drawn⟩ := by
  have hcase : ∀ y : Side, y ≠ z → y = z.other := by
    intro y hy
    cases y <;> cases z <;> simp_all [Side.other]
  refine ⟨?_, ?_, ?_, ?_⟩
  · intro y s' hs'
    obtain ⟨rfl, hs'⟩ | ⟨-, hs'⟩ := session_update_cases hs'
    · cases hs.symm.trans hs'
      exact hgood
    · exact h.good hs'
  · intro f hf
    obtain hf | hf := hflights hf
    · exact (h.flight hf).mono fun y hy => has_update hs y (.inr hy)
    · exact hf.mono fun y hy => has_update hs y hy
  · intro y hy _
    by_cases hyz : y = z
    · exact absurd (has_update hs y (.inl hyz)) hy
    · obtain rfl := hcase y hyz
      exact howed fun hhas => hy (has_update hs _ (.inr hhas))
  · intro y s' hs' hbind
    obtain ⟨rfl, hs'⟩ | ⟨hy, hs'⟩ := session_update_cases hs'
    · cases hs.symm.trans hs'
      exact hself hbind
    · obtain rfl := hcase y hy
      exact hother (h.unbound hs' hbind)

theorem rekey (hempty : ∀ y, ¬ P.Has st y) (k' : Key32) :
    P.AgreeInv k' st where
  good {y _} hs := absurd (by rw [Has, hs]; rfl) (hempty y)
  flight hf := (h.flight hf).of_none hempty k'
  owed {y} _ hy := absurd hy (hempty y.other)
  unbound {y _} hs := absurd (by rw [Has, hs]; rfl) (hempty y)

variable {action : PeerSessionAction} {rootKey : Option Key32}

theorem send_msg2 {aGen : Option UInt32} {store : PeerSessionStore}
    (hs : store (P.key x.other) = some s) (hgood : P.Good x.other k s)
    (epoch : UInt32) (drawn : List Key32) (hjoin : action = .join → P.Has st x)
    (hroot : action ≠ .join → rootKey = some k) :
    P.AgreeInv k ⟨Function.update st.store x.other store,
      .msg2 x action s.datagram.sessionGeneration rootKey epoch :: st.flights.erase (.msg1 x aGen),
      st.used, drawn⟩ := by
  refine h.update hs hgood ?_ ?_ ?_ ?_
  · intro f hf
    obtain rfl | hf := mem_cons.1 hf
    · exact .inr ⟨hgood.generation, fun ha => .inr (hjoin ha), hroot, .inl rfl⟩
    · exact .inl (mem_of_mem_erase hf)
  · intro hx
    rw [Side.other_other] at hx ⊢
    exact ⟨_, mem_cons_self, rfl, fun ha => hx (hjoin ha)⟩
  · intro _
    exact ⟨_, mem_cons_self, rfl⟩
  · intro hex
    obtain ⟨f, hf, hb⟩ := exists_mem_erase (g := .msg1 x aGen) (fun h => h) hex
    exact ⟨f, mem_cons_of_mem _ hf, hb⟩

theorem respond {aGen : Option UInt32} (newRootKey : Key32)
    (nowMs : UInt64) (hmsg : Flight.msg1 x aGen ∈ st.flights)
    (halone : ((st.store x.other).valid (P.key x.other)).isNone = true →
      ((st.store x).valid (P.key x)).isNone = true) :
    ∃ k', P.AgreeInv k' (P.respondStep st x aGen newRootKey nowMs) := by
  have halg : P.algorithm x.other.other = P.algorithm x := by rw [Side.other_other]
  rw [h.valid_eq, h.valid_eq] at halone
  unfold respondStep
  obtain ⟨hnone, hout⟩ | ⟨s, e, hs, herr, -⟩ | ⟨s, s', hs, hcheck, hcase⟩ :=
    (st.store x.other).upsertResponderSession_cases (P.key x.other) (P.id x.other) aGen
      (P.algorithm x.other) (P.algorithm x) none newRootKey nowMs
  · -- no session on either side: the new root key takes over
    rw [h.valid_eq] at hnone
    have hempty : ∀ y, ¬ P.Has st y := by
      intro y
      have hx : P.session st x = none := Option.isNone_iff_eq_none.1 (halone (by rw [hnone]; rfl))
      cases x <;> cases y <;> simp_all [Has, Side.other]
    have hnew := Good.new (P := P) x.other newRootKey 0 (.inl rfl) nowMs
    rw [halg] at hnew
    simp only [hout]
    exact ⟨newRootKey, (h.rekey hempty newRootKey).send_msg2 (insert_self ..) hnew
      0 _ (by simp) fun _ => rfl⟩
  · -- the checks of a good session do not fail
    rw [h.valid_eq] at hs
    obtain ⟨s', hs', -⟩ := (h.good hs).checkHandshake (.inl rfl)
    rw [halg, herr] at hs'
    cases hs'
  · rw [h.valid_eq] at hs
    obtain ⟨s'', hs'', hgood, hdata⟩ := (h.good hs).checkHandshake (.inl rfl)
    rw [halg, hcheck] at hs''
    cases hs''
    refine ⟨k, ?_⟩
    obtain ⟨hgen, hout⟩ | ⟨-, hout⟩ := hcase
    · have hx : P.Has st x := h.flight hmsg (by rw [hgen]; rfl)
      simp only [hout]
      exact h.send_msg2 (insert_self ..) hgood _ _ (fun _ => hx)
        fun hne => absurd rfl hne
    · simp only [hout]
      exact h.send_msg2 (insert_self ..) hgood _ _ (by simp)
        fun _ => by rw [hgood.rootKey]

theorem of_flights {flights : List Flight}
    (hflights : ∀ {f}, f ∈ flights → f ∈ st.flights ∨ FlightOk k (P.Has st) f)
    (howed : ∀ {x}, (∃ f ∈ st.flights, Flight.Offers x f) → ∃ f ∈ flights, Flight.Offers x f)
    (hbinds : ∀ {x}, (∃ f ∈ st.flights, Flight.Binds x f) → ∃ f ∈ flights, Flight.Binds x f) :
    P.AgreeInv k { st with flights := flights } :=
  ⟨h.good, fun hf => (hflights hf).elim h.flight fun hok => hok, fun hx hy => howed (h.owed hx hy),
    fun hs hbind => hbinds (h.unbound hs hbind)⟩

theorem start (C : CryptoSuite) (x : Side) (hint : Bool) :
    P.AgreeInv k (P.step C st (.start x hint)) := by
  have hadd : ∀ aGen : Option UInt32, (aGen.isSome = true → P.Has st x) →
      P.AgreeInv k { st with flights := .msg1 x aGen :: st.flights } := by
    intro aGen hgen
    have hcons : ∀ {Q : Flight → Prop}, (∃ f ∈ st.flights, Q f) →
        ∃ f ∈ Flight.msg1 x aGen :: st.flights, Q f := by
      rintro Q ⟨f, hf, hq⟩
      exact ⟨f, mem_cons_of_mem _ hf, hq⟩
    refine h.of_flights (fun {f} hf => ?_) hcons hcons
    obtain rfl | hf := mem_cons.1 hf
    · exact .inr hgen
    · exact .inl hf
  cases hint with
  | false => exact hadd none nofun
  | true =>
    have hget : (st.store x).get (P.key x) = (P.session st x, st.store x) := by
      unfold PeerSessionStore.get
      cases hs : st.store x (P.key x) with
      | none => simp [PeerPair.session, hs]
      | some s => simp [PeerPair.session, hs, (h.good hs).valid]
    simp only [step, hget, if_true, Function.update_eq_self]
    refine hadd _ fun hgen => ?_
    rwa [Option.isSome_map] at hgen

theorem answer {gen : UInt32} {epoch : UInt32}
    (hmsg : Flight.msg2 x action gen rootKey epoch ∈ st.flights) :
    P.AgreeInv k { st with
      flights := .answered x action gen rootKey epoch :: .msg3 x ::
        st.flights.erase (.msg2 x action gen rootKey epoch) } := by
  have hok := h.flight hmsg
  refine h.of_flights ?_ ?_ ?_
  · intro f hf
    simp only [mem_cons] at hf
    obtain rfl | rfl | hf := hf
    · exact .inr hok
    · exact .inr hok.2.2.2
    · exact .inl (mem_of_mem_erase hf)
  · rintro y ⟨f, hf, hoff⟩
    by_cases hfe : f = .msg2 x action gen rootKey epoch
    · subst hfe
      exact ⟨_, mem_cons_self, hoff⟩
    · exact ⟨f, by simp [(mem_erase_of_ne hfe).2 hf], hoff⟩
  · rintro y ⟨f, hf, hb⟩
    by_cases hfe : f = .msg2 x action gen rootKey epoch
    · subst hfe
      exact ⟨.msg3 x, by simp, hb⟩
    · exact ⟨f, by simp [(mem_erase_of_ne hfe).2 hf], hb⟩

theorem apply {gen : UInt32} {epoch : UInt32} (nowMs : UInt64)
    (hmsg : Flight.answered x action gen rootKey epoch ∈ st.flights) :
    P.AgreeInv k (P.applyStep st x action gen rootKey epoch nowMs) := by
  obtain ⟨rfl, hjoin, hroot, hother⟩ := h.flight hmsg
  obtain ⟨s, hs, hgood, hbound⟩ := Good.applyStore (fun s hs => h.good hs) hjoin hroot epoch nowMs
  refine h.update hs hgood (fun hf => .inl (mem_of_mem_erase hf)) ?_ ?_ ?_
  · intro hne
    exact absurd hother hne
  · intro hnone
    rw [hbound] at hnone
    cases hnone
  · exact exists_mem_erase fun hb => hb

theorem finish (hmsg : Flight.msg3 x ∈ st.flights) : P.AgreeInv k (P.finishStep st x) := by
  obtain ⟨s, hs⟩ := Option.isSome_iff_exists.1 (h.flight hmsg)
  obtain ⟨s', hs', hgood, hbound⟩ := Good.finishStore hs (h.good hs)
  refine h.update hs' hgood (fun hf => .inl (mem_of_mem_erase hf)) ?_ ?_ ?_
  · intro hne
    refine exists_mem_erase (fun hb => hb) (h.owed hne ?_)
    rw [Side.other_other, Has, hs]
    rfl
  · intro hnone
    rw [hbound] at hnone
    cases hnone
  · refine exists_mem_erase fun hb => ?_
    simp [Flight.Binds] at hb

/-- **Every handshake step keeps the invariant**, and a handshake that has begun stays so. -/
theorem step (C : CryptoSuite) {ev : PairEvent} (hev : ev.IsHandshake)
    (halone : P.CreatesAlone st ev) :
    (∃ k', P.AgreeInv k' (P.step C st ev)) ∧
      (((∀ x hint, ev ≠ .start x hint) → P.Begun st) → P.Begun (P.step C st ev)) := by
  have hkeep : ∀ {ev : PairEvent}, (∀ x hint, ev ≠ .start x hint) → (∃ k', P.AgreeInv k' st) ∧
      (((∀ x hint, ev ≠ .start x hint) → P.Begun st) → P.Begun st) :=
    fun hne => ⟨⟨k, h⟩, fun hbegun => hbegun hne⟩
  cases ev with
  | start x hint =>
    refine ⟨⟨k, h.start C x hint⟩, fun _ => .inr ?_⟩
    cases hint with
    | true => exact ⟨_, mem_cons_self, _, _, rfl⟩
    | false => exact ⟨_, mem_cons_self, _, _, rfl⟩
  | respond x aGen newRootKey nowMs =>
    rw [PeerPair.step]
    split
    · next hmsg =>
      obtain ⟨s, hs⟩ := Option.isSome_iff_exists.1
        ((st.store x.other).upsertResponderSession_isSome (P.key x.other) (P.id x.other) aGen
          (P.algorithm x.other) (P.algorithm x) none newRootKey nowMs)
      exact ⟨h.respond newRootKey nowMs hmsg halone,
        fun _ => .inl ⟨x.other, has_update hs _ (.inl rfl)⟩⟩
    · exact hkeep (by simp)
  | answer x action gen rootKey epoch =>
    rw [PeerPair.step]
    split
    · next hmsg =>
      exact ⟨⟨k, h.answer hmsg⟩, fun _ => .inl ⟨x.other, (h.flight hmsg).2.2.2⟩⟩
    · exact hkeep (by simp)
  | apply x action gen rootKey epoch nowMs =>
    rw [PeerPair.step]
    split
    · next hmsg =>
      obtain ⟨rfl, hjoin, hroot, -⟩ := h.flight hmsg
      obtain ⟨s, hs, -⟩ := Good.applyStore (fun s hs => h.good hs) hjoin hroot epoch nowMs
      exact ⟨⟨_, h.apply nowMs hmsg⟩, fun _ => .inl ⟨x, has_update hs _ (.inl rfl)⟩⟩
    · exact hkeep (by simp)
  | finish x =>
    rw [PeerPair.step]
    split
    · next hmsg =>
      obtain ⟨s, hs⟩ := Option.isSome_iff_exists.1 (h.flight hmsg)
      obtain ⟨s', hs', -⟩ := Good.finishStore hs (h.good hs)
      exact ⟨⟨k, h.finish hmsg⟩, fun _ => .inl ⟨x.other, has_update hs' _ (.inl rfl)⟩⟩
    · exact hkeep (by simp)
  | lose | send | receive | evict | invalidateForPeer => exact hev.elim

theorem has_of_quiet (hquiet : st.flights = [])
    (hx : P.Has st x) (y : Side) : P.Has st y := by
  by_contra hy
  have hother : y.other = x := by
    cases x <;> cases y <;> first | rfl | exact absurd hx hy
  obtain ⟨f, hf, -⟩ := h.owed hy (hother ▸ hx)
  rw [hquiet] at hf
  cases hf

theorem bound_of_quiet (hquiet : st.flights = [])
    (hs : P.session st x = some s) : s.datagram.identityBinding = some P.binding := by
  obtain hnone | hbound := (h.good hs).identityBinding
  · obtain ⟨f, hf, -⟩ := h.unbound hs hnone
    rw [hquiet] at hf
    cases hf
  · exact hbound

end AgreeInv

theorem agreeInv_of_run {C : CryptoSuite} {evs : List PairEvent}
    (hrun : ((P.sys C).guard fun st ev => ev.IsHandshake ∧ P.CreatesAlone st ev).Run init evs st) :
    (∃ k, P.AgreeInv k st) ∧ ((∃ x hint, .start x hint ∈ evs) → P.Begun st) := by
  induction hrun with
  | nil =>
    refine ⟨⟨key32 0, nofun, nofun, ?_, nofun⟩, nofun⟩
    intro x _ hx
    exact absurd hx nofun
  | @snoc evs st ev st' _ hst ih =>
    obtain ⟨⟨hev, halone⟩, rfl⟩ := hst
    obtain ⟨⟨k, hinv⟩, hbegun⟩ := ih
    refine (hinv.step C hev halone).imp_right fun hstep ⟨x, hint, hmem⟩ => hstep fun hne => ?_
    refine hbegun ⟨x, hint, ?_⟩
    obtain hmem | hmem := mem_append.1 hmem
    · exact hmem
    · exact absurd (mem_singleton.1 hmem).symm (hne x hint)

theorem Good.decryptPayload {C : CryptoSuite} (hC : C.Lawful) {r : PeerSession}
    (hs : P.Good x k s) (hr : P.Good x.other k r)
    (hbind : s.datagram.identityBinding = r.datagram.identityBinding)
    (haead : EncryptionAlgorithm.ofName (P.algorithm x) ≠ some .xor) {pkt pkt' : Packet}
    {sentMs nowMs : UInt64} (hclear : pkt.hdr.isEncrypted = false)
    (henc : (s.encryptPayload C (P.id x) (P.id x.other) pkt sentMs).1 = .ok pkt') :
    (r.decryptPayload C (P.id x) (P.id x.other) pkt' nowMs).1 = .ok pkt := by
  have hcache : ∀ {y s}, P.Good y k s → s.datagram.CacheOk C := by
    intro y s h dir epoch slot hslot
    rw [h.cache] at hslot
    cases hslot
  have hkeys : s.datagram.SameKeys r.datagram :=
    ⟨hs.rootKey.trans hr.rootKey.symm, hs.generation.trans hr.generation.symm,
      hs.kdfContext.trans hr.kdfContext.symm, hbind⟩
  have halg : s.datagram.sendCipherAlgorithm = r.datagram.recvCipherAlgorithm := by
    rw [hs.sendAlgorithm, hr.recvAlgorithm, Side.other_other]
  unfold PeerSession.encryptPayload at henc
  split_ifs at henc
  unfold PeerSession.decryptPayload
  simp only [hr.valid, if_not_true]
  exact SecureDatagramSession.decryptPayload_of_encryptPayload hC hkeys halg
    (hs.sendAlgorithm ▸ haead) (hcache hs)
    (hcache hr) (Bool.and_eq_true_iff.1 hr.valid).2 hclear henc
    (ReplayState.precheckReplay_of_empty (hr.rxSlots _) (hr.graceSlots _) ..)

end PeerPair

/-- **The two peers agree on their session**: when the handshakes of a run in which no responder
creates a session its initiator already has are over, both nodes hold the same root key and
generation, and each decrypts what the other encrypts. -/
theorem agree_of_createsAlone (P : PeerPair) (C : CryptoSuite) (hC : C.Lawful)
    (haead : ∀ x, EncryptionAlgorithm.ofName (P.algorithm x) ≠ some .xor) (evs : List PairEvent)
    (st : PairState)
    (hrun : ((P.sys C).guard fun st ev => ev.IsHandshake ∧ P.CreatesAlone st ev).Run
      PeerPair.init evs st)
    (hquiet : st.flights = []) (hstart : ∃ x hint, .start x hint ∈ evs) :
    ∃ s : Side → PeerSession, (∀ x, P.session st x = some (s x)) ∧
      (s .a).datagram.rootKey = (s .b).datagram.rootKey ∧
      (s .a).datagram.sessionGeneration = (s .b).datagram.sessionGeneration ∧
      ∀ x pkt pkt' sentMs nowMs, pkt.hdr.isEncrypted = false →
        ((s x).encryptPayload C (P.id x) (P.id x.other) pkt sentMs).1 = .ok pkt' →
        ((s x.other).decryptPayload C (P.id x) (P.id x.other) pkt' nowMs).1 = .ok pkt := by
  obtain ⟨⟨k, hinv⟩, hbegun⟩ := PeerPair.agreeInv_of_run hrun
  have hhas : ∀ y, P.Has st y := by
    obtain ⟨x, hx⟩ | ⟨f, hf, -⟩ := hbegun hstart
    · exact hinv.has_of_quiet hquiet hx
    · rw [hquiet] at hf
      cases hf
  choose s hsess using fun y => Option.isSome_iff_exists.1 (hhas y)
  have hgood := fun y => hinv.good (hsess y)
  have hbound := fun y => hinv.bound_of_quiet hquiet (hsess y)
  refine ⟨s, hsess, (hgood .a).rootKey.trans (hgood .b).rootKey.symm,
    (hgood .a).generation.trans (hgood .b).generation.symm, ?_⟩
  intro x pkt pkt' sentMs nowMs hclear henc
  exact (hgood x).decryptPayload hC (hgood x.other) ((hbound x).trans (hbound x.other).symm)
    (haead x) hclear henc

/-- A handshake from `a` to `b` followed by one from `b` to `a` that joins the session. -/
def oneThenOtherEvents : List PairEvent :=
  [.start .a false, .respond .a none (key32 7) 0, .answer .a .create 1 (some (key32 7)) 0,
    .apply .a .create 1 (some (key32 7)) 0 0, .finish .a,
    .start .b true, .respond .b (some 1) (key32 8) 0, .answer .b .join 1 none 0,
    .apply .b .join 1 none 0 0, .finish .b]

def crossingEvents : List PairEvent :=
  [.start .a false, .start .b false, .respond .a none (key32 7) 0, .respond .b none (key32 8) 0,
    .answer .a .create 1 (some (key32 7)) 0, .answer .b .create 1 (some (key32 8)) 0,
    .apply .a .create 1 (some (key32 7)) 0 0,
    .apply .b .create 1 (some (key32 8)) 0 0, .finish .a, .finish .b]

/-- One handshake after the other leaves the two nodes with a common session. -/
theorem agree_one_then_other :
    ∃ st, ((samplePair.sys transparentSuite).guard fun st ev =>
          ev.IsHandshake ∧ samplePair.CreatesAlone st ev).Run PeerPair.init oneThenOtherEvents st ∧
      ∃ s : Side → PeerSession, (∀ x, samplePair.session st x = some (s x)) ∧
        (s .a).datagram.rootKey = (s .b).datagram.rootKey := by
  have hrun := Trans.run_guard_ofFun
    (f := samplePair.step transparentSuite)
    (G := fun st ev => ev.IsHandshake ∧ samplePair.CreatesAlone st ev)
    (show Trans.allGuarded _ _ PeerPair.init oneThenOtherEvents = true by decide +kernel)
  obtain ⟨s, hs, hroot, -⟩ := agree_of_createsAlone samplePair transparentSuite
    ⟨fun h => by cases h; rfl⟩ (fun x => by cases x <;> decide +kernel) _ _ hrun
    (by decide +kernel) ⟨.a, false, mem_cons_self⟩
  exact ⟨_, hrun, s, hs, hroot⟩

/-- **Crossing handshakes exchange the root keys**: both are over, and each node holds the root key
the other one created. -/
theorem crossing_creates_disagree :
    ∃ st, ((samplePair.sys transparentSuite).guard fun _ ev => ev.IsHandshake).Run PeerPair.init
        crossingEvents st ∧ st.flights = [] ∧
      (samplePair.session st .a).map (·.datagram.rootKey) = some (key32 7) ∧
      (samplePair.session st .b).map (·.datagram.rootKey) = some (key32 8) :=
  ⟨_, Trans.run_guard_ofFun (by decide +kernel), by decide +kernel, by decide +kernel,
    by decide +kernel⟩

end PactMesh
