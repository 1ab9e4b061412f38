import PactMesh.Lib.Symbolic

/-!
# The Noise pattern XX, symbolically

`-> e`, `<- e, ee, s, es`, `-> s, se`.  Both sides keep a handshake hash, a chaining key and, once a
shared secret has been mixed in, a key with a counter.  A payload is encrypted with the hash as
associated data, so it can be read only in the handshake it was written in.
-/

namespace NoiseXX

open Symbolic

variable {N D : Type*}

/-- What a side keeps during the handshake. -/
structure SymmetricState (N D : Type*) where
  h : Term N D
  ck : Term N D
  key : Option (Term N D)
  n : Nat

namespace SymmetricState

variable (s : SymmetricState N D)

/-- The state before the first message: the name of the protocol, and the prologue. -/
def start (protocolName prologue : Term N D) : SymmetricState N D :=
  ⟨.hash protocolName prologue, protocolName, none, 0⟩

/-- Hash a value in. -/
def mixHash (t : Term N D) : SymmetricState N D := { s with h := .hash s.h t }

/-- Mix a shared secret in, which gives a new key. -/
def mixKey (t : Term N D) : SymmetricState N D :=
  { s with ck := .kdfChain s.ck t, key := some (.kdfKey s.ck t), n := 0 }

/-- Encrypt a payload, in the clear as long as there is no key, and hash it in. -/
def encryptAndHash (p : Term N D) : Term N D × SymmetricState N D :=
  match s.key with
  | none => (p, s.mixHash p)
  | some k => (.aead k s.n s.h p, { s.mixHash (.aead k s.n s.h p) with n := s.n + 1 })

/-- Decrypt what `encryptAndHash` made, and hash it in. -/
def decryptAndHash [DecidableEq N] [DecidableEq D] (c : Term N D) :
    Option (Term N D × SymmetricState N D) :=
  match s.key, c with
  | none, c => some (c, s.mixHash c)
  | some k, .aead k' n' ad p =>
    if k' = k ∧ n' = s.n ∧ ad = s.h then some (p, { s.mixHash c with n := s.n + 1 }) else none
  | some _, _ => none

end SymmetricState

section Messages

variable (s : SymmetricState N D)

/-- `-> e`. -/
def writeMsg1 (e : N) (p : Term N D) : Term N D × SymmetricState N D :=
  let out := (s.mixHash (.pub e)).encryptAndHash p
  (.pair (.pub e) out.1, out.2)

/-- `<- e, ee, s, es`, for the ephemeral key `re` of the initiator. -/
def writeMsg2 (re e st : N) (p : Term N D) : Term N D × SymmetricState N D :=
  let out := ((s.mixHash (.pub e)).mixKey (.dh s(re, e))).encryptAndHash (.pub st)
  let out' := (out.2.mixKey (.dh s(re, st))).encryptAndHash p
  (.pair (.pub e) (.pair out.1 out'.1), out'.2)

/-- `-> s, se`, for the ephemeral key `re` of the responder. -/
def writeMsg3 (re st : N) (p : Term N D) : Term N D × SymmetricState N D :=
  let out := s.encryptAndHash (.pub st)
  let out' := (out.2.mixKey (.dh s(st, re))).encryptAndHash p
  (.pair out.1 out'.1, out'.2)

variable [DecidableEq N] [DecidableEq D]

/-- The responder reads msg1: the ephemeral key of the initiator, and the payload. -/
def readMsg1 (m : Term N D) : Option (N × Term N D × SymmetricState N D) :=
  match m with
  | .pair (.pub e) c => ((s.mixHash (.pub e)).decryptAndHash c).map (e, ·)
  | _ => none

/-- The initiator, whose ephemeral key is `e`, reads msg2: the ephemeral and the static key of the
responder, and the payload. -/
def readMsg2 (e : N) (m : Term N D) : Option (N × N × Term N D × SymmetricState N D) :=
  match m with
  | .pair (.pub re) (.pair cs cp) =>
    match ((s.mixHash (.pub re)).mixKey (.dh s(e, re))).decryptAndHash cs with
    | some (.pub rs, s) => ((s.mixKey (.dh s(e, rs))).decryptAndHash cp).map (re, rs, ·)
    | _ => none
  | _ => none

/-- The responder, whose ephemeral key is `e`, reads msg3: the static key of the initiator, and the
payload. -/
def readMsg3 (e : N) (m : Term N D) : Option (N × Term N D × SymmetricState N D) :=
  match m with
  | .pair cs cp =>
    match s.decryptAndHash cs with
    | some (.pub rs, s) => ((s.mixKey (.dh s(rs, e))).decryptAndHash cp).map (rs, ·)
    | _ => none
  | _ => none

/-! ### Each side reads what the other wrote -/

@[simp] theorem decryptAndHash_encryptAndHash (p : Term N D) :
    s.decryptAndHash (s.encryptAndHash p).1 = some (p, (s.encryptAndHash p).2) := by
  cases hk : s.key with
  | none => simp [SymmetricState.decryptAndHash, SymmetricState.encryptAndHash, hk]
  | some k => simp [SymmetricState.decryptAndHash, SymmetricState.encryptAndHash, hk]

theorem readMsg1_writeMsg1 (e : N) (p : Term N D) :
    readMsg1 s (writeMsg1 s e p).1 = some (e, p, (writeMsg1 s e p).2) := by
  simp [readMsg1, writeMsg1]

theorem readMsg2_writeMsg2 (re e st : N) (p : Term N D) :
    readMsg2 s re (writeMsg2 s re e st p).1 = some (e, st, p, (writeMsg2 s re e st p).2) := by
  simp [readMsg2, writeMsg2]

theorem readMsg3_writeMsg3 (re st : N) (p : Term N D) :
    readMsg3 s re (writeMsg3 s re st p).1 = some (st, p, (writeMsg3 s re st p).2) := by
  simp [readMsg3, writeMsg3]

end Messages

/-! ### Properties the handshake preserves -/

/-- A property of terms that the constructors of the handshake preserve. -/
structure Closed (P : Term N D → Prop) : Prop where
  hash {t u} : P t → P u → P (.hash t u)
  kdfChain {t u} : P t → P u → P (.kdfChain t u)
  kdfKey {t u} : P t → P u → P (.kdfKey t u)
  aead {k n ad p} : P k → P ad → P p → P (.aead k n ad p)
  pair {t u} : P t → P u → P (.pair t u)

theorem closed_derivable (compute : List D → D → Prop) (K : Set (Term N D)) :
    Closed (Derivable compute K) := ⟨.hash, .kdfChain, .kdfKey, .aead, .pair⟩

theorem closed_not_holds (n : N) : Closed fun t : Term N D => ¬ t.Holds n where
  hash ht hu := not_or.2 ⟨ht, hu⟩
  kdfChain ht hu := not_or.2 ⟨ht, hu⟩
  kdfKey ht hu := not_or.2 ⟨ht, hu⟩
  aead hk had hp := not_or.2 ⟨hk, not_or.2 ⟨had, hp⟩⟩
  pair ht hu := not_or.2 ⟨ht, hu⟩

/-- A state all of whose terms have the property. -/
structure SymmetricState.All (P : Term N D → Prop) (s : SymmetricState N D) : Prop where
  h : P s.h
  ck : P s.ck
  key : ∀ k, s.key = some k → P k

section All

variable {P : Term N D → Prop} {s : SymmetricState N D}

theorem all_start (hP : Closed P) {protocolName prologue : Term N D} (hn : P protocolName)
    (hp : P prologue) : (SymmetricState.start protocolName prologue).All P :=
  ⟨hP.hash hn hp, hn, fun _ h => by cases h⟩

theorem SymmetricState.All.imp {Q : Term N D → Prop} (hs : s.All P) (hPQ : ∀ t, P t → Q t) :
    s.All Q := ⟨hPQ _ hs.h, hPQ _ hs.ck, fun k hk => hPQ _ (hs.key k hk)⟩

theorem SymmetricState.All.mixHash (hP : Closed P) (hs : s.All P) {t : Term N D} (ht : P t) :
    (s.mixHash t).All P := ⟨hP.hash hs.h ht, hs.ck, hs.key⟩

theorem SymmetricState.All.mixKey (hP : Closed P) (hs : s.All P) {t : Term N D} (ht : P t) :
    (s.mixKey t).All P := by
  refine ⟨hs.h, hP.kdfChain hs.ck ht, fun k hk => ?_⟩
  cases hk
  exact hP.kdfKey hs.ck ht

variable {p : Term N D}

theorem SymmetricState.All.encryptAndHash (hP : Closed P) (hs : s.All P) (hp : P p) :
    P (s.encryptAndHash p).1 ∧ (s.encryptAndHash p).2.All P := by
  unfold SymmetricState.encryptAndHash
  cases hk : s.key with
  | none => exact ⟨hp, hs.mixHash hP hp⟩
  | some k =>
    have hc : P (.aead k s.n s.h p) := hP.aead (hs.key k hk) hs.h hp
    exact ⟨hc, hP.hash hs.h hc, hs.ck, hs.key⟩

theorem writeMsg1_all (hP : Closed P) (hs : s.All P) {e : N} (he : P (.pub e)) (hp : P p) :
    P (writeMsg1 s e p).1 ∧ (writeMsg1 s e p).2.All P := by
  have hout := (hs.mixHash hP he).encryptAndHash hP hp
  exact ⟨hP.pair he hout.1, hout.2⟩

theorem writeMsg2_all (hP : Closed P) (hs : s.All P) {re e st : N} (he : P (.pub e))
    (hee : P (.dh s(re, e))) (hst : P (.pub st)) (hes : P (.dh s(re, st))) (hp : P p) :
    P (writeMsg2 s re e st p).1 ∧ (writeMsg2 s re e st p).2.All P := by
  have hout := ((hs.mixHash hP he).mixKey hP hee).encryptAndHash hP hst
  have hout' := (hout.2.mixKey hP hes).encryptAndHash hP hp
  exact ⟨hP.pair he (hP.pair hout.1 hout'.1), hout'.2⟩

theorem writeMsg3_all (hP : Closed P) (hs : s.All P) {re st : N} (hst : P (.pub st))
    (hse : P (.dh s(st, re))) (hp : P p) :
    P (writeMsg3 s re st p).1 ∧ (writeMsg3 s re st p).2.All P := by
  have hout := hs.encryptAndHash hP hst
  have hout' := (hout.2.mixKey hP hse).encryptAndHash hP hp
  exact ⟨hP.pair hout.1 hout'.1, hout'.2⟩

end All

/-! ### Playing a part -/

section Derive

variable {compute : List D → D → Prop} {K : Set (Term N D)} {s : SymmetricState N D}

variable {p : Term N D} {re st : N}

variable (hs : s.All (Derivable compute K))
include hs

theorem derivable_of_encryptAndHash
    (hc : Derivable compute K (s.encryptAndHash p).1) : Derivable compute K p := by
  unfold SymmetricState.encryptAndHash at hc
  cases hk : s.key with
  | none =>
    rw [hk] at hc
    exact hc
  | some k =>
    rw [hk] at hc
    exact (hs.key k hk).aeadOpen hc

theorem derivable_of_writeMsg2 {e : N}
    (hre : Derivable compute K (.sec re)) (hm : Derivable compute K (writeMsg2 s re e st p).1) :
    Derivable compute K (.pub e) ∧ Derivable compute K p ∧
      (writeMsg2 s re e st p).2.All (Derivable compute K) := by
  have hP := closed_derivable compute K
  have he : Derivable compute K (.pub e) := hm.fst
  have hs1 := (hs.mixHash hP he).mixKey hP (hre.dh he)
  have hst : Derivable compute K (.pub st) := derivable_of_encryptAndHash hs1 hm.snd.fst
  have hs2 := (hs1.encryptAndHash hP hst).2.mixKey hP (hre.dh hst)
  have hp : Derivable compute K p := derivable_of_encryptAndHash hs2 hm.snd.snd
  exact ⟨he, hp, (hs2.encryptAndHash hP hp).2⟩

theorem derivable_writeMsg3 (hre : Derivable compute K (.pub re))
    (hst : Derivable compute K (.sec st)) (hp : Derivable compute K p) :
    Derivable compute K (writeMsg3 s re st p).1 :=
  (writeMsg3_all (closed_derivable compute K) hs hst.pub (hst.dh hre) hp).1

theorem derivable_writeMsg2 {e : N}
    (hre : Derivable compute K (.pub re)) (he : Derivable compute K (.sec e))
    (hst : Derivable compute K (.sec st)) (hp : Derivable compute K p) :
    Derivable compute K (writeMsg2 s re e st p).1 :=
  (writeMsg2_all (closed_derivable compute K) hs he.pub (he.dh_swap hre) hst.pub
    (hst.dh_swap hre) hp).1

end Derive

end NoiseXX
