import Mathlib.Data.Sym.Sym2
import Mathlib.Data.Set.Insert

/-!
# Symbolic cryptography

Messages are terms over secret names and public data, and operations are constructors, which can only
be undone by the rules that say so: hashes, signatures, Diffie–Hellman and authenticated encryption
cannot be broken.

Main result: `not_derivable_sec`.
-/

namespace Symbolic

/-- Messages over secret names `N` and data `D`. -/
inductive Term (N D : Type*)
  /-- plain data -/
  | data (d : D)
  /-- a secret key -/
  | sec (n : N)
  /-- the public key of a secret key -/
  | pub (n : N)
  /-- the secret that two key pairs share -/
  | dh (s : Sym2 N)
  | hash (t u : Term N D)
  /-- the first output of a key derivation, which is chained on -/
  | kdfChain (ck t : Term N D)
  /-- the second output, which is used as a key -/
  | kdfKey (ck t : Term N D)
  /-- authenticated encryption with a counter and associated data -/
  | aead (key : Term N D) (counter : Nat) (ad payload : Term N D)
  | sign (n : N) (t : Term N D)
  | pair (t u : Term N D)
deriving DecidableEq

variable {N D : Type*}

/-- What can be produced from the terms in `K`. -/
inductive Derivable (compute : List D → D → Prop) (K : Set (Term N D)) : Term N D → Prop
  | known {t} (h : t ∈ K) : Derivable compute K t
  | compute {ds d} (hds : ∀ e ∈ ds, Derivable compute K (.data e)) (h : compute ds d) :
      Derivable compute K (.data d)
  | pub {n} (h : Derivable compute K (.sec n)) : Derivable compute K (.pub n)
  | dh {a b} (ha : Derivable compute K (.sec a)) (hb : Derivable compute K (.pub b)) :
      Derivable compute K (.dh s(a, b))
  | hash {t u} (ht : Derivable compute K t) (hu : Derivable compute K u) :
      Derivable compute K (.hash t u)
  | kdfChain {t u} (ht : Derivable compute K t) (hu : Derivable compute K u) :
      Derivable compute K (.kdfChain t u)
  | kdfKey {t u} (ht : Derivable compute K t) (hu : Derivable compute K u) :
      Derivable compute K (.kdfKey t u)
  | aead {k n ad p} (hk : Derivable compute K k) (had : Derivable compute K ad)
      (hp : Derivable compute K p) : Derivable compute K (.aead k n ad p)
  | aeadOpen {k n ad p} (hk : Derivable compute K k) (h : Derivable compute K (.aead k n ad p)) :
      Derivable compute K p
  | sign {n t} (hn : Derivable compute K (.sec n)) (ht : Derivable compute K t) :
      Derivable compute K (.sign n t)
  | signed {n t} (h : Derivable compute K (.sign n t)) : Derivable compute K t
  | pair {t u} (ht : Derivable compute K t) (hu : Derivable compute K u) :
      Derivable compute K (.pair t u)
  | fst {t u} (h : Derivable compute K (.pair t u)) : Derivable compute K t
  | snd {t u} (h : Derivable compute K (.pair t u)) : Derivable compute K u

variable {compute : List D → D → Prop} {K : Set (Term N D)} {t : Term N D}

theorem Derivable.cut {K' : Set (Term N D)} (hK : ∀ t ∈ K', Derivable compute K t)
    (h : Derivable compute K' t) : Derivable compute K t := by
  induction h with
  | known h => exact hK _ h
  | compute _ h ih => exact .compute ih h
  | pub _ ih => exact ih.pub
  | dh _ _ iha ihb => exact iha.dh ihb
  | hash _ _ iht ihu => exact iht.hash ihu
  | kdfChain _ _ iht ihu => exact iht.kdfChain ihu
  | kdfKey _ _ iht ihu => exact iht.kdfKey ihu
  | aead _ _ _ ihk ihad ihp => exact ihk.aead ihad ihp
  | aeadOpen _ _ ihk ih => exact ihk.aeadOpen ih
  | sign _ _ ihn iht => exact ihn.sign iht
  | signed _ ih => exact ih.signed
  | pair _ _ iht ihu => exact iht.pair ihu
  | fst _ ih => exact ih.fst
  | snd _ ih => exact ih.snd

theorem Derivable.mono {K' : Set (Term N D)} (hK : K ⊆ K') (h : Derivable compute K t) :
    Derivable compute K' t := h.cut fun _ ht => .known (hK ht)

theorem Derivable.dh_swap {a b : N} (ha : Derivable compute K (.sec a))
    (hb : Derivable compute K (.pub b)) : Derivable compute K (.dh s(b, a)) := by
  rw [Sym2.eq_swap]
  exact ha.dh hb

/-- The secret key `n` itself occurs in the term; a signature, a public key or a shared secret does
not give it away. -/
def Term.Holds (n : N) : Term N D → Prop
  | .data _ | .pub _ | .dh _ => False
  | .sec m => m = n
  | .hash t u | .kdfChain t u | .kdfKey t u | .pair t u => t.Holds n ∨ u.Holds n
  | .aead k _ ad p => k.Holds n ∨ ad.Holds n ∨ p.Holds n
  | .sign _ t => t.Holds n

/-- The secret key `n` was needed to make the term: it occurs, or signed or shared something. -/
def Term.Uses (n : N) : Term N D → Prop
  | .data _ | .pub _ => False
  | .sec m => m = n
  | .dh s => n ∈ s
  | .hash t u | .kdfChain t u | .kdfKey t u | .pair t u => t.Uses n ∨ u.Uses n
  | .aead k _ ad p => k.Uses n ∨ ad.Uses n ∨ p.Uses n
  | .sign m t => m = n ∨ t.Uses n

/-- The name `n` occurs in the term, be it only as a public key. -/
def Term.Mentions (n : N) : Term N D → Prop
  | .data _ => False
  | .sec m | .pub m => m = n
  | .dh s => n ∈ s
  | .hash t u | .kdfChain t u | .kdfKey t u | .pair t u => t.Mentions n ∨ u.Mentions n
  | .aead k _ ad p => k.Mentions n ∨ ad.Mentions n ∨ p.Mentions n
  | .sign m t => m = n ∨ t.Mentions n

theorem not_holds_data (n : N) (d : D) : ¬ (Term.data d).Holds n := fun h => h

theorem not_holds_pub (n m : N) : ¬ (Term.pub m : Term N D).Holds n := fun h => h

theorem not_holds_dh (n : N) (s : Sym2 N) : ¬ (Term.dh s : Term N D).Holds n := fun h => h

theorem Derivable.not_holds {n : N} (hK : ∀ t ∈ K, ¬ t.Holds n) (h : Derivable compute K t) :
    ¬ t.Holds n := by
  induction h with
  | known h => exact hK _ h
  | compute => exact not_holds_data n _
  | pub => exact not_holds_pub n _
  | dh => exact not_holds_dh n _
  | hash _ _ iht ihu | kdfChain _ _ iht ihu | kdfKey _ _ iht ihu | pair _ _ iht ihu =>
    exact not_or.2 ⟨iht, ihu⟩
  | aead _ _ _ ihk ihad ihp => exact not_or.2 ⟨ihk, not_or.2 ⟨ihad, ihp⟩⟩
  | aeadOpen _ _ _ ih => exact fun h => ih (.inr (.inr h))
  | sign _ _ _ ih => exact ih
  | signed _ ih => exact ih
  | fst _ ih => exact fun h => ih (.inl h)
  | snd _ ih => exact fun h => ih (.inr h)

/-- **A secret key that occurs in no known term stays secret.** -/
theorem not_derivable_sec {n : N} (hK : ∀ t ∈ K, ¬ t.Holds n) : ¬ Derivable compute K (.sec n) :=
  fun h => h.not_holds hK rfl

end Symbolic
