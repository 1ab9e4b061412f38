import PactMesh.Control.Effects
import PactMesh.Lib.Sessions

/-!
# Signing sessions

`commit_signed` raises the version of the state read when the session was opened, changes it, signs
it and writes it over the file.  There is no lock, and the file is not looked at again.  A write of
the file is one event; the backup of the previous state is left out, nothing reads it.

Main result: `no_commit_lost`.
-/

namespace PactMesh

open Sessions List

variable {T : StateSuite}

/-- What a caller does to a state: it sees the state with the new version and changes the payload, or
gives up. -/
abbrev Mutation := UnsignedNetworkState → Except GovError NetworkStatePayload

/-- `commit_signed`, up to the write. -/
def commitSigned (root : TrustDomainRoot T) (originalState : SignedNetworkState)
    (mutate : Mutation) : Except GovError SignedNetworkState := do
  let next := { originalState.details with version := satAdd originalState.details.version 1 }
  let payload ← mutate next
  return UnsignedNetworkState.sign { next with payload := payload } root

abbrev SigningWorld := World SignedNetworkState Mutation

variable {root : TrustDomainRoot T}

theorem versionNat_commitSigned {s s' : SignedNetworkState} {m : Mutation}
    (hver : s.details.version ≠ 0 - 1) (h : commitSigned root s m = .ok s') :
    s'.versionNat = s.versionNat + 1 := by
  unfold commitSigned at h
  obtain ⟨payload, -, hs'⟩ := Checks.bind_eq_ok_iff.1 h
  cases hs'
  exact toNat_satAdd_one hver

/-- What the commit of `api_revoke` does. -/
def revokeMutation (r : RevokedCert) : Mutation := fun next =>
  .ok { next.payload with revokedCerts := next.payload.revokedCerts ++ [r] }

def Mutation.KeepsRevocations (m : Mutation) : Prop :=
  ∀ next payload, m next = .ok payload → next.payload.revokedCerts ⊆ payload.revokedCerts

/-- No commit is lost: the file holds what the committed changes give one after the other, no two
wrote the same version, and if none takes revocations back then every revocation is there. -/
structure NoCommitLost (root : TrustDomainRoot T) (s₀ : SignedNetworkState)
    (w : SigningWorld) : Prop where
  serial : Serial (commitSigned root) s₀ w.committed w.cell
  versions : (w.committed.map fun p => p.2.details.version).Nodup
  revoked : (∀ p ∈ w.committed, p.1.KeepsRevocations) → ∀ r s, (revokeMutation r, s) ∈ w.committed →
    w.cell.listsRevoked r.certFingerprint = true

def SigningWorld.Alone (w : SigningWorld) : Event Mutation → Prop
  | .opens _ => True
  | .commits i _ => ∀ s ∈ w.sessions i, s = w.cell ∧ s.details.version ≠ 0 - 1

instance (w : SigningWorld) (e : Event Mutation) : Decidable (SigningWorld.Alone w e) := by
  unfold SigningWorld.Alone
  split <;> infer_instance

theorem SigningWorld.Alone.undisturbed {w : SigningWorld} {e : Event Mutation}
    (h : SigningWorld.Alone w e) : w.Undisturbed e := by
  cases e with
  | opens i => trivial
  | commits i m => exact fun s hs => (h s hs).1

structure VersionsBelow (w : SigningWorld) : Prop where
  nodup : (w.committed.map fun p => p.2.details.version).Nodup
  le : ∀ p ∈ w.committed, p.2.versionNat ≤ w.cell.versionNat

theorem VersionsBelow.step {w : SigningWorld} {e : Event Mutation} (h : VersionsBelow w)
    (he : SigningWorld.Alone w e) : VersionsBelow (w.step (commitSigned root) e) := by
  cases e with
  | opens i => exact ⟨h.nodup, h.le⟩
  | commits i m =>
    unfold World.step
    cases hs : w.sessions i with
    | none => simpa only [hs] using h
    | some s =>
      obtain ⟨rfl, hver⟩ := he s hs
      cases hm : commitSigned root w.cell m with
      | error e => simpa only [hs, hm] using ⟨h.nodup, h.le⟩
      | ok s' =>
        -- the new version is beyond all that were written
        have hnext := versionNat_commitSigned hver hm
        have hlt : ∀ p ∈ w.committed, p.2.versionNat < s'.versionNat := by
          intro p hp
          rw [hnext]
          exact Nat.lt_succ_of_le (h.le p hp)
        simp only [hs, hm]
        constructor
        · rw [map_append, nodup_append']
          refine ⟨h.nodup, nodup_singleton _, ?_⟩
          intro v hv hv'
          obtain ⟨p, hp, rfl⟩ := mem_map.1 hv
          have heq : p.2.details.version = s'.details.version := by simpa using hv'
          exact (hlt p hp).ne (congrArg UInt64.toNat heq)
        · intro p hp
          obtain hp | hp := mem_append.1 hp
          · exact (hlt p hp).le
          · rw [mem_singleton.1 hp]

theorem listsRevoked_of_serial {s₀ t : SignedNetworkState}
    {l : List (Mutation × SignedNetworkState)} (h : Serial (commitSigned root) s₀ l t)
    (hkeep : ∀ p ∈ l, p.1.KeepsRevocations) {r : RevokedCert} {s : SignedNetworkState}
    (hr : (revokeMutation r, s) ∈ l) : t.listsRevoked r.certFingerprint = true := by
  have hin : r ∈ t.details.payload.revokedCerts := by
    refine h.after (P := fun t => r ∈ t.details.payload.revokedCerts) ?_ hr ?_
    · intro p hp s s' hs hcommit
      obtain ⟨payload, hpayload, hs'⟩ := Checks.bind_eq_ok_iff.1 hcommit
      cases hs'
      exact hkeep p hp _ payload hpayload hs
    · intro s s' hcommit
      cases hcommit
      exact mem_append_right _ mem_cons_self
  exact any_eq_true.2 ⟨r, hin, beq_self_eq_true _⟩

/-- **No commit is lost**, for any number of sessions in any order, if at every commit the file is
the one that the session has read and there is a next version. -/
theorem no_commit_lost {s₀ : SignedNetworkState} {events : List (Event Mutation)} {w : SigningWorld}
    (hrun : ((Trans.ofFun (World.step (commitSigned root))).guard SigningWorld.Alone).Run
      { cell := s₀ } events w) : NoCommitLost root s₀ w := by
  have hserial := serial_of_run (fun _ _ => SigningWorld.Alone.undisturbed) hrun
  have hversions := hrun.invariant (I := VersionsBelow) ⟨nodup_nil, nofun⟩ (by
    rintro w e _ hw ⟨he, rfl⟩
    exact hw.step he)
  exact ⟨hserial, hversions.nodup, fun hkeep r s hr => listsRevoked_of_serial hserial hkeep hr⟩

def twoMembers : SignedNetworkState :=
  ([sampleApprove (all32 3), sampleApprove (all32 4)].foldl
    (NetworkDir.step sampleRoot) sampleDir).state

def revokeMember (key : UInt8) (version : UInt64) : RevokedCert :=
  { certFingerprint :=
      (sampleMember (all32 key) version).fingerprint sampleGovSuite
    revokedAt := 6
    reasonCode := .keyCompromise }

def afterEvents (events : List (Event Mutation)) : SigningWorld :=
  events.foldl (World.step (commitSigned sampleRoot)) { cell := twoMembers }

/-- Two sessions that overlap revoke one member each.  Both commits succeed with version 4, and only
the second revocation is in the file. -/
theorem revocation_lost :
    let w := afterEvents [.opens 0, .opens 1, .commits 0 (revokeMutation (revokeMember 3 1)),
      .commits 1 (revokeMutation (revokeMember 4 2))]
    w.committed.map (fun p => p.2.details.version) = [4, 4] ∧
      w.cell.listsRevoked (revokeMember 3 1).certFingerprint = false ∧
      w.cell.listsRevoked (revokeMember 4 2).certFingerprint = true := by
  decide +kernel

/-- The same sessions one after the other. -/
theorem no_commit_lost_in_turn :
    NoCommitLost sampleRoot twoMembers (afterEvents
      [.opens 0, .commits 0 (revokeMutation (revokeMember 3 1)), .opens 1,
        .commits 1 (revokeMutation (revokeMember 4 2))]) := by
  refine no_commit_lost (Trans.run_guard_ofFun ?_)
  decide +kernel

end PactMesh
