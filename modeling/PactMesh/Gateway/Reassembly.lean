import PactMesh.Gateway.IpReassembler
import PactMesh.Lib.Trans

/-!
# What is reassembled was received

Completeness is decided by a sixteen-bit sum, and the last fragment that arrives says where the
datagram ends, whether or not it is kept.  But if a datagram is returned, all stored fragments were
copied into the buffer.  So they end within it, no sum has wrapped, and blocks that are apart and add
up to the length of the buffer lie end to end.

Main result: `reassembly_sound`.
-/

namespace PactMesh

open Inet Outcome List

variable {checks : Bool}

namespace IpFragment

def Unflagged (checks : Bool) (f g : IpFragment) : Prop :=
  f.startsInside checks g = .returns false ∧ g.startsInside checks f = .returns false

theorem unflagged_of_overlapsAny {fragment : IpFragment} {fs : List IpFragment}
    (h : fragment.overlapsAny checks fs = .returns false) :
    ∀ f ∈ fs, Unflagged checks f fragment := by
  induction fs with
  | nil => simp
  | cons f fs ih =>
    obtain ⟨overlap₁, h₁, h⟩ := bind_eq_returns_iff.1 h
    cases overlap₁ with
    | true => simp at h
    | false =>
      simp only [Bool.false_eq_true, if_false] at h
      obtain ⟨overlap₂, h₂, h⟩ := bind_eq_returns_iff.1 h
      cases overlap₂ with
      | true => simp at h
      | false => exact forall_mem_cons.2 ⟨⟨h₁, h₂⟩, ih (by simpa using h)⟩

theorem Unflagged.apart {f g : IpFragment} (h : Unflagged checks f g) (hf : f.stop < 65536)
    (hg : g.stop < 65536) : f.Apart g := by
  obtain ⟨hfg, hgf⟩ := h
  rw [startsInside_eq hf] at hfg
  rw [startsInside_eq hg] at hgf
  exact ⟨of_decide_eq_false (returns.inj hfg), of_decide_eq_false (returns.inj hgf)⟩

end IpFragment

namespace IpPacket

variable {p p' : IpPacket} {fs : List IpFragment} {fragment : IpFragment}

/-- What is known of the stored fragments: they were received, the overlap check has passed them, and
the announced length is a sixteen-bit number. -/
structure Collected (checks : Bool) (received : List IpFragment) (p : IpPacket) : Prop where
  totalLength_lt : ∀ n, p.totalLength = some n → n < 65536
  mem_received : ∀ f ∈ p.fragments, f ∈ received
  unflagged : p.fragments.Pairwise (IpFragment.Unflagged checks)

variable {received : List IpFragment}

theorem Collected.mono {received' : List IpFragment} (h : p.Collected checks received)
    (hsub : received ⊆ received') : p.Collected checks received' :=
  ⟨h.totalLength_lt, fun f hf => hsub (h.mem_received f hf), h.unflagged⟩

theorem collected_new (source destination : BitVec 32) (received : List IpFragment) :
    (new source destination).Collected checks received :=
  ⟨by simp [new], by simp [new], by simp [new]⟩

theorem Collected.setTotalLength (h : p.Collected checks received) {n : ℕ} (hn : n < 65536) :
    (p.setTotalLength n).Collected checks received :=
  ⟨fun _ hlen => Option.some.inj hlen ▸ hn, h.mem_received, h.unflagged⟩

theorem Collected.addFragment (h : p.Collected checks received) (hreceived : fragment ∈ received)
    (hadd : p.addFragment checks fragment = .returns p') : p'.Collected checks received := by
  obtain ⟨overlap, hoverlap, hret⟩ := bind_eq_returns_iff.1 hadd
  cases overlap with
  | true =>
    cases hret
    exact h
  | false =>
    cases hret
    refine ⟨h.totalLength_lt, fun f hf => ?_, pairwise_append.2 ⟨h.unflagged,
      pairwise_singleton _ _, fun f hf g hg => ?_⟩⟩
    · rcases mem_append.1 hf with hf | hf
      · exact h.mem_received f hf
      · exact mem_singleton.1 hf ▸ hreceived
    · exact mem_singleton.1 hg ▸ IpFragment.unflagged_of_overlapsAny hoverlap f hf

theorem stop_le_of_fill {buf data : List UInt8} (h : fill buf fs = .returns data) :
    ∀ f ∈ fs, f.stop ≤ buf.length := by
  induction fs generalizing buf with
  | nil => simp
  | cons f fs ih =>
    rw [fill, foldlM_cons] at h
    obtain ⟨buf', hcopy, hrest⟩ := bind_eq_returns_iff.1 h
    have hlen := length_of_copyFromSlice hcopy
    have hf : f.stop ≤ buf.length := by
      unfold copyFromSlice at hcopy
      split at hcopy
      · assumption
      · cases hcopy
    exact forall_mem_cons.2 ⟨hf, fun g hg => hlen ▸ ih hrest g hg⟩

theorem fill_of_contiguous {k n : ℕ} {done rest : List UInt8}
    (h : Tiling.Contiguous IpFragment.offset (fun f => f.data.length) k fs n)
    (hdone : done.length = k) (hrest : k + rest.length = n) :
    fill (done ++ rest) fs = .returns (done ++ fs.flatMap IpFragment.data) := by
  induction fs generalizing k done rest with
  | nil =>
    have hk : k = n := h
    have hnil : rest = [] := length_eq_zero_iff.1 (by omega)
    rw [hnil]
    rfl
  | cons f fs ih =>
    obtain ⟨hoffset, hcontig⟩ := h
    have hle : k + f.data.length ≤ n := Tiling.le_of_contiguous hcontig
    have hcopy := copyFromSlice_append done rest f.data (hdone.trans hoffset.symm) (by omega)
    have hlen : k + f.data.length + (rest.drop f.data.length).length = n := by
      rw [length_drop]
      omega
    have hdone' : (done ++ f.data).length = k + f.data.length := by rw [length_append, hdone]
    rw [fill, foldlM_cons, hcopy, returns_bind]
    have hfill := ih hcontig hdone' hlen
    rw [fill] at hfill
    rw [hfill, flatMap_cons, append_assoc]

/-- **What is assembled is put together from stored fragments end to end.** -/
theorem Collected.assemble {data : List UInt8} (h : p.Collected checks received)
    (hdata : p.assemble checks = .returns (some data)) :
    ∃ fs : List IpFragment, fs ⊆ received ∧
      Tiling.Contiguous IpFragment.offset (fun f => f.data.length) 0 fs data.length ∧
        data = fs.flatMap IpFragment.data := by
  obtain ⟨complete, hcomplete, hdata⟩ := bind_eq_returns_iff.1 hdata
  cases complete with
  | false => simp at hdata
  | true =>
    cases hlen : p.totalLength with
    | none => simp [isComplete, hlen] at hcomplete
    | some n =>
      simp only [if_true, hlen, unwrap, returns_bind] at hdata
      obtain ⟨packet, hfill, hret⟩ := bind_eq_returns_iff.1 hdata
      cases hret
      simp only [isComplete, hlen] at hcomplete
      obtain ⟨sum, hsum, hret⟩ := bind_eq_returns_iff.1 hcomplete
      have hsum_eq : sum = n := of_decide_eq_true (returns.inj hret)
      set sorted := p.fragments.insertionSort fun f g => f.offset ≤ g.offset
      have hperm : sorted.Perm p.fragments := perm_insertionSort _ _
      have hn := h.totalLength_lt n hlen
      have hstop : ∀ f ∈ sorted, f.stop ≤ n := by
        have hle := stop_le_of_fill hfill
        rwa [length_replicate] at hle
      -- all fragments end in the buffer, so the overlap check has been exact
      have hapart : p.fragments.Pairwise IpFragment.Apart := by
        refine h.unflagged.imp_of_mem fun hf hg hfg => hfg.apart ?_ ?_
        · exact (hstop _ (hperm.mem_iff.2 hf)).trans_lt hn
        · exact (hstop _ (hperm.mem_iff.2 hg)).trans_lt hn
      have hsorted_apart : sorted.Pairwise IpFragment.Apart :=
        (hperm.pairwise_iff fun hab => ⟨hab.2, hab.1⟩).2 hapart
      have hle : (p.fragments.map fun f => f.data.length).sum ≤ n :=
        Tiling.sum_size_le hapart fun f hf => hstop f (hperm.mem_iff.2 hf)
      rw [sumLengths_eq (hle.trans_lt hn)] at hsum
      have htotal : (sorted.map fun f => f.data.length).sum = n - 0 := by
        rw [(hperm.map _).sum_eq, returns.inj hsum, hsum_eq, Nat.sub_zero]
      have hcontig : Tiling.Contiguous IpFragment.offset (fun f => f.data.length) 0 sorted n :=
        Tiling.contiguous_of_sum_size_eq (pairwise_insertionSort _ _) hsorted_apart
          (fun _ _ => Nat.zero_le _) hstop (Nat.zero_le n) htotal
      have hlen : 0 + (List.replicate n (0 : UInt8)).length = n := by
        rw [length_replicate, Nat.zero_add]
      have hdata := fill_of_contiguous hcontig length_nil hlen
      rw [nil_append, nil_append, hfill] at hdata
      cases hdata
      refine ⟨sorted, fun f hf => h.mem_received f (hperm.mem_iff.1 hf), ?_, rfl⟩
      have hlength : (sorted.flatMap IpFragment.data).length = n := by
        rw [length_flatMap, htotal, Nat.sub_zero]
      rwa [hlength]

end IpPacket

inductive ReassemblerEvent
  | fragment (now : ℕ) (source destination : BitVec 32) (packet : Ipv4View)
  | removeExpired (now : ℕ)

def keyOf (source destination : BitVec 32) (packet : Ipv4View) : IpResemblerKey :=
  ⟨source, destination, packet.identification⟩

def ReassemblerEvent.fragmentFor (key : IpResemblerKey) : ReassemblerEvent → Option IpFragment
  | .fragment _ source destination packet =>
    if keyOf source destination packet = key then some (fragmentOf packet) else none
  | .removeExpired _ => none

def receivedFor (key : IpResemblerKey) (events : List ReassemblerEvent) : List IpFragment :=
  events.filterMap (ReassemblerEvent.fragmentFor key)

namespace IpReassembler

variable {r r' : IpReassembler} {now : ℕ} {source destination : BitVec 32} {packet : Ipv4View}

def system (checks : Bool) : Trans IpReassembler ReassemblerEvent where
  step r event r' :=
    match event with
    | .fragment now source destination packet =>
      ∃ out, r.addFragment checks now source destination packet = .returns (r', out)
    | .removeExpired now => r' = r.removeExpiredPackets now

theorem addFragment_cases {out : Option (List UInt8)}
    (h : r.addFragment checks now source destination packet = .returns (r', out)) :
    (r' = r ∧ out = none) ∨ ∃ totalLength entry entry',
      announce checks (r.entryOf (keyOf source destination packet)) packet totalLength
        (fragmentOf packet).offset = .returns entry ∧
      entry.addFragment checks (fragmentOf packet) = .returns entry' ∧
      entry'.assemble checks = .returns out ∧
      r'.packets = Function.update r.packets (keyOf source destination packet)
        (if out.isSome then none else some ⟨entry', now⟩) := by
  obtain ⟨headerBytes, -, h⟩ := bind_eq_returns_iff.1 h
  obtain ⟨totalLength, -, h⟩ := bind_eq_returns_iff.1 h
  split at h
  · cases h
    exact .inl ⟨rfl, rfl⟩
  · rw [IpFragment.ofPacket_eq, returns_bind] at h
    obtain ⟨entry, hentry, h⟩ := bind_eq_returns_iff.1 h
    obtain ⟨entry', hentry', h⟩ := bind_eq_returns_iff.1 h
    obtain ⟨assembled, hassembled, h⟩ := bind_eq_returns_iff.1 h
    cases assembled with
    | none =>
      cases h
      exact .inr ⟨totalLength, entry, entry', hentry, hentry', hassembled, rfl⟩
    | some data =>
      cases h
      exact .inr ⟨totalLength, entry, entry', hentry, hentry', hassembled, rfl⟩

def Collected (checks : Bool) (events : List ReassemblerEvent) (r : IpReassembler) : Prop :=
  ∀ key v, r.packets key = some v → v.packet.Collected checks (receivedFor key events)

theorem receivedFor_subset (key : IpResemblerKey) (events : List ReassemblerEvent)
    (event : ReassemblerEvent) : receivedFor key events ⊆ receivedFor key (events ++ [event]) := by
  rw [receivedFor, receivedFor, filterMap_append]
  exact subset_append_left _ _

theorem fragmentOf_mem_receivedFor (events : List ReassemblerEvent) :
    fragmentOf packet ∈ receivedFor (keyOf source destination packet)
      (events ++ [.fragment now source destination packet]) := by
  simp [receivedFor, ReassemblerEvent.fragmentFor]

variable {events : List ReassemblerEvent}

theorem Collected.entryOf (h : r.Collected checks events) (key : IpResemblerKey) :
    (r.entryOf key).Collected checks (receivedFor key events) := by
  unfold IpReassembler.entryOf
  cases hv : r.packets key with
  | none => exact IpPacket.collected_new _ _ _
  | some v => exact h key v hv

theorem collected_announce {p entry : IpPacket} {received : List IpFragment} {totalLength offset : ℕ}
    (hp : p.Collected checks received)
    (h : announce checks p packet totalLength offset = .returns entry) :
    entry.Collected checks received := by
  unfold announce at h
  split at h
  · obtain ⟨announced, hannounced, hret⟩ := bind_eq_returns_iff.1 h
    cases hret
    exact hp.setTotalLength (lt_of_arith_eq hannounced)
  · cases h
    exact hp

theorem collected_entry (h : r.Collected checks events) {totalLength : ℕ} {entry entry' : IpPacket}
    (hentry : announce checks (r.entryOf (keyOf source destination packet)) packet totalLength
      (fragmentOf packet).offset = .returns entry)
    (hentry' : entry.addFragment checks (fragmentOf packet) = .returns entry') :
    entry'.Collected checks (receivedFor (keyOf source destination packet)
      (events ++ [.fragment now source destination packet])) := by
  have hstored := (h.entryOf (keyOf source destination packet)).mono
    (receivedFor_subset _ events (.fragment now source destination packet))
  exact (collected_announce hstored hentry).addFragment (fragmentOf_mem_receivedFor events) hentry'

theorem Collected.step {event : ReassemblerEvent} (h : r.Collected checks events)
    (hstep : (system checks).step r event r') : r'.Collected checks (events ++ [event]) := by
  have hkept : r.Collected checks (events ++ [event]) := fun key v hv =>
    (h key v hv).mono (receivedFor_subset key events event)
  cases event with
  | removeExpired now =>
    intro key v hv
    rw [show r' = r.removeExpiredPackets now from hstep] at hv
    exact hkept key v (Option.eq_some_of_filter_eq_some hv)
  | fragment now source destination packet =>
    obtain ⟨out, hadd⟩ := hstep
    obtain ⟨rfl, -⟩ | ⟨totalLength, entry, entry', hentry, hentry', -, hpackets⟩ :=
      addFragment_cases hadd
    · exact hkept
    · intro key v hv
      rw [hpackets] at hv
      by_cases hkey : key = keyOf source destination packet
      · rw [hkey, Function.update_self] at hv
        split at hv
        · cases hv
        · cases hv
          exact hkey ▸ collected_entry h hentry hentry'
      · rw [Function.update_of_ne hkey] at hv
        exact hkept key v hv

theorem collected_of_run {timeout : ℕ} (h : (system checks).Run (new timeout) events r) :
    r.Collected checks events := by
  induction h with
  | nil => exact nofun
  | snoc _ hstep ih => exact ih.step hstep

end IpReassembler

open IpReassembler

/-- **Every datagram that is returned is made of received fragments** of the same source,
destination and identification, which lie end to end from 0 to the length of the datagram. -/
theorem reassembly_sound (checks : Bool) (timeout : ℕ) (events : List ReassemblerEvent)
    (r r' : IpReassembler) (hrun : (system checks).Run (.new timeout) events r)
    (now : ℕ) (source destination : BitVec 32) (packet : Ipv4View) (data : List UInt8)
    (h : r.addFragment checks now source destination packet = .returns (r', some data)) :
    ∃ fs : List IpFragment, fs ⊆ receivedFor ⟨source, destination, packet.identification⟩
        (events ++ [.fragment now source destination packet]) ∧
      Tiling.Contiguous IpFragment.offset (fun f => f.data.length) 0 fs data.length ∧
      data = fs.flatMap IpFragment.data := by
  obtain ⟨-, hnone⟩ | ⟨totalLength, entry, entry', hentry, hentry', hassemble, -⟩ :=
    addFragment_cases h
  · cases hnone
  · have hstored := collected_of_run hrun
    exact (collected_entry hstored hentry hentry').assemble hassemble

def pieceOf (last : Bool) : Ipv4View where
  version := 4
  headerLength := 5
  totalLength := 28
  identification := 7
  flags := if last then 0 else moreFragments
  fragmentOffset := if last then 1 else 0
  nextLevelProtocol := protocolUdp
  source := 1
  destination := 2
  payload := List.replicate 8 (if last then 2 else 1)
  headerLength_lt := by decide
  totalLength_lt := by decide
  fragmentOffset_lt := by cases last <;> decide
  length_payload_le := by rw [length_replicate]

/-- The two pieces arrive in the wrong order. -/
theorem two_pieces_reassembled :
    ∃ r r', (system true).Run (.new 10) [.fragment 0 1 2 (pieceOf true)] r ∧
      r.addFragment true 1 1 2 (pieceOf false) =
        .returns (r', some (List.replicate 8 1 ++ List.replicate 8 2)) ∧ ∃ fs : List IpFragment,
        fs ⊆ receivedFor ⟨1, 2, 7⟩ [.fragment 0 1 2 (pieceOf true), .fragment 1 1 2 (pieceOf false)] ∧
        Tiling.Contiguous IpFragment.offset (fun f => f.data.length) 0 fs 16 ∧
        List.replicate 8 1 ++ List.replicate 8 2 = fs.flatMap IpFragment.data := by
  have hcomputed : (do
      let (r, _) ← (new 10).addFragment true 0 1 2 (pieceOf true)
      let (_, out) ← r.addFragment true 1 1 2 (pieceOf false)
      return out) = Outcome.returns (some (List.replicate 8 1 ++ List.replicate 8 2)) := by
    decide +kernel
  obtain ⟨⟨r, out⟩, hfirst, hcomputed⟩ := bind_eq_returns_iff.1 hcomputed
  obtain ⟨⟨r', out'⟩, hsecond, hout⟩ := bind_eq_returns_iff.1 hcomputed
  cases hout
  have hrun : (system true).Run (.new 10) [.fragment 0 1 2 (pieceOf true)] r :=
    .snoc .nil ⟨out, hfirst⟩
  exact ⟨r, r', hrun, hsecond, reassembly_sound true 10 _ r r' hrun 1 1 2 (pieceOf false) _ hsecond⟩

end PactMesh
