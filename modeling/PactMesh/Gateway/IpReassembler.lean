import PactMesh.Lib.Inet
import PactMesh.Lib.Outcome
import PactMesh.Lib.Tiling
import Mathlib.Data.List.Sort

/-!
# Reassembly of IPv4 fragments

`IpReassembler` collects fragments by source, destination and identification.  Lengths are
sixteen-bit numbers; the buffer has the size that the last fragment announced, while completeness is
decided by adding up lengths.  `checks` says whether the build has overflow checks.

Main result: `addFragment_of_fits`.
-/

namespace PactMesh

open Inet Outcome List

structure IpFragment where
  id : ℕ
  offset : ℕ
  data : List UInt8
deriving DecidableEq

structure IpPacket where
  source : BitVec 32
  destination : BitVec 32
  totalLength : Option ℕ
  fragments : List IpFragment
deriving DecidableEq

variable (checks : Bool)

namespace IpFragment

def ofPacket (packet : Ipv4View) : Outcome IpFragment := do
  let offset ← arith checks 16 (packet.fragmentOffset * 8 : ℕ)
  return ⟨packet.identification, offset, packet.payload⟩

/-- `self.offset <= other.offset && other.offset < self.offset + self.data.len() as u16` -/
def startsInside (self other : IpFragment) : Outcome Bool :=
  if self.offset ≤ other.offset then do
    let stop ← arith checks 16 (self.offset + self.data.length % 65536 : ℕ)
    return decide (other.offset < stop)
  else return false

def overlapsAny (fragment : IpFragment) : List IpFragment → Outcome Bool
  | [] => return false
  | f :: fs => do
    let overlap₁ ← f.startsInside checks fragment
    if overlap₁ then return true
    let overlap₂ ← fragment.startsInside checks f
    if overlap₂ then return true
    overlapsAny fragment fs

def stop (f : IpFragment) : ℕ := f.offset + f.data.length

abbrev Apart : IpFragment → IpFragment → Prop := Tiling.Apart offset fun f => f.data.length

end IpFragment

open IpFragment

namespace IpPacket

def new (source destination : BitVec 32) : IpPacket := ⟨source, destination, none, []⟩

def addFragment (p : IpPacket) (fragment : IpFragment) : Outcome IpPacket := do
  let overlap ← fragment.overlapsAny checks p.fragments
  return if overlap then p else { p with fragments := p.fragments ++ [fragment] }

def sumLengths (fragments : List IpFragment) : Outcome ℕ :=
  fragments.foldlM
    (fun (total : ℕ) f => arith checks 16 (total + f.data.length % 65536 : ℕ)) 0

def isComplete (p : IpPacket) : Outcome Bool :=
  match p.totalLength with
  | none => return false
  | some totalLength => do
    let sum ← sumLengths checks p.fragments
    return decide (sum = totalLength)

def setTotalLength (p : IpPacket) (totalLength : ℕ) : IpPacket :=
  { p with totalLength := some totalLength }

def fill (buf : List UInt8) (fragments : List IpFragment) : Outcome (List UInt8) :=
  fragments.foldlM (fun buf f => copyFromSlice buf f.offset f.data) buf

def assemble (p : IpPacket) : Outcome (Option (List UInt8)) := do
  let complete ← p.isComplete checks
  if complete then
    let totalLength ← unwrap p.totalLength
    let packet ← fill (List.replicate totalLength 0)
      (p.fragments.insertionSort fun f g => f.offset ≤ g.offset)
    return some packet
  else return none

end IpPacket

structure IpResemblerKey where
  source : BitVec 32
  destination : BitVec 32
  id : ℕ
deriving DecidableEq

structure IpResemblerValue where
  packet : IpPacket
  timestamp : ℕ

structure IpReassembler where
  packets : IpResemblerKey → Option IpResemblerValue
  timeout : ℕ

namespace IpReassembler

def new (timeout : ℕ) : IpReassembler := ⟨fun _ => none, timeout⟩

def isPacketFragmented (packet : Ipv4View) : Bool :=
  packet.fragmentOffset != 0 || packet.flags % 2 == moreFragments

def isLastFragment (packet : Ipv4View) : Bool := packet.flags % 2 != moreFragments

def entryOf (r : IpReassembler) (key : IpResemblerKey) : IpPacket :=
  match r.packets key with
  | some value => value.packet
  | none => .new key.source key.destination

def announce (entry : IpPacket) (packet : Ipv4View) (totalLength offset : ℕ) : Outcome IpPacket :=
  if isLastFragment packet then do
    let announced ← arith checks 16 (totalLength + offset : ℕ)
    return entry.setTotalLength announced
  else return entry

def addFragment (now : ℕ) (r : IpReassembler) (source destination : BitVec 32)
    (packet : Ipv4View) : Outcome (IpReassembler × Option (List UInt8)) := do
  let headerBytes ← arith checks 16 (packet.headerLength * 4 : ℕ)
  let totalLength ← arith checks 16 ((packet.totalLength : ℤ) - headerBytes)
  if totalLength ≠ packet.payload.length % 65536 then return (r, none)
  let fragment ← ofPacket checks packet
  let key : IpResemblerKey := ⟨source, destination, packet.identification⟩
  let entry ← announce checks (r.entryOf key) packet totalLength fragment.offset
  let entry ← entry.addFragment checks fragment
  let assembled ← entry.assemble checks
  match assembled with
  | some data => return ({ r with packets := Function.update r.packets key none }, some data)
  | none =>
    return ({ r with packets := Function.update r.packets key (some ⟨entry, now⟩) }, none)

def removeExpiredPackets (now : ℕ) (r : IpReassembler) : IpReassembler :=
  { r with packets := fun key => (r.packets key).filter fun v => now - v.timestamp ≤ r.timeout }

end IpReassembler

/-! ### What is stored -/

structure IpPacket.Wf (p : IpPacket) : Prop where
  totalLength_lt : ∀ n, p.totalLength = some n → n < 65536
  stop_lt : ∀ f ∈ p.fragments, f.stop < 65536
  apart : p.fragments.Pairwise IpFragment.Apart
  stop_le : ∀ n, p.totalLength = some n → ∀ f ∈ p.fragments, f.stop ≤ n

theorem IpPacket.wf_new (source destination : BitVec 32) : (IpPacket.new source destination).Wf :=
  ⟨by simp [new], by simp [new], by simp [new], by simp [new]⟩

def IpReassembler.Wf (r : IpReassembler) : Prop := ∀ key v, r.packets key = some v → v.packet.Wf

theorem IpReassembler.wf_new (timeout : ℕ) : (IpReassembler.new timeout).Wf := by
  intro key v hv
  cases hv

theorem IpReassembler.Wf.entryOf {r : IpReassembler} (h : r.Wf) (key : IpResemblerKey) :
    (r.entryOf key).Wf := by
  unfold IpReassembler.entryOf
  cases hv : r.packets key with
  | none => exact IpPacket.wf_new _ _
  | some v => exact h key v hv

theorem IpReassembler.Wf.update {r : IpReassembler} (h : r.Wf) (key : IpResemblerKey)
    {o : Option IpResemblerValue} (ho : ∀ v, o = some v → v.packet.Wf) :
    ({ r with packets := Function.update r.packets key o } : IpReassembler).Wf := by
  intro k v hv
  by_cases hk : k = key
  · subst hk
    exact ho v ((Function.update_self k o r.packets).symm.trans hv)
  · exact h k v ((Function.update_of_ne hk o r.packets).symm.trans hv)

theorem IpReassembler.Wf.removeExpiredPackets {r : IpReassembler} (h : r.Wf) (now : ℕ) :
    (r.removeExpiredPackets now).Wf := by
  intro key v hv
  exact h key v (Option.eq_some_of_filter_eq_some hv)

/-! ### Without overflow -/

variable {checks}

namespace IpFragment

variable {f fragment : IpFragment} {fs : List IpFragment}

theorem startsInside_eq (h : f.stop < 65536) :
    f.startsInside checks fragment =
      .returns (decide (f.offset ≤ fragment.offset ∧ fragment.offset < f.stop)) := by
  unfold stop at h
  have hlen : f.data.length % 65536 = f.data.length := Nat.mod_eq_of_lt (by omega)
  unfold startsInside
  rw [hlen, arith_natCast h]
  by_cases hle : f.offset ≤ fragment.offset
  · simp [hle, stop]
  · simp [hle]

theorem overlapsAny_eq (hf : fragment.stop < 65536) (hfs : ∀ f ∈ fs, f.stop < 65536) :
    fragment.overlapsAny checks fs = .returns (decide (∃ f ∈ fs, ¬ f.Apart fragment)) := by
  induction fs with
  | nil => simp [overlapsAny]
  | cons f fs ih =>
    obtain ⟨hhead, htail⟩ := forall_mem_cons.1 hfs
    have hrest := ih htail
    have hapart : f.Apart fragment ↔ ¬ (f.offset ≤ fragment.offset ∧ fragment.offset < f.stop) ∧
        ¬ (fragment.offset ≤ f.offset ∧ f.offset < fragment.stop) := Iff.rfl
    simp only [overlapsAny, startsInside_eq hhead, startsInside_eq hf, hrest,
      exists_mem_cons_iff, hapart]
    by_cases h₁ : f.offset ≤ fragment.offset ∧ fragment.offset < f.stop <;>
      by_cases h₂ : fragment.offset ≤ f.offset ∧ f.offset < fragment.stop <;>
        simp [h₁, h₂]

end IpFragment

namespace IpPacket

variable {p : IpPacket} {fragment : IpFragment} {fs : List IpFragment}

theorem sumLengths_eq (h : (fs.map fun f => f.data.length).sum < 65536) :
    sumLengths checks fs = .returns (fs.map fun f => f.data.length).sum := by
  -- the same for any start of the sum
  suffices hfrom : ∀ total, total + (fs.map fun f => f.data.length).sum < 65536 →
      fs.foldlM (fun (total : ℕ) f => arith checks 16 (total + f.data.length % 65536 : ℕ)) total =
        .returns (total + (fs.map fun f => f.data.length).sum) by
    rw [sumLengths, hfrom 0 (by omega), Nat.zero_add]
  clear h
  induction fs with
  | nil => intro total _; simp
  | cons f fs ih =>
    intro total h
    rw [map_cons, sum_cons] at h ⊢
    have hlen : f.data.length % 65536 = f.data.length := Nat.mod_eq_of_lt (by omega)
    have hadd : arith checks 16 (total + f.data.length : ℕ) =
        .returns (total + f.data.length) := arith_natCast (by omega)
    rw [foldlM_cons, hlen, hadd]
    have hrest := ih (total + f.data.length) (by omega)
    rw [Nat.add_assoc] at hrest
    exact hrest

theorem returns_fill {buf : List UInt8} (h : ∀ f ∈ fs, f.stop ≤ buf.length) :
    (fill buf fs).Returns := by
  induction fs generalizing buf with
  | nil => exact ⟨buf, rfl⟩
  | cons f fs ih =>
    obtain ⟨hhead, htail⟩ := forall_mem_cons.1 h
    obtain ⟨buf', hbuf⟩ : (copyFromSlice buf f.offset f.data).Returns :=
      ⟨_, copyFromSlice_eq hhead⟩
    have hlen := length_of_copyFromSlice hbuf
    rw [fill, foldlM_cons, hbuf]
    exact ih fun g hg => hlen ▸ htail g hg

theorem Wf.returns_assemble (checks : Bool) (h : p.Wf) : (p.assemble checks).Returns := by
  unfold assemble isComplete
  cases hlen : p.totalLength with
  | none => exact ⟨none, rfl⟩
  | some n =>
    have hstop := h.stop_le n hlen
    have hsum : (p.fragments.map fun f => f.data.length).sum ≤ n :=
      Tiling.sum_size_le h.apart hstop
    have hlt := h.totalLength_lt n hlen
    simp only [sumLengths_eq (lt_of_le_of_lt hsum hlt)]
    by_cases heq : (p.fragments.map fun f => f.data.length).sum = n
    · have hfill : (fill (List.replicate n 0)
          (p.fragments.insertionSort fun f g => f.offset ≤ g.offset)).Returns := by
        refine returns_fill fun f hf => ?_
        rw [length_replicate]
        exact hstop f ((perm_insertionSort _ p.fragments).mem_iff.1 hf)
      obtain ⟨data, hdata⟩ := hfill
      exact ⟨some data, by simp [heq, hdata, unwrap]⟩
    · exact ⟨none, by simp [heq]⟩

/-- A fragment that ends below 2¹⁶ and within the announced end is taken or dropped, and what is
stored stays well-formed. -/
theorem Wf.addFragment (checks : Bool) (h : p.Wf) (hf : fragment.stop < 65536)
    (hn : ∀ n, p.totalLength = some n → fragment.stop ≤ n) :
    ∃ p', p.addFragment checks fragment = .returns p' ∧ p'.Wf := by
  simp only [IpPacket.addFragment, overlapsAny_eq hf h.stop_lt]
  by_cases hover : ∃ f ∈ p.fragments, ¬ f.Apart fragment
  · exact ⟨p, by simp [hover], h⟩
  · refine ⟨{ p with fragments := p.fragments ++ [fragment] },
      by simp [hover], ⟨h.totalLength_lt, ?_, ?_, fun n hlen => ?_⟩⟩
    · exact forall_mem_append.2 ⟨h.stop_lt, forall_mem_singleton.2 hf⟩
    · push Not at hover
      refine pairwise_append.2 ⟨h.apart, pairwise_singleton _ _, fun f hmem => ?_⟩
      exact forall_mem_singleton.2 (hover f hmem)
    · exact forall_mem_append.2 ⟨h.stop_le n hlen, forall_mem_singleton.2 (hn n hlen)⟩

end IpPacket

/-! ### Taking a fragment that fits -/

def fragmentOf (packet : Ipv4View) : IpFragment :=
  ⟨packet.identification, packet.fragmentOffset * 8, packet.payload⟩

def announcedAfter (p : IpPacket) (packet : Ipv4View) : Option ℕ :=
  if IpReassembler.isLastFragment packet then some (fragmentOf packet).stop else p.totalLength

/-- The header length is within the total length, and a fragment of the length it says ends below
2¹⁶ and leaves no fragment that ends after the announced end. -/
def IpReassembler.Fits (r : IpReassembler) (source destination : BitVec 32) (packet : Ipv4View) :
    Prop :=
  packet.headerLength * 4 ≤ packet.totalLength ∧
    (packet.totalLength - packet.headerLength * 4 = packet.payload.length →
      let entry := r.entryOf ⟨source, destination, packet.identification⟩
      (fragmentOf packet).stop < 65536 ∧ ∀ n ∈ announcedAfter entry packet,
          ∀ f ∈ fragmentOf packet :: entry.fragments, f.stop ≤ n)

instance (r : IpReassembler) (source destination : BitVec 32) (packet : Ipv4View) :
    Decidable (r.Fits source destination packet) :=
  inferInstanceAs (Decidable (_ ∧ (_ → _ ∧ ∀ n ∈ _, ∀ f ∈ _, _)))

theorem IpFragment.ofPacket_eq (packet : Ipv4View) :
    ofPacket checks packet = .returns (fragmentOf packet) := by
  have hoff := packet.fragmentOffset_lt
  rw [ofPacket, arith_natCast (by omega)]
  rfl

namespace IpReassembler

variable {r : IpReassembler} {source destination : BitVec 32} {packet : Ipv4View} {p : IpPacket}

theorem announce_of_stop_le (checks : Bool) (hp : p.Wf) (hstop : (fragmentOf packet).stop < 65536)
    (hn : ∀ n, announcedAfter p packet = some n → ∀ f ∈ p.fragments, f.stop ≤ n) :
    ∃ p', announce checks p packet packet.payload.length (fragmentOf packet).offset = .returns p' ∧
      p'.Wf ∧ p'.totalLength = announcedAfter p packet := by
  unfold announce announcedAfter at *
  by_cases hlast : isLastFragment packet = true
  · have hsum : packet.payload.length + (fragmentOf packet).offset = (fragmentOf packet).stop := by
      rw [stop, Nat.add_comm]
      rfl
    rw [if_pos hlast] at hn
    refine ⟨p.setTotalLength (fragmentOf packet).stop, ?_, ⟨?_, hp.stop_lt, hp.apart, ?_⟩, ?_⟩
    · rw [if_pos hlast, hsum, arith_natCast hstop, returns_bind, pure_eq]
    · intro n hlen
      exact Option.some.inj hlen ▸ hstop
    · intro n hlen
      exact hn n hlen
    · rw [if_pos hlast]
      rfl
  · rw [if_neg hlast, if_neg hlast]
    exact ⟨p, rfl, hp, rfl⟩

/-- **A fragment that fits is taken without a panic or an overflow**, and what is stored stays
well-formed. -/
theorem addFragment_of_fits (now : ℕ) (hr : r.Wf) (hfit : r.Fits source destination packet) :
    ∃ r' out, r.addFragment checks now source destination packet = .returns (r', out) ∧ r'.Wf := by
  obtain ⟨hheader, hfit⟩ := hfit
  have hhl := packet.headerLength_lt
  have htl := packet.totalLength_lt
  have hpl := packet.length_payload_le
  have hbytes : arith checks 16 (packet.headerLength * 4 : ℕ) =
      .returns (packet.headerLength * 4) := arith_natCast (by omega)
  have hlength : arith checks 16 ((packet.totalLength : ℤ) - (packet.headerLength * 4 : ℕ)) =
      .returns (packet.totalLength - packet.headerLength * 4) := by
    rw [← Int.ofNat_sub hheader]
    exact arith_natCast (by omega)
  have hmod : packet.payload.length % 65536 = packet.payload.length := Nat.mod_eq_of_lt (by omega)
  simp only [addFragment, hbytes, hlength, returns_bind, hmod]
  by_cases heq : packet.totalLength - packet.headerLength * 4 = packet.payload.length
  · obtain ⟨hstop, hn⟩ := hfit heq
    set key : IpResemblerKey := ⟨source, destination, packet.identification⟩
    obtain ⟨p₁, hp₁, hwf₁, hlen⟩ := announce_of_stop_le checks
      (hr.entryOf key) hstop fun n h f hf => hn n h f (mem_cons_of_mem _ hf)
    obtain ⟨p₂, hp₂, hwf₂⟩ := hwf₁.addFragment checks hstop
      fun n h => hn n (hlen ▸ h) _ mem_cons_self
    obtain ⟨out, hout⟩ := hwf₂.returns_assemble checks
    simp only [heq, ne_eq, not_true_eq_false, if_false, ofPacket_eq, returns_bind, hp₁, hp₂, hout]
    cases out with
    | some data => exact ⟨_, _, rfl, hr.update key fun v hv => nomatch hv⟩
    | none => exact ⟨_, _, rfl, hr.update key fun v hv => Option.some.inj hv ▸ hwf₂⟩
  · rw [if_pos heq]
    exact ⟨r, none, rfl, hr⟩

end IpReassembler

end PactMesh
