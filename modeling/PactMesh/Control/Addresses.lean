import PactMesh.Control.Effects

/-!
# Addresses are unique

An automatic assignment picks an address that nobody has; an explicit one takes the address as it is
asked for.

Main result: `addresses_unique`.
-/

namespace PactMesh

variable {T : StateSuite} {root : TrustDomainRoot T} {dir dir' : NetworkDir} {op : GovOp}

namespace NetworkDir

structure UniqueAddresses (dir : NetworkDir) : Prop where
  addresses : (dir.payload.ipAssignments.map (·.ipv4.addr)).Nodup
  devices : (dir.payload.ipAssignments.map (·.deviceId)).Nodup

variable (T) in
def AsksFreeAddress (dir : NetworkDir) : GovOp → Prop
  | .apiAssignedIpv4 fp (some ipv4) | .trustAssignedIpv4 fp (some ipv4) =>
    ∀ cert ∈ dir.certBodies T fp, ∀ a ∈ dir.payload.ipAssignments,
      a.ipv4.addr = ipv4.addr → a.deviceId = T.encodeDeviceId cert.details.devicePk
  | _ => True

instance (dir : NetworkDir) (op : GovOp) : Decidable (AsksFreeAddress T dir op) := by
  unfold AsksFreeAddress
  split <;> infer_instance

theorem UniqueAddresses.assign (h : UniqueAddresses dir) {deviceId : String}
    {ipv4 : Option AssignedIpv4}
    (hfree : ∀ ip, ipv4 = some ip → ∀ a ∈ dir.payload.ipAssignments, a.deviceId ≠ deviceId →
      a.ipv4.addr ≠ ip.addr) :
    UniqueAddresses (dir.assign root deviceId ipv4) where
  addresses := by
    refine Keyed.nodup_map_put h.addresses fun b hb a ha hdevice => ?_
    obtain ⟨ip, hip, rfl⟩ := Option.map_eq_some_iff.1 hb
    exact hfree ip hip a ha hdevice
  devices := by
    refine Keyed.nodup_map_key_put (fun b hb => ?_) h.devices
    obtain ⟨ip, -, rfl⟩ := Option.map_eq_some_iff.1 hb
    rfl

theorem UniqueAddresses.effect (h : UniqueAddresses dir) (hop : AsksFreeAddress T dir op)
    (he : Effect root dir op dir') : UniqueAddresses dir' := by
  cases he with
  | unchanged => exact h
  | approve | bootstrap =>
    unfold addMember
    split_ifs
    · exact ⟨h.addresses, h.devices⟩
    · exact ⟨h.addresses, h.devices⟩
  | revoke | disabled | labels | hostname | grants | tag | hints | reissue =>
    exact ⟨h.addresses, h.devices⟩
  | @explicitAddress fp cert ipv4 hexplicit hcert =>
    refine h.assign ?_
    rintro ip rfl a ha hdevice haddr
    -- both editors are held to the same condition
    have hsame : a.deviceId = T.encodeDeviceId cert.details.devicePk := by
      obtain rfl | rfl := hexplicit
      · exact hop cert hcert a ha haddr
      · exact hop cert hcert a ha haddr
    exact hdevice hsame
  | freeAddress hfree =>
    refine h.assign ?_
    rintro ip ⟨⟩ a ha - haddr
    exact hfree (List.mem_map.2 ⟨a, ha, haddr⟩)

end NetworkDir

/-- **Addresses are unique** after any operations on a new network, as long as no explicit
assignment asks for an address of another device. -/
theorem addresses_unique {name : NetworkLocalId} {action : Action} {ops : List GovOp}
    (hrun : ((Trans.ofFun (NetworkDir.step root)).guard (NetworkDir.AsksFreeAddress T)).Run
      (createNetwork root name action) ops dir) : dir.UniqueAddresses := by
  refine hrun.invariant ⟨List.nodup_nil, List.nodup_nil⟩ ?_
  rintro d op _ hd ⟨hop, rfl⟩
  exact hd.effect hop (NetworkDir.effect_step root d op)

def twoAssignments (second : UInt32) : List GovOp :=
  [sampleApprove (all32 3), sampleApprove (all32 4),
    .apiAssignedIpv4 ((sampleMember (all32 3) 1).fingerprint
      sampleGovSuite) (some ⟨0x0a000005, 24⟩),
    .trustAssignedIpv4 ((sampleMember (all32 4) 2).fingerprint
      sampleGovSuite) (some ⟨second, 24⟩)]

/-- Both devices ask for 10.0.0.5, and both get it. -/
theorem same_address_twice :
    ¬ ((twoAssignments 0x0a000005).foldl (NetworkDir.step sampleRoot)
      sampleDir).UniqueAddresses := by
  intro h
  exact absurd h.addresses (by decide +kernel)

/-- The second device asks for 10.0.0.6. -/
theorem addresses_unique_two_devices :
    ((twoAssignments 0x0a000006).foldl (NetworkDir.step sampleRoot)
      sampleDir).UniqueAddresses := by
  refine addresses_unique (Trans.run_guard_ofFun ?_)
  decide +kernel

end PactMesh
