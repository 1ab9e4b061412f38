import PactMesh.Trust.NetworkState

/-!
# Relay grants

A relay serves other trust domains by a table in its configuration.  The first entry for the domain
that has not expired counts.
-/

namespace PactMesh

structure RelayGrantEntry where
  foreignRootPk : TrustDomainId
  capabilities : RelayCapabilities
  expiresAt : UInt64
deriving DecidableEq

structure RelayGrantTable where
  entries : List RelayGrantEntry
deriving DecidableEq

namespace RelayGrantTable

variable (table : RelayGrantTable) (td : TrustDomainId) (now : UInt64)

def permits : Option RelayCapabilities :=
  (table.entries.find? fun entry => entry.foreignRootPk == td && now < entry.expiresAt).map
    (·.capabilities)

def permitsDataRelay : Bool := (table.permits td now).any (·.canRelayData)

def permitsHolepunchAssist : Bool := (table.permits td now).any (·.canAssistHolepunch)

def GrantsData : Prop :=
  ∃ entry ∈ table.entries, entry.foreignRootPk = td ∧ now < entry.expiresAt ∧
    entry.capabilities.canRelayData = true

variable {table td now}

theorem grantsData_of_permits (h : table.permitsDataRelay td now = true) :
    table.GrantsData td now := by
  unfold permitsDataRelay permits at h
  cases hfind : table.entries.find?
      (fun entry => entry.foreignRootPk == td && now < entry.expiresAt) with
  | none => simp [hfind] at h
  | some entry =>
    have hentry := List.find?_some hfind
    simp only [Bool.and_eq_true, beq_iff_eq, decide_eq_true_eq] at hentry
    refine ⟨entry, List.mem_of_find?_eq_some hfind, hentry.1, hentry.2, ?_⟩
    simpa [hfind] using h

end RelayGrantTable

end PactMesh
