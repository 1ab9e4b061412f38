import PactMesh.Rpc.Server

/-!
# RPC packets of peers and panics

Merging never panics, and a request that is put together from numbered pieces names the method it
calls, because its first piece is refused otherwise.  A packet of an old version passes the merger as
it is; if it names no method the handler panics, and the node is built to abort on a panic.

Main result: `rpc_server_total`.
-/

namespace PactMesh

open Outcome List

def RpcPacket.Described (p : RpcPacket) : Prop :=
  p.isRequest = true → p.isUnnumbered = true → p.descriptor ≠ none

instance (p : RpcPacket) : Decidable p.Described := inferInstanceAs (Decidable (_ → _ → _))

variable {W : Type}

def RpcEvent.Described : RpcEvent W → Prop
  | .packet _ _ _ p => p.Described
  | .clean _ => True

instance (e : RpcEvent W) : Decidable e.Described :=
  match e with
  | .packet _ _ _ p => inferInstanceAs (Decidable p.Described)
  | .clean _ => inferInstanceAs (Decidable True)

namespace Server

variable {s : Server}

def Wf (s : Server) : Prop := ∀ entry ∈ s.packetMergers.entries, entry.2.Wf

theorem wf_new_server : new.Wf := nofun

theorem Wf.merger (hs : s.Wf) (now : ℕ) (key : PacketMergerKey) : (s.merger now key).Wf := by
  unfold Server.merger
  cases hget : s.packetMergers.get key with
  | none => exact PacketMerger.wf_new now
  | some m => exact hs (key, m) (OrderedMap.mem_of_get hget)

theorem Wf.erase (hs : s.Wf) (key : PacketMergerKey) : Wf ⟨s.packetMergers.erase key⟩ := by
  intro entry hentry
  rcases Keyed.mem_put.1 hentry with ⟨hold, -⟩ | hnew
  · exact hs entry hold
  · cases hnew

theorem Wf.insert (hs : s.Wf) (key : PacketMergerKey) {m : PacketMerger} (hm : m.Wf) :
    Wf ⟨s.packetMergers.insert key m⟩ := by
  intro entry hentry
  rcases Keyed.mem_put.1 hentry with ⟨hold, -⟩ | hnew
  · exact hs entry hold
  · cases hnew
    exact hm

theorem Wf.clean (hs : s.Wf) (now : ℕ) : (s.clean now).Wf :=
  fun entry hentry => hs entry (mem_filter.1 hentry).1

theorem Wf.receive (hs : s.Wf) (now : ℕ) (packet : RpcPacket) :
    ∃ s' completed, s.receive now packet = .returns (s', completed) ∧ s'.Wf ∧
      ((∀ q ∈ completed, q.descriptor ≠ none) ↔ packet.Described) := by
  unfold Server.receive
  cases hreq : packet.isRequest with
  | false => exact ⟨s, none, rfl, hs, iff_of_true nofun fun h => by simp [hreq] at h⟩
  | true =>
    obtain ⟨m, result, hfeed, hm, hold, hnumbered⟩ :=
      (hs.merger now ⟨packet.fromPeer, packet.transactionId⟩).feed now packet
    simp only [hfeed, if_not_true, returns_bind, pure_eq]
    cases hun : packet.isUnnumbered with
    | true =>
      rw [hold hun]
      refine ⟨_, _, rfl, hs.erase _, ?_⟩
      simp [RpcPacket.Described, hreq, hun]
    | false =>
      have hdescribed : packet.Described := fun _ h => by simp [hun] at h
      match result with
      | .ok (some request) =>
        refine ⟨_, _, rfl, hs.erase _, iff_of_true ?_ hdescribed⟩
        rintro q ⟨⟩
        exact hnumbered hun request rfl
      | .ok none => exact ⟨_, _, rfl, hs.insert _ hm, iff_of_true nofun hdescribed⟩
      | .error e => exact ⟨_, _, rfl, hs.insert _ hm, iff_of_true nofun hdescribed⟩

theorem Wf.merge (hs : s.Wf) (e : RpcEvent W) :
    ∃ s' completed, s.merge e = .returns (s', completed) ∧ s'.Wf ∧
      ((∀ q ∈ completed, q.descriptor ≠ none) ↔ e.Described) := by
  cases e with
  | packet now world runtimeUs packet => exact hs.receive now packet
  | clean now => exact ⟨_, none, rfl, hs.clean now, iff_of_true nofun trivial⟩

theorem Wf.mergeAll (hs : s.Wf) (events : List (RpcEvent W)) :
    ∃ completed, s.mergeAll events = .returns completed ∧
      ((∀ q ∈ completed, q.descriptor ≠ none) ↔ ∀ e ∈ events, e.Described) := by
  induction events generalizing s with
  | nil => exact ⟨[], rfl, iff_of_true nofun nofun⟩
  | cons e es ih =>
    obtain ⟨s', completed, hmerge, hs', hiff⟩ := hs.merge e
    obtain ⟨rest, hrest, hrestIff⟩ := ih hs'
    refine ⟨completed.toList ++ rest, ?_, ?_⟩
    · simp only [Server.mergeAll, hmerge, hrest, returns_bind, pure_eq]
    · rw [forall_mem_append, forall_mem_cons, ← hiff, hrestIff]
      simp only [Option.mem_toList, Option.mem_def]

variable {env : RpcEnv W}

theorem Wf.step (hzstd : env.Compresses) (hservices : env.registry.Total) (hs : s.Wf)
    (e : RpcEvent W) :
    ((s.step env e).Returns ↔ e.Described) ∧
      ∀ s' packets, s.step env e = .returns (s', packets) → s'.Wf := by
  cases e with
  | clean now =>
    refine ⟨iff_of_true (returns_returns _) trivial, ?_⟩
    rintro s' packets ⟨⟩
    exact hs.clean now
  | packet now world runtimeUs packet =>
    obtain ⟨s', completed, hreceive, hs', hiff⟩ := hs.receive now packet
    simp only [Server.step, RpcEvent.Described, hreceive, returns_bind, ← hiff]
    cases completed with
    | none =>
      refine ⟨iff_of_true (returns_returns _) (by simp), ?_⟩
      rintro _ _ ⟨⟩
      exact hs'
    | some request =>
      have hhandle := returns_handleRpc_iff hzstd hservices world runtimeUs request
      simp only [Option.mem_some, forall_eq']
      rw [← hhandle]
      constructor
      · exact returns_bind_iff_left fun _ => returns_returns _
      · intro s₁ packets h
        obtain ⟨_, -, h⟩ := bind_eq_returns_iff.1 h
        cases h
        exact hs'

theorem Wf.returns_serveAll_iff (hzstd : env.Compresses) (hservices : env.registry.Total)
    (hs : s.Wf) (events : List (RpcEvent W)) :
    (s.serveAll env events).Returns ↔ ∀ e ∈ events, e.Described := by
  induction events generalizing s with
  | nil => exact iff_of_true (returns_returns _) nofun
  | cons e es ih =>
    obtain ⟨hiff, hkeep⟩ := hs.step hzstd hservices e
    rw [Server.serveAll, returns_bind_iff, forall_mem_cons, ← hiff]
    refine and_congr_right fun ⟨⟨s', packets⟩, hstep⟩ => ?_
    rw [hstep, ← ih (hkeep s' packets hstep)]
    simp only [returns.injEq, forall_eq']
    exact returns_bind_iff_left fun _ => returns_returns _

end Server

/-- **Which packets of peers the RPC server takes**: a sequence is taken without a panic, and
completes requests with a descriptor only, exactly when every request of an old version has a
descriptor. -/
theorem rpc_server_total {env : RpcEnv W} (hzstd : env.Compresses) (hservices : env.registry.Total)
    (events : List (RpcEvent W)) :
    ((Server.new.serveAll env events).Returns ↔ ∀ e ∈ events, e.Described) ∧
      ∃ completed, Server.new.mergeAll events = .returns completed ∧
        ((∀ q ∈ completed, q.descriptor ≠ none) ↔ ∀ e ∈ events, e.Described) :=
  ⟨Server.wf_new_server.returns_serveAll_iff hzstd hservices events,
    Server.wf_new_server.mergeAll events⟩

def echoService : Service Unit where
  name := "Echo"
  hasMethod index := index == 1
  call _ _ input := .returns ⟨.ok input, none, 0⟩

def echoEnv : RpcEnv Unit where
  registry := ⟨OrderedMap.empty.insert ⟨"net", "Echo", "echo"⟩ echoService⟩
  encodePacket p := p.body
  encodeResponse r := r.response
  decodeRequest body := some ⟨body, 1000⟩
  zstdCompress data := .ok data
  zstdDecompress data _ := .ok data

theorem echoEnv_total : echoEnv.registry.Total := by
  intro key service hget world methodIndex input
  have hmem := Keyed.mem_put.1 (OrderedMap.mem_of_get hget)
  rcases hmem with ⟨hold, -⟩ | hnew
  · cases hold
  · cases hnew
    exact returns_returns _

def echoRequest : RpcPacket where
  fromPeer := 2
  toPeer := 1
  transactionId := 7
  descriptor := some ⟨"net", "echo", "Echo", 1⟩
  body := []
  isRequest := true
  totalPieces := 0
  pieceIdx := 0
  traceId := 0
  compressionInfo := none

/-- The second piece of a request before the first one, a request of an old version, a piece that
is out of range, a response and the cleaner. -/
def echoTraffic : List (RpcEvent Unit) :=
  [.packet 0 () 0 { echoRequest with
      totalPieces := 2, pieceIdx := 1, descriptor := none, body := [3, 4] },
    .packet 1 () 0 { echoRequest with totalPieces := 2, body := [1, 2] },
    .packet 2 () 0 echoRequest,
    .packet 3 () 0 { echoRequest with totalPieces := 2, pieceIdx := 2, descriptor := none },
    .packet 4 () 0 { echoRequest with isRequest := false, descriptor := none }, .clean 5000]

/-- Traffic that is served. -/
theorem echo_traffic_served : (Server.new.serveAll echoEnv echoTraffic).Returns :=
  (rpc_server_total (fun data => ⟨data, rfl⟩) echoEnv_total echoTraffic).1.2 (by decide)

/-- **One packet that makes the server panic**: a request of an old version without a descriptor. -/
theorem undescribed_request_panics :
    Server.new.mergeAll [RpcEvent.packet 0 () 0 { echoRequest with descriptor := none }] =
        .returns [{ echoRequest with descriptor := none }] ∧
      Server.new.serveAll echoEnv [.packet 0 () 0 { echoRequest with descriptor := none }] =
        .panics .unwrapNone := ⟨rfl, rfl⟩

end PactMesh
