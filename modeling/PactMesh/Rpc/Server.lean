import PactMesh.Lib.OrderedMap
import PactMesh.Rpc.Packet

/-!
# The RPC server

The server keeps a merger for every peer and transaction, and serves each request whose pieces are
all there: it unpacks the request, calls the service that the descriptor names, and sends the response
back in pieces.  A cleaner drops mergers that have been idle.  A service may read any state `W` of the
node, and its answer may take any time.

Main result: `returns_handleRpc_iff`.
-/

namespace PactMesh

open Outcome

structure ServiceKey where
  domainName : String
  serviceName : String
  protoName : String
deriving DecidableEq

/-- `ServiceKey::from` -/
def ServiceKey.ofDescriptor (desc : RpcDescriptor) : ServiceKey :=
  ⟨desc.domainName, desc.serviceName, desc.protoName⟩

structure ServiceReply where
  result : Except RpcError (List UInt8)
  rawOutput : Option (List UInt8)
  /-- in milliseconds -/
  elapsed : ℕ

structure Service (W : Type) where
  name : String
  hasMethod : UInt8 → Bool
  call : W → UInt8 → List UInt8 → Outcome ServiceReply

variable {W : Type}

def Service.callMethod (service : Service W) (world : W) (methodIndex : UInt8)
    (input : List UInt8) : Outcome ServiceReply :=
  if service.hasMethod methodIndex then service.call world methodIndex input
  else .returns ⟨.error (.invalidMethodIndex methodIndex service.name), none, 0⟩

structure ServiceRegistry (W : Type) where
  table : OrderedMap ServiceKey (Service W)

namespace ServiceRegistry

variable (reg : ServiceRegistry W)

def callMethod (rpcDesc : RpcDescriptor) (world : W) (input : List UInt8) : Outcome ServiceReply :=
  match reg.table.get (.ofDescriptor rpcDesc) with
  | none => .returns ⟨.error (.invalidServiceKey rpcDesc.serviceName rpcDesc.protoName), none, 0⟩
  | some entry => entry.callMethod world rpcDesc.methodIndex.toUInt8 input

def Total : Prop :=
  ∀ key service, reg.table.get key = some service →
    ∀ world methodIndex input, (service.call world methodIndex input).Returns

variable {reg}

theorem Total.returns_callMethod (h : reg.Total) (rpcDesc : RpcDescriptor) (world : W)
    (input : List UInt8) : (reg.callMethod rpcDesc world input).Returns := by
  unfold callMethod
  cases hentry : reg.table.get (.ofDescriptor rpcDesc) with
  | none => exact returns_returns _
  | some entry =>
    dsimp only [Service.callMethod]
    split
    · exact h _ entry hentry world _ input
    · exact returns_returns _

end ServiceRegistry

structure RpcRequest where
  request : List UInt8
  timeoutMs : Int32
deriving DecidableEq

structure RpcResponse where
  response : List UInt8
  error : Option RpcError
  runtimeUs : UInt64
deriving DecidableEq

structure RpcEnv (W : Type) where
  registry : ServiceRegistry W
  encodePacket : RpcPacket → List UInt8
  encodeResponse : RpcResponse → List UInt8
  decodeRequest : List UInt8 → Option RpcRequest
  zstdCompress : ZstdCompress
  zstdDecompress : Zstd

def RpcEnv.Compresses (env : RpcEnv W) : Prop := ∀ data, ∃ out, env.zstdCompress data = .ok out

/-- `Duration::from_millis(timeout_ms as u64)`: a negative timeout is a very long one. -/
def RpcRequest.timeout (req : RpcRequest) : ℕ := req.timeoutMs.toInt64.toUInt64.toNat

namespace Server

variable (env : RpcEnv W)

def requestBody (packet : RpcPacket) : Except RpcError (List UInt8) :=
  match packet.compressionInfo with
  | some info => decompressPacket env.zstdDecompress (.ofInt32 info.algo) packet.body
  | none => .ok packet.body

def answerWithin (timeout : ℕ) (reply : ServiceReply) : Except RpcError (List UInt8) :=
  if timeout < reply.elapsed then .error .timeout
  else
    match reply.result with
    | .error e => .error e
    | .ok ret => .ok (reply.rawOutput.getD ret)

def handleRpcRequest (world : W) (packet : RpcPacket) : Outcome (Except RpcError (List UInt8)) :=
  match requestBody env packet with
  | .error e => .returns (.error e)
  | .ok body =>
    match env.decodeRequest body with
    | none => .returns (.error .decodeError)
    | some rpcRequest => do
      let desc ← unwrap packet.descriptor
      let reply ← env.registry.callMethod desc world rpcRequest.request
      return answerWithin rpcRequest.timeout reply

def response (runtimeUs : UInt64) : Except RpcError (List UInt8) → RpcResponse
  | .ok r => ⟨r, none, runtimeUs⟩
  | .error e => ⟨[], some e, runtimeUs⟩

def responseArgs (packet : RpcPacket) (desc : RpcDescriptor)
    (compressed : List UInt8 × CompressionAlgoPb) : BuildRpcPacketArgs where
  fromPeer := packet.toPeer
  toPeer := packet.fromPeer
  rpcDesc := desc
  transactionId := packet.transactionId
  isReq := false
  content := compressed.1
  traceId := packet.traceId
  compressionInfo := ⟨compressed.2.toInt32, CompressionAlgoPb.zstd.toInt32⟩

def handleRpc (world : W) (runtimeUs : UInt64) (packet : RpcPacket) : Outcome (List Packet) := do
  let desc ← unwrap packet.descriptor
  let result ← handleRpcRequest env world packet
  let respMsg := response runtimeUs result
  let acceptedAlgo := CompressionAlgoPb.ofInt32 (packet.compressionInfo.getD default).acceptedAlgo
  let compressed ← unwrap
    (compressPacket env.zstdCompress acceptedAlgo (env.encodeResponse respMsg)).toOption
  buildRpcPacket env.encodePacket (responseArgs packet desc compressed)

variable {env}

theorem returns_handleRpcRequest (hservices : env.registry.Total) (world : W) {packet : RpcPacket}
    (hdesc : packet.descriptor ≠ none) : (handleRpcRequest env world packet).Returns := by
  unfold handleRpcRequest
  split
  · exact returns_returns _
  · split
    · exact returns_returns _
    · refine (returns_unwrap_iff.2 hdesc).bind fun desc _ => ?_
      exact (hservices.returns_callMethod desc world _).bind fun _ _ => returns_returns _

/-- **A request is served exactly when it says what it calls.** -/
theorem returns_handleRpc_iff (hzstd : env.Compresses) (hservices : env.registry.Total) (world : W)
    (runtimeUs : UInt64) (packet : RpcPacket) :
    (handleRpc env world runtimeUs packet).Returns ↔ packet.descriptor ≠ none := by
  constructor
  · intro h
    exact returns_unwrap_iff.1 (returns_bind_iff.1 h).1
  · intro hdesc
    refine (returns_unwrap_iff.2 hdesc).bind fun desc _ => ?_
    refine (returns_handleRpcRequest hservices world hdesc).bind fun result _ => ?_
    obtain ⟨compressed, hcompressed⟩ := exists_compressPacket_eq hzstd
      (.ofInt32 (packet.compressionInfo.getD default).acceptedAlgo)
      (env.encodeResponse (response runtimeUs result))
    simp only [hcompressed, Except.toOption, unwrap, returns_bind]
    exact returns_buildRpcPacket _ _

end Server

structure PacketMergerKey where
  fromPeerId : PeerId
  transactionId : Int64
deriving DecidableEq

structure Server where
  packetMergers : OrderedMap PacketMergerKey PacketMerger

/-- A packet arrives, with the state of the node in which a request is served and the time it takes,
or the cleaner wakes up. -/
inductive RpcEvent (W : Type)
  | packet (now : ℕ) (world : W) (runtimeUs : UInt64) (packet : RpcPacket)
  | clean (now : ℕ)

namespace Server

variable (s : Server)

def new : Server := ⟨.empty⟩

def merger (now : ℕ) (key : PacketMergerKey) : PacketMerger :=
  (s.packetMergers.get key).getD (.new now)

def receive (now : ℕ) (packet : RpcPacket) : Outcome (Server × Option RpcPacket) :=
  if !packet.isRequest then .returns (s, none)
  else do
    let key : PacketMergerKey := ⟨packet.fromPeer, packet.transactionId⟩
    let (merger, ret) ← (s.merger now key).feed now packet
    return match ret with
      | .ok (some request) => (⟨s.packetMergers.erase key⟩, some request)
      | .ok none => (⟨s.packetMergers.insert key merger⟩, none)
      | .error _ => (⟨s.packetMergers.insert key merger⟩, none)

def clean (now : ℕ) : Server := ⟨s.packetMergers.filter fun m => (now - m.lastUpdated) / 1000 < 10⟩

def merge : RpcEvent W → Outcome (Server × Option RpcPacket)
  | .packet now _ _ packet => s.receive now packet
  | .clean now => .returns (s.clean now, none)

def step (env : RpcEnv W) : RpcEvent W → Outcome (Server × List Packet)
  | .packet now world runtimeUs packet => do
    let (s', completed) ← s.receive now packet
    match completed with
    | none => return (s', [])
    | some request => return (s', ← handleRpc env world runtimeUs request)
  | .clean now => .returns (s.clean now, [])

def mergeAll (s : Server) : List (RpcEvent W) → Outcome (List RpcPacket)
  | [] => .returns []
  | e :: es => do
    let (s', completed) ← s.merge e
    return completed.toList ++ (← mergeAll s' es)

def serveAll (env : RpcEnv W) (s : Server) : List (RpcEvent W) → Outcome (List Packet)
  | [] => .returns []
  | e :: es => do
    let (s', packets) ← s.step env e
    return packets ++ (← serveAll env s' es)

end Server

end PactMesh
