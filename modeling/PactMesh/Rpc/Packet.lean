import PactMesh.Common.Compressor
import PactMesh.Lib.Outcome
import PactMesh.Peers.TrustAcl
import Mathlib.Data.Nat.Log

/-!
# RPC packets

Peers call each other with requests and responses that are compressed, cut into pieces that fit a
UDP packet, and put together again by the receiver.
-/

namespace PactMesh

open Outcome List

/-- The method that is called. -/
structure RpcDescriptor where
  domainName : String
  protoName : String
  serviceName : String
  methodIndex : UInt32
deriving DecidableEq, Inhabited

/-- How the content is compressed, and how an answer may be. -/
structure RpcCompressionInfo where
  algo : Int32
  acceptedAlgo : Int32
deriving DecidableEq, Inhabited

/-- A request or response, or a piece of one. -/
structure RpcPacket where
  fromPeer : PeerId
  toPeer : PeerId
  /-- pairs a response with its request -/
  transactionId : Int64
  descriptor : Option RpcDescriptor
  body : List UInt8
  isRequest : Bool
  totalPieces : UInt32
  pieceIdx : UInt32
  traceId : Int32
  /-- only in the first piece -/
  compressionInfo : Option RpcCompressionInfo
deriving DecidableEq, Inhabited

/-- A packet of an old version, which does not cut contents. -/
def RpcPacket.isUnnumbered (p : RpcPacket) : Bool := p.totalPieces == 0 && p.pieceIdx == 0

/-- The texts of an `ExecutionError`. -/
inductive ExecutionCause
  /-- "Invalid CompressionAlgoPb" -/
  | invalidCompressionAlgoPb
  /-- "Failed to compress data with algorithm" -/
  | compress (e : ZstdError)
  | decompress (e : DecompressError)
  /-- the text of a service -/
  | service (message : String)
deriving DecidableEq

/-- `proto::rpc_types::error::Error` -/
inductive RpcError
  | executionError (cause : ExecutionCause)
  | decodeError
  | encodeError
  | invalidMethodIndex (index : UInt8) (service : String)
  | invalidServiceKey (serviceName protoName : String)
  | malformatRpcPacket (message : String)
  | timeout
  | tunnelError
  | shutdown
deriving DecidableEq

/-- The algorithms on the wire. -/
inductive CompressionAlgoPb
  | invalid
  | none
  | zstd
deriving DecidableEq, Inhabited

/-- The algorithms that are there. -/
inductive CompressorAlgo
  | none
  | zstdDefault
deriving DecidableEq

namespace CompressionAlgoPb

/-- Numbers that are not known are invalid. -/
def ofInt32 (n : Int32) : CompressionAlgoPb :=
  if n = 1 then .none else if n = 2 then .zstd else .invalid

def toInt32 : CompressionAlgoPb → Int32
  | .invalid => 0
  | .none => 1
  | .zstd => 2

/-- `TryFrom`: there is no invalid algorithm to use. -/
def toCompressorAlgo : CompressionAlgoPb → Option CompressorAlgo
  | .invalid => Option.none
  | .none => some .none
  | .zstd => some .zstdDefault

end CompressionAlgoPb

def CompressorAlgo.toPb : CompressorAlgo → CompressionAlgoPb
  | .none => .none
  | .zstdDefault => .zstd

/-- `zstd::bulk::Compressor::compress` -/
abbrev ZstdCompress := List UInt8 → Except ZstdError (List UInt8)

/-- Compress by the given algorithm. -/
def compressRaw (C : ZstdCompress) (data : List UInt8) :
    CompressorAlgo → Except RpcError (List UInt8)
  | .none => .ok data
  | .zstdDefault => (C data).mapError fun e => .executionError (.compress e)

/-- Compress a content as the receiver accepts it, unless that makes it no shorter. -/
def compressPacket (C : ZstdCompress) (accepted : CompressionAlgoPb) (content : List UInt8) :
    Except RpcError (List UInt8 × CompressionAlgoPb) :=
  let algo := accepted.toCompressorAlgo.getD .none
  match compressRaw C content algo with
  | .error e => .error e
  | .ok compressed =>
    if content.length ≤ compressed.length then .ok (content, .none) else .ok (compressed, algo.toPb)

/-- Undo what the packet says was done. -/
def decompressPacket (Z : Zstd) (algo : CompressionAlgoPb) (content : List UInt8) :
    Except RpcError (List UInt8) :=
  match algo.toCompressorAlgo with
  | none => .error (.executionError .invalidCompressionAlgoPb)
  | some .none => .ok content
  | some .zstdDefault => (decompressRaw Z content).mapError fun e => .executionError (.decompress e)

theorem exists_compressPacket_eq {C : ZstdCompress} (hC : ∀ data, ∃ out, C data = .ok out)
    (accepted : CompressionAlgoPb) (content : List UInt8) :
    ∃ out, compressPacket C accepted content = .ok out := by
  obtain ⟨compressed, hraw⟩ :
      ∃ out, compressRaw C content (accepted.toCompressorAlgo.getD .none) = .ok out := by
    cases accepted.toCompressorAlgo.getD .none with
    | none => exact ⟨content, rfl⟩
    | zstdDefault =>
      obtain ⟨out, hout⟩ := hC content
      exact ⟨out, by rw [compressRaw, hout]; rfl⟩
  simp only [compressPacket, hraw]
  split
  · exact ⟨_, rfl⟩
  · exact ⟨_, rfl⟩

/-! ### Putting pieces together -/

/-- The pieces of one transaction that have come. -/
structure PacketMerger where
  /-- the piece that began the transaction -/
  firstPiece : Option RpcPacket
  /-- by index, the missing ones being empty -/
  pieces : List RpcPacket
  /-- in milliseconds -/
  lastUpdated : ℕ
deriving DecidableEq

namespace PacketMerger

variable (m : PacketMerger)

def new (now : ℕ) : PacketMerger := ⟨none, [], now⟩

/-- The whole packet, if no piece is missing. -/
def tryMergePieces : Outcome (Option RpcPacket) :=
  if m.firstPiece.isNone || m.pieces.isEmpty then .returns none
  else if m.pieces.any fun p => p.totalPieces == 0 then .returns none
  else do
    let tmplPacket ← index m.pieces 0
    return some { tmplPacket with
      totalPieces := 1
      pieceIdx := 0
      body := m.pieces.flatMap RpcPacket.body }

/-- The piece belongs to the transaction under way. -/
def continues (p : RpcPacket) : Bool :=
  match m.firstPiece with
  | none => false
  | some first => first.transactionId == p.transactionId && first.fromPeer == p.fromPeer

/-- A piece of another transaction discards what has come. -/
def restart (p : RpcPacket) : PacketMerger :=
  if m.continues p then m else { m with firstPiece := some p, pieces := [] }

/-- Keep room for `n` pieces, with empty ones in the places that are new. -/
def resize (n : ℕ) (pieces : List RpcPacket) : List RpcPacket :=
  (pieces ++ List.replicate (n - pieces.length) default).take n

/-- Put a piece in its place. -/
def store (now : ℕ) (p : RpcPacket) : Outcome PacketMerger := do
  let pieces ← setIndex (resize p.totalPieces.toNat m.pieces) p.pieceIdx.toNat p
  return { m with pieces := pieces, lastUpdated := now }

/-- Check a piece and take it. -/
def feed (now : ℕ) (p : RpcPacket) : Outcome (PacketMerger × Except RpcError (Option RpcPacket)) :=
  -- for compatibility with old versions
  if p.isUnnumbered then .returns (m, .ok (some p))
  else if p.pieceIdx == 0 && p.descriptor.isNone then
    .returns (m, .error (.malformatRpcPacket "descriptor is missing"))
  else if 32 * 1024 < p.totalPieces || p.totalPieces == 0 then
    .returns (m, .error (.malformatRpcPacket
      ("total_pieces is invalid: " ++ toString p.totalPieces.toNat)))
  else if p.totalPieces ≤ p.pieceIdx then
    .returns (m, .error (.malformatRpcPacket "piece_idx >= total_pieces"))
  else do
    let m' ← (m.restart p).store now p
    let merged ← m'.tryMergePieces
    return (m', .ok merged)

/-- The first piece, if it has come, says what is called. -/
def Wf : Prop := ∀ p, m.pieces[0]? = some p → p.totalPieces ≠ 0 → p.descriptor ≠ none

variable {m}

theorem wf_new (now : ℕ) : (new now).Wf := nofun

theorem Wf.restart (hm : m.Wf) (p : RpcPacket) : (m.restart p).Wf := by
  unfold PacketMerger.restart
  split
  · exact hm
  · exact nofun

@[simp] theorem length_resize (n : ℕ) (pieces : List RpcPacket) : (resize n pieces).length = n := by
  simp only [resize, length_take, length_append, length_replicate]
  omega

theorem getElem?_resize {n i : ℕ} {pieces : List RpcPacket} {q : RpcPacket}
    (h : (resize n pieces)[i]? = some q) : pieces[i]? = some q ∨ q = default := by
  rw [resize, getElem?_take] at h
  split_ifs at h
  rcases Nat.lt_or_ge i pieces.length with hi | hi
  · rw [getElem?_append_left hi] at h
    exact .inl h
  · rw [getElem?_append_right hi] at h
    exact .inr (eq_of_mem_replicate (mem_of_getElem? h))

theorem Wf.store (hm : m.Wf) {p : RpcPacket} (now : ℕ) (hidx : p.pieceIdx < p.totalPieces)
    (hfirst : p.pieceIdx = 0 → p.descriptor ≠ none) :
    ∃ m', m.store now p = .returns m' ∧ m'.Wf := by
  have hroom : p.pieceIdx.toNat < (resize p.totalPieces.toNat m.pieces).length := by
    rw [length_resize]
    exact UInt32.lt_iff_toNat_lt.1 hidx
  refine ⟨_, by rw [PacketMerger.store, setIndex, if_pos hroom]; rfl, ?_⟩
  intro q hq htotal
  rw [getElem?_set] at hq
  split_ifs at hq with hzero
  · cases hq
    exact hfirst (UInt32.toNat_inj.1 hzero)
  · rcases getElem?_resize hq with hold | rfl
    · exact hm q hold htotal
    · exact absurd rfl htotal

theorem Wf.tryMergePieces (hm : m.Wf) :
    ∃ merged, m.tryMergePieces = .returns merged ∧ ∀ q ∈ merged, q.descriptor ≠ none := by
  unfold PacketMerger.tryMergePieces
  split_ifs with hnone hmissing
  · exact ⟨none, rfl, nofun⟩
  · exact ⟨none, rfl, nofun⟩
  · cases hpieces : m.pieces with
    | nil => simp [hpieces] at hnone
    | cons tmplPacket pieces =>
      refine ⟨_, rfl, ?_⟩
      rintro q ⟨⟩
      have hreceived : tmplPacket.totalPieces ≠ 0 := by
        simp only [hpieces, any_cons, Bool.or_eq_true, beq_iff_eq, not_or] at hmissing
        exact hmissing.1
      exact hm tmplPacket (by rw [hpieces]; rfl) hreceived

/-- **What a piece does to a sound merger**: no panic, a merger that is sound, and a whole packet
that says what is called, unless it is an old version's packet. -/
theorem Wf.feed (hm : m.Wf) (now : ℕ) (p : RpcPacket) :
    ∃ m' result, m.feed now p = .returns (m', result) ∧ m'.Wf ∧
      (p.isUnnumbered = true → result = .ok (some p)) ∧
      (p.isUnnumbered = false → ∀ q, result = .ok (some q) → q.descriptor ≠ none) := by
  unfold PacketMerger.feed
  split_ifs with hold hmissing hinvalid hidx
  · exact ⟨m, _, rfl, hm, fun _ => rfl, fun h => by simp [hold] at h⟩
  · exact ⟨m, _, rfl, hm, fun h => absurd h hold, fun _ _ => nofun⟩
  · exact ⟨m, _, rfl, hm, fun h => absurd h hold, fun _ _ => nofun⟩
  · exact ⟨m, _, rfl, hm, fun h => absurd h hold, fun _ _ => nofun⟩
  · have hfirst : p.pieceIdx = 0 → p.descriptor ≠ none := by
      rintro hzero hnone
      simp [hzero, hnone] at hmissing
    obtain ⟨m', hstore, hm'⟩ := (hm.restart p).store now (UInt32.not_le.1 hidx) hfirst
    obtain ⟨merged, hmerged, hdescribed⟩ := hm'.tryMergePieces
    refine ⟨m', .ok merged, ?_, hm', fun h => absurd h hold, ?_⟩
    · simp only [hstore, hmerged, returns_bind, pure_eq]
    · rintro - q hq
      exact hdescribed q (by cases hq; rfl)

end PacketMerger

/-! ### Encoded sizes -/

namespace Protobuf

/-- The bytes of a number, seven bits each. -/
def varintLen (n : ℕ) : ℕ := Nat.log 128 n + 1

/-- The bytes of a number with its key; zero is left out. -/
def numberLen (n : ℕ) : ℕ := if n = 0 then 0 else 1 + varintLen n

/-- The bytes of a message with its key and length. -/
def messageLen (len : ℕ) : ℕ := 1 + varintLen len + len

/-- The bytes of a string; an empty one is left out. -/
def bytesLen (len : ℕ) : ℕ := if len = 0 then 0 else messageLen len

end Protobuf

open Protobuf

def RpcDescriptor.encodedLen (d : RpcDescriptor) : ℕ :=
  bytesLen d.domainName.utf8ByteSize + bytesLen d.protoName.utf8ByteSize +
    bytesLen d.serviceName.utf8ByteSize + numberLen d.methodIndex.toNat

/-- `encoded_len` of a compression info; negative numbers are extended to 64 bits. -/
def RpcCompressionInfo.encodedLen (info : RpcCompressionInfo) : ℕ :=
  numberLen info.algo.toInt64.toUInt64.toNat + numberLen info.acceptedAlgo.toInt64.toUInt64.toNat

def RpcPacket.encodedLen (p : RpcPacket) : ℕ :=
  numberLen p.fromPeer.toNat + numberLen p.toPeer.toNat +
    numberLen p.transactionId.toUInt64.toNat +
    (p.descriptor.elim 0 fun d => messageLen d.encodedLen) + bytesLen p.body.length +
    numberLen p.isRequest.toNat + numberLen p.totalPieces.toNat + numberLen p.pieceIdx.toNat +
    numberLen p.traceId.toInt64.toUInt64.toNat +
    (p.compressionInfo.elim 0 fun info => messageLen info.encodedLen)

/-! ### Cutting a content into pieces -/

/-- What a message is built from. -/
structure BuildRpcPacketArgs where
  fromPeer : PeerId
  toPeer : PeerId
  rpcDesc : RpcDescriptor
  transactionId : Int64
  isReq : Bool
  content : List UInt8
  traceId : Int32
  compressionInfo : RpcCompressionInfo

def rpcPacketUdpPayloadBudget : ℕ := 1300

/-- `TAIL_RESERVED_SIZE`: the tag and the nonce of an encrypted packet. -/
def tailReservedSize : ℕ := 16 + 12

def udpRpcTunnelOverhead : ℕ := ZCPacketType.udp.payloadOffset + tailReservedSize

def maxRpcPacketEncodedLenForUdp : ℕ := rpcPacketUdpPayloadBudget - udpRpcTunnelOverhead

/-- One piece.  Only the first one says how the content is compressed, and the others name the method
for old versions only. -/
def buildRpcPiece (args : BuildRpcPacketArgs) (totalPieces pieceIdx : UInt32) (body : List UInt8) :
    RpcPacket where
  fromPeer := args.fromPeer
  toPeer := args.toPeer
  descriptor :=
    if pieceIdx == 0 || args.compressionInfo.algo == CompressionAlgoPb.none.toInt32 then
      some args.rpcDesc
    else none
  isRequest := args.isReq
  totalPieces := totalPieces
  pieceIdx := pieceIdx
  transactionId := args.transactionId
  body := body
  traceId := args.traceId
  compressionInfo := if pieceIdx == 0 then some args.compressionInfo else none

/-- The bytes of content for the next piece, one at least. -/
def pickPieceLenForBudget (baseEncodedLenWithoutBody remaining maxEncodedLen : ℕ) : ℕ :=
  if remaining = 0 then 0
  else if maxEncodedLen < baseEncodedLenWithoutBody + 3 then 1
  else
    let budget := maxEncodedLen - baseEncodedLenWithoutBody
    let reservedForBodyHeader := 1 + varintLen budget
    max (min remaining (budget - reservedForBodyHeader)) 1

theorem pickPieceLenForBudget_mem (base maxLen : ℕ) {remaining : ℕ} (h : 0 < remaining) :
    0 < pickPieceLenForBudget base remaining maxLen ∧
      pickPieceLenForBudget base remaining maxLen ≤ remaining := by
  unfold pickPieceLenForBudget
  split_ifs with hnone hsmall
  · omega
  · omega
  · exact ⟨lt_max_of_lt_right Nat.one_pos, max_le (min_le_left _ _) h⟩

/-- The pieces from an offset on: offsets and lengths.  `baseLen` is the size of the next piece
without its body, `otherLen` that of the pieces after it. -/
def splitFrom (len maxLen otherLen baseLen offset : ℕ) : List (ℕ × ℕ) :=
  if _h : offset < len then
    let pieceLen := pickPieceLenForBudget baseLen (len - offset) maxLen
    (offset, pieceLen) :: splitFrom len maxLen otherLen otherLen (offset + pieceLen)
  else []
termination_by len - offset
decreasing_by
  have := pickPieceLenForBudget_mem baseLen maxLen (Nat.sub_pos_of_lt ‹offset < len›)
  omega

/-- The pieces of a content, sized by the largest numbers that pieces can have. -/
def splitRpcContentForUdpBudget (args : BuildRpcPacketArgs) : List (ℕ × ℕ) :=
  if args.content.isEmpty then [(0, 0)]
  else
    splitFrom args.content.length (max maxRpcPacketEncodedLenForUdp 1)
      (buildRpcPiece args (.ofNat (2 ^ 32 - 1)) (.ofNat (2 ^ 32 - 1)) []).encodedLen
      (buildRpcPiece args (.ofNat (2 ^ 32 - 1)) 0 []).encodedLen 0

/-- The packets for a content; `encode` is the encoding of a message. -/
def buildRpcPacket (encode : RpcPacket → List UInt8) (args : BuildRpcPacketArgs) :
    Outcome (List Packet) :=
  let pieces := splitRpcContentForUdpBudget args
  let totalPieces := UInt32.ofNat pieces.length
  pieces.zipIdx.mapM fun ((offset, len), pieceIdx) => do
    let body ← slice args.content offset (offset + len)
    let curPacket := buildRpcPiece args totalPieces (.ofNat pieceIdx) body
    let packetType := if args.isReq then PacketType.rpcReq else PacketType.rpcResp
    return fillPeerManagerHdr ⟨default, encode curPacket⟩ args.fromPeer args.toPeer
      packetType.toByte

theorem splitFrom_le {len maxLen otherLen baseLen offset : ℕ} :
    ∀ piece ∈ splitFrom len maxLen otherLen baseLen offset, piece.1 + piece.2 ≤ len := by
  induction baseLen, offset using splitFrom.induct len maxLen otherLen with
  | case1 baseLen offset h pieceLen ih =>
    rw [splitFrom, dif_pos h]
    have hlen := (pickPieceLenForBudget_mem baseLen maxLen (Nat.sub_pos_of_lt h)).2
    refine forall_mem_cons.2 ⟨?_, ih⟩
    dsimp only
    omega
  | case2 baseLen offset h =>
    rw [splitFrom, dif_neg h]
    exact nofun

theorem splitRpcContentForUdpBudget_le (args : BuildRpcPacketArgs) :
    ∀ piece ∈ splitRpcContentForUdpBudget args, piece.1 + piece.2 ≤ args.content.length := by
  unfold splitRpcContentForUdpBudget
  split
  · simp
  · exact splitFrom_le

theorem returns_buildRpcPacket (encode : RpcPacket → List UInt8) (args : BuildRpcPacketArgs) :
    (buildRpcPacket encode args).Returns := by
  refine returns_mapM_iff.2 ?_
  rintro ⟨⟨offset, len⟩, pieceIdx⟩ hmem
  have hle := splitRpcContentForUdpBudget_le args _ (fst_mem_of_mem_zipIdx hmem)
  simp only [slice_eq (Nat.le_add_right offset len) hle, returns_bind, pure_eq, returns_returns]

end PactMesh
