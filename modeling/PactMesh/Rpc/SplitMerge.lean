import PactMesh.Rpc.Packet

/-!
# Splitting and merging

Pieces may arrive in any order and more than once.  A merger keeps each piece in its place, so it
yields the whole packet just when every piece is there, and again at each later duplicate.  A piece
fits the UDP budget, unless its number wraps around to 0.

* `split_merge_inverse` : what a merger yields when it is fed the pieces of a message in any order;
* `rpc_pieces_fit` : the pieces make up the content, and each fits the budget;
* `wrapped_piece_too_long` : one of more than `2 ^ 32` pieces that does not.
-/

namespace PactMesh

open Outcome List Protobuf RpcPacket

/-- The messages in the packets of `build_rpc_packet`. -/
def rpcPieces (args : BuildRpcPacketArgs) : List RpcPacket :=
  let pieces := splitRpcContentForUdpBudget args
  pieces.zipIdx.map fun ((offset, len), pieceIdx) =>
    buildRpcPiece args (.ofNat pieces.length) (.ofNat pieceIdx) ((args.content.drop offset).take len)

/-- Feed the pieces one after another, each at its time; the results. -/
def PacketMerger.feedAll (m : PacketMerger) :
    List (ℕ × RpcPacket) → Outcome (List (Except RpcError (Option RpcPacket)))
  | [] => .returns []
  | (now, p) :: fed => do
    let (m', result) ← m.feed now p
    let results ← m'.feedAll fed
    return result :: results

variable {args : BuildRpcPacketArgs}

theorem buildRpcPacket_eq (encode : RpcPacket → List UInt8) (args : BuildRpcPacketArgs) :
    buildRpcPacket encode args = .returns ((rpcPieces args).map fun p =>
      fillPeerManagerHdr ⟨default, encode p⟩ args.fromPeer args.toPeer
        (if args.isReq then PacketType.rpcReq else PacketType.rpcResp).toByte) := by
  rw [rpcPieces, map_map]
  refine mapM_eq_returns ?_
  rintro ⟨⟨offset, len⟩, pieceIdx⟩ hmem
  have hle := splitRpcContentForUdpBudget_le args _ (fst_mem_of_mem_zipIdx hmem)
  simp [slice_eq (Nat.le_add_right offset len) hle]

theorem flatMap_splitFrom {α : Type} (content : List α) {maxLen otherLen baseLen offset : ℕ} :
    ((splitFrom content.length maxLen otherLen baseLen offset).flatMap fun piece =>
      (content.drop piece.1).take piece.2) = content.drop offset := by
  induction baseLen, offset using splitFrom.induct content.length maxLen otherLen with
  | case1 baseLen offset h pieceLen ih =>
    rw [splitFrom, dif_pos h, flatMap_cons, ih, ← drop_drop]
    exact take_append_drop _ _
  | case2 baseLen offset h =>
    rw [splitFrom, dif_neg h, drop_of_length_le (Nat.le_of_not_lt h)]
    rfl

theorem splitRpcContentForUdpBudget_pos (args : BuildRpcPacketArgs) :
    0 < (splitRpcContentForUdpBudget args).length := by
  unfold splitRpcContentForUdpBudget
  split
  · exact Nat.one_pos
  · next h =>
    rw [splitFrom, dif_pos (length_pos_iff.2 (by simpa using h))]
    exact Nat.succ_pos _

theorem flatMap_rpcPieces (args : BuildRpcPacketArgs) :
    (rpcPieces args).flatMap body = args.content := by
  have hbody : (rpcPieces args).flatMap body =
      (splitRpcContentForUdpBudget args).flatMap fun piece =>
        (args.content.drop piece.1).take piece.2 := by
    conv_rhs => rw [← zipIdx_map_fst 0 (splitRpcContentForUdpBudget args)]
    rw [rpcPieces, flatMap_map, flatMap_map]
    rfl
  rw [hbody, splitRpcContentForUdpBudget]
  split
  · next h => simp [isEmpty_iff.1 h]
  · exact (flatMap_splitFrom args.content).trans drop_zero

theorem length_rpcPieces (args : BuildRpcPacketArgs) :
    (rpcPieces args).length = (splitRpcContentForUdpBudget args).length := by
  simp [rpcPieces]

/-- What piece `i` says of itself. -/
structure IsPiece (args : BuildRpcPacketArgs) (i : ℕ) (p : RpcPacket) : Prop where
  built : ∃ body, p = buildRpcPiece args p.totalPieces p.pieceIdx body
  pieceIdx : p.pieceIdx.toNat = i
  totalPieces : p.totalPieces.toNat = (rpcPieces args).length

variable {p : RpcPacket} {i : ℕ}

theorem isPiece_of_getElem? (hlen : (rpcPieces args).length ≤ 32768)
    (h : (rpcPieces args)[i]? = some p) : IsPiece args i p := by
  have hi := (List.getElem?_eq_some_iff.1 h).1
  obtain ⟨piece, hpiece, rfl⟩ : ∃ piece, (splitRpcContentForUdpBudget args).zipIdx[i]? = some piece ∧
      _ = p := by rwa [rpcPieces, getElem?_map, Option.map_eq_some_iff] at h
  obtain rfl : i = piece.2 := by
    rw [getElem?_zipIdx, Option.map_eq_some_iff] at hpiece
    obtain ⟨_, _, rfl⟩ := hpiece
    exact (Nat.zero_add i).symm
  refine ⟨⟨_, rfl⟩, UInt32.toNat_ofNat_of_lt' ((hi.trans_le hlen).trans (by decide)), ?_⟩
  rw [← length_rpcPieces]
  exact UInt32.toNat_ofNat_of_lt' (hlen.trans_lt (by decide))

section Pieces

variable (h : IsPiece args i p)
include h

theorem IsPiece.descriptor (hzero : p.pieceIdx = 0) : p.descriptor = some args.rpcDesc := by
  obtain ⟨body, hbuilt⟩ := h.built
  rw [hbuilt, hzero]
  rfl

theorem IsPiece.continued {m : PacketMerger} {q : RpcPacket} {j : ℕ} (hq : IsPiece args j q)
    (hfirst : m.firstPiece = some q) : m.continues p = true := by
  obtain ⟨body, hbuilt⟩ := h.built
  obtain ⟨body', hbuilt'⟩ := hq.built
  rw [PacketMerger.continues, hfirst, hbuilt, hbuilt']
  simp [buildRpcPiece]

end Pieces

/-- The places of a merger that was fed the pieces `pre`. -/
def kept (args : BuildRpcPacketArgs) (pre : List RpcPacket) : List RpcPacket :=
  (rpcPieces args).map fun p => if p ∈ pre then p else default

/-- The merger was fed the pieces `pre`. -/
def PacketMerger.Fed (args : BuildRpcPacketArgs) (pre : List RpcPacket) (m : PacketMerger) : Prop :=
  (pre = [] ∧ m.firstPiece = none) ∨
    (∃ i first, IsPiece args i first ∧ m.firstPiece = some first) ∧ m.pieces = kept args pre

section Merging

variable {pre : List RpcPacket} {m : PacketMerger}
  (hlen : (rpcPieces args).length ≤ 32768)
include hlen

theorem set_kept (hp : (rpcPieces args)[i]? = some p) :
    (kept args pre).set i p = kept args (pre ++ [p]) := by
  refine ext_getElem? fun j => ?_
  simp only [kept, getElem?_set, getElem?_map, length_map, mem_append, mem_singleton]
  by_cases hij : i = j
  · subst hij
    obtain ⟨hi, rfl⟩ := List.getElem?_eq_some_iff.1 hp
    simp [hi]
  · cases hq : (rpcPieces args)[j]? with
    | none => simp [hij]
    | some q =>
      -- pieces at different places have different indices
      have hne : q ≠ p := by
        rintro rfl
        exact hij ((isPiece_of_getElem? hlen hp).pieceIdx.symm.trans
          (isPiece_of_getElem? hlen hq).pieceIdx)
      simp [hij, hne]

omit hlen in
theorem resize_restart (hm : m.Fed args pre) (hp : IsPiece args i p) :
    PacketMerger.resize p.totalPieces.toNat (m.restart p).pieces = kept args pre := by
  rw [hp.totalPieces]
  rcases hm with ⟨rfl, hnone⟩ | ⟨⟨j, first, hfirst, hsome⟩, hpieces⟩
  · have hnew : (m.restart p).pieces = [] := by
      simp [PacketMerger.restart, PacketMerger.continues, hnone]
    simp [hnew, PacketMerger.resize, kept]
  · rw [PacketMerger.restart, if_pos (hp.continued hfirst hsome), hpieces]
    simp [PacketMerger.resize, kept]

theorem tryMergePieces_of_kept (hfirst : m.firstPiece ≠ none) (hpieces : m.pieces = kept args pre) :
    m.tryMergePieces = .returns (if ∀ p ∈ rpcPieces args, p ∈ pre then
      some (buildRpcPiece args 1 0 args.content) else none) := by
  have hpos : 0 < (rpcPieces args).length := by
    rw [length_rpcPieces]
    exact splitRpcContentForUdpBudget_pos args
  have hsome : (m.firstPiece.isNone || m.pieces.isEmpty) = false := by
    rw [Bool.or_eq_false_iff, hpieces]
    exact ⟨Option.isNone_eq_false_iff.2 (Option.isSome_iff_ne_none.2 hfirst),
      by simpa [kept] using ne_nil_of_length_pos hpos⟩
  rw [PacketMerger.tryMergePieces, hsome, if_neg Bool.false_ne_true]
  split_ifs with hmissing hall hall
  · -- a place that is still empty belongs to a piece that was not fed
    rw [hpieces, kept, any_map, any_eq_true] at hmissing
    obtain ⟨p, hp, hzero⟩ := hmissing
    obtain ⟨i, hi⟩ := getElem?_of_mem hp
    rw [Function.comp_apply, if_pos (hall p hp), beq_iff_eq] at hzero
    have htotal := (isPiece_of_getElem? hlen hi).totalPieces
    rw [hzero] at htotal
    exact absurd htotal hpos.ne
  · rfl
  · have hwhole : m.pieces = rpcPieces args := by
      rw [hpieces, kept, map_congr_left fun p hp => if_pos (hall p hp), map_id']
    obtain ⟨body, hbuilt⟩ := (isPiece_of_getElem? hlen (getElem?_eq_getElem hpos)).built
    have hidx : ((rpcPieces args)[0]).pieceIdx = 0 :=
      UInt32.toNat_inj.1 (isPiece_of_getElem? hlen (getElem?_eq_getElem hpos)).pieceIdx
    rw [hwhole, index, getElem?_eq_getElem hpos, flatMap_rpcPieces, hbuilt, hidx]
    rfl
  · refine absurd ?_ hmissing
    obtain ⟨p, hp, hnot⟩ : ∃ p ∈ rpcPieces args, p ∉ pre := by simpa using hall
    rw [hpieces, kept, any_map]
    refine any_eq_true.2 ⟨p, hp, ?_⟩
    rw [Function.comp_apply, if_neg hnot]
    rfl

/-- **One piece**: it takes its place, and the result is the whole packet if every place is taken. -/
theorem PacketMerger.Fed.feed (hm : m.Fed args pre) (now : ℕ) (hp : p ∈ rpcPieces args) :
    ∃ m' : PacketMerger, m'.Fed args (pre ++ [p]) ∧
      m.feed now p = .returns (m', .ok (if ∀ q ∈ rpcPieces args, q ∈ pre ++ [p] then
        some (buildRpcPiece args 1 0 args.content) else none)) := by
  obtain ⟨i, hi⟩ := getElem?_of_mem hp
  have hpiece := isPiece_of_getElem? hlen hi
  have hlt : p.pieceIdx < p.totalPieces := by
    rw [UInt32.lt_iff_toNat_lt, hpiece.pieceIdx, hpiece.totalPieces]
    exact (List.getElem?_eq_some_iff.1 hi).1
  have hzero : p.totalPieces ≠ 0 := fun h => by simp [h] at hlt
  have hmax : p.totalPieces ≤ 32 * 1024 := by
    rw [UInt32.le_iff_toNat_le, hpiece.totalPieces]
    exact hlen
  obtain ⟨j, first, hfirst, hcont⟩ : ∃ j first, IsPiece args j first ∧
      (m.restart p).firstPiece = some first := by
    rcases hm with ⟨rfl, hnone⟩ | ⟨⟨j, first, hfirst, hsome⟩, -⟩
    · exact ⟨i, p, hpiece, by simp [PacketMerger.restart, PacketMerger.continues, hnone]⟩
    · exact ⟨j, first, hfirst, by rw [restart, if_pos (hpiece.continued hfirst hsome), hsome]⟩
  have hstore : (m.restart p).store now p = .returns
      { m.restart p with pieces := kept args (pre ++ [p]), lastUpdated := now } := by
    rw [store, resize_restart hm hpiece, setIndex, hpiece.pieceIdx, set_kept hlen hi, if_pos]
    · rfl
    · simpa [kept] using (List.getElem?_eq_some_iff.1 hi).1
  refine ⟨{ m.restart p with pieces := kept args (pre ++ [p]), lastUpdated := now },
    .inr ⟨⟨j, first, hfirst, hcont⟩, rfl⟩, ?_⟩
  rw [PacketMerger.feed, if_neg (by simp [isUnnumbered, hzero]), if_neg, if_neg,
    if_neg (UInt32.not_le.2 hlt), hstore, returns_bind,
    tryMergePieces_of_kept hlen (by simp [hcont]) rfl]
  · rfl
  · simpa [hzero] using hmax
  · rw [Bool.and_eq_true, beq_iff_eq]
    rintro ⟨hidx, hnone⟩
    simp [hpiece.descriptor hidx] at hnone

/-- **Any order, with duplicates**: what feeding pieces after `pre` yields. -/
theorem PacketMerger.Fed.feedAll (hm : m.Fed args pre) (fed : List (ℕ × RpcPacket))
    (hfed : ∀ x ∈ fed, x.2 ∈ rpcPieces args) :
    m.feedAll fed = .returns (fed.inits.tail.map fun fed' => .ok
      (if ∀ q ∈ rpcPieces args, q ∈ pre ++ fed'.map Prod.snd then
        some (buildRpcPiece args 1 0 args.content) else none)) := by
  induction fed generalizing pre m with
  | nil => rfl
  | cons x fed ih =>
    obtain ⟨hx, hfed⟩ := forall_mem_cons.1 hfed
    obtain ⟨m', hm', hfeed⟩ := hm.feed hlen x.1 hx
    rw [PacketMerger.feedAll, hfeed, returns_bind]
    dsimp only
    have hinits : (x :: fed).inits.tail = [x] :: fed.inits.tail.map (x :: ·) := by
      cases fed <;> simp
    simp only [ih hm' hfed, returns_bind, hinits, map_cons, map_map, append_assoc]
    rfl

end Merging

/-- **Splitting and merging are inverse**: each result is `None` until every packet was fed, and from
then on the message with the content and what the arguments say. -/
theorem split_merge_inverse (encode : RpcPacket → List UInt8) (decode : List UInt8 → Option RpcPacket)
    (args : BuildRpcPacketArgs) (hcodec : ∀ p ∈ rpcPieces args, decode (encode p) = some p)
    (hlen : (splitRpcContentForUdpBudget args).length ≤ 32768) :
    ∃ packets whole, buildRpcPacket encode args = .returns packets ∧
      whole.body = args.content ∧ whole.descriptor = some args.rpcDesc ∧
      whole.transactionId = args.transactionId ∧ whole.compressionInfo = some args.compressionInfo ∧
      ∀ (start : ℕ) (fed : List (ℕ × RpcPacket)),
        (∀ x ∈ fed, ∃ packet ∈ packets, decode packet.payload = some x.2) →
        (PacketMerger.new start).feedAll fed = .returns (fed.inits.tail.map fun fed' => .ok
          (if ∀ packet ∈ packets, ∃ x ∈ fed', decode packet.payload = some x.2 then some whole
          else none)) := by
  refine ⟨_, buildRpcPiece args 1 0 args.content, buildRpcPacket_eq encode args, rfl, rfl, rfl, rfl,
    fun start fed hfed => ?_⟩
  have hpayload : ∀ p ∈ rpcPieces args, ∀ q, decode (encode p) = some q ↔ p = q := by
    intro p hp q
    rw [hcodec p hp, Option.some_inj]
  have hmem : ∀ x ∈ fed, x.2 ∈ rpcPieces args := by
    intro x hx
    obtain ⟨_, hpacket, hx⟩ := hfed x hx
    obtain ⟨p, hp, rfl⟩ := mem_map.1 hpacket
    exact (hpayload p hp x.2).1 hx ▸ hp
  rw [PacketMerger.Fed.feedAll (length_rpcPieces args ▸ hlen) (.inl ⟨rfl, rfl⟩) fed hmem]
  congr 2
  funext fed'
  congr 2
  rw [forall_mem_map]
  refine propext (forall₂_congr fun p hp => ?_)
  simp [fillPeerManagerHdr, hpayload p hp]

/-! ### A message of two pieces -/

def sampleArgs : BuildRpcPacketArgs := ⟨1, 2, default, 3, true, replicate 1300 7, 0, ⟨1, 1⟩⟩

def firstPiece : RpcPacket := buildRpcPiece sampleArgs 2 0 (replicate 1223 7)

def secondPiece : RpcPacket := buildRpcPiece sampleArgs 2 1 (replicate 77 7)

/-- The protobuf encoding of the two pieces. -/
def encodeSample (p : RpcPacket) : List UInt8 :=
  let bodyLen := if p.pieceIdx = 0 then [0xc7, 9] else [77]
  let pieceIdx := if p.pieceIdx = 0 then [0x52, 4, 8, 1, 0x10, 1] else [0x40, 1]
  [8, 1, 0x10, 2, 0x18, 3, 0x22, 0, 0x2a] ++ bodyLen ++ p.body ++ [0x30, 1, 0x38, 2] ++ pieceIdx

def decodeSample (bytes : List UInt8) : Option RpcPacket :=
  [firstPiece, secondPiece].find? fun p => encodeSample p = bytes

theorem split_sampleArgs : splitRpcContentForUdpBudget sampleArgs = [(0, 1223), (1223, 77)] := by
  have hpick : ∀ r, pickPieceLenForBudget 22 r 1248 = if r = 0 then 0 else max (min r 1223) 1 := by
    have hvarint : varintLen 1226 = 2 := by decide
    intro r
    simp [pickPieceLenForBudget, hvarint]
  have hlen : sampleArgs.content.length = 1300 := length_replicate
  have hbase : (buildRpcPiece sampleArgs (.ofNat (2 ^ 32 - 1)) 0 []).encodedLen = 22 := by decide
  have hother : (buildRpcPiece sampleArgs (.ofNat (2 ^ 32 - 1)) (.ofNat (2 ^ 32 - 1))
    []).encodedLen = 22 := by decide
  have hmax : max maxRpcPacketEncodedLenForUdp 1 = 1248 := rfl
  rw [splitRpcContentForUdpBudget, if_neg (by decide), hlen, hbase, hother, hmax]
  simp [splitFrom, hpick]

theorem rpcPieces_sampleArgs : rpcPieces sampleArgs = [firstPiece, secondPiece] := by
  rw [rpcPieces, split_sampleArgs]
  decide +kernel

/-- The second piece comes first, and once more at the end. -/
def outOfOrder : List (ℕ × RpcPacket) := [(5, secondPiece), (6, firstPiece), (7, secondPiece)]

theorem two_pieces_out_of_order :
    ∃ packets whole, buildRpcPacket encodeSample sampleArgs = .returns packets ∧
      whole.body = replicate 1300 7 ∧ whole.compressionInfo = some ⟨1, 1⟩ ∧
      (PacketMerger.new 0).feedAll outOfOrder =
        .returns [.ok none, .ok (some whole), .ok (some whole)] := by
  obtain ⟨packets, whole, hbuild, hbody, -, -, hinfo, hfeed⟩ := split_merge_inverse encodeSample
    decodeSample sampleArgs (by rw [rpcPieces_sampleArgs]; decide +kernel)
    (by rw [split_sampleArgs]; decide)
  have hpackets := Outcome.returns.inj ((buildRpcPacket_eq encodeSample sampleArgs).symm.trans hbuild)
  rw [rpcPieces_sampleArgs] at hpackets
  refine ⟨packets, whole, hbuild, hbody, hinfo, ?_⟩
  have hfed : ∀ x ∈ outOfOrder, ∃ packet ∈ packets, decodeSample packet.payload = some x.2 := by
    rw [← hpackets]
    decide +kernel
  have hcomplete : outOfOrder.inits.tail.map (fun fed => decide (∀ packet ∈ packets, ∃ x ∈ fed,
      decodeSample packet.payload = some x.2)) = [false, true, true] := by
    rw [← hpackets]
    decide +kernel
  have hresults := congrArg (map fun complete : Bool =>
    (.ok (if complete then some whole else none) : Except RpcError (Option RpcPacket))) hcomplete
  rw [map_map] at hresults
  rw [hfeed 0 outOfOrder hfed]
  refine congrArg _ (Eq.trans ?_ hresults)
  simp only [Function.comp_def, decide_eq_true_eq]

/-- **A late duplicate yields the message again.** -/
theorem duplicate_yields_again :
    rpcPieces sampleArgs = [firstPiece, secondPiece] ∧ ∃ whole,
      (PacketMerger.new 0).feedAll [(5, firstPiece), (6, secondPiece), (7, firstPiece)] =
        .returns [.ok none, .ok (some whole), .ok (some whole)] :=
  ⟨rpcPieces_sampleArgs, buildRpcPiece sampleArgs 1 0 (replicate 1300 7), by decide +kernel⟩

/-- The size of a piece without its body. -/
def BuildRpcPacketArgs.baseLen (args : BuildRpcPacketArgs) (totalPieces pieceIdx : UInt32) : ℕ :=
  (buildRpcPiece args totalPieces pieceIdx []).encodedLen

/-- The metadata leaves room for a body, in the first piece and in the others. -/
def BuildRpcPacketArgs.LeavesRoom (args : BuildRpcPacketArgs) : Prop :=
  args.baseLen (.ofNat (2 ^ 32 - 1)) 0 + 3 ≤ maxRpcPacketEncodedLenForUdp ∧
    args.baseLen (.ofNat (2 ^ 32 - 1)) (.ofNat (2 ^ 32 - 1)) + 3 ≤ maxRpcPacketEncodedLenForUdp

theorem numberLen_mono {m n : ℕ} (h : m ≤ n) : numberLen m ≤ numberLen n := by
  have hlog : Nat.log 128 m ≤ Nat.log 128 n := Nat.log_mono_right h
  unfold numberLen varintLen
  split_ifs <;> omega

theorem baseLen_mono {totalPieces maxPieces pieceIdx maxIdx : UInt32}
    (htotal : totalPieces.toNat ≤ maxPieces.toNat) (hidx : pieceIdx.toNat ≤ maxIdx.toNat)
    (hzero : pieceIdx = 0 ↔ maxIdx = 0) :
    args.baseLen totalPieces pieceIdx ≤ args.baseLen maxPieces maxIdx := by
  have hbeq : (pieceIdx == 0) = (maxIdx == 0) := by
    rw [Bool.eq_iff_iff, beq_iff_eq, beq_iff_eq, hzero]
  have hnumbers := Nat.add_le_add (numberLen_mono htotal) (numberLen_mono hidx)
  simp only [BuildRpcPacketArgs.baseLen, encodedLen, buildRpcPiece, hbeq]
  omega

theorem bytesLen_pickPieceLenForBudget {base maxLen : ℕ} (remaining : ℕ) (h : base + 3 ≤ maxLen) :
    base + bytesLen (pickPieceLenForBudget base remaining maxLen) ≤ maxLen := by
  set len := pickPieceLenForBudget base remaining maxLen with hpick
  rw [pickPieceLenForBudget, if_neg h.not_gt] at hpick
  dsimp only at hpick
  -- a body of one byte fits, and a longer one has the reserved room
  have hone : len ≤ 1 → Nat.log 128 len = 0 := fun h => Nat.log_of_lt (by omega)
  have hlog : len ≤ maxLen - base → Nat.log 128 len ≤ Nat.log 128 (maxLen - base) :=
    Nat.log_mono_right
  unfold bytesLen messageLen varintLen at *
  split_ifs at hpick ⊢ <;> omega

theorem splitFrom_fits {len maxLen otherLen baseLen offset : ℕ} (hother : otherLen + 3 ≤ maxLen)
    (hbase : baseLen + 3 ≤ maxLen) : ∀ i piece,
      (splitFrom len maxLen otherLen baseLen offset)[i]? = some piece →
        (if i = 0 then baseLen else otherLen) + bytesLen piece.2 ≤ maxLen := by
  induction baseLen, offset using splitFrom.induct len maxLen otherLen with
  | case1 baseLen offset h pieceLen ih =>
    rw [splitFrom, dif_pos h]
    rintro (_ | i) piece hpiece
    · cases hpiece
      exact bytesLen_pickPieceLenForBudget _ hbase
    · simpa using ih hother i piece hpiece
  | case2 baseLen offset h =>
    simp [splitFrom, h]

theorem forall_encodedLen_le_iff {n : ℕ} :
    (∀ p ∈ rpcPieces args, p.encodedLen ≤ n) ↔
      ∀ i piece, (splitRpcContentForUdpBudget args)[i]? = some piece →
        args.baseLen (.ofNat (splitRpcContentForUdpBudget args).length) (.ofNat i) +
          bytesLen piece.2 ≤ n := by
  rw [rpcPieces, forall_mem_map, Prod.forall, forall_comm]
  refine forall₂_congr fun i piece => ?_
  rw [mk_mem_zipIdx_iff_getElem?]
  refine forall_congr' fun hpiece => ?_
  have hle := splitRpcContentForUdpBudget_le args piece (mem_of_getElem? hpiece)
  have hlen : ((args.content.drop piece.1).take piece.2).length = piece.2 := by
    rw [length_take, length_drop, min_eq_left (by omega)]
  simp only [BuildRpcPacketArgs.baseLen, encodedLen, buildRpcPiece, hlen]
  simp only [bytesLen, length_nil, if_true]
  rw [iff_eq_eq]
  congr 1
  omega

/-- **Pieces fit the UDP budget**, as long as there are no more than their numbers can tell apart. -/
theorem rpc_pieces_fit (encode : RpcPacket → List UInt8) (args : BuildRpcPacketArgs)
    (hroom : args.LeavesRoom) (hlen : (splitRpcContentForUdpBudget args).length ≤ 2 ^ 32) :
    (∃ packets, buildRpcPacket encode args = .returns packets ∧
      packets.map Packet.payload = (rpcPieces args).map encode) ∧
    (rpcPieces args).flatMap body = args.content ∧
    ∀ p ∈ rpcPieces args, p.encodedLen ≤ maxRpcPacketEncodedLenForUdp := by
  refine ⟨⟨_, buildRpcPacket_eq encode args, by simp [fillPeerManagerHdr]⟩, flatMap_rpcPieces args,
    forall_encodedLen_le_iff.2 fun i piece hpiece => ?_⟩
  have hi := (List.getElem?_eq_some_iff.1 hpiece).1
  have hfits : (if i = 0 then args.baseLen (.ofNat (2 ^ 32 - 1)) 0 else
      args.baseLen (.ofNat (2 ^ 32 - 1)) (.ofNat (2 ^ 32 - 1))) + bytesLen piece.2 ≤
        maxRpcPacketEncodedLenForUdp := by
    unfold splitRpcContentForUdpBudget at hpiece
    split at hpiece
    · obtain ⟨rfl, rfl⟩ : i = 0 ∧ (0, 0) = piece := by simpa [getElem?_singleton] using hpiece
      exact (Nat.le_add_right _ 3).trans hroom.1
    · exact splitFrom_fits hroom.2 hroom.1 i piece hpiece
  have hmax := fun n : UInt32 => Nat.le_sub_one_of_lt n.toNat_lt
  refine (Nat.add_le_add_right ?_ _).trans hfits
  split_ifs with hzero
  · exact hzero ▸ baseLen_mono (hmax _) le_rfl Iff.rfl
  · -- the number of a later piece is not that of the first
    have hne : UInt32.ofNat i ≠ 0 := by
      rw [Ne, ← UInt32.toNat_inj, UInt32.toNat_ofNat_of_lt' (hi.trans_le hlen)]
      exact hzero
    exact baseLen_mono (hmax _) (hmax _) (iff_of_false hne (by decide))

theorem sample_pieces_fit : sampleArgs.LeavesRoom ∧
    ∀ p ∈ rpcPieces sampleArgs, p.encodedLen ≤ maxRpcPacketEncodedLenForUdp := by
  have hroom : sampleArgs.LeavesRoom := ⟨by decide, by decide⟩
  exact ⟨hroom, (rpc_pieces_fit encodeSample sampleArgs hroom
    (by rw [split_sampleArgs]; decide)).2.2⟩

theorem exists_getElem?_splitFrom {len maxLen otherLen size : ℕ} (hpos : 0 < size)
    (hsize : ∀ r, size ≤ r → pickPieceLenForBudget otherLen r maxLen = size) (k : ℕ) :
    ∀ offset, offset + (k + 1) * size ≤ len →
      ∃ start, (splitFrom len maxLen otherLen otherLen offset)[k]? = some (start, size) := by
  induction k with
  | zero =>
    intro offset h
    rw [splitFrom, dif_pos (by omega), hsize _ (by omega)]
    exact ⟨offset, rfl⟩
  | succ k ih =>
    intro offset h
    rw [Nat.succ_mul] at h
    rw [splitFrom, dif_pos (by omega), hsize _ (by omega)]
    exact ih (offset + size) (by omega)

def zstdArgs (content : List UInt8) : BuildRpcPacketArgs :=
  ⟨1, 2, ⟨"", "", "PeerCenterRpc", 1⟩, 3, true, content, 0, ⟨2, 2⟩⟩

/-- **A content of more than `2 ^ 32` pieces** has one that does not fit. -/
theorem wrapped_piece_too_long :
    ∃ args : BuildRpcPacketArgs, args.LeavesRoom ∧
      ¬ ∀ p ∈ rpcPieces args, p.encodedLen ≤ maxRpcPacketEncodedLenForUdp := by
  obtain ⟨content, hcontent⟩ : ∃ content : List UInt8, content.length = 2 ^ 43 :=
    ⟨_, length_replicate (a := 0)⟩
  have hroom : (zstdArgs []).LeavesRoom := ⟨by decide, by decide⟩
  refine ⟨zstdArgs content, hroom, fun h => ?_⟩
  have hsize : ∀ r, 1225 ≤ r → pickPieceLenForBudget 20 r 1248 = 1225 := by
    intro r hr
    have hvarint : varintLen 1228 = 2 := by decide
    unfold pickPieceLenForBudget
    dsimp only
    rw [hvarint]
    split_ifs <;> omega
  have hfirst : ∀ base r, pickPieceLenForBudget base r 1248 ≤ 1248 := by
    intro base r
    unfold pickPieceLenForBudget
    dsimp only
    split_ifs <;> omega
  obtain ⟨start, hpiece⟩ : ∃ start,
      (splitRpcContentForUdpBudget (zstdArgs content))[2 ^ 32 - 1 + 1]? = some (start, 1225) := by
    have hlen : (zstdArgs content).content.length = 2 ^ 43 := hcontent
    have hother : (buildRpcPiece (zstdArgs content) (.ofNat (2 ^ 32 - 1)) (.ofNat (2 ^ 32 - 1))
        []).encodedLen = 20 := show (zstdArgs []).baseLen _ _ = 20 by decide
    have hmax : max maxRpcPacketEncodedLenForUdp 1 = 1248 := rfl
    rw [splitRpcContentForUdpBudget, if_neg (by rw [isEmpty_iff_length_eq_zero, hlen]; decide), hlen,
      hother, hmax, splitFrom, dif_pos (Nat.two_pow_pos 43), getElem?_cons_succ]
    refine exists_getElem?_splitFrom (by decide) hsize _ _ ?_
    exact (Nat.add_le_add_right ((Nat.zero_add _).trans_le (hfirst _ _)) _).trans (by decide)
  have hlen := forall_encodedLen_le_iff.1 h _ _ hpiece
  have hmin : (zstdArgs []).baseLen 0 0 + bytesLen 1225 ≤ 1248 :=
    (Nat.add_le_add_right (baseLen_mono (Nat.zero_le _) le_rfl Iff.rfl) _).trans hlen
  exact absurd hmin (by decide)

end PactMesh
