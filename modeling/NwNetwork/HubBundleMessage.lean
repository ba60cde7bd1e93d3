import NwNetwork.HubSequenceNumber
import NwNetwork.HubStateRecord
import NwNetwork.VlqMarshaler

namespace NwNetwork.Hub
open WireReader Serialize

def maxReplicationControlIds : Nat := 100

-- Every length it is asked for is capped far below what a u32 holds.
def cappedLenU32 (len : Nat) : BitVec 32 := BitVec.ofNat 32 len

def vlqU32Len (value : BitVec 32) : Nat :=
  if value < 0x80 then 1
  else if value < 0x4000 then 2
  else if value < 0x200000 then 3
  else if value < 0x10000000 then 4
  else 5

def vlqU64Len (value : BitVec 64) : Nat :=
  if value < 0x80 then 1
  else if value < 0x4000 then 2
  else if value < 0x200000 then 3
  else if value < 0x10000000 then 4
  else if value < 0x0000000008000000 then 5
  else if value < 0x0000040000000000 then 6
  else if value < 0x0002000000000000 then 7
  else if value < 0x0100000000000000 then 8
  else 9

def sequenceNumberWireLen : SequenceNumber → Nat
  | .invalid => 1
  | .validNonSequence => 1 + vlqU64Len 0
  | .seq sequence => 1 + vlqU64Len sequence

def readRaw : Read Bool := do
  let value ← readU8
  if value = 0 then pure false
  else if value = 1 then pure true
  else Reader.fail (.invalidDiscriminant value)

def writeRaw (value : Bool) : Bytes := writeU8 (if value then 1 else 0)

theorem raw_back (value : Bool) : ReadsBack writeRaw readRaw value := by
  intro rest
  cases value with
  | false => rfl
  | true => rfl

-- The stop ids come first; the fields are private to the source, so that every
-- value there is comes from the operations below.
structure ReplicationControlData where
  pauseStartIdx : BitVec 32
  interestIds : List (BitVec 16)
  capped : interestIds.length ≤ maxReplicationControlIds
  split : pauseStartIdx.toNat ≤ interestIds.length
  deriving DecidableEq

namespace ReplicationControlData

def len (control : ReplicationControlData) : Nat := control.interestIds.length

def pauseStart (control : ReplicationControlData) : Nat := control.pauseStartIdx.toNat

def stopReplicationIds (control : ReplicationControlData) : List (BitVec 16) :=
  control.interestIds.take control.pauseStart

def pauseReplicationIds (control : ReplicationControlData) : List (BitVec 16) :=
  control.interestIds.drop control.pauseStart

theorem none_capped : ([] : List (BitVec 16)).length ≤ maxReplicationControlIds := Nat.zero_le _

theorem none_split : (0 : BitVec 32).toNat ≤ ([] : List (BitVec 16)).length := Nat.le_refl _

def default : ReplicationControlData := ⟨0,[],none_capped,none_split⟩

theorem both_capped {stop_replication_ids pause_replication_ids : List (BitVec 16)}
    (room : ¬stop_replication_ids.length + pause_replication_ids.length > maxReplicationControlIds) :
    (stop_replication_ids ++ pause_replication_ids).length ≤ maxReplicationControlIds := by
  rw [List.length_append]
  exact Nat.le_of_not_lt room

theorem both_split (stop_replication_ids pause_replication_ids : List (BitVec 16)) :
    (cappedLenU32 stop_replication_ids.length).toNat ≤ (stop_replication_ids ++ pause_replication_ids).length := by
  rw [List.length_append,cappedLenU32,BitVec.toNat_ofNat]
  exact Nat.le_trans (Nat.mod_le _ _) (Nat.le_add_right _ _)

def fromIds (stop_replication_ids pause_replication_ids : List (BitVec 16)) :
    Except MarshalerError ReplicationControlData :=
  let len := stop_replication_ids.length + pause_replication_ids.length
  if room : len > maxReplicationControlIds then .error (.containerOverflow len maxReplicationControlIds)
  else .ok ⟨cappedLenU32 stop_replication_ids.length,stop_replication_ids ++ pause_replication_ids,
    both_capped room,both_split _ _⟩

section Push
variable {control : ReplicationControlData}

theorem push_room (free : control.interestIds.length ≠ maxReplicationControlIds) :
    control.interestIds.length + 1 ≤ maxReplicationControlIds := by
  have capped := control.capped
  omega

theorem next_start (free : control.interestIds.length ≠ maxReplicationControlIds) :
    (control.pauseStartIdx + 1).toNat = control.pauseStart + 1 := by
  have room := push_room free
  have split := control.split
  unfold maxReplicationControlIds at room
  unfold pauseStart
  rw [BitVec.toNat_add]
  exact Nat.mod_eq_of_lt (by simp; omega)

theorem inserted_length (control : ReplicationControlData) (interest_id : BitVec 16) :
    (control.interestIds.insertIdx control.pauseStart interest_id).length = control.interestIds.length + 1 :=
  List.length_insertIdx_of_le_length control.split _

theorem stop_capped (free : control.interestIds.length ≠ maxReplicationControlIds) (interest_id : BitVec 16) :
    (control.interestIds.insertIdx control.pauseStart interest_id).length ≤ maxReplicationControlIds := by
  rw [inserted_length]
  exact push_room free

theorem stop_split (free : control.interestIds.length ≠ maxReplicationControlIds) (interest_id : BitVec 16) :
    (control.pauseStartIdx + 1).toNat ≤ (control.interestIds.insertIdx control.pauseStart interest_id).length := by
  rw [next_start free,inserted_length]
  exact Nat.succ_le_succ control.split

theorem pause_capped (free : control.interestIds.length ≠ maxReplicationControlIds) (interest_id : BitVec 16) :
    (control.interestIds ++ [interest_id]).length ≤ maxReplicationControlIds := by
  rw [List.length_append]
  exact push_room free

theorem pause_split (interest_id : BitVec 16) :
    control.pauseStartIdx.toNat ≤ (control.interestIds ++ [interest_id]).length := by
  rw [List.length_append]
  exact Nat.le_trans control.split (Nat.le_add_right _ _)

end Push
def pushStopReplicationId (control : ReplicationControlData) (interest_id : BitVec 16) :
    Except MarshalerError ReplicationControlData :=
  if free : control.interestIds.length ≠ maxReplicationControlIds then
    .ok ⟨control.pauseStartIdx + 1,control.interestIds.insertIdx control.pauseStart interest_id,
      stop_capped free interest_id,stop_split free interest_id⟩
  else .error (.containerOverflow (control.interestIds.length + 1) maxReplicationControlIds)

def pushPauseReplicationId (control : ReplicationControlData) (interest_id : BitVec 16) :
    Except MarshalerError ReplicationControlData :=
  if free : control.interestIds.length ≠ maxReplicationControlIds then
    .ok ⟨control.pauseStartIdx,control.interestIds ++ [interest_id],
      pause_capped free interest_id,pause_split interest_id⟩
  else .error (.containerOverflow (control.interestIds.length + 1) maxReplicationControlIds)

def reset (_ : ReplicationControlData) : ReplicationControlData := default

section Remove
variable {control : ReplicationControlData}

theorem found_stop (found : control.stopReplicationIds.findIdx? (· == interest_id) = some idx) :
    idx < control.pauseStart ∧ idx < control.interestIds.length := by
  obtain ⟨within,_⟩ := List.findIdx?_eq_some_iff_findIdx_eq.mp found
  unfold stopReplicationIds at within
  rw [List.length_take] at within
  omega

theorem removed_capped (control : ReplicationControlData) (idx : Nat) :
    (control.interestIds.eraseIdx idx).length ≤ maxReplicationControlIds :=
  Nat.le_trans (List.length_eraseIdx_le _ _) control.capped

theorem removed_split (found : control.stopReplicationIds.findIdx? (· == interest_id) = some idx) :
    (control.pauseStartIdx - 1).toNat ≤ (control.interestIds.eraseIdx idx).length := by
  obtain ⟨stop,within⟩ := found_stop found
  have split := control.split
  have capped := control.capped
  unfold pauseStart at stop
  unfold maxReplicationControlIds at capped
  rw [List.length_eraseIdx_of_lt within]
  bv_omega

end Remove
def removePendingStopId (control : ReplicationControlData) (interest_id : BitVec 16) : Bool × ReplicationControlData :=
  match found : control.stopReplicationIds.findIdx? (· == interest_id) with
  | none => (false,control)
  | some idx => (true,⟨control.pauseStartIdx - 1,control.interestIds.eraseIdx idx,removed_capped control idx,
    removed_split found⟩)

-- Any control data is what the ids of its two parts give.
theorem from_own_ids (control : ReplicationControlData) :
    fromIds control.stopReplicationIds control.pauseReplicationIds = .ok control := by
  have within : control.pauseStart ≤ control.interestIds.length := control.split
  have stops : control.stopReplicationIds.length = control.pauseStart := by
    unfold stopReplicationIds
    rw [List.length_take,Nat.min_eq_left within]
  have pauses : control.pauseReplicationIds.length = control.interestIds.length - control.pauseStart := List.length_drop
  have room : ¬control.stopReplicationIds.length + control.pauseReplicationIds.length > maxReplicationControlIds := by
    have capped := control.capped
    omega
  have start : cappedLenU32 control.stopReplicationIds.length = control.pauseStartIdx := by
    rw [stops]
    exact BitVec.ofNat_toNat _ _
  have ids : control.stopReplicationIds ++ control.pauseReplicationIds = control.interestIds :=
    List.take_append_drop _ _
  unfold fromIds
  rw [dif_neg room]
  simp only [start,ids]

def marshal (control : ReplicationControlData) : Bytes :=
  writeU8 (UInt8.ofNat control.interestIds.length) ++ writeU8 (UInt8.ofNat control.pauseStartIdx.toNat) ++
    control.interestIds.flatMap writeU16

theorem no_ids : ([] : List (BitVec 16)).length = 0 := rfl

theorem one_more_id (interest_id : BitVec 16) (sized : interest_ids.length = count) :
    (interest_id :: interest_ids).length = count + 1 := congrArg (· + 1) sized

def readInterestIds : (len : Nat) → Read {interest_ids : List (BitVec 16) // interest_ids.length = len}
  | 0 => pure ⟨[],no_ids⟩
  | len+1 => do
    let interest_id ← readU16
    let interest_ids ← readInterestIds len
    pure ⟨interest_id :: interest_ids.val,one_more_id interest_id interest_ids.property⟩

section Checked
variable {len pause_start_idx : UInt8}

theorem read_capped (room : ¬len.toNat > maxReplicationControlIds)
    (interest_ids : {ids : List (BitVec 16) // ids.length = len.toNat}) :
    interest_ids.val.length ≤ maxReplicationControlIds := by
  rw [interest_ids.property]
  exact Nat.le_of_not_lt room

theorem read_split (within : ¬pause_start_idx.toNat > len.toNat)
    (interest_ids : {ids : List (BitVec 16) // ids.length = len.toNat}) :
    (pause_start_idx.toBitVec.setWidth 32).toNat ≤ interest_ids.val.length := by
  rw [interest_ids.property,BitVec.toNat_setWidth_of_le (by decide)]
  exact Nat.le_of_not_lt within

end Checked
def unmarshal : Read ReplicationControlData := do
  let len ← readU8
  if room : len.toNat > maxReplicationControlIds then
    Reader.fail (.containerOverflow len.toNat maxReplicationControlIds)
  else
    let pause_start_idx ← readU8
    if within : pause_start_idx.toNat > len.toNat then
      Reader.fail (.invalidRange pause_start_idx.toNat 0 len.toNat)
    else
      let interest_ids ← readInterestIds len.toNat
      pure ⟨pause_start_idx.toBitVec.setWidth 32,interest_ids.val,read_capped room interest_ids,
        read_split within interest_ids⟩

theorem ids_back (interest_ids : List (BitVec 16)) (rest : Bytes) (sized : interest_ids.length = count) :
    readInterestIds count (interest_ids.flatMap writeU16 ++ rest) = .ok (⟨interest_ids,sized⟩,rest) := by
  induction interest_ids generalizing count with
  | nil => subst sized; rfl
  | cons interest_id interest_ids ih =>
    subst sized
    rw [List.flatMap_cons,List.append_assoc]
    simp only [List.length_cons,readInterestIds]
    rw [(u16_back interest_id).bind,Reader.bind_ok (ih rfl)]
    rfl

theorem control_back (control : ReplicationControlData) : ReadsBack marshal unmarshal control := by
  intro rest
  have capped := control.capped
  have split := control.split
  unfold maxReplicationControlIds at capped
  have length : (UInt8.ofNat control.interestIds.length).toNat = control.interestIds.length := by
    rw [UInt8.toNat_ofNat']
    exact Nat.mod_eq_of_lt (by omega)
  have start : (UInt8.ofNat control.pauseStartIdx.toNat).toNat = control.pauseStartIdx.toNat := by
    rw [UInt8.toNat_ofNat']
    exact Nat.mod_eq_of_lt (by omega)
  have room : ¬(UInt8.ofNat control.interestIds.length).toNat > maxReplicationControlIds := by
    rw [length]
    exact Nat.not_lt_of_le control.capped
  have within : ¬(UInt8.ofNat control.pauseStartIdx.toNat).toNat > (UInt8.ofNat control.interestIds.length).toNat := by
    rw [length,start]
    exact Nat.not_lt_of_le split
  have wide : (UInt8.ofNat control.pauseStartIdx.toNat).toBitVec.setWidth 32 = control.pauseStartIdx := by
    apply BitVec.eq_of_toNat_eq
    rw [BitVec.toNat_setWidth_of_le (by decide)]
    exact start
  unfold marshal unmarshal
  rw [List.append_assoc,List.append_assoc,(u8_back _).bind,dif_neg room,(u8_back _).bind,dif_neg within,
    Reader.bind_ok (ids_back control.interestIds rest length.symm)]
  simp only [Reader.pure_run,wide]

theorem marshal_length (control : ReplicationControlData) : control.marshal.length = 1 + 1 + control.len * 2 := by
  have ids : ∀ interest_ids : List (BitVec 16), (interest_ids.flatMap writeU16).length = interest_ids.length * 2 := by
    intro interest_ids
    simp [List.length_flatMap]
  unfold marshal
  rw [List.length_append,List.length_append,ids]
  rfl

end ReplicationControlData

-- The header around the records of a bundle.
structure ReplicatedStateBundleMessage extends ReplicatedStateBundle where
  seq : SequenceNumber
  clientContextInstanceId : UInt8
  bandwidthMode : UInt8
  isUnreliable : Bool
  replicationControl : Option ReplicationControlData
  deriving DecidableEq

-- What is read of a buffer, with the bytes it took.
structure ReplicatedStateBundleView extends ReplicatedStateBundleMessage where
  totalBundleSize : Nat
  deriving DecidableEq

def replicationControlDataWireLen (replication_control : ReplicationControlData) : Nat :=
  1 + 1 + replication_control.len * 2

def bundleBufferWireLen (bundle_buffer : Bytes) : Nat :=
  vlqU32Len (cappedLenU32 bundle_buffer.length) + bundle_buffer.length

def marshalBundleBuffer (bundle_buffer : Bytes) : Bytes :=
  VlqU32Marshaler.marshal (cappedLenU32 bundle_buffer.length) ++ bundle_buffer

def readBundleBuffer : Read Bytes := do
  let len ← VlqU32Marshaler.unmarshal
  if len.toNat > maxReplicatedStateBundleBufferSize then
    Reader.fail (.containerOverflow len.toNat maxReplicatedStateBundleBufferSize)
  else readBytes len.toNat

def readReplicationControl (includes_replication_control : Bool) : Read (Option ReplicationControlData) :=
  if includes_replication_control then do
    let replication_control ← ReplicationControlData.unmarshal
    pure (some replication_control)
  else pure none

namespace ReplicatedStateBundleMessage

def totalBundleSize (bundle : ReplicatedStateBundleMessage) : Nat :=
  sequenceNumberWireLen bundle.seq + 1 + 1 + 1 + 1 +
    (bundle.replicationControl.map replicationControlDataWireLen).getD 0 + bundleBufferWireLen bundle.bundleBuffer

def marshal (bundle : ReplicatedStateBundleMessage) : Bytes :=
  bundle.seq.marshal ++ writeU8 bundle.clientContextInstanceId ++ writeU8 bundle.bandwidthMode ++
    writeRaw bundle.isUnreliable ++ writeRaw bundle.replicationControl.isSome ++
    (bundle.replicationControl.map ReplicationControlData.marshal).getD [] ++ marshalBundleBuffer bundle.bundleBuffer

end ReplicatedStateBundleMessage

namespace ReplicatedStateBundleView

def intoOwned (view : ReplicatedStateBundleView) : ReplicatedStateBundleMessage := view.toReplicatedStateBundleMessage

def readFrom (total : Nat) : Read ReplicatedStateBundleView := do
  let start ← position total
  let seq ← SequenceNumber.unmarshal
  let client_context_instance_id ← readU8
  let bandwidth_mode ← readU8
  let is_unreliable ← readRaw
  let includes_replication_control ← readRaw
  let replication_control ← readReplicationControl includes_replication_control
  let bundle_buffer ← readBundleBuffer
  let read ← position total
  pure ⟨⟨⟨bundle_buffer⟩,seq,client_context_instance_id,bandwidth_mode,is_unreliable,replication_control⟩,read - start⟩

end ReplicatedStateBundleView

def ReplicatedStateBundleMessage.unmarshal (total : Nat) : Read ReplicatedStateBundleMessage := do
  let view ← ReplicatedStateBundleView.readFrom total
  pure view.intoOwned

-- The second tables of lengths agree with the branches of the encoders.
theorem vlqU32Len_exact (value : BitVec 32) : vlqU32Len value = (VlqU32Marshaler.marshal value).length := by
  rw [emitted_u32]
  unfold vlqU32Len vlqU32Extra
  simp only [BitVec.lt_def,BitVec.reduceToNat]
  repeat' split
  all_goals rfl

theorem vlqU64Len_exact (value : BitVec 64) : vlqU64Len value = (VlqU64Marshaler.marshal value).length := by
  rw [emitted_u64]
  unfold vlqU64Len vlqU64Extra
  simp only [BitVec.lt_def,BitVec.reduceToNat]
  repeat' split
  all_goals rfl

theorem sequence_length (normal : number.normalized = number) :
    sequenceNumberWireLen number = number.marshal.length := by
  unfold SequenceNumber.marshal
  rw [normal]
  cases number with
  | invalid => rfl
  | validNonSequence => simp [sequenceNumberWireLen,vlqU64Len_exact,marshal_u64,writeU8,Nat.add_comm]
  | seq sequence => simp [sequenceNumberWireLen,vlqU64Len_exact,marshal_u64,writeU8,Nat.add_comm]

theorem control_length (replication_control : Option ReplicationControlData) :
    (replication_control.map replicationControlDataWireLen).getD 0 =
      ((replication_control.map ReplicationControlData.marshal).getD []).length := by
  cases replication_control with
  | none => rfl
  | some control => exact control.marshal_length.symm

theorem buffer_length (bundle_buffer : Bytes) :
    bundleBufferWireLen bundle_buffer = (marshalBundleBuffer bundle_buffer).length := by
  unfold bundleBufferWireLen marshalBundleBuffer
  rw [List.length_append,vlqU32Len_exact]

theorem bundle_size {bundle : ReplicatedStateBundleMessage} (normal : bundle.seq.normalized = bundle.seq) :
    bundle.totalBundleSize = bundle.marshal.length := by
  unfold ReplicatedStateBundleMessage.totalBundleSize ReplicatedStateBundleMessage.marshal
  rw [sequence_length normal,control_length,buffer_length]
  simp only [List.length_append,writeU8,writeRaw,List.length_cons,List.length_nil]

theorem replication_control_back (replication_control : Option ReplicationControlData) (rest : Bytes) :
    readReplicationControl replication_control.isSome
      ((replication_control.map ReplicationControlData.marshal).getD [] ++ rest) = .ok (replication_control,rest) := by
  cases replication_control with
  | none => rfl
  | some control => exact (ReplicationControlData.control_back control).bind _ rest

theorem buffer_back (capped : bundle_buffer.length ≤ maxReplicatedStateBundleBufferSize) :
    ReadsBack marshalBundleBuffer readBundleBuffer bundle_buffer := by
  intro rest
  have len : (cappedLenU32 bundle_buffer.length).toNat = bundle_buffer.length := by
    unfold maxReplicatedStateBundleBufferSize at capped
    exact Nat.mod_eq_of_lt (by omega)
  unfold marshalBundleBuffer readBundleBuffer
  rw [List.append_assoc,(u32_marshaler_back _).bind,len,if_neg (Nat.not_lt_of_le capped)]
  exact readBytes_append _ _

theorem position_run (total : Nat) (bytes : Bytes) : position total bytes = .ok (total - bytes.length,bytes) := rfl

theorem bundle_message_round_trip (bundle : ReplicatedStateBundleMessage)
    (capped : bundle.bundleBuffer.length ≤ maxReplicatedStateBundleBufferSize)
    (normal : bundle.seq.normalized = bundle.seq) (before : Nat) (rest : Bytes) :
    bundle.totalBundleSize = bundle.marshal.length ∧
      ReplicatedStateBundleView.readFrom (before + (bundle.marshal ++ rest).length) (bundle.marshal ++ rest) =
        .ok (⟨bundle,bundle.totalBundleSize⟩,rest) ∧
      ReplicatedStateBundleMessage.unmarshal (before + (bundle.marshal ++ rest).length) (bundle.marshal ++ rest) =
        .ok (bundle,rest) := by
  have size := bundle_size normal
  have read : ReplicatedStateBundleView.readFrom (before + (bundle.marshal ++ rest).length) (bundle.marshal ++ rest) =
      .ok (⟨bundle,bundle.totalBundleSize⟩,rest) := by
    have consumed : before + (bundle.marshal ++ rest).length - rest.length -
        (before + (bundle.marshal ++ rest).length - (bundle.marshal ++ rest).length) = bundle.totalBundleSize := by
      rw [size,List.length_append]
      omega
    unfold ReplicatedStateBundleView.readFrom
    rw [Reader.bind_ok (position_run _ _)]
    generalize before + (bundle.marshal ++ rest).length = total at consumed ⊢
    generalize total - (bundle.marshal ++ rest).length = start at consumed ⊢
    unfold ReplicatedStateBundleMessage.marshal
    simp only [List.append_assoc]
    rw [Reader.bind_ok (SequenceNumber.sequence_back _ _),(u8_back _).bind,(u8_back _).bind,(raw_back _).bind,
      (raw_back _).bind,Reader.bind_ok (replication_control_back _ _),(buffer_back capped).bind,
      Reader.bind_ok (position_run _ _),normal,consumed]
    rfl
  refine ⟨size,read,?_⟩
  unfold ReplicatedStateBundleMessage.unmarshal
  rw [Reader.bind_ok read]
  rfl

def stopAndPauseBundle : ReplicatedStateBundleMessage :=
  ⟨⟨[1,2,3]⟩,.seq 300,4,1,true,(ReplicationControlData.fromIds [7] [8]).toOption⟩

theorem stop_and_pause_bundle_back :
    stopAndPauseBundle.totalBundleSize = 17 ∧
      ReplicatedStateBundleMessage.unmarshal 18 (stopAndPauseBundle.marshal ++ [9]) = .ok (stopAndPauseBundle,[9]) := by
  have back := bundle_message_round_trip stopAndPauseBundle (by decide) (by decide) 0 [9]
  exact ⟨by decide,back.2.2⟩

end NwNetwork.Hub
