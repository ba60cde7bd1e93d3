import NwNetwork.CarrierMessage

namespace NwNetwork.Carrier
open WireReader Serialize

-- `numAcksSent` is -1 for a slot that is not used; its number is then stale.
structure HistoryElement where
  sequenceNumber : SequenceNumber
  numAcksSent : Int
  deriving DecidableEq, Repr

def maxNumAcks : Int := 3
def maxNumBytes : Nat := 64
def maxElements : Nat := 512

abbrev Offset := Fin 512

instance someSlots : NeZero 512 := ⟨by decide⟩

-- A ring with one slot for every number modulo its size. `last` is the slot
-- after the newest element.
structure DatagramHistoryList where
  elements : Offset → HistoryElement
  first : Offset
  last : Offset
  numActiveElements : Nat

namespace DatagramHistoryList

def new : DatagramHistoryList := ⟨fun _ => ⟨0,-1⟩,0,0,0⟩

def add (offset : Offset) : Offset := if offset = 511 then 0 else offset + 1
def sub (offset : Offset) : Offset := if offset = 0 then 511 else offset - 1

def lastIndex (history : DatagramHistoryList) : Offset := sub history.last

def isValid (history : DatagramHistoryList) (offset : Offset) : Bool :=
  (history.elements offset).numAcksSent ≠ -1

def numberAt (history : DatagramHistoryList) (offset : Offset) : SequenceNumber :=
  (history.elements offset).sequenceNumber

def slot (id : SequenceNumber) : Offset := Fin.ofNat 512 id.toNat

def store (history : DatagramHistoryList) (offset : Offset) (element : HistoryElement) : DatagramHistoryList :=
  { history with elements := fun other => if other = offset then element else history.elements other }

def setAcks (history : DatagramHistoryList) (offset : Offset) (acks : Int) : DatagramHistoryList :=
  history.store offset ⟨history.numberAt offset,acks⟩

-- The loops below run on fuel. Both scans look at one slot after the other, so
-- a scan that has gone once around the ring never ends: `none` is a hang.
def advanceFirst : Nat → DatagramHistoryList → Option DatagramHistoryList
  | 0,_ => none
  | fuel+1,history =>
    if history.isValid history.first then some history
    else advanceFirst fuel { history with first := add history.first }

def retreatLast : Nat → DatagramHistoryList → Option DatagramHistoryList
  | 0,_ => none
  | fuel+1,history =>
    if history.isValid history.lastIndex then some history
    else retreatLast fuel { history with last := sub history.last }

def scanFuel : Nat := 513

-- Takes the element out and returns the offset to go on from.
def remove (history : DatagramHistoryList) (offset : Offset) : Option (Offset × DatagramHistoryList) :=
  let history := if history.isValid offset then
      { history.setAcks offset (-1) with numActiveElements := history.numActiveElements - 1 }
    else history
  if history.numActiveElements = 0 then some (history.last,{ history with first := history.last })
  else if history.first = offset then
    (advanceFirst scanFuel history).map fun history => (history.first,history)
  else if history.lastIndex = offset then
    (retreatLast scanFuel history).map fun history => (history.last,history)
  else some (add offset,history)

def getForAck (history : DatagramHistoryList) (offset : Offset) :
    Option (SequenceNumber × Offset × DatagramHistoryList) :=
  let sequenceNumber := history.numberAt offset
  let acks := (history.elements offset).numAcksSent + 1
  let history := history.setAcks offset acks
  if maxNumAcks ≤ acks then
    (history.remove offset).map fun (next,history) => (sequenceNumber,next,history)
  else some (sequenceNumber,add offset,history)

-- Drops the oldest elements up to `newFirst`. An empty slot in between is judged
-- by its stale number like any other.
def evict (newFirst : SequenceNumber) : Nat → DatagramHistoryList → Option DatagramHistoryList
  | 0,_ => none
  | fuel+1,history =>
    if history.numActiveElements ≠ 0 ∧ seqLessThan (history.numberAt history.first) newFirst then
      let cleared := if history.isValid history.first then
          { history.setAcks history.first (-1) with numActiveElements := history.numActiveElements - 1 }
        else history
      evict newFirst fuel { cleared with first := add cleared.first }
    else some history

-- The source steps `last` up to `newLast` one slot at a time.
def append (history : DatagramHistoryList) (id : SequenceNumber) : DatagramHistoryList :=
  let offset := slot id
  let moved := if history.numActiveElements = 0 then { history with first := offset, last := add offset }
    else { history with last := add offset }
  { moved with numActiveElements := moved.numActiveElements + 1 }.store (sub (add offset)) ⟨id,0⟩

def insert (history : DatagramHistoryList) (id : SequenceNumber) : Option (Bool × DatagramHistoryList) :=
  let offset := slot id
  if history.numActiveElements ≠ 0 then
    if seqLessThan (history.numberAt history.lastIndex) id then
      (evict (id - 511) scanFuel history).map fun history => (true,history.append id)
    else if history.numberAt offset = id ∧ history.isValid offset then some (false,history)
    else
      let counted := if history.isValid offset then history.numActiveElements
        else history.numActiveElements + 1
      some (true,{ history with numActiveElements := counted }.store offset ⟨id,0⟩)
  else
    some (true,{ history with first := offset, last := add offset, numActiveElements := 1 }.store offset ⟨id,0⟩)

-- The numbers acknowledged on the way from `index` to the newest element.
def ackWalk : Nat → Offset → DatagramHistoryList → Option (List SequenceNumber × DatagramHistoryList)
  | 0,_,_ => none
  | fuel+1,index,history =>
    if index = history.lastIndex ∨ index = history.last then some ([],history)
    else if history.isValid index then do
      let (current,next,history) ← history.getForAck index
      let (others,history) ← ackWalk fuel next history
      some (current :: others,history)
    else ackWalk fuel (add index) history

-- An element leaves after three visits, so the walk is shorter than this.
def walkFuel : Nat := 1048576

end DatagramHistoryList

namespace AckFlags
def keepAlive : UInt8 := 0x20
def continuous : UInt8 := 0x40
def bits : UInt8 := 0x80
end AckFlags

def setBit (historyBits : Bytes) (bitIndex : Nat) : Bytes :=
  historyBits.modify (bitIndex / 8) (· ||| (1 <<< UInt8.ofNat (bitIndex % 8)))

-- Distances beyond the bits that are sent are left out.
def markAcked (lastToAck : SequenceNumber) (historyBits : Bytes) (current : SequenceNumber) : Bytes :=
  let bitDistance := sequenceNumberSequentialDistance current lastToAck
  if 0 < bitDistance then setBit historyBits (bitDistance - 1) else historyBits

-- The acknowledgement frame, the newest number in it and the history after it.
def writeAckHistory (history : DatagramHistoryList) :
    Option (Bytes × Option SequenceNumber × DatagramHistoryList) := do
  let numDatagramsToAck := history.numActiveElements
  if numDatagramsToAck = 0 then some (writeU8 AckFlags.keepAlive,none,history) else
  let historyIndex := history.first
  let firstToAck := history.numberAt historyIndex
  let (lastToAck,_,history) ← history.getForAck history.lastIndex
  let dist := sequenceNumberSequentialDistance firstToAck lastToAck
  if dist = 0 then some (writeU8 0 ++ writeU16 lastToAck,some lastToAck,history)
  else if dist = (numDatagramsToAck - 1) % 65536 then
    let (_,history) ← DatagramHistoryList.ackWalk DatagramHistoryList.walkFuel historyIndex history
    some (writeU8 AckFlags.continuous ++ writeU16 lastToAck ++ writeU16 firstToAck,some lastToAck,history)
  else
    let numHistoryBytes := min ((dist + 7) / 8) maxNumBytes
    let (acked,history) ← DatagramHistoryList.ackWalk DatagramHistoryList.walkFuel historyIndex history
    let historyBits := acked.foldl (markAcked lastToAck) (List.replicate numHistoryBytes 0)
    some (writeU8 (AckFlags.bits ||| UInt8.ofNat numHistoryBytes) ++ writeU16 lastToAck ++ historyBits,
      some lastToAck,history)

theorem markAcked_length (lastToAck : SequenceNumber) (acked : List SequenceNumber) (historyBits : Bytes) :
    (acked.foldl (markAcked lastToAck) historyBits).length = historyBits.length := by
  induction acked generalizing historyBits with
  | nil => rfl
  | cons current acked ih =>
    rw [List.foldl_cons,ih]
    unfold markAcked setBit
    dsimp only
    split <;> simp

-- The three shapes of the frame next to the one for an empty history.
theorem writeAckHistory_cases {history after : DatagramHistoryList}
    (ran : writeAckHistory history = some (bytes,last,after)) :
    (history.numActiveElements = 0 ∧ bytes = writeU8 AckFlags.keepAlive ∧ last = none ∧ after = history) ∨
    (history.numActiveElements ≠ 0 ∧ ∃ lastToAck next middle,
      history.getForAck history.lastIndex = some (lastToAck,next,middle) ∧ last = some lastToAck ∧
      let dist := sequenceNumberSequentialDistance (history.numberAt history.first) lastToAck
      ((dist = 0 ∧ bytes = writeU8 0 ++ writeU16 lastToAck ∧ after = middle) ∨
      ∃ acked, DatagramHistoryList.ackWalk DatagramHistoryList.walkFuel history.first middle = some (acked,after) ∧ dist ≠ 0 ∧
        ((dist = (history.numActiveElements - 1) % 65536 ∧
          bytes = writeU8 AckFlags.continuous ++ writeU16 lastToAck ++
            writeU16 (history.numberAt history.first)) ∨
        (dist ≠ (history.numActiveElements - 1) % 65536 ∧
          bytes = writeU8 (AckFlags.bits ||| UInt8.ofNat (min ((dist + 7) / 8) maxNumBytes)) ++
            writeU16 lastToAck ++
            acked.foldl (markAcked lastToAck) (List.replicate (min ((dist + 7) / 8) maxNumBytes) 0))))) := by
  unfold writeAckHistory at ran
  dsimp only at ran
  split at ran
  · rename_i empty
    cases Option.some.inj ran
    exact .inl ⟨empty,rfl,rfl,rfl⟩
  · rename_i holds
    obtain ⟨⟨lastToAck,next,middle⟩,newest,ran⟩ := Option.bind_eq_some_iff.mp ran
    dsimp only at ran
    refine .inr ⟨holds,lastToAck,next,middle,newest,?_⟩
    split at ran
    · rename_i single
      cases Option.some.inj ran
      exact ⟨rfl,.inl ⟨single,rfl,rfl⟩⟩
    · rename_i several
      split at ran
      · rename_i range
        obtain ⟨⟨acked,walked⟩,walk,ran⟩ := Option.bind_eq_some_iff.mp ran
        cases Option.some.inj ran
        exact ⟨rfl,.inr ⟨acked,walk,several,.inl ⟨range,rfl⟩⟩⟩
      · rename_i gaps
        obtain ⟨⟨acked,walked⟩,walk,ran⟩ := Option.bind_eq_some_iff.mp ran
        cases Option.some.inj ran
        exact ⟨rfl,.inr ⟨acked,walk,several,.inr ⟨gaps,rfl⟩⟩⟩

theorem writeAckHistory_short {history noted : DatagramHistoryList}
    (ran : writeAckHistory history = some (bytes,last,noted)) : bytes.length ≤ 67 := by
  rcases writeAckHistory_cases ran with ⟨_,rfl,_⟩ |
    ⟨_,_,_,_,_,_,⟨_,rfl,_⟩ | ⟨acked,_,_,⟨_,rfl⟩ | ⟨_,rfl⟩⟩⟩
  · simp [writeU8]
  · simp [writeU8,writeU16]
  · simp [writeU8,writeU16]
  · simp only [List.length_append,markAcked_length,List.length_replicate,writeU8,writeU16,maxNumBytes,
      List.length_cons,List.length_nil]
    omega

inductive AckData where
  | keepAlive
  | range (firstToAck lastToAck : SequenceNumber)
  | bits (lastToAck : SequenceNumber) (historyBits : Bytes)
  deriving DecidableEq, Repr

def readAckDataFrame (buffer : Bytes) : Option AckData := do
  let (ackFlags,buffer) ← (readU8 buffer).toOption
  if ackFlags &&& 0x80 ≠ 0 then
    let (lastToAck,buffer) ← (readU16 buffer).toOption
    let numHistoryBytes := (ackFlags &&& 0x7f).toNat
    if maxNumBytes < numHistoryBytes then none else
    let (historyBits,_) ← (readBytes numHistoryBytes buffer).toOption
    some (.bits lastToAck historyBits)
  else if ackFlags &&& 0x40 ≠ 0 then
    let (lastToAck,buffer) ← (readU16 buffer).toOption
    let (firstToAck,_) ← (readU16 buffer).toOption
    some (.range firstToAck lastToAck)
  else if ackFlags &&& 0x20 ≠ 0 then some .keepAlive
  else
    let (lastToAck,_) ← (readU16 buffer).toOption
    some (.range lastToAck lastToAck)

def bitSet (historyBits : Bytes) (bitIndex : Nat) : Bool :=
  historyBits.getD (bitIndex / 8) 0 &&& (1 <<< UInt8.ofNat (bitIndex % 8)) != 0

-- Whether a datagram in flight counts as received, and whether it counts as
-- missing.
def AckData.isAcked : AckData → SequenceNumber → Bool
  | .keepAlive,_ => false
  | .range firstToAck lastToAck,seq =>
    if firstToAck = lastToAck then seq == lastToAck
    else seq == firstToAck || seq == lastToAck ||
      (seqLessThan firstToAck seq && seqLessThan seq lastToAck)
  | .bits lastToAck historyBits,seq =>
    if seq = lastToAck then true
    else if seqLessThan seq lastToAck then
      let distance := sequenceNumberSequentialDistance seq lastToAck
      if distance = 0 ∨ historyBits.length*8 < distance then false
      else bitSet historyBits (distance - 1)
    else false

def AckData.isNacked : AckData → SequenceNumber → Bool
  | .keepAlive,_ => false
  | .range firstToAck lastToAck,seq =>
    !AckData.isAcked (.range firstToAck lastToAck) seq && seqLessThan seq firstToAck
  | .bits lastToAck historyBits,seq =>
    !AckData.isAcked (.bits lastToAck historyBits) seq && seqLessThan seq lastToAck

end NwNetwork.Carrier
