import NwNetwork.CarrierReceiver
import NwNetwork.CarrierFrameRoundTrip

namespace NwNetwork.Carrier
open WireReader Serialize

section Blocks
variable {α : Type} {blocks : List (List α)}

-- No two of the lists have anything in them.
def AtMostOne (blocks : List (List α)) : Prop := blocks.Pairwise fun first second => first = [] ∨ second = []

theorem atMostOne_cons : AtMostOne (block :: blocks) ↔ (block = [] ∨ blocks.flatten = []) ∧ AtMostOne blocks := by
  unfold AtMostOne
  rw [List.pairwise_cons,List.flatten_eq_nil_iff]
  refine and_congr_left fun _ => ?_
  by_cases empty : block = []
  · simp [empty]
  · simp [empty]

theorem atMostOne_backwards (one : AtMostOne blocks) : blocks.reverse.flatten = blocks.flatten := by
  induction blocks with
  | nil => rfl
  | cons block blocks ih =>
    obtain ⟨first,others⟩ := atMostOne_cons.mp one
    rw [List.reverse_cons,List.flatten_append,List.flatten_singleton,List.flatten_cons,ih others]
    rcases first with rfl | none_left
    · simp
    · simp [none_left]

theorem front_shared (same : back ++ block = block ++ others) (some_back : back ≠ []) (some_block : block ≠ []) :
    ∃ shared : α, shared ∈ block ∧ shared ∈ back := by
  obtain ⟨head,tail,rfl⟩ := List.exists_cons_of_ne_nil some_block
  obtain ⟨other,rest,rfl⟩ := List.exists_cons_of_ne_nil some_back
  obtain ⟨rfl,_⟩ := List.cons.inj same
  exact ⟨other,List.mem_cons_self,List.mem_cons_self⟩

-- Lists without a common or repeated element come to the same backwards only
-- when there is one of them at most.
theorem backwards_same (distinct : blocks.flatten.Nodup) :
    blocks.reverse.flatten = blocks.flatten ↔ AtMostOne blocks := by
  refine ⟨?_,atMostOne_backwards⟩
  induction blocks with
  | nil => exact fun _ => List.Pairwise.nil
  | cons block blocks ih =>
    intro same
    rw [List.flatten_cons,List.nodup_append] at distinct
    obtain ⟨_,others,apart⟩ := distinct
    rw [List.reverse_cons,List.flatten_append,List.flatten_singleton,List.flatten_cons] at same
    by_cases empty : block = []
    · subst empty
      exact atMostOne_cons.mpr ⟨.inl rfl,ih others (by simpa using same)⟩
    · by_cases none_back : blocks.reverse.flatten = []
      · have none_left : blocks.flatten = [] := by simpa using none_back
        exact atMostOne_cons.mpr ⟨.inr none_left,ih others (none_back.trans none_left.symm)⟩
      · obtain ⟨shared,inBlock,inBack⟩ := front_shared same none_back empty
        have among : shared ∈ blocks.flatten := by simpa using inBack
        exact absurd rfl (apart shared inBlock shared among)

end Blocks

section Resend
variable {now : Nat} {priority : Priority}

-- The datagrams that a resend takes apart, oldest first.
def resentDatagrams (now : Nat) (dgrams : List DatagramData) : List DatagramData :=
  (dgrams.takeWhile (ConnectionState.expired now)).filter fun dgram => decide (0 < dgram.resendDataSize.toNat)

def resentLists (now : Nat) (dgrams : List DatagramData) (priority : Priority) : List (List MessageData) :=
  (resentDatagrams now dgrams).map fun dgram => dgram.toResend priority

-- Each datagram goes in front of the one before it.
theorem resendFrom_queues (now : Nat) (dgrams : List DatagramData) (toSend : PerPriority (List MessageData))
    (priority : Priority) : (ConnectionState.resendFrom now dgrams toSend).2.2 priority =
      (resentLists now dgrams priority).reverse.flatten ++ toSend priority := by
  induction dgrams generalizing toSend with
  | nil => rfl
  | cons dgram rest ih =>
    unfold ConnectionState.resendFrom resentLists resentDatagrams
    by_cases old : ConnectionState.expired now dgram = true
    · have moved := ih (ConnectionState.requeue toSend dgram)
      unfold resentLists resentDatagrams at moved
      rw [if_pos old,List.takeWhile_cons_of_pos old]
      rcases resent : ConnectionState.resendFrom now rest (ConnectionState.requeue toSend dgram) with ⟨count,left,queues⟩
      rw [resent] at moved
      dsimp only at moved ⊢
      rw [moved]
      unfold ConnectionState.requeue
      by_cases counted : 0 < dgram.resendDataSize.toNat
      · simp [counted]
      · simp [counted]
    · rw [if_neg old,List.takeWhile_cons_of_neg old]
      rfl

-- In each queue the resent messages stand before the unsent ones, and those of a
-- channel in the order of the datagrams they were sent in.
def ResendsInOrder (now : Nat) (state : ConnectionState) : Prop :=
  ∀ priority, ∃ resent, (state.processResends now).2.toSend priority = resent ++ state.toSend priority ∧
    ∀ channel, framesOn channel resent = framesOn channel (resentLists now state.sendDatagrams priority).flatten

def channelLists (now : Nat) (state : ConnectionState) (priority : Priority) (channel : UInt8) :
    List (List MessageData) :=
  (resentLists now state.sendDatagrams priority).map (framesOn channel)

theorem framesOn_flatten (channel : UInt8) (lists : List (List MessageData)) :
    framesOn channel lists.flatten = (lists.map (framesOn channel)).flatten := List.filter_flatten

theorem processResends_queues (now : Nat) (state : ConnectionState) (priority : Priority) :
    (state.processResends now).2.toSend priority =
      (resentLists now state.sendDatagrams priority).reverse.flatten ++ state.toSend priority :=
  resendFrom_queues now state.sendDatagrams state.toSend priority

theorem resends_backwards (now : Nat) (state : ConnectionState) :
    ResendsInOrder now state ↔ ∀ priority channel,
      (channelLists now state priority channel).reverse.flatten = (channelLists now state priority channel).flatten := by
  have lists : ∀ priority channel,
      framesOn channel (resentLists now state.sendDatagrams priority).reverse.flatten =
        (channelLists now state priority channel).reverse.flatten ∧
      framesOn channel (resentLists now state.sendDatagrams priority).flatten =
        (channelLists now state priority channel).flatten := by
    intro priority channel
    exact ⟨by rw [framesOn_flatten,List.map_reverse]; rfl,framesOn_flatten _ _⟩
  constructor
  · intro ordered priority channel
    obtain ⟨resent,split,order⟩ := ordered priority
    rw [processResends_queues] at split
    rw [←(lists priority channel).1,List.append_cancel_right split,order,(lists priority channel).2]
  · intro same priority
    refine ⟨_,processResends_queues now state priority,fun channel => ?_⟩
    rw [(lists priority channel).1,same,(lists priority channel).2]

theorem resend_order (now : Nat) (state : ConnectionState) :
    ResendsInOrder now state ↔ ∀ priority channel, AtMostOne (channelLists now state priority channel) ∨
      (¬(channelLists now state priority channel).flatten.Nodup ∧
        (channelLists now state priority channel).reverse.flatten =
          (channelLists now state priority channel).flatten) := by
  rw [resends_backwards]
  refine forall_congr' fun priority => forall_congr' fun channel => ?_
  by_cases distinct : (channelLists now state priority channel).flatten.Nodup
  · rw [backwards_same distinct]
    simp [distinct]
  · simp only [distinct,not_false_eq_true,true_and]
    refine ⟨.inr,?_⟩
    rintro (one | same)
    · exact atMostOne_backwards one
    · exact same

-- Two messages of one channel and priority, each sent in a datagram of its own.
def twoLost : ConnectionState :=
  (do
    let state ← (ConnectionState.new 0 false).queueMessage (userMessage 0 .reliable [1]) 1
    let (_,state) ← state.prepareOutgoingDatagram storedBlocks 0 Mtu.maxDatagramSize
    let state ← state.queueMessage (userMessage 0 .reliable [2]) 1
    let (_,state) ← state.prepareOutgoingDatagram storedBlocks 0 Mtu.maxDatagramSize
    some state).getD (ConnectionState.new 0 false)

theorem later_datagram_first : ¬∀ (now : Nat) (state : ConnectionState), ResendsInOrder now state := by
  intro always
  obtain ⟨resent,split,order⟩ := always (lostPacketTimeout + 1) twoLost 1
  have queue : (twoLost.processResends (lostPacketTimeout + 1)).2.toSend 1 = resent := by
    rw [split]
    exact List.append_nil resent
  have backwards : resent.map (·.data) = [[2],[1]] := by
    rw [←queue]
    rfl
  have same := order 0
  have whole : framesOn 0 resent = resent := by
    rw [←queue]
    rfl
  rw [whole] at same
  rw [same] at backwards
  exact absurd backwards (by decide)

end Resend

end NwNetwork.Carrier
