import NwNetwork.CarrierConnectionState
import Mathlib.Data.List.Forall2

namespace NwNetwork.Carrier
open WireReader Serialize

-- One queue of the loop with its priority.
abbrev Queued := Priority × List MessageData

-- A message together with the queue it has left.
abbrev Popped := Priority × MessageData

-- The fill loop message by message: what it pops in order, what it leaves in
-- every queue and the state it ends in.
inductive Filled (maxDatagramSize : Nat) :
    List Queued → Filling → List Popped → List Queued → Filling → Prop where
  | done : Filled maxDatagramSize [] filling [] [] filling
  | next : Filled maxDatagramSize queues filling popped left final →
      Filled maxDatagramSize ((priority,[]) :: queues) filling popped ((priority,[]) :: left) final
  | takes : msg.channel.toNat < maxChannels → filling.Fits maxDatagramSize msg →
      Filled maxDatagramSize ((priority,queue) :: queues) (filling.write priority msg) popped
        ((priority,rest) :: left) final →
      Filled maxDatagramSize ((priority,msg :: queue) :: queues) filling ((priority,msg) :: popped)
        ((priority,rest) :: left) final
  | leaves : msg.channel.toNat < maxChannels → ¬filling.Fits maxDatagramSize msg →
      Filled maxDatagramSize queues (filling.look msg) popped left final →
      Filled maxDatagramSize ((priority,msg :: queue) :: queues) filling popped
        ((priority,msg :: queue) :: left) final

theorem fillQueue_filled (ran : fillQueue maxDatagramSize priority queue filling = some (rest,middle))
    (others : Filled maxDatagramSize queues middle popped left final) :
    ∃ taken, Filled maxDatagramSize ((priority,queue) :: queues) filling (taken ++ popped)
      ((priority,rest) :: left) final := by
  induction queue generalizing filling with
  | nil =>
    cases Option.some.inj ran
    exact ⟨[],.next others⟩
  | cons msg queue ih =>
    unfold fillQueue at ran
    split at ran
    · cases ran
    · rename_i real
      have real := Nat.not_le.mp real
      split at ran
      · rename_i fits
        obtain ⟨taken,filled⟩ := ih ran
        exact ⟨(priority,msg) :: taken,.takes real fits filled⟩
      · rename_i tooLong
        cases Option.some.inj ran
        exact ⟨[],.leaves real tooLong others⟩

-- The loop over the priorities touches each queue once and no other queue.
theorem fillFrom_filled (ran : fillFrom maxDatagramSize queues order filling = some (after,final))
    (distinct : order.Nodup) :
    (∃ popped, Filled maxDatagramSize (order.map fun priority => (priority,queues priority)) filling popped
      (order.map fun priority => (priority,after priority)) final) ∧
    ∀ priority, priority ∉ order → after priority = queues priority := by
  induction order generalizing queues filling with
  | nil =>
    cases Option.some.inj ran
    exact ⟨⟨[],.done⟩,fun _ _ => rfl⟩
  | cons priority order ih =>
    obtain ⟨fresh,distinct⟩ := List.nodup_cons.mp distinct
    obtain ⟨⟨rest,middle⟩,queue,others⟩ := Option.bind_eq_some_iff.mp ran
    obtain ⟨⟨popped,filled⟩,untouched⟩ := ih others distinct
    have same : ∀ other ∈ order, queues.set priority rest other = queues other := by
      intro other present
      apply PerPriority.set_other _ _
      rintro rfl
      exact fresh present
    have own : after priority = rest := by rw [untouched priority fresh,PerPriority.set_same]
    rw [List.map_congr_left (fun other present => by rw [same other present])] at filled
    obtain ⟨taken,all⟩ := fillQueue_filled queue filled
    refine ⟨⟨taken ++ popped,?_⟩,?_⟩
    · rw [List.map_cons,List.map_cons,own]
      exact all
    · intro other absent
      simp only [List.mem_cons,not_or] at absent
      rw [untouched other absent.2,PerPriority.set_other _ _ absent.1]

def poppedFrom (before after : List MessageData) : List MessageData :=
  before.take (before.length - after.length)

-- What a call has taken out of the queues, in the order of the priorities.
def poppedMessages (before after : PerPriority (List MessageData)) : List Popped :=
  priorities.flatMap fun priority =>
    (poppedFrom (before priority) (after priority)).map fun msg => (priority,msg)

theorem filled_lengths (filled : Filled maxDatagramSize queues filling popped left final) :
    List.Forall₂ (fun before after => before.1 = after.1 ∧
      before.2 = poppedFrom before.2 after.2 ++ after.2) queues left ∧
    popped = (List.zipWith (fun before after =>
      (poppedFrom before.2 after.2).map fun msg => (before.1,msg)) queues left).flatten := by
  induction filled with
  | done => exact ⟨.nil,rfl⟩
  | next _ ih => exact ⟨.cons ⟨rfl,rfl⟩ ih.1,ih.2⟩
  | takes real fits filled ih =>
    rename_i priority queue queues popped rest left final msg filling
    obtain ⟨pairs,split⟩ := ih
    cases pairs with
    | cons head tail =>
      have shorter : rest.length ≤ queue.length := by
        have sizes := congrArg List.length head.2
        rw [List.length_append] at sizes
        simp only at sizes
        omega
      have one : poppedFrom (msg :: queue) rest = msg :: poppedFrom queue rest := by
        unfold poppedFrom
        rw [List.length_cons,Nat.succ_sub shorter,List.take_succ_cons]
      refine ⟨.cons ⟨rfl,?_⟩ tail,?_⟩
      · simp only [one,List.cons_append]
        exact congrArg _ head.2
      · rw [split]
        simp only [List.zipWith_cons_cons,List.flatten_cons,one,List.map_cons,List.cons_append]
  | leaves _ _ _ ih =>
    refine ⟨.cons ⟨rfl,?_⟩ ih.1,?_⟩
    · simp [poppedFrom]
    · rw [ih.2]
      simp [poppedFrom]

theorem filled_popped {before after : PerPriority (List MessageData)}
    (filled : Filled maxDatagramSize (priorities.map fun priority => (priority,before priority)) filling popped
      (priorities.map fun priority => (priority,after priority)) final) :
    popped = poppedMessages before after ∧
      ∀ priority, before priority = poppedFrom (before priority) (after priority) ++ after priority := by
  obtain ⟨pairs,split⟩ := filled_lengths filled
  constructor
  · rw [split]
    rfl
  · have known : ∀ priority : Priority, priority ∈ priorities := by decide
    intro priority
    rw [List.forall₂_map_left_iff,List.forall₂_map_right_iff,List.forall₂_same] at pairs
    exact (pairs priority (known priority)).2

theorem payload_grows (filled : Filled maxDatagramSize queues filling popped left final)
    (written : filling.payloadBuffer ≠ []) : final.payloadBuffer ≠ [] := by
  induction filled with
  | done => exact written
  | next _ ih => exact ih written
  | takes _ _ _ ih =>
    apply ih
    unfold Filling.write
    simp only [List.append_assoc]
    exact fun empty => written (List.append_eq_nil_iff.mp empty).1
  | leaves _ _ _ ih => exact ih written

-- A datagram that goes out is the finished form of what the loop wrote.
theorem generateDatagram_cases {lz4 : Lz4} {state after : ConnectionState}
    (ran : state.generateDatagram lz4 now maxDatagramSize = some (result,after)) :
    (∃ popped final, Filled maxDatagramSize (priorities.map fun priority => (priority,state.toSend priority))
      ⟨WriteContext.start,[],DatagramData.new (state.datagramSeqNum + 1) now⟩ popped
      (priorities.map fun priority => (priority,after.toSend priority)) final ∧
      final.payloadBuffer ≠ [] ∧
      result = .ok (some (finishDatagram lz4
        (state.sendCompressed && state.hasUserMessages && !state.isConnecting)
        (state.datagramSeqNum + 1) final.payloadBuffer)) ∧
      after = { state with
        toSend := after.toSend
        datagramSeqNum := state.datagramSeqNum + 1
        sendDatagrams := state.sendDatagrams ++ [final.dgramData] }) ∨
    (∃ popped final, Filled maxDatagramSize (priorities.map fun priority => (priority,state.toSend priority))
      ⟨WriteContext.start,[],DatagramData.new (state.datagramSeqNum + 1) now⟩ popped
      (priorities.map fun priority => (priority,after.toSend priority)) final ∧
      final.payloadBuffer = [] ∧ result = .ok none ∧ after = { state with toSend := after.toSend }) ∨
    ((∀ datagram, result ≠ .ok (some datagram)) ∧ after = state) := by
  unfold ConnectionState.generateDatagram at ran
  split at ran
  · cases Option.some.inj ran
    exact .inr (.inr ⟨by simp,rfl⟩)
  · split at ran
    · cases Option.some.inj ran
      exact .inr (.inr ⟨by simp,rfl⟩)
    · obtain ⟨⟨toSend,final⟩,fill,rest⟩ := Option.bind_eq_some_iff.mp ran
      obtain ⟨⟨popped,filled⟩,_⟩ := fillFrom_filled fill (by decide)
      dsimp only at rest
      split at rest
      · rename_i empty
        cases Option.some.inj rest
        exact .inr (.inl ⟨popped,final,filled,List.isEmpty_iff.mp empty,rfl,rfl⟩)
      · rename_i written
        cases Option.some.inj rest
        refine .inl ⟨popped,final,filled,?_,rfl,rfl⟩
        intro empty
        exact written (List.isEmpty_iff.mpr empty)

end NwNetwork.Carrier
