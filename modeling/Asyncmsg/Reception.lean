import Asyncmsg.Library.Transition
import Asyncmsg.Receive

namespace Asyncmsg
open Transition

/-- A receiving connection between two packets: what it has done, and whether it
still reads. -/
structure Reception where
  receiver : Receiver
  reading : Bool

namespace Reception

/-- What `receive_packet` goes by: the packets that the decoder yields, whatever
they are, with the state it leaves the generator in, and how the reads end. -/
inductive Input
  | packet (seqGenerator : UInt32) (pack : Packet)
  | nothing (seqGenerator : UInt32)
  | failed
  | expired

def start (seqGenerator : UInt32) : Reception := ⟨⟨seqGenerator, [], []⟩, true⟩

def step (r : Reception) (input : Input) : Option Reception :=
  if r.reading then
    match input with
    | .packet seqGenerator pack =>
      let (receiver, live) := ({ r.receiver with seqGenerator := seqGenerator } : Receiver).handle pack
      some ⟨if live then receiver else receiver.disconnect, live⟩
    | .nothing seqGenerator => some ⟨{ r.receiver with seqGenerator := seqGenerator }, true⟩
    | .failed => some ⟨r.receiver.disconnect, false⟩
    | .expired => some ⟨r.receiver, false⟩
  else none

def Reaches (r t : Reception) : Prop := ∃ inputs, Run step free r inputs t

variable {r s t : Reception}

theorem Reaches.refl (r : Reception) : r.Reaches r := ⟨[], .nil⟩

theorem Reaches.trans (first : r.Reaches s) (second : s.Reaches t) : r.Reaches t := by
  obtain ⟨_, before⟩ := first
  obtain ⟨_, after⟩ := second
  exact ⟨_, before.trans after⟩

theorem Reaches.single (input : Input) (taken : r.step input = some t) : r.Reaches t := ⟨_, .single trivial taken⟩

end Reception

open Reception

/-- `process_packet` takes one packet after the other. -/
theorem Connection.processPacket_reaches {c last : Connection} {live : Bool}
    (run : c.processPacket = some (last, live)) :
    Reaches ⟨c.receiver, true⟩ ⟨if live then last.receiver else last.receiver.disconnect, live⟩ := by
  fun_induction processPacket c with
  | case1 => cases run
  | case2 c consumeLen seqGenerator =>
    cases run
    exact .single (.nothing seqGenerator) rfl
  | case3 c pack consumeLen seqGenerator _ receiver closed =>
    cases run
    refine .single (.packet seqGenerator pack) ?_
    simp [step, closed]
  | case4 c pack consumeLen seqGenerator _ receiver handled ih =>
    refine .trans (.single (.packet seqGenerator pack) ?_) (ih run)
    simp [step, handled]

namespace ReceiveLoop

def reception (l : ReceiveLoop) : Reception := ⟨l.conn.receiver, l.slab.isSome⟩

theorem suspend_reaches (c : Connection) : Reaches ⟨c.receiver, true⟩ c.suspend.reception := by
  unfold Connection.suspend
  split
  · exact .single .failed rfl
  · exact .refl _

theorem loopHead_reaches {c : Connection} {l : ReceiveLoop} (head : c.loopHead = some l) :
    Reaches ⟨c.receiver, true⟩ l.reception := by
  unfold Connection.loopHead at head
  split at head
  · obtain ⟨⟨last, live⟩, run, rfl⟩ := Option.map_eq_some_iff.mp head
    have processed := Connection.processPacket_reaches run
    cases live with
    | true => exact processed.trans (suspend_reaches last)
    | false => exact processed
  · cases head
    exact suspend_reaches c

theorem complete_reaches {l next : ReceiveLoop} {result : ReadResult} (taken : l.complete result = some next) :
    l.reception.Reaches next.reception := by
  rcases l with ⟨conn, _ | slab⟩
  · cases taken
    exact .refl _
  · cases result with
    | expired =>
      cases taken
      exact .single .expired rfl
    | failed =>
      cases taken
      exact .single .failed rfl
    | done bs =>
      simp only [complete, resume] at taken
      split at taken
      · obtain ⟨⟨last, live⟩, run, taken⟩ := Option.bind_eq_some_iff.mp taken
        have processed := Connection.processPacket_reaches run
        cases live with
        | true => exact processed.trans (loopHead_reaches taken)
        | false =>
          cases taken
          exact processed
      · exact loopHead_reaches taken

theorem completeAll_reaches {l last : ReceiveLoop} {results : List ReadResult}
    (run : l.completeAll results = some last) : l.reception.Reaches last.reception := by
  induction results generalizing l with
  | nil =>
    cases run
    exact .refl _
  | cons result results ih =>
    obtain ⟨next, taken, rest⟩ := Option.bind_eq_some_iff.mp run
    exact (complete_reaches taken).trans (ih rest)

/-- Reads that bring bytes are completions of that kind. -/
theorem readAll_eq (l : ReceiveLoop) (reads : List (List UInt8)) :
    l.readAll reads = l.completeAll (reads.map .done) := by
  rw [readAll, completeAll, List.foldlM_map]
  rfl

theorem start_reaches {seqGenerator : UInt32} {l : ReceiveLoop} (started : ReceiveLoop.start seqGenerator = some l) :
    (Reception.start seqGenerator).Reaches l.reception := loopHead_reaches started

end ReceiveLoop
end Asyncmsg
