import SessionPool.Proofs.Wire.Deliveries
import SessionPool.Session.Basic

/-!
# What one exchange does

A link has received some bytes and will receive more for every command that is written to it. An
exchange without a fault writes the command and takes the frame of its reply from the front of these
bytes, and nothing else; an exchange with a fault may have written part of a command.
-/

namespace SessionPool

open Wire Delivery

namespace Wire.Stream

def bytes (s : Stream) : Bytes := s.front ++ s.stops.flatMap Prod.snd

theorem bytes_prepend (data : Bytes) (s : Stream) : (s.prepend data).bytes = data ++ s.bytes :=
  List.append_assoc ..

theorem bytes_ofDeliveries (behind : Option IoFault) (ds : List Delivery) :
    (ofDeliveries behind ds).bytes = sent ds := by
  induction ds with
  | nil => rfl
  | cons d ds ih =>
    cases d with
    | bytes data =>
      rw [ofDeliveries, bytes_prepend, ih]
      rfl
    | failure fault =>
      rw [ofDeliveries]
      split
      · exact ih
      · exact ih

end Wire.Stream

namespace Feed

def pending (f : Feed) : Bytes := f.buffer ++ sent f.upcoming

theorem bytes_stream (f : Feed) : f.stream.bytes = f.pending := by
  rw [stream, Stream.bytes_prepend, Stream.bytes_ofDeliveries]
  rfl

def extend (f : Feed) (ds : List Delivery) (behind : Option IoFault) : Feed :=
  { f with upcoming := f.upcoming ++ ds, behind }

theorem pending_extend (f : Feed) (ds : List Delivery) (behind : Option IoFault) :
    (f.extend ds behind).pending = f.pending ++ sent ds := by
  simp [extend, pending, sent]

theorem stream_extend {f : Feed} (h : f.stream.stops = []) (ds : List Delivery)
    (behind : Option IoFault) :
    (f.extend ds behind).stream = (Stream.ofDeliveries behind ds).prepend f.stream.front := by
  rw [stream, extend, stream_append h]
  exact (Stream.prepend_append ..).symm

theorem read_eq_ok {f f' : Feed} {r : Reply} (h : Reply.read f = (.ok r, f')) :
    ∃ w, IsFrame 0 w r ∧ f.pending = w ++ f'.pending := by
  have hview := read_view exact_stream f
  rw [h] at hview
  obtain ⟨w, rest, hfront, hw, hrest⟩ := read_stream_eq_ok.1 hview
  refine ⟨w, hw, ?_⟩
  rw [← bytes_stream, ← bytes_stream, show f'.stream = _ from hrest, Stream.bytes, hfront,
    List.append_assoc]
  rfl

theorem read_of_stream {f : Feed} {t : Stream} {r : Reply} (h : Reply.read f.stream = (.ok r, t)) :
    ∃ f', Reply.read f = (.ok r, f') ∧ f'.stream = t := by
  rw [read_view exact_stream] at h
  cases hread : Reply.read f with
  | mk result f' =>
    rw [hread] at h
    cases h
    exact ⟨f', rfl, rfl⟩

end Feed

namespace Link

theorem read_incoming (l : Link) : Reply.read l =
    ((Reply.read l.incoming).1, { l with incoming := (Reply.read l.incoming).2 }) :=
  read_view (exact_link l) l.incoming

def answered (frame : Bytes) (l : Link) : Link :=
  { l with
    script := l.script.tail
    written := l.written ++ frame
    incoming := l.incoming.extend (l.response 0).deliveries (l.response 0).behind }

theorem write_of_accepted {l : Link} (h : (l.response 0).refusal = none) (frame : Bytes) :
    l.write frame = (.ok (), l.answered frame) := by
  rw [write]
  simp only [h]
  rfl

theorem write_of_refused {l : Link} {fault : IoFault} (h : (l.response 0).refusal = some fault)
    (frame : Bytes) : l.write frame = (.error fault, { l with
      script := l.script.tail, written := l.written ++ frame.take (l.response 0).taken }) := by
  rw [write]
  simp only [h]

def taken (frame : Bytes) (l : Link) : Bytes :=
  match (l.response 0).refusal with
  | none => frame
  | some _ => frame.take (l.response 0).taken

theorem taken_prefix (l : Link) (frame : Bytes) : l.taken frame <+: frame := by
  rw [taken]
  split
  · exact List.prefix_refl frame
  · exact List.take_prefix _ frame

theorem response_of_tail {l l' : Link} (hs : l'.script = l.script.tail)
    (ha : l'.afterwards = l.afterwards) (i : Nat) : l'.response i = l.response (i + 1) := by
  rw [response, response, hs, ha, List.getElem?_tail]

end Link

namespace Session

variable {c : Command} {l l' : Link} {r : Reply}

/-- What an exchange without a fault changes on its link. -/
structure Exchanged (c : Command) (r : Reply) (l l' : Link) : Prop where
  written : l'.written = l.written ++ c.frame
  received : ∃ w, IsFrame 0 w r ∧
    l.incoming.pending ++ sent (l.response 0).deliveries = w ++ l'.incoming.pending
  response : ∀ i, l'.response i = l.response (i + 1)

theorem exchange_eq_ok (h : exchange c l = (.ok r, l')) : Exchanged c r l l' := by
  cases hr : (l.response 0).refusal with
  | some fault =>
    rw [exchange, Link.write_of_refused hr] at h
    cases h
  | none =>
    rw [exchange, Link.write_of_accepted hr] at h
    simp only [Link.read_incoming] at h
    obtain ⟨hread, rfl⟩ := Prod.mk.inj h
    obtain ⟨w, hw, hpending⟩ := Feed.read_eq_ok (Prod.ext hread rfl)
    rw [show (l.answered c.frame).incoming = l.incoming.extend _ _ from rfl, Feed.pending_extend]
      at hpending
    exact ⟨rfl, ⟨w, hw, hpending⟩, Link.response_of_tail rfl rfl⟩

theorem written_exchange (c : Command) (l : Link) :
    (exchange c l).2.written = l.written ++ l.taken c.frame := by
  rw [Link.taken]
  cases hr : (l.response 0).refusal with
  | some fault => rw [exchange, Link.write_of_refused hr]
  | none =>
    rw [exchange, Link.write_of_accepted hr]
    simp only [Link.read_incoming]
    rfl

theorem exchange_eq_error {f : Fault} (h : exchange c l = (.error f, l')) :
    ∃ part, part <+: c.frame ∧ l'.written = l.written ++ part := by
  have hwritten := written_exchange c l
  rw [h] at hwritten
  exact ⟨l.taken c.frame, l.taken_prefix c.frame, hwritten⟩

end Session

end SessionPool
