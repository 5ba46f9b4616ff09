import SessionPool.Proofs.Session.Exchange

/-!
# Sequences of calls

The calls on a session succeed up to some point and fail from there on. In front of that point every
call has written its command and taken the next frame that was received; behind it nothing is
written or read.
-/

namespace SessionPool

open Wire Delivery

def Link.received (n : Nat) (l : Link) : Bytes :=
  l.incoming.pending ++ (List.range n).flatMap fun i => sent (l.response i).deliveries

/-- The peer takes a command and sends one frame of the reply and nothing else, in any deliveries.
-/
structure Response.Sends (response : Response) (reply : Reply) : Prop where
  accepted : response.refusal = none
  passes : ∀ d ∈ response.deliveries, d.Passes
  frame : IsFrame 0 (sent response.deliveries) reply

/-- The peer sends nothing of its own, and for each of the next commands the frame of one reply. -/
structure Link.Answers (l : Link) (replies : List Reply) : Prop where
  silent : l.incoming.stream.front = [] ∧ l.incoming.stream.stops = []
  sends : ∀ i r, replies[i]? = some r → (l.response i).Sends r

namespace Session

variable {c : Command} {cs : List Command} {r : Reply} {rs : List Reply} {s s' : Session}

def perform : List Command → Session → List (Except Fault Reply) × Session
  | [], s => ([], s)
  | c :: cs, s =>
    ((s.execute c).1 :: (perform cs (s.execute c).2).1, (perform cs (s.execute c).2).2)

theorem perform_append (cs cs' : List Command) (s : Session) : s.perform (cs ++ cs') =
    ((s.perform cs).1 ++ ((s.perform cs).2.perform cs').1, ((s.perform cs).2.perform cs').2) := by
  induction cs generalizing s with
  | nil => rfl
  | cons c cs ih => rw [List.cons_append, perform, perform, ih, List.cons_append]

theorem length_perform (cs : List Command) (s : Session) : (s.perform cs).1.length = cs.length := by
  induction cs generalizing s with
  | nil => rfl
  | cons c cs ih => rw [perform, List.length_cons, List.length_cons, ih]

theorem execute_of_failed (h : s.healthy = false) (c : Command) : s.execute c =
    (.error (.protocol .sessionFailed), { s with operations := s.operations + 1 }) := by
  simp [execute, h]

theorem operations_execute (c : Command) (s : Session) :
    (s.execute c).2.operations = s.operations + 1 := by
  rw [execute]
  dsimp only
  split
  · split <;> rfl
  · rfl

theorem operations_perform (cs : List Command) (s : Session) :
    (s.perform cs).2.operations = s.operations + cs.length := by
  induction cs generalizing s with
  | nil => rfl
  | cons c cs ih =>
    rw [perform, ih, operations_execute, List.length_cons]
    omega

theorem perform_of_failed (h : s.healthy = false) (cs : List Command) : s.perform cs =
    (List.replicate cs.length (.error (.protocol .sessionFailed)),
      { s with operations := s.operations + cs.length }) := by
  induction cs generalizing s with
  | nil => rfl
  | cons c cs ih =>
    rw [perform, execute_of_failed h]
    dsimp only
    rw [ih (s := { s with operations := s.operations + 1 }) h, List.length_cons,
      List.replicate_succ, Nat.add_assoc, Nat.add_comm 1]

theorem execute_of_ok {l : Link} (h : s.healthy = true) (hx : exchange c s.link = (.ok r, l)) :
    s.execute c = (.ok r, { s with link := l, operations := s.operations + 1 }) := by
  simp [execute, h, hx]

theorem execute_of_error {l : Link} {f : Fault} (h : s.healthy = true)
    (hx : exchange c s.link = (.error f, l)) : s.execute c =
      (.error f, { s with link := l, healthy := false, operations := s.operations + 1 }) := by
  simp [execute, h, hx]

/-! ## Calls without a fault -/

structure Performed (cs : List Command) (rs : List Reply) (s s' : Session) : Prop where
  perform : s.perform cs = (rs.map .ok, s')
  healthy : s'.healthy = true
  written : s'.link.written = s.link.written ++ cs.flatMap Command.frame
  received : ∃ ws, AreFrames 0 ws rs ∧ s.link.received rs.length = ws ++ s'.link.incoming.pending

theorem Performed.length (h : Performed cs rs s s') : rs.length = cs.length := by
  rw [← length_perform cs s, h.perform, List.length_map]

theorem Performed.nil (h : s.healthy = true) : Performed [] [] s s where
  perform := rfl
  healthy := h
  written := (List.append_nil _).symm
  received := ⟨[], .nil, by simp [Link.received]⟩

theorem Performed.cons {s₁ : Session} (hc : s.execute c = (.ok r, s₁))
    (hx : Exchanged c r s.link s₁.link) (h : Performed cs rs s₁ s') :
    Performed (c :: cs) (r :: rs) s s' where
  perform := by rw [Session.perform, hc, h.perform, List.map_cons]
  healthy := h.healthy
  written := by rw [h.written, hx.written, List.flatMap_cons, List.append_assoc]
  received := by
    obtain ⟨w, hw, hfirst⟩ := hx.received
    obtain ⟨ws, hws, hrest⟩ := h.received
    refine ⟨w ++ ws, .cons hw hws, ?_⟩
    have hlater : (List.range rs.length).flatMap
        (fun i => sent (s.link.response (i + 1)).deliveries) =
        (List.range rs.length).flatMap fun i => sent (s₁.link.response i).deliveries := by
      simp only [hx.response]
    rw [Link.received, List.length_cons, List.range_succ_eq_map, List.flatMap_cons,
      List.flatMap_map, hlater, ← List.append_assoc, hfirst, List.append_assoc, List.append_assoc,
      ← hrest, Link.received]

theorem perform_split (h : s.healthy = true) (cs : List Command) :
    ∃ rs s₁, Performed (cs.take rs.length) rs s s₁ ∧
      (rs.length = cs.length ∨ ∃ c left f l, cs = cs.take rs.length ++ c :: left ∧
        exchange c s₁.link = (.error f, l)) := by
  -- by recursion on the commands: all of them succeed, or those up to the first one that fails
  induction cs generalizing s with
  | nil => exact ⟨[], s, .nil h, .inl rfl⟩
  | cons c cs ih =>
    cases hx : exchange c s.link with
    | mk result l =>
      cases result with
      | ok r =>
        obtain ⟨rs, s₁, hdone, hleft⟩ :=
          ih (s := { s with link := l, operations := s.operations + 1 }) h
        refine ⟨r :: rs, s₁, .cons (execute_of_ok h hx) (exchange_eq_ok hx) hdone, ?_⟩
        rcases hleft with hall | ⟨c', left, f, l', hcs, hx'⟩
        · exact .inl (congrArg Nat.succ hall)
        · exact .inr ⟨c', left, f, l', congrArg (c :: ·) hcs, hx'⟩
      | error f => exact ⟨[], s, .nil h, .inr ⟨c, cs, f, l, rfl, hx⟩⟩

theorem perform_failing {done : List Command} {s₁ : Session} {f : Fault} {l : Link}
    (h : Performed done rs s s₁) (hx : exchange c s₁.link = (.error f, l)) (more : List Command) :
    s.perform (done ++ c :: more) =
      (rs.map .ok ++ .error f :: List.replicate more.length (.error (.protocol .sessionFailed)),
        { s₁ with
          link := l, healthy := false, operations := s₁.operations + 1 + more.length }) := by
  rw [perform_append, h.perform, perform, execute_of_error h.healthy hx]
  dsimp only
  rw [perform_of_failed rfl]

theorem healthy_perform (h : s.healthy = true) (cs : List Command) :
    (s.perform cs).2.healthy = true ↔ ∀ result ∈ (s.perform cs).1, ∃ r, result = .ok r := by
  obtain ⟨rs, s₁, hdone, hall | ⟨c, more, f, l, hcs, hx⟩⟩ := perform_split h cs
  · rw [List.take_of_length_le (Nat.le_of_eq hall.symm)] at hdone
    rw [hdone.perform]
    simp [hdone.healthy]
  · rw [hcs, perform_failing hdone hx more]
    refine iff_of_false (by simp) fun hok => ?_
    obtain ⟨r, hr⟩ := hok (.error f) (by simp)
    cases hr

/-! ## A peer that answers -/

theorem exchange_of_answers {l : Link} (h : l.Answers (r :: rs)) (c : Command) :
    ∃ l', exchange c l = (.ok r, l') ∧ l'.Answers rs := by
  have hsends := h.sends 0 r rfl
  have hstream : (l.answered c.frame).incoming.stream =
      { front := sent (l.response 0).deliveries, behind := (l.response 0).behind } := by
    rw [show (l.answered c.frame).incoming = l.incoming.extend _ _ from rfl,
      Feed.stream_extend h.silent.2, stream_passing hsends.passes, h.silent.1, Stream.prepend_nil]
  have hread : Reply.read (l.answered c.frame).incoming.stream =
      (.ok r, { front := [], behind := (l.response 0).behind }) := by
    rw [hstream]
    exact read_stream_eq_ok.2 ⟨_, [], (List.append_nil _).symm, hsends.frame, rfl⟩
  obtain ⟨f, hf, hleft⟩ := Feed.read_of_stream hread
  have hex : exchange c l = (.ok r, { l.answered c.frame with incoming := f }) := by
    rw [exchange, Link.write_of_accepted hsends.accepted]
    simp only [Link.read_incoming, hf]
  refine ⟨_, hex, ⟨?_, fun i r' hi => ?_⟩⟩
  · dsimp only
    rw [hleft]
    exact ⟨rfl, rfl⟩
  · rw [(exchange_eq_ok hex).response]
    exact h.sends (i + 1) r' hi

theorem perform_of_answers {rs' : List Reply} (hs : s.healthy = true)
    (h : s.link.Answers (rs ++ rs')) (hlen : rs.length = cs.length) :
    (s.perform cs).1 = rs.map .ok ∧ (s.perform cs).2.link.Answers rs' := by
  induction cs generalizing s rs with
  | nil =>
    obtain rfl := List.length_eq_zero_iff.1 hlen
    exact ⟨rfl, h⟩
  | cons c cs ih =>
    cases rs with
    | nil => cases hlen
    | cons r rs =>
      obtain ⟨l, hl, hanswers⟩ := exchange_of_answers h c
      rw [perform, execute_of_ok hs hl]
      obtain ⟨hrs, hrest⟩ := ih (s := { s with link := l, operations := s.operations + 1 }) hs
        hanswers (Nat.succ.inj hlen)
      exact ⟨by rw [hrs, List.map_cons], hrest⟩

/-! ## Sessions that were opened -/

def opening (t : Target) : List Command :=
  (t.credential.map loginCommand).toList ++
    if t.partition = 0 then [] else [selectCommand t.partition]

theorem perform_singleton (h : s.execute c = (.ok r, s')) : s.perform [c] = ([.ok r], s') := by
  rw [perform, h]
  rfl

theorem require_eq_ok (h : s.require c = (.ok (), s')) : ∃ r, s.execute c = (.ok r, s') := by
  rw [require] at h
  split at h
  · next r s₁ hc =>
    obtain ⟨-, rfl⟩ := Prod.mk.inj h
    exact ⟨r, hc⟩
  · cases h

theorem login_eq_ok {credential : Option String} (h : s.login credential = (.ok (), s')) :
    ∃ rs : List Reply, s.perform (credential.map loginCommand).toList = (rs.map .ok, s') := by
  cases credential with
  | none =>
    cases h
    exact ⟨[], rfl⟩
  | some credential =>
    obtain ⟨r, hr⟩ := require_eq_ok h
    exact ⟨[r], perform_singleton hr⟩

theorem select_eq_ok {partition : Nat} (h : s.select partition = (.ok (), s')) :
    ∃ (rs : List Reply) (s₁ : Session),
      s.perform (if partition = 0 then [] else [selectCommand partition]) = (rs.map .ok, s₁) ∧
      s' = { s₁ with partition := s'.partition } := by
  rw [select] at h
  split at h
  · next hp =>
    cases h
    exact ⟨[], s, by rw [if_pos hp]; rfl, rfl⟩
  · next hp =>
    split at h
    · next s₁ hs₁ =>
      obtain ⟨r, hr⟩ := require_eq_ok hs₁
      cases h
      exact ⟨[r], s₁, by rw [if_neg hp, perform_singleton hr]; rfl, rfl⟩
    · cases h

theorem establish_eq_ok {network : Network} {t : Target} (h : establish network t = .ok s) :
    ∃ (l : Link) (rs : List Reply) (s₁ : Session),
      network.connect t.endpoint t.timeout.nonZero? = .ok l ∧
      (ofLink t l).perform (opening t) = (rs.map .ok, s₁) ∧
      s = { s₁ with partition := s.partition } := by
  rw [establish] at h
  split at h
  · next l hl =>
    split at h
    · next s₀ hprepare =>
      cases h
      rw [prepare] at hprepare
      split at hprepare
      · next s₁ hlogin =>
        obtain ⟨rs, hrs⟩ := login_eq_ok hlogin
        obtain ⟨rs', s₂, hrs', hs⟩ := select_eq_ok hprepare
        exact ⟨l, rs ++ rs', s₂, hl,
          by rw [opening, perform_append, hrs, hrs', List.map_append], hs⟩
      · cases hprepare
    · cases h
  · cases h

theorem healthy_of_establish {network : Network} {t : Target} (h : establish network t = .ok s) :
    s.healthy = true := by
  obtain ⟨l, rs, s₁, -, hopen, hs⟩ := establish_eq_ok h
  have hhealthy := (healthy_perform (s := ofLink t l) rfl (opening t)).2 (by simp [hopen])
  rw [hs]
  rwa [hopen] at hhealthy

theorem answers_of_establish {network : Network} {t : Target} {l : Link} {greetings : List Reply}
    (h : establish network t = .ok s) (hl : network.connect t.endpoint t.timeout.nonZero? = .ok l)
    (hlen : greetings.length = (opening t).length) (ha : l.Answers (greetings ++ rs)) :
    s.link.Answers rs := by
  obtain ⟨l', rs', s₁, hl', hopen, hs⟩ := establish_eq_ok h
  cases hl.symm.trans hl'
  have hrest := (perform_of_answers (s := ofLink t l) rfl ⟨ha.silent, ha.sends⟩ hlen).2
  rw [hs]
  rwa [hopen] at hrest

/-- Calls on a session that was opened take the next frames that are received, in order, up to the
first call that fails. It leaves the session failed: the calls behind it write and read nothing.
With a peer that sends one frame for every command, each call returns the reply to its own command.
-/
theorem calls_pair {network : Network} {t : Target} {s : Session}
    (h : establish network t = .ok s) (cs : List Command) :
    (s.perform cs).1.length = cs.length ∧
    (s.perform cs).2.operations = s.operations + cs.length ∧
    ((s.perform cs).2.healthy = true ↔ ∀ result ∈ (s.perform cs).1, ∃ r, result = .ok r) ∧
    (∃ (done left : List Command) (rs : List Reply), cs = done ++ left ∧
      (s.perform done).1 = rs.map .ok ∧
      (∃ ws, AreFrames 0 ws rs ∧
        s.link.received rs.length = ws ++ (s.perform done).2.link.incoming.pending) ∧
      (s.perform done).2.link.written = s.link.written ++ done.flatMap Command.frame ∧
      ∀ c more, left = c :: more → ∃ f part,
        (s.perform cs).1 = rs.map .ok ++
          .error f :: List.replicate more.length (.error (.protocol .sessionFailed)) ∧
        (s.perform (done ++ [c])).2.healthy = false ∧
        (s.perform cs).2.link = (s.perform (done ++ [c])).2.link ∧
        part <+: c.frame ∧
        (s.perform cs).2.link.written = s.link.written ++ done.flatMap Command.frame ++ part) ∧
    ∀ (l : Link) (greetings rs : List Reply),
      network.connect t.endpoint t.timeout.nonZero? = .ok l →
      greetings.length = (opening t).length → rs.length = cs.length → l.Answers (greetings ++ rs) →
      (s.perform cs).1 = rs.map .ok := by
  have hs := healthy_of_establish h
  refine ⟨length_perform cs s, operations_perform cs s, healthy_perform hs cs, ?_, ?_⟩
  · obtain ⟨rs, s₁, hdone, hleft⟩ := perform_split hs cs
    refine ⟨_, cs.drop rs.length, rs, (List.take_append_drop ..).symm, ?_, ?_, ?_, ?_⟩
    · rw [hdone.perform]
    · rw [hdone.perform]
      exact hdone.received
    · rw [hdone.perform]
      exact hdone.written
    · intro c more hcm
      obtain hall | ⟨c', more', f, l, hcs, hx⟩ := hleft
      · rw [List.drop_of_length_le (Nat.le_of_eq hall.symm)] at hcm
        cases hcm
      · have hsame : c :: more = c' :: more' := by
          rw [← hcm]
          exact List.append_cancel_left ((List.take_append_drop ..).trans hcs)
        cases hsame
        obtain ⟨part, hpart, hwritten⟩ := exchange_eq_error hx
        have hfirst := perform_failing hdone hx []
        have hall := perform_failing hdone hx more
        rw [← hcs] at hall
        rw [hall, hfirst]
        exact ⟨f, part, rfl, rfl, rfl, hpart, by rw [← hdone.written]; exact hwritten⟩
  · intro l greetings rs hl hgreet hlen ha
    have hrest : s.link.Answers (rs ++ []) := by
      rw [List.append_nil]
      exact answers_of_establish h hl hgreet ha
    exact (perform_of_answers hs hrest hlen).1

theorem isFrame_of_read {w : Bytes} (h : Reply.read w = (.ok r, [])) : IsFrame 0 w r := by
  obtain ⟨w', hw', hframe⟩ := Wire.read_eq_ok.1 h
  rw [hw', List.append_nil]
  exact hframe

theorem calls_pair_closed_connection :
    let c := Command.ofName "PING"
    let l : Link := { script := [.okay,
      { deliveries := [.bytes [0x3A], .failure ⟨.interrupted, ""⟩, .bytes [0x31, 0x0D, 0x0A]] },
      .ofBytes [0x2D, 0x4E, 0x0D, 0x0A], .closing [0x2B, 0x4F]] }
    let network : Network := ⟨fun _ _ => .ok l⟩
    let t : Target := { endpoint := ⟨"peer", 1⟩, partition := 3 }
    l.Answers [.status [0x4F, 0x4B], .integer 1, .error [0x4E]] ∧
    ∃ s, establish network t = .ok s ∧ s.operations = 1 ∧
      (s.perform [c, c]).1 = [.ok (.integer 1), .ok (.error [0x4E])] ∧
      (s.perform [c, c, c, c]).1 = [.ok (.integer 1), .ok (.error [0x4E]),
        .error (.protocol .unterminatedLine), .error (.protocol .sessionFailed)] ∧
      (s.perform [c, c, c, c]).2.operations = 5 ∧
      (s.perform [c, c, c, c]).2.healthy = false := by
  intro c l network t
  have hanswers : l.Answers [.status [0x4F, 0x4B], .integer 1, .error [0x4E]] := by
    refine ⟨⟨rfl, rfl⟩, fun i r hi => ?_⟩
    match i with
    | 0 =>
      cases hi
      exact ⟨rfl, by decide, isFrame_of_read rfl⟩
    | 1 =>
      cases hi
      exact ⟨rfl, by decide, isFrame_of_read rfl⟩
    | 2 =>
      cases hi
      exact ⟨rfl, by decide, isFrame_of_read rfl⟩
    | i + 3 => cases hi
  let s : Session := ⟨{ l with
    script := l.script.tail
    written := (selectCommand 3).frame
    incoming := { behind := some .readTimedOut }
    timeLimit := t.timeout.nonZero? }, t.endpoint, 3, true, 1⟩
  have hs : establish network t = .ok s := rfl
  have hresults : (s.perform [c, c, c, c]).1 = [.ok (.integer 1), .ok (.error [0x4E]),
    .error (.protocol .unterminatedLine), .error (.protocol .sessionFailed)] := rfl
  obtain ⟨-, -, -, -, hpair⟩ := calls_pair hs [c, c]
  obtain ⟨-, hcount, hhealthy, -⟩ := calls_pair hs [c, c, c, c]
  refine ⟨hanswers, s, hs, rfl, ?_, hresults, hcount, ?_⟩
  · exact hpair l [.status [0x4F, 0x4B]] [.integer 1, .error [0x4E]] rfl rfl rfl hanswers
  · rw [← Bool.not_eq_true, hhealthy, hresults]
    simp

end Session

end SessionPool
