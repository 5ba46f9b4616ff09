import Mathlib.Data.List.Induction
import SessionPool.Proofs.Session.Calls
import SessionPool.Proofs.Text.Ascii
import SessionPool.Proofs.Text.Numeral
import SessionPool.Proofs.Wire.Truncation

/-!
# Opening a session

A session is opened by commands that must be answered one after the other: a login if a credential
is set, and a selection unless the partition is the default one. What comes of them is told by what
the peer does alone (`Course`): every command is written only behind a complete reply without an
error to the one before, and the first that is answered otherwise ends the opening with its own
fault.
-/

namespace SessionPool

open Wire Delivery

namespace Target

inductive Setting
  | credential (credential : Option String)
  | timeout (timeout : Duration)
  | partition (partition : Nat)

namespace Setting

def apply (t : Target) : Setting → Target
  | credential c => t.withCredential c
  | timeout d => t.withTimeout d
  | partition n => t.withPartition n

def chosen? (settings : List Setting) : Option String :=
  settings.foldl (fun c? s => match s with | credential c => c | _ => c?) none

def chosenPartition (settings : List Setting) : Nat :=
  settings.foldl (fun n s => match s with | partition m => m | _ => n) defaultPartition

end Setting

def build (endpoint : Address) (settings : List Setting) : Target :=
  settings.foldl Setting.apply (ofEndpoint endpoint)

end Target

namespace Link

/-! ## What the peer makes of the next command -/

def arriving (l : Link) : Stream :=
  (l.incoming.extend (l.response 0).deliveries (l.response 0).behind).stream

structure Replies (l : Link) (r : Reply) : Prop where
  accepted : (l.response 0).refusal = none
  complete : ∃ w rest, l.arriving.front = w ++ rest ∧ IsFrame 0 w r

inductive Fails (l : Link) : Fault → Prop
  | refused {fault : IoFault} (h : (l.response 0).refusal = some fault) : Fails l (.io fault)
  | broken {f : Fault} (h : (l.response 0).refusal = none) (hb : Breaks l.arriving f) : Fails l f

end Link

namespace Session

variable {c : Command} {cs : List Command} {l : Link} {r : Reply} {f : Fault} {s : Session}

theorem exchange_of_accepted (h : (l.response 0).refusal = none) (c : Command) :
    (exchange c l).1 = (Reply.read l.arriving).1 := by
  rw [exchange, Link.write_of_accepted h]
  simp only [Link.read_incoming]
  rw [Link.arriving, read_view exact_stream]
  rfl

theorem exchange_of_replies (h : l.Replies r) (c : Command) : (exchange c l).1 = .ok r := by
  obtain ⟨w, rest, hfront, hw⟩ := h.complete
  rw [exchange_of_accepted h.accepted, read_stream_eq_ok.2 ⟨w, rest, hfront, hw, rfl⟩]

theorem exchange_of_fails (h : l.Fails f) (c : Command) : (exchange c l).1 = .error f := by
  cases h with
  | refused h => rw [exchange, Link.write_of_refused h]
  | broken h hb => rw [exchange_of_accepted h, hb.read_stream]

theorem replies_or_fails (l : Link) : (∃ r, l.Replies r) ∨ ∃ f, l.Fails f := by
  cases hr : (l.response 0).refusal with
  | some fault => exact .inr ⟨_, .refused hr⟩
  | none =>
    cases hread : Reply.read l.arriving with
    | mk result t =>
      cases result with
      | ok r =>
        obtain ⟨w, rest, hfront, hw, -⟩ := read_stream_eq_ok.1 hread
        exact .inl ⟨r, hr, w, rest, hfront, hw⟩
      | error f => exact .inr ⟨f, .broken hr (breaks_of_read_stream (congrArg Prod.fst hread))⟩

/-! ## Commands that must be answered -/

/-- What comes of commands each of which must be answered without an error before the next one is
written: the fault that ends them, if one does, and what is written. -/
inductive Course : List Command → Link → Option Fault → Bytes → Prop
  | finished {l : Link} : Course [] l none []
  | granted {c : Command} {cs : List Command} {l : Link} {r : Reply} {f? : Option Fault} {w : Bytes}
      (hr : l.Replies r) (hok : r.isError = false) (h : Course cs (exchange c l).2 f? w) :
    Course (c :: cs) l f? (c.frame ++ w)
  | denied {c : Command} {cs : List Command} {l : Link} {text : Bytes}
    (hr : l.Replies (.error text)) :
    Course (c :: cs) l (some (.command (Utf8.lenient text))) c.frame
  | failed {c : Command} {cs : List Command} {l : Link} {f : Fault} (h : l.Fails f) :
    Course (c :: cs) l (some f) (l.taken c.frame)

theorem exists_course (cs : List Command) (l : Link) : ∃ f? w, Course cs l f? w := by
  induction cs generalizing l with
  | nil => exact ⟨none, [], .finished⟩
  | cons c cs ih =>
    rcases replies_or_fails l with ⟨r, hr⟩ | ⟨f, hf⟩
    · cases hok : r.isError with
      | false =>
        obtain ⟨f?, w, h⟩ := ih (exchange c l).2
        exact ⟨f?, _, .granted hr hok h⟩
      | true =>
        cases r with
        | error text => exact ⟨_, _, .denied hr⟩
        | _ => cases hok
    · exact ⟨_, _, .failed hf⟩

def requireAll : List Command → Session → Except Fault Unit × Session
  | [], s => (.ok (), s)
  | c :: cs, s =>
    match s.require c with
    | (.ok (), s) => requireAll cs s
    | (.error f, s) => (.error f, s)

theorem requireAll_singleton (c : Command) (s : Session) : requireAll [c] s = s.require c := by
  rw [requireAll]
  split
  · next h =>
    rw [h]
    rfl
  · next h => exact h.symm

theorem requireAll_append (cs cs' : List Command) (s : Session) : requireAll (cs ++ cs') s =
    match requireAll cs s with
    | (.ok (), s) => requireAll cs' s
    | (.error f, s) => (.error f, s) := by
  induction cs generalizing s with
  | nil => rfl
  | cons c cs ih =>
    rw [List.cons_append, requireAll, requireAll]
    split
    · next s₁ h => rw [ih]
    · rfl

theorem prepare_eq (t : Target) (s : Session) : prepare t s =
    match requireAll (opening t) s with
    | (.ok (), s) =>
      (.ok (), { s with partition := if t.partition = 0 then s.partition else t.partition })
    | (.error f, s) => (.error f, s) := by
  have hlogin : s.login t.credential = requireAll (t.credential.map loginCommand).toList s := by
    cases t.credential with
    | none => rfl
    | some credential => exact (requireAll_singleton _ s).symm
  rw [prepare, hlogin, opening, requireAll_append]
  cases requireAll (t.credential.map loginCommand).toList s with
  | mk result s₁ =>
    cases result with
    | error f => rfl
    | ok u =>
      simp only [select]
      by_cases hp : t.partition = 0
      · simp only [if_pos hp, requireAll]
      · cases hrequire : s₁.require (selectCommand t.partition) with
        | mk result s₂ => cases result <;> simp only [if_neg hp, requireAll_singleton, hrequire]

theorem require_of_replies (h : s.link.Replies r) (hs : s.healthy = true) (hok : r.isError = false)
    (c : Command) : s.require c =
      (.ok (), { s with link := (exchange c s.link).2, operations := s.operations + 1 }) := by
  rw [require, execute_of_ok hs (Prod.ext (exchange_of_replies h c) rfl)]
  cases r <;> first | rfl | cases hok

theorem require_of_denied {text : Bytes} (h : s.link.Replies (.error text)) (hs : s.healthy = true)
    (c : Command) : ∃ s', s.require c = (.error (.command (Utf8.lenient text)), s') ∧
      s'.link = (exchange c s.link).2 := by
  rw [require, execute_of_ok hs (Prod.ext (exchange_of_replies h c) rfl)]
  exact ⟨_, rfl, rfl⟩

theorem require_of_fails (h : s.link.Fails f) (hs : s.healthy = true) (c : Command) :
    ∃ s', s.require c = (.error f, s') ∧ s'.link = (exchange c s.link).2 := by
  rw [require, execute_of_error hs (Prod.ext (exchange_of_fails h c) rfl)]
  exact ⟨_, rfl, rfl⟩

def outcome : Option Fault → Except Fault Unit
  | none => .ok ()
  | some f => .error f

theorem Course.requireAll {f? : Option Fault} {w : Bytes} (h : Course cs l f? w) (hl : s.link = l)
    (hs : s.healthy = true) : ∃ s', s.requireAll cs = (outcome f?, s') ∧
      s'.link.written = l.written ++ w ∧
      (f? = none → s' = { s with link := s'.link, operations := s.operations + cs.length }) := by
  -- by induction on the course: each command adds what it writes
  induction h generalizing s with
  | finished => exact ⟨s, rfl, by rw [hl, List.append_nil], fun _ => rfl⟩
  | @granted c cs l r f? w hr hok h ih =>
    subst hl
    obtain ⟨s', hrun, hwritten, hleft⟩ := ih (s := { s with
      link := (exchange c s.link).2, operations := s.operations + 1 }) rfl hs
    refine ⟨s', ?_, ?_, fun hf => ?_⟩
    · rw [Session.requireAll, require_of_replies hr hs hok]
      exact hrun
    · rw [hwritten, written_exchange, Link.taken, hr.accepted, List.append_assoc]
    · rw [hleft hf, List.length_cons, Nat.add_assoc, Nat.add_comm 1]
  | @denied c cs l text hr =>
    subst hl
    obtain ⟨s', hrun, hlink⟩ := require_of_denied hr hs c
    refine ⟨s', ?_, ?_, fun hnone => by cases hnone⟩
    · rw [Session.requireAll, hrun]
      rfl
    · rw [hlink, written_exchange, Link.taken, hr.accepted]
  | @failed c cs l f hf =>
    subst hl
    obtain ⟨s', hrun, hlink⟩ := require_of_fails hf hs c
    refine ⟨s', ?_, ?_, fun hnone => by cases hnone⟩
    · rw [Session.requireAll, hrun]
      rfl
    · rw [hlink, written_exchange]

/-! ## Targets that are built -/

theorem build_eq (endpoint : Address) (settings : List Target.Setting) :
    ∃ timeout, Target.build endpoint settings =
      ⟨endpoint, (Target.Setting.chosen? settings).filter fun s => !s.isEmpty, timeout,
        Target.Setting.chosenPartition settings⟩ := by
  induction settings using List.reverseRecOn with
  | nil => exact ⟨defaultTimeout, rfl⟩
  | append_singleton settings s ih =>
    obtain ⟨timeout, ih⟩ := ih
    rw [Target.build] at ih
    rw [Target.build, Target.Setting.chosen?, Target.Setting.chosenPartition, List.foldl_append,
      List.foldl_append, List.foldl_append, ih]
    cases s with
    | credential c => exact ⟨timeout, rfl⟩
    | timeout d => exact ⟨d, rfl⟩
    | partition n => exact ⟨timeout, rfl⟩

theorem words_selectCommand (n : Nat) : (selectCommand n).words =
    [asciiBytes "SELECT".toList, asciiBytes (Numeral.ofNat n)] := by
  have hdigits (c : Char) (h : c ∈ Numeral.ofNat n) : c.toNat < 0x80 := by
    have hc := Char.isDigit_iff_toNat.1 (Numeral.isDigit_of_mem_ofNat h)
    have hnine : '9'.toNat = 0x39 := rfl
    omega
  have hargs : (selectCommand n).words =
    [Utf8.encode "SELECT", Utf8.encode (String.ofList (Numeral.ofNat n))] := rfl
  rw [hargs, encode_ofList_of_lt hdigits]
  rfl

theorem establish_of_connect {network : Network} {t : Target} {l : Link}
    (h : network.connect t.endpoint t.timeout.nonZero? = .ok l) :
    establish network t = (prepare t (ofLink t l)).1.map fun _ => (prepare t (ofLink t l)).2 := by
  rw [establish, h]
  simp only
  cases prepare t (ofLink t l) with
  | mk result s => cases result <;> rfl

theorem words_opening (endpoint : Address) (settings : List Target.Setting) :
    (opening (Target.build endpoint settings)).map Command.words =
      (match Target.Setting.chosen? settings with
        | some c => if c = "" then [] else [[asciiBytes "AUTH".toList, Utf8.encode c]]
        | none => []) ++
      if Target.Setting.chosenPartition settings = 0 then []
      else [[asciiBytes "SELECT".toList,
        asciiBytes (Numeral.ofNat (Target.Setting.chosenPartition settings))]] := by
  obtain ⟨timeout, ht⟩ := build_eq endpoint settings
  rw [opening, List.map_append, ht]
  congr 1
  · cases Target.Setting.chosen? settings with
    | none => rfl
    | some c => by_cases hc : c = "" <;> simp [hc]; rfl
  · simp only
    split
    · rfl
    · rw [List.map_singleton, words_selectCommand]

theorem establish_of_course {network : Network} {t : Target} {l : Link}
    (hconnect : network.connect t.endpoint t.timeout.nonZero? = .ok l) :
    ∀ f? w, Course (opening t) (ofLink t l).link f? w →
      (prepare t (ofLink t l)).2.link.written = l.written ++ w ∧
      match f? with
      | none => ∃ s, establish network t = .ok s ∧ s.link = (prepare t (ofLink t l)).2.link ∧
        s.healthy = true ∧ s.partition = t.partition ∧ s.operations = (opening t).length
      | some f => establish network t = .error f := by
  intro f? w h
  obtain ⟨s, hrun, hwritten, hopen⟩ := h.requireAll rfl rfl
  have hprepare := prepare_eq t (ofLink t l)
  rw [hrun] at hprepare
  rw [establish_of_connect hconnect]
  cases f? with
  | none =>
    rw [hprepare]
    refine ⟨hwritten, _, rfl, rfl, ?_, ?_, ?_⟩
    · rw [hopen rfl]
      rfl
    · rw [hopen rfl]
      change (if t.partition = 0 then 0 else t.partition) = t.partition
      split <;> omega
    · rw [hopen rfl]
      exact Nat.zero_add _
  | some f =>
    rw [hprepare]
    exact ⟨hwritten, rfl⟩

/-- Opening a session writes a login with the credential that was chosen, if one was and is not
empty, and behind it a selection of the partition that was chosen, if it is not the default one;
each of them only behind a complete reply without an error to the one before. With such replies to
all of them, and only then, the session is open. Otherwise the opening fails as the first other
answer says, and nothing more is written. -/
theorem establish_course (endpoint : Address) (settings : List Target.Setting) {network : Network}
    {l : Link} (h : network.connect endpoint
      (Target.build endpoint settings).timeout.nonZero? = .ok l) :
    let t := Target.build endpoint settings
    let n := Target.Setting.chosenPartition settings
    ((opening t).map Command.words =
      (match Target.Setting.chosen? settings with
        | some c => if c = "" then [] else [[asciiBytes "AUTH".toList, Utf8.encode c]]
        | none => []) ++
      if n = 0 then [] else [[asciiBytes "SELECT".toList, asciiBytes (Numeral.ofNat n)]]) ∧
    (∃ f? w, Course (opening t) (ofLink t l).link f? w) ∧
    ((∃ s, establish network t = .ok s) ↔ ∃ w, Course (opening t) (ofLink t l).link none w) ∧
    ∀ f? w, Course (opening t) (ofLink t l).link f? w →
      (prepare t (ofLink t l)).2.link.written = l.written ++ w ∧
      match f? with
      | none => ∃ s, establish network t = .ok s ∧ s.link = (prepare t (ofLink t l)).2.link ∧
        s.healthy = true ∧ s.partition = n ∧ s.operations = (opening t).length
      | some f => establish network t = .error f := by
  intro t n
  obtain ⟨timeout, ht⟩ := build_eq endpoint settings
  have hconnect : network.connect t.endpoint t.timeout.nonZero? = .ok l := by
    rwa [show t.endpoint = endpoint from congrArg Target.endpoint ht]
  have hn : t.partition = n := congrArg Target.partition ht
  have hends := establish_of_course hconnect
  refine ⟨words_opening endpoint settings, exists_course _ _, ⟨?_, ?_⟩, hn ▸ hends⟩
  · rintro ⟨s, hs⟩
    obtain ⟨f?, w, hcourse⟩ := exists_course (opening t) (ofLink t l).link
    cases f? with
    | none => exact ⟨w, hcourse⟩
    | some f =>
      rw [(hends _ _ hcourse).2] at hs
      cases hs
  · rintro ⟨w, hcourse⟩
    exact (hends _ _ hcourse).2.imp fun _ hs => hs.1

theorem establish_course_denied :
    let l : Link := { script := [
      { deliveries := [.bytes [0x2B], .failure ⟨.interrupted, ""⟩, .bytes [0x0D, 0x0A]] },
      .ofBytes [0x2D, 0x4E, 0xFF, 0x0D, 0x0A]] }
    let network : Network := ⟨fun _ _ => .ok l⟩
    let t := Target.build ⟨"peer", 1⟩ [.credential (some "k"), .partition 10]
    let w := (loginCommand "k").frame ++ (selectCommand 10).frame
    network.connect ⟨"peer", 1⟩ t.timeout.nonZero? = .ok l ∧
    Course (opening t) (ofLink t l).link (some (.command "N\uFFFD")) w ∧
    (prepare t (ofLink t l)).2.link.written = w ∧
    establish network t = .error (.command "N\uFFFD") := by
  intro l network t w
  have hconnect : network.connect ⟨"peer", 1⟩ t.timeout.nonZero? = .ok l := rfl
  have hlogin : (ofLink t l).link.Replies (.status []) :=
    ⟨rfl, [0x2B, 0x0D, 0x0A], [], rfl, isFrame_of_read rfl⟩
  have hselect : (exchange (loginCommand "k") (ofLink t l).link).2.Replies (.error [0x4E, 0xFF]) :=
    ⟨rfl, [0x2D, 0x4E, 0xFF, 0x0D, 0x0A], [], rfl, isFrame_of_read rfl⟩
  have hcourse : Course (opening t) (ofLink t l).link (some (.command "N\uFFFD")) w :=
    .granted hlogin rfl (.denied hselect)
  obtain ⟨-, -, -, hends⟩ :=
    establish_course ⟨"peer", 1⟩ [.credential (some "k"), .partition 10] hconnect
  obtain ⟨hwritten, hfault⟩ := hends _ _ hcourse
  exact ⟨hconnect, hcourse, hwritten, hfault⟩

end Session

end SessionPool
