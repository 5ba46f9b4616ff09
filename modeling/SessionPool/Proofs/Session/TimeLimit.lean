import SessionPool.Proofs.Session.Calls

/-!
# Under which time limit a session is opened

The timeout of a target is the limit of everything a session waits for: of connecting, of the
commands that open it, and of all that follow. No limit at all stands for a timeout of zero.
Settings hold whole milliseconds, so a duration from settings is never longer than the one that was
given, and it is zero for everything below a millisecond.
-/

namespace SessionPool

namespace Duration

theorem nanos_cut (d : Duration) :
    (ofMillis d.millis).nanos = min (d.nanos / 1000000) (UInt64.size - 1) * 1000000 := by
  have hlt : min (d.nanos / 1000000) (UInt64.size - 1) < 2 ^ 64 :=
    Nat.lt_of_le_of_lt (Nat.min_le_right _ _) (by decide)
  rw [ofMillis, millis, UInt64.toNat_ofNat', Nat.mod_eq_of_lt hlt]

theorem cut_le (d : Duration) : (ofMillis d.millis).nanos ≤ d.nanos := by
  rw [nanos_cut]
  have hmin := Nat.min_le_left (d.nanos / 1000000) (UInt64.size - 1)
  omega

theorem nonZero?_eq_none {d : Duration} : d.nonZero? = none ↔ d.nanos = 0 := by
  simp [nonZero?, isZero]

theorem nonZero?_eq_some {d limit : Duration} (h : d.nonZero? = some limit) :
    limit = d ∧ 0 < d.nanos := by
  by_cases hzero : d.nanos = 0
  · rw [nonZero?_eq_none.2 hzero] at h
    cases h
  · rw [nonZero?, isZero, if_neg (by simpa using hzero)] at h
    cases h
    exact ⟨rfl, Nat.pos_of_ne_zero hzero⟩

theorem nonZero?_cut {d : Duration} : (ofMillis d.millis).nonZero? = none ↔ d.nanos < 1000000 := by
  have hsize : UInt64.size = 18446744073709551616 := rfl
  rw [nonZero?_eq_none, nanos_cut]
  omega

end Duration

namespace Session

/-! ## The limit stays with the link -/

theorem timeLimit_exchange (c : Command) (l : Link) : (exchange c l).2.timeLimit = l.timeLimit := by
  cases hr : (l.response 0).refusal with
  | some fault => rw [exchange, Link.write_of_refused hr]
  | none =>
    rw [exchange, Link.write_of_accepted hr]
    simp only [Link.read_incoming]
    rfl

theorem timeLimit_execute (c : Command) (s : Session) :
    (s.execute c).2.link.timeLimit = s.link.timeLimit := by
  have hx := timeLimit_exchange c s.link
  cases hs : s.healthy with
  | false => rw [execute_of_failed hs]
  | true =>
    cases he : exchange c s.link with
    | mk result l =>
      rw [he] at hx
      cases result with
      | ok r =>
        rw [execute_of_ok hs he]
        exact hx
      | error f =>
        rw [execute_of_error hs he]
        exact hx

theorem timeLimit_perform (cs : List Command) (s : Session) :
    (s.perform cs).2.link.timeLimit = s.link.timeLimit := by
  induction cs generalizing s with
  | nil => rfl
  | cons c cs ih => rw [perform, ih, timeLimit_execute]

/-! ## The limit of a target -/

/-- Sessions to a target wait within a limit, or without one; it makes no difference what connecting
does under any other limit. -/
structure WaitsWithin (t : Target) (limit : Option Duration) : Prop where
  connecting : ∀ network : Network,
    establish network t = establish ⟨fun endpoint _ => network.connect endpoint limit⟩ t
  opening : ∀ l cs, ((ofLink t l).perform cs).2.link.timeLimit = limit
  exchanging : ∀ network s, establish network t = .ok s →
    ∀ cs, (s.perform cs).2.link.timeLimit = limit

theorem waitsWithin (t : Target) : WaitsWithin t t.timeout.nonZero? where
  connecting _ := rfl
  opening l cs := timeLimit_perform cs (ofLink t l)
  exchanging network s hs cs := by
    obtain ⟨l, rs, s₁, -, hopen, hleft⟩ := establish_eq_ok hs
    have hlimit := timeLimit_perform (opening t) (ofLink t l)
    rw [hopen] at hlimit
    rw [timeLimit_perform, hleft]
    exact hlimit

end Session

end SessionPool
