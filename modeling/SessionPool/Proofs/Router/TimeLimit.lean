import SessionPool.Proofs.Router.Delivery
import SessionPool.Proofs.Session.TimeLimit

/-!
# How long the sessions of a router wait

A timeout goes from the settings into a table, from the table into the target of every handshake,
and from there into the sessions. On its way it is cut to whole milliseconds once, in the settings.
-/

namespace SessionPool

/-! ## Settings with a given timeout -/

/-- Settings whose timeout was last set to `d`, whatever else was set before and after. -/
inductive RouterConfig.LimitedTo (d : Duration) : RouterConfig → Prop
  | withTimeout (c : RouterConfig) : LimitedTo d (c.withTimeout d)
  | masterOnly (master : String) (credential : Option String) (options : PoolOptions) :
    LimitedTo d (Router.masterOnly master credential d options)
  | withReplicas {c : RouterConfig} (h : LimitedTo d c) (replicas : String) :
    LimitedTo d (c.withReplicas replicas)
  | withCredential {c : RouterConfig} (h : LimitedTo d c) (credential : String) :
    LimitedTo d (c.withCredential credential)
  | withPool {c : RouterConfig} (h : LimitedTo d c) (options : PoolOptions) :
    LimitedTo d (c.withPool options)
  | withWarmUp {c : RouterConfig} (h : LimitedTo d c) (warmUp : Bool) :
    LimitedTo d (c.withWarmUp warmUp)

theorem RouterConfig.LimitedTo.timeout_eq {d : Duration} {c : RouterConfig} (h : c.LimitedTo d) :
    c.timeout = .ofMillis d.millis := by
  induction h with
  | withTimeout c => rfl
  | masterOnly master credential options => rfl
  | withReplicas _ replicas ih => exact ih
  | withCredential _ credential ih => exact ih
  | withPool _ options ih => exact ih
  | withWarmUp _ warmUp ih => exact ih

namespace Traffic

variable {κ : Type}

/-! ## Where the settings of the tables come from -/

theorem mem_drawn {c c' : RouterConfig} {t : Traffic κ} (h : c' ∈ t.drawn c) :
    c' ∈ t.configs ∨ c' = c := by
  rw [drawn] at h
  split at h
  · exact (List.mem_append.1 h).imp_right List.mem_singleton.1
  · exact .inl h

theorem configs_begin (call : Call) (place : Place) (t : Traffic κ) :
    (t.begin call place).configs = t.configs := by
  rw [begin]
  split <;> rfl

theorem configs_finishGet (call : Call) (place : Place) (slot : Nat) (result : Except Fault κ)
    (t : Traffic κ) : (t.finishGet call place slot result).configs = t.configs := by
  rw [finishGet]
  split <;> rfl

theorem configure_of_traced {a : Action κ} {c : RouterConfig} (h : a.traced = .configure c) :
    a = .configure c := by
  cases a with
  | configure c' =>
    cases h
    rfl
  | get | finish | execute | discard | drop | flush | setClock => cases h

variable [Transport κ] {t : Traffic κ} {c : RouterConfig}

theorem configs_configure (c : RouterConfig) (t : Traffic κ) :
    (t.configure c).configs = t.drawn c := by
  rw [configure]
  split <;> rfl

theorem configs_finishWarmUp (place : Place) (slot : Nat) (result : Except Fault κ)
    (t : Traffic κ) : (t.finishWarmUp place slot result).configs = t.configs := by
  rw [finishWarmUp]
  split <;> rfl

theorem mem_configs_step {a : Action κ} (h : c ∈ (t.step a).configs) :
    c ∈ t.configs ∨ a = .configure c := by
  cases a with
  | configure c' =>
    rw [step, configs_configure] at h
    exact (mem_drawn h).imp_right fun heq => by rw [heq]
  | get partition role replica draw =>
    left
    rw [step] at h
    split at h
    · rwa [configs_begin] at h
    · exact h
  | finish place slot result =>
    left
    rw [step] at h
    split at h
    · split at h
      · rwa [configs_finishGet] at h
      · rwa [configs_finishWarmUp] at h
    · exact h
  | execute i c' =>
    left
    rw [step] at h
    split at h <;> exact h
  | discard i =>
    left
    rw [step] at h
    split at h <;> exact h
  | drop i =>
    left
    rw [step] at h
    split at h <;> exact h
  | flush => exact .inl h
  | setClock now => exact .inl h

theorem mem_configs_run {as : List (Action κ)} (h : c ∈ (t.run as).configs) :
    c ∈ t.configs ∨ .configure c ∈ as := by
  induction as generalizing t with
  | nil => exact .inl h
  | cons a as ih =>
    rcases ih h with h | h
    · refine (mem_configs_step h).imp_right ?_
      rintro rfl
      exact List.mem_cons_self
    · exact .inr (List.mem_cons_of_mem _ h)

/-! ## The limit that handshakes get -/

/-- Every handshake that begins in a run is for settings that the router was configured with, and
opens its session under the timeout of these settings. Where that was given as a duration, the limit
is never longer than the duration, and there is one exactly if the duration has at least a
millisecond. -/
theorem run_time_limits (replicaLimit : Nat) (as : List (Action κ)) :
    let t : Traffic (Traced κ) := (start replicaLimit).run (as.map Action.traced)
    ∀ h ∈ t.opening, ∃ c target,
      .configure c ∈ as ∧ t.configs[h.place.table]? = some c ∧ h.target = some target ∧
      ∀ d, c.LimitedTo d → target.timeout.nanos ≤ d.nanos ∧
        ∃ limit, Session.WaitsWithin target limit ∧
          (∀ l ∈ limit, 0 < l.nanos ∧ l.nanos ≤ d.nanos) ∧
          (limit = none ↔ d.nanos < 1000000) := by
  intro t h hh
  have hdelivered : t.Delivered := (delivered_start replicaLimit).run as
  obtain ⟨⟨s, hs, htarget⟩, -⟩ := hdelivered.opening h hh
  obtain ⟨c, replicas, hc, hconfig⟩ := hdelivered.described _ s hs
  -- the table of the handshake was drawn up from settings that some action came with
  have hconfigured : .configure c ∈ as := by
    rcases mem_configs_run (List.mem_of_getElem? hc) with hstart | hmem
    · cases hstart
    · obtain ⟨a, ha, htraced⟩ := List.mem_map.1 hmem
      exact configure_of_traced htraced ▸ ha
  refine ⟨c, _, hconfigured, hc, htarget, fun d hd => ?_⟩
  have htimeout : (s.target h.place.key).timeout = .ofMillis d.millis := by
    rw [RoutingTable.target_of_ofConfig hconfig, hd.timeout_eq]
  refine ⟨htimeout ▸ d.cut_le, _, Session.waitsWithin _, fun l hl => ?_, ?_⟩
  · obtain ⟨rfl, hpos⟩ := Duration.nonZero?_eq_some hl
    exact ⟨hpos, htimeout ▸ d.cut_le⟩
  · rw [htimeout]
    exact Duration.nonZero?_cut

theorem run_time_limits_cut :
    let d : Duration := ⟨1500000⟩
    let t : Traffic (Traced Scenario.Stub) := (start 15).run ([
      .configure (((RouterConfig.ofMaster "m:1").withTimeout d).withReplicas "a:2, b:3"),
      .get 4 .replica (some 1) 0].map Action.traced)
    ∃ h target limit, t.opening = [h] ∧ h.target = some target ∧ target.endpoint = ⟨"b", 3⟩ ∧
      Session.WaitsWithin target (some limit) ∧ 0 < limit.nanos ∧ limit.nanos ≤ d.nanos := by
  intro d t
  have hopening : t.opening = [⟨⟨0, .ofReplica 4 1⟩, 0, some ⟨⟨"b", 3⟩, none, .ofMillis 1, 4⟩,
    some ⟨4, .replica, some 1, some 0⟩⟩] := by decide +kernel
  have hconfigs : t.configs =
    [((RouterConfig.ofMaster "m:1").withTimeout d).withReplicas "a:2, b:3"] := by decide +kernel
  obtain ⟨c, target, -, hc, htarget, hlimit⟩ :=
    run_time_limits 15 _ _ (hopening ▸ List.mem_singleton_self _)
  rw [hconfigs] at hc
  cases hc
  cases htarget
  obtain ⟨-, limit, hwaits, hbound, hnone⟩ := hlimit d (.withReplicas (.withTimeout _) _)
  cases limit with
  | none => exact absurd (hnone.1 rfl) (by decide)
  | some limit => exact ⟨_, _, limit, hopening, rfl, rfl, hwaits, hbound limit rfl⟩

theorem unlimited_after_one_nanosecond :
    let d : Duration := ⟨1⟩
    let t : Traffic (Traced Scenario.Stub) := (start 15).run ([
      .configure (Router.masterOnly "m:1" none d {}), .get 0 .master none 0].map Action.traced)
    d.isZero = false ∧ ∃ h target, t.opening = [h] ∧ h.target = some target ∧
      Session.WaitsWithin target none := by
  intro d t
  have hopening : t.opening = [⟨⟨0, .ofMaster 0⟩, 0, some ⟨⟨"m", 1⟩, none, .ofMillis 0, 0⟩,
    some ⟨0, .master, none, some 0⟩⟩] := by decide +kernel
  exact ⟨rfl, _, _, hopening, rfl, Session.waitsWithin _⟩

end Traffic

end SessionPool
