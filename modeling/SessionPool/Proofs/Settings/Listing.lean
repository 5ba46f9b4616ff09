import Mathlib.Data.List.Nodup
import SessionPool.Proofs.Json.Printing
import SessionPool.Settings.Codec

/-!
# Objects that list the fields of a record

An object gives each field of a record once or leaves it out; the order of its members and what else
is in it do not matter. A record is read from every such object, and a field given twice is refused.
-/

namespace SessionPool

namespace Json

variable {α : Type} {ms : List (String × Json)} {name : String} {read : Json → Option α}
  {absent : Option α} {x : α} {v : Json}

/-- The members give the field at most once and by a value that `Gives` allows; it may be left out
where `omitted` holds. -/
structure Lists (ms : List (String × Json)) (name : String) (Gives : Json → Prop)
    (omitted : Prop) : Prop where
  given : ∀ v, (name, v) ∈ ms → Gives v
  once : (ms.map Prod.fst).count name ≤ 1
  leftOut : name ∉ ms.map Prod.fst → omitted

theorem lists_of_mem {Gives : Json → Prop} {omitted : Prop} (hnodup : (ms.map Prod.fst).Nodup)
    (hmem : (name, v) ∈ ms) (hv : Gives v) : Lists ms name Gives omitted where
  given w hw := by
    have hpair := List.inj_on_of_nodup_map hnodup hmem hw rfl
    rwa [← (Prod.mk.inj hpair).2]
  once := List.nodup_iff_count_le_one.1 hnodup name
  leftOut hname := absurd (List.mem_map_of_mem hmem) hname

theorem lists_of_not_mem {Gives : Json → Prop} {omitted : Prop} (hname : name ∉ ms.map Prod.fst)
    (h : omitted) : Lists ms name Gives omitted where
  given _ hv := absurd (List.mem_map_of_mem hv) hname
  once := (List.count_eq_zero_of_not_mem hname).symm ▸ Nat.zero_le 1
  leftOut _ := h

theorem proper_ofFields_nil : Proper (ofFields []) :=
  .object (List.forall_mem_nil _) (List.forall_mem_nil _)

theorem proper_ofFields_cons (name : String) (hv : Proper v) (h : Proper (ofFields ms)) :
    Proper (ofFields ((name, v) :: ms)) := by
  cases h with
  | object hnames h =>
    exact .object (List.forall_mem_cons.2 ⟨rfl, hnames⟩) (List.forall_mem_cons.2 ⟨hv, h⟩)

theorem record?_ofFields (names : List String) (ms : List (String × Json)) :
    record? names (ofFields ms) = some ms := by
  rw [ofFields, record?]
  induction ms with
  | nil => rfl
  | cons m ms ih =>
    rw [List.map_cons, List.mapM_cons, ih]
    rfl

theorem length_filter_name (ms : List (String × Json)) (name : String) :
    (ms.filter fun m => m.1 == name).length = (ms.map Prod.fst).count name := by
  rw [List.count, List.countP_map, List.countP_eq_length_filter]
  rfl

theorem field?_of_lists {Gives : Json → Prop} {omitted : Prop} (h : Lists ms name Gives omitted)
    (hread : ∀ v, Gives v → read v = some x) (homit : omitted → absent = some x) :
    field? ms name read absent = some x := by
  have honce := h.once
  rw [← length_filter_name] at honce
  unfold field?
  split
  · next hnone =>
    refine homit (h.leftOut fun hname => ?_)
    obtain ⟨m, hm, hfst⟩ := List.mem_map.1 hname
    exact List.filter_eq_nil_iff.1 hnone m hm (beq_iff_eq.2 hfst)
  · next other v hone =>
    have hmem : (other, v) ∈ ms.filter fun m => m.1 == name := by
      rw [hone]
      exact List.mem_singleton_self _
    obtain ⟨hms, hname⟩ := List.mem_filter.1 hmem
    exact hread v (h.given v (beq_iff_eq.1 hname ▸ hms))
  · next hnone hone =>
    generalize ms.filter _ = found at honce hnone hone
    match found with
    | [] => exact absurd rfl hnone
    | [m] => exact absurd rfl (hone m.1 m.2)

theorem field?_of_default {write : α → Json} {d : α} (h : Lists ms name (· = write x) (x = d))
    (hread : read (write x) = some x) : field? ms name read (some d) = some x := by
  refine field?_of_lists h ?_ fun hd => congrArg some hd.symm
  rintro v rfl
  exact hread

theorem field?_eq_some (h : field? ms name read absent = some x) :
    (ms.map Prod.fst).count name ≤ 1 ∧ ∀ v, (name, v) ∈ ms → read v = some x := by
  have hfound : ∀ v, (name, v) ∈ ms → (name, v) ∈ ms.filter fun m => m.1 == name :=
    fun v hv => List.mem_filter.2 ⟨hv, beq_self_eq_true name⟩
  rw [← length_filter_name]
  unfold field? at h
  split at h
  · next hnone =>
    rw [hnone] at hfound ⊢
    exact ⟨Nat.zero_le 1, fun v hv => absurd (hfound v hv) List.not_mem_nil⟩
  · next other w hone =>
    rw [hone] at hfound ⊢
    refine ⟨Nat.le_refl 1, fun v hv => ?_⟩
    rw [(Prod.mk.inj (List.mem_singleton.1 (hfound v hv))).2]
    exact h
  · cases h

theorem toNat?_natCast {n bound : Nat} (h : n < bound) : (integer n).toNat? bound = some n :=
  if_pos h

theorem toUInt64?_ofUInt64 (n : UInt64) : (ofUInt64 n).toUInt64? = some n := by
  rw [ofUInt64, toUInt64?, toNat?_natCast n.toNat_lt, Option.map_some, UInt64.ofNat_toNat]

theorem orNull?_ofOption {write : α → Json} (hread : ∀ a, read (write a) = some a)
    (hnull : ∀ a, write a ≠ null) (o : Option α) : orNull? read (ofOption write o) = some o := by
  cases o with
  | none => rfl
  | some a =>
    have hnext : orNull? read (write a) = (read (write a)).map some := by
      unfold orNull?
      split
      · next heq => exact absurd heq (hnull a)
      · rfl
    rw [ofOption, hnext, hread, Option.map_some]

end Json

open Json Json.Token

namespace PoolOptions

variable {o : PoolOptions} {ms : List (String × Json)} {name : String}

structure Listed (o : PoolOptions) (ms : List (String × Json)) : Prop where
  maxIdle : Lists ms "max_idle" (· = ofOption ofUInt64 o.maxIdle) (o.maxIdle = none)
  maxActive : Lists ms "max_active" (· = ofOption ofUInt64 o.maxActive) (o.maxActive = none)
  idleTimeout :
    Lists ms "idle_timeout_ms" (· = ofOption ofUInt64 o.idleTimeoutMs) (o.idleTimeoutMs = none)
  maxLifetime :
    Lists ms "max_conn_life_time_ms" (· = ofOption ofUInt64 o.maxLifetimeMs)
      (o.maxLifetimeMs = none)

theorem ofJson?_of_listed (h : o.Listed ms) : ofJson? (ofFields ms) = some o := by
  have hoption := orNull?_ofOption toUInt64?_ofUInt64 nofun
  rw [ofJson?, record?_ofFields]
  simp only [Option.bind_eq_bind, Option.bind_some, field?_of_default h.maxIdle (hoption _),
    field?_of_default h.maxActive (hoption _), field?_of_default h.idleTimeout (hoption _),
    field?_of_default h.maxLifetime (hoption _)]
  rfl

theorem count_le_one_of_ofJson? (h : ofJson? (ofFields ms) = some o) (hname : name ∈ fieldNames) :
    (ms.map Prod.fst).count name ≤ 1 := by
  rw [ofJson?, record?_ofFields] at h
  simp only [Option.bind_eq_bind, Option.bind_some, Option.bind_eq_some_iff] at h
  obtain ⟨_, hidle, _, hactive, _, htimeout, _, hlifetime, -⟩ := h
  simp only [fieldNames, List.mem_cons, List.not_mem_nil, or_false] at hname
  rcases hname with rfl | rfl | rfl | rfl
  · exact (field?_eq_some hidle).1
  · exact (field?_eq_some hactive).1
  · exact (field?_eq_some htimeout).1
  · exact (field?_eq_some hlifetime).1

end PoolOptions

namespace RouterConfig

variable {c : RouterConfig} {ms : List (String × Json)}

/-- A field may be left out where it has the value it has in a configuration that sets none, and the
limits of the pool are listed with the same freedom. -/
structure Listed (c : RouterConfig) (ms : List (String × Json)) : Prop where
  master : Lists ms "master" (· = ofString c.master) (c.master = ({} : RouterConfig).master)
  replicas : Lists ms "replicas" (· = ofString c.replicas)
    (c.replicas = ({} : RouterConfig).replicas)
  credential : Lists ms "credential" (· = ofOption ofString c.credential)
    (c.credential = ({} : RouterConfig).credential)
  timeout : Lists ms "timeout_ms" (· = ofUInt64 c.timeoutMs)
    (c.timeoutMs = ({} : RouterConfig).timeoutMs)
  pool : Lists ms "pool" (fun v => ∃ os, v = ofFields os ∧ c.pool.Listed os)
    (c.pool = ({} : RouterConfig).pool)
  warmUp : Lists ms "warm_up" (· = bool c.warmUp) (c.warmUp = ({} : RouterConfig).warmUp)

theorem ofJson?_of_listed (h : c.Listed ms) : ofJson? (ofFields ms) = some c := by
  have htext (s : String) : toText? (ofString s) = some s := rfl
  have hbool (b : Bool) : toBool? (bool b) = some b := rfl
  have hcredential := field?_of_default h.credential (orNull?_ofOption htext nofun _)
  have hpool : field? ms "pool" PoolOptions.ofJson? (some {}) = some c.pool := by
    refine field?_of_lists h.pool ?_ fun hd => congrArg some hd.symm
    rintro v ⟨os, rfl, hos⟩
    exact PoolOptions.ofJson?_of_listed hos
  rw [ofJson?, record?_ofFields]
  simp only [Option.bind_eq_bind, Option.bind_some, field?_of_default h.master (htext _),
    field?_of_default h.replicas (htext _), hcredential,
    field?_of_default h.timeout (toUInt64?_ofUInt64 _), hpool, field?_of_default h.warmUp (hbool _)]
  rfl

theorem once_of_ofJson? (h : ofJson? (ofFields ms) = some c) :
    (∀ name ∈ fieldNames, (ms.map Prod.fst).count name ≤ 1) ∧
      ∀ v, ("pool", v) ∈ ms → PoolOptions.ofJson? v = some c.pool := by
  rw [ofJson?, record?_ofFields] at h
  simp only [Option.bind_eq_bind, Option.bind_some, Option.bind_eq_some_iff] at h
  obtain ⟨_, hmaster, _, hreplicas, _, hcredential, _, htimeout, pool, hpool, _, hwarm, hc⟩ := h
  obtain rfl : pool = c.pool := by cases hc; rfl
  refine ⟨fun name hname => ?_, (field?_eq_some hpool).2⟩
  simp only [fieldNames, List.mem_cons, List.not_mem_nil, or_false] at hname
  rcases hname with rfl | rfl | rfl | rfl | rfl | rfl
  · exact (field?_eq_some hmaster).1
  · exact (field?_eq_some hreplicas).1
  · exact (field?_eq_some hcredential).1
  · exact (field?_eq_some htimeout).1
  · exact (field?_eq_some hpool).1
  · exact (field?_eq_some hwarm).1

end RouterConfig

/-- Order, spelling, names that are no fields and fields that keep their defaults do not matter to
what is read; a field given twice does, also within the limits of the pool. -/
theorem settings_read_by_field :
    (∀ (o : PoolOptions) (ms : List (String × Json)) (s : String),
      o.Listed ms → Spells (ofFields ms) s → PoolOptions.deserialize? s = some o) ∧
    (∀ (c : RouterConfig) (ms : List (String × Json)) (s : String),
      c.Listed ms → Spells (ofFields ms) s → RouterConfig.deserialize? s = some c) ∧
    (∀ (ms : List (String × Json)) (s : String), Spells (ofFields ms) s →
      (∀ name ∈ PoolOptions.fieldNames, 2 ≤ (ms.map Prod.fst).count name →
        PoolOptions.deserialize? s = none) ∧
      (∀ name ∈ RouterConfig.fieldNames, 2 ≤ (ms.map Prod.fst).count name →
        RouterConfig.deserialize? s = none) ∧
      ∀ os, ("pool", ofFields os) ∈ ms → ∀ name ∈ PoolOptions.fieldNames,
        2 ≤ (os.map Prod.fst).count name → RouterConfig.deserialize? s = none) := by
  refine ⟨fun o ms s hlisted hs => ?_, fun c ms s hlisted hs => ?_, fun ms s hs => ⟨?_, ?_, ?_⟩⟩
  · rw [PoolOptions.deserialize?, read_of_spells hs]
    exact PoolOptions.ofJson?_of_listed hlisted
  · rw [RouterConfig.deserialize?, read_of_spells hs]
    exact RouterConfig.ofJson?_of_listed hlisted
  · intro name hname htwice
    rw [PoolOptions.deserialize?, read_of_spells hs, Option.eq_none_iff_forall_ne_some]
    intro o ho
    have honce := PoolOptions.count_le_one_of_ofJson? ho hname
    omega
  · intro name hname htwice
    rw [RouterConfig.deserialize?, read_of_spells hs, Option.eq_none_iff_forall_ne_some]
    intro c hc
    have honce := (RouterConfig.once_of_ofJson? hc).1 name hname
    omega
  · intro os hos name hname htwice
    rw [RouterConfig.deserialize?, read_of_spells hs, Option.eq_none_iff_forall_ne_some]
    intro c hc
    have hpool := (RouterConfig.once_of_ofJson? hc).2 _ hos
    have honce := PoolOptions.count_le_one_of_ofJson? hpool hname
    omega

theorem settings_read_by_field_samples :
    PoolOptions.deserialize? " \x7b \"\\u0061\" : [] ,\n\"max_active\" : 4\x7d" =
      some { maxActive := some 4 } ∧
    RouterConfig.deserialize?
      "\x7b\"pool\":\x7b\"a\":[],\"max_active\":4\x7d,\"max_idle\":-1,\"timeout_ms\":5\x7d" =
      some { timeoutMs := 5, pool := { maxActive := some 4 } } ∧
    PoolOptions.deserialize? "\x7b\"max_idle\":null,\"max_idle\":1\x7d" = none ∧
    RouterConfig.deserialize? "\x7b\"warm_up\":true,\"warm_up\":true\x7d" = none ∧
    RouterConfig.deserialize? "\x7b\"pool\":\x7b\"max_idle\":null,\"max_idle\":1\x7d\x7d" =
      none := by
  obtain ⟨hoptions, hrouter, hrefused⟩ := settings_read_by_field
  have hlimits : PoolOptions.Listed { maxActive := some 4 }
      [("a", array []), ("max_active", integer 4)] :=
    ⟨lists_of_not_mem (by decide) rfl, lists_of_mem (by decide) (.tail _ (.head _)) rfl,
      lists_of_not_mem (by decide) rfl, lists_of_not_mem (by decide) rfl⟩
  have hconfig : RouterConfig.Listed { timeoutMs := 5, pool := { maxActive := some 4 } }
      [("pool", ofFields [("a", array []), ("max_active", integer 4)]), ("max_idle", integer (-1)),
        ("timeout_ms", integer 5)] :=
    ⟨lists_of_not_mem (by decide) rfl, lists_of_not_mem (by decide) rfl,
      lists_of_not_mem (by decide) rfl, lists_of_mem (by decide) (.tail _ (.tail _ (.head _))) rfl,
      lists_of_mem (by decide) (.head _) ⟨_, rfl, hlimits⟩, lists_of_not_mem (by decide) rfl⟩
  have hspaced : Spells (ofFields [("a", array []), ("max_active", integer 4)])
      " \x7b \"\\u0061\" : [] ,\n\"max_active\" : 4\x7d" := by
    have hblank : Gap [' '] := List.forall_mem_singleton.2 rfl
    have hline : Gap ['\n'] := List.forall_mem_singleton.2 rfl
    have hescape := Escape.digits (.lower (show 0 < 16 by decide)) (.lower (show 0 < 16 by decide))
      (.lower (show 6 < 16 by decide)) (.lower (show 1 < 16 by decide))
    have hletter : Written 'a' ['\\', 'u', '0', '0', '6', '1'] := .escape hescape
    have hclose := spaced_mark .closeObject (.done gap_nil)
    have hvalue := Spaced.next hblank (.integer 4) (fun _ => ends_of_mark .closeObject) hclose
    have hcolon := Spaced.next hblank (.mark .colon) nofun hvalue
    have hkey := Spaced.next hline (.string (writtenText_escape "max_active".toList)) nofun hcolon
    have hcomma := Spaced.next hblank (.mark .comma) nofun hkey
    have hitems := Spaced.next hblank (.mark .openArray) nofun (spaced_mark .closeArray hcomma)
    have hname : Spelled (Token.string (some "a")) _ := .string (.cons hletter .nil)
    have hother := Spaced.next hblank hname nofun (.next hblank (.mark .colon) nofun hitems)
    exact Spaced.next hblank (.mark .openObject) nofun hother
  have hone (name : String) {v : Json} (hv : Proper v) : Proper (ofFields [(name, v)]) :=
    proper_ofFields_cons name hv proper_ofFields_nil
  have hpool := proper_ofFields_cons "a" (.array (List.forall_mem_nil _))
    (hone "max_active" (.integer 4))
  have hcompact := proper_ofFields_cons "pool" hpool
    (proper_ofFields_cons "max_idle" (.integer (-1)) (hone "timeout_ms" (.integer 5)))
  have htwice := proper_ofFields_cons "max_idle" .null (hone "max_idle" (.integer 1))
  have hwarm := proper_ofFields_cons "warm_up" (.bool true) (hone "warm_up" (.bool true))
  exact ⟨hoptions _ _ _ hlimits hspaced, hrouter _ _ _ hconfig (spells_render hcompact),
    (hrefused _ _ (spells_render htwice)).1 "max_idle" (by decide) (by decide),
    (hrefused _ _ (spells_render hwarm)).2.1 "warm_up" (by decide) (by decide),
    (hrefused _ _ (spells_render (hone "pool" htwice))).2.2 _ (.head _) "max_idle" (by decide)
      (by decide)⟩

end SessionPool
