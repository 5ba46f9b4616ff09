import SessionPool.Proofs.Settings.Listing

/-!
# Settings survive their text

What a setting is written as is one of the texts that it is read from.
-/

namespace SessionPool

open Json

theorem Json.proper_ofOption {α : Type} {write : α → Json} (h : ∀ a, Proper (write a))
    (o : Option α) : Proper (ofOption write o) := by
  cases o with
  | none => exact .null
  | some a => exact h a

theorem Json.proper_ofUInt64 (n : UInt64) : Proper (ofUInt64 n) := .integer n.toNat

namespace PoolOptions

variable (o : PoolOptions)

theorem proper_toJson : Proper o.toJson :=
  have hoption := proper_ofOption proper_ofUInt64
  proper_ofFields_cons _ (hoption _) <| proper_ofFields_cons _ (hoption _) <|
    proper_ofFields_cons _ (hoption _) <| proper_ofFields_cons _ (hoption _) proper_ofFields_nil

theorem toJson_listed : ∃ ms, o.toJson = ofFields ms ∧ o.Listed ms := by
  have hnames : fieldNames.Nodup := by decide
  refine ⟨_, rfl, ?_, ?_, ?_, ?_⟩
  · exact lists_of_mem hnames (.head _) rfl
  · exact lists_of_mem hnames (.tail _ (.head _)) rfl
  · exact lists_of_mem hnames (.tail _ (.tail _ (.head _))) rfl
  · exact lists_of_mem hnames (.tail _ (.tail _ (.tail _ (.head _)))) rfl

theorem deserialize?_serialize : deserialize? o.serialize = some o := by
  obtain ⟨ms, hms, hlisted⟩ := o.toJson_listed
  rw [deserialize?, serialize, read_render o.proper_toJson, hms]
  exact ofJson?_of_listed hlisted

end PoolOptions

namespace RouterConfig

variable (c : RouterConfig)

theorem proper_toJson : Proper c.toJson :=
  have hcredential := proper_ofOption Proper.string c.credential
  proper_ofFields_cons _ (.string _) <| proper_ofFields_cons _ (.string _) <|
    proper_ofFields_cons _ hcredential <| proper_ofFields_cons _ (proper_ofUInt64 _) <|
      proper_ofFields_cons _ c.pool.proper_toJson <|
        proper_ofFields_cons _ (.bool _) proper_ofFields_nil

theorem toJson_listed : ∃ ms, c.toJson = ofFields ms ∧ c.Listed ms := by
  have hnames : fieldNames.Nodup := by decide
  refine ⟨_, rfl, ?_, ?_, ?_, ?_, ?_, ?_⟩
  · exact lists_of_mem hnames (.head _) rfl
  · exact lists_of_mem hnames (.tail _ (.head _)) rfl
  · exact lists_of_mem hnames (.tail _ (.tail _ (.head _))) rfl
  · exact lists_of_mem hnames (.tail _ (.tail _ (.tail _ (.head _)))) rfl
  · exact lists_of_mem hnames (.tail _ (.tail _ (.tail _ (.tail _ (.head _))))) c.pool.toJson_listed
  · exact lists_of_mem hnames (.tail _ (.tail _ (.tail _ (.tail _ (.tail _ (.head _)))))) rfl

theorem deserialize?_serialize : deserialize? c.serialize = some c := by
  obtain ⟨ms, hms, hlisted⟩ := c.toJson_listed
  rw [deserialize?, serialize, read_render c.proper_toJson, hms]
  exact ofJson?_of_listed hlisted

end RouterConfig

theorem Address.proper_toJson (a : Address) : Proper a.toJson :=
  proper_ofFields_cons _ (.string _) <| proper_ofFields_cons _ (.integer _) proper_ofFields_nil

theorem Address.deserialize?_serialize (a : Address) : deserialize? a.serialize = some a := by
  have hport : toUInt16? (.integer a.port.toNat) = some a.port := by
    rw [toUInt16?, toNat?_natCast a.port.toNat_lt, Option.map_some, UInt16.ofNat_toNat]
  have hread : ofJson? a.toJson =
      (toUInt16? (.integer a.port.toNat)).bind fun port => some ⟨a.host, port⟩ := rfl
  rw [deserialize?, serialize, read_render a.proper_toJson, hread, hport, Option.bind_some]

theorem Role.proper_toJson (r : Role) : Proper r.toJson := .string r.name

theorem Role.deserialize?_serialize (r : Role) : deserialize? r.serialize = some r := by
  rw [deserialize?, serialize, read_render r.proper_toJson]
  exact Role.ofName?_name r

/-- Every setting is written as a text of its JSON value and read back from it, so settings that
differ are read apart: an absent number from zero, and an absent credential from an empty one. -/
theorem settings_round_trip :
    (∀ o : PoolOptions,
      Spells o.toJson o.serialize ∧ PoolOptions.deserialize? o.serialize = some o) ∧
    (∀ c : RouterConfig,
      Spells c.toJson c.serialize ∧ RouterConfig.deserialize? c.serialize = some c) ∧
    (∀ a : Address, Spells a.toJson a.serialize ∧ Address.deserialize? a.serialize = some a) ∧
    (∀ r : Role, Spells r.toJson r.serialize ∧ Role.deserialize? r.serialize = some r) ∧
    (∀ o : PoolOptions,
      PoolOptions.deserialize? { o with maxIdle := none }.serialize ≠
        PoolOptions.deserialize? { o with maxIdle := some 0 }.serialize ∧
      PoolOptions.deserialize? { o with maxActive := none }.serialize ≠
        PoolOptions.deserialize? { o with maxActive := some 0 }.serialize ∧
      PoolOptions.deserialize? { o with idleTimeoutMs := none }.serialize ≠
        PoolOptions.deserialize? { o with idleTimeoutMs := some 0 }.serialize ∧
      PoolOptions.deserialize? { o with maxLifetimeMs := none }.serialize ≠
        PoolOptions.deserialize? { o with maxLifetimeMs := some 0 }.serialize) ∧
    ∀ c : RouterConfig, RouterConfig.deserialize? { c with credential := none }.serialize ≠
      RouterConfig.deserialize? { c with credential := some "" }.serialize := by
  refine ⟨fun o => ⟨spells_render o.proper_toJson, o.deserialize?_serialize⟩,
    fun c => ⟨spells_render c.proper_toJson, c.deserialize?_serialize⟩,
    fun a => ⟨spells_render a.proper_toJson, a.deserialize?_serialize⟩,
    fun r => ⟨spells_render r.proper_toJson, r.deserialize?_serialize⟩, fun o => ?_, fun c => ?_⟩
  · simp only [PoolOptions.deserialize?_serialize]
    exact ⟨nofun, nofun, nofun, nofun⟩
  · simp only [RouterConfig.deserialize?_serialize]
    exact nofun

end SessionPool
