import SessionPool.Address
import SessionPool.Role
import SessionPool.Settings.Fields
import SessionPool.Settings.RouterConfig

/-!
# Settings as JSON

Each kind of setting is written as an object with all its fields in a fixed order, absent options as
`null`, and read back from any object or array that gives its fields. Fields left out keep their
default values; an address has none, and both its fields must be given.
-/

namespace SessionPool

open Json

namespace PoolOptions

def fieldNames : List String :=
  ["max_idle", "max_active", "idle_timeout_ms", "max_conn_life_time_ms"]

def toJson (o : PoolOptions) : Json :=
  ofFields [
    ("max_idle", ofOption ofUInt64 o.maxIdle),
    ("max_active", ofOption ofUInt64 o.maxActive),
    ("idle_timeout_ms", ofOption ofUInt64 o.idleTimeoutMs),
    ("max_conn_life_time_ms", ofOption ofUInt64 o.maxLifetimeMs)]

def ofJson? (v : Json) : Option PoolOptions := do
  let fields ← record? fieldNames v
  let number := orNull? toUInt64?
  let maxIdle ← field? fields "max_idle" number (some none)
  let maxActive ← field? fields "max_active" number (some none)
  let idleTimeoutMs ← field? fields "idle_timeout_ms" number (some none)
  let maxLifetimeMs ← field? fields "max_conn_life_time_ms" number (some none)
  return { maxIdle, maxActive, idleTimeoutMs, maxLifetimeMs }

def serialize (o : PoolOptions) : String := String.ofList o.toJson.render

def deserialize? (s : String) : Option PoolOptions := (Json.parse? s).bind ofJson?

end PoolOptions

namespace RouterConfig

def fieldNames : List String :=
  ["master", "replicas", "credential", "timeout_ms", "pool", "warm_up"]

def toJson (c : RouterConfig) : Json :=
  ofFields [
    ("master", ofString c.master),
    ("replicas", ofString c.replicas),
    ("credential", ofOption ofString c.credential),
    ("timeout_ms", ofUInt64 c.timeoutMs),
    ("pool", c.pool.toJson),
    ("warm_up", .bool c.warmUp)]

def ofJson? (v : Json) : Option RouterConfig := do
  let fields ← record? fieldNames v
  let absent : RouterConfig := {}
  let master ← field? fields "master" toText? (some absent.master)
  let replicas ← field? fields "replicas" toText? (some absent.replicas)
  let credential ← field? fields "credential" (orNull? toText?) (some absent.credential)
  let timeoutMs ← field? fields "timeout_ms" toUInt64? (some absent.timeoutMs)
  let pool ← field? fields "pool" PoolOptions.ofJson? (some absent.pool)
  let warmUp ← field? fields "warm_up" toBool? (some absent.warmUp)
  return { master, replicas, credential, timeoutMs, pool, warmUp }

def serialize (c : RouterConfig) : String := String.ofList c.toJson.render

def deserialize? (s : String) : Option RouterConfig := (Json.parse? s).bind ofJson?

end RouterConfig

namespace Address

def fieldNames : List String := ["host", "port"]

def toJson (a : Address) : Json :=
  ofFields [("host", ofString a.host), ("port", .integer a.port.toNat)]

def ofJson? (v : Json) : Option Address := do
  let fields ← record? fieldNames v
  let host ← field? fields "host" toText? none
  let port ← field? fields "port" toUInt16? none
  return { host, port }

def serialize (a : Address) : String := String.ofList a.toJson.render

def deserialize? (s : String) : Option Address := (Json.parse? s).bind ofJson?

end Address

namespace Role

def toJson (r : Role) : Json := ofString r.name

/-- The name of the role, alone or as the only member of an object whose value is `null`. -/
def ofJson? : Json → Option Role
  | .string (some s) => Role.ofName? s
  | .object [(some s, .null)] => Role.ofName? s
  | _ => none

def serialize (r : Role) : String := String.ofList r.toJson.render

def deserialize? (s : String) : Option Role := (Json.parse? s).bind ofJson?

end Role

end SessionPool
