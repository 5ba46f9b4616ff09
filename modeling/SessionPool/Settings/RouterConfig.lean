import SessionPool.Settings.PoolOptions

/-!
# Settings of a router

Where the servers are, how sessions to them are opened, and the limits that all pools share.
-/

namespace SessionPool

def defaultTimeout : Duration := .ofMillis 200

structure RouterConfig where
  master : String := ""
  replicas : String := ""
  credential : Option String := none
  timeoutMs : UInt64 := defaultTimeout.millis
  pool : PoolOptions := {}
  warmUp : Bool := false
  deriving DecidableEq, Inhabited

namespace RouterConfig

def ofMaster (master : String) : RouterConfig := { master }

def withReplicas (c : RouterConfig) (replicas : String) : RouterConfig := { c with replicas }

def withCredential (c : RouterConfig) (credential : String) : RouterConfig :=
  { c with credential := some credential }

def withTimeout (c : RouterConfig) (d : Duration) : RouterConfig := { c with timeoutMs := d.millis }

def withPool (c : RouterConfig) (pool : PoolOptions) : RouterConfig := { c with pool }

def withWarmUp (c : RouterConfig) (warmUp : Bool) : RouterConfig := { c with warmUp }

def timeout (c : RouterConfig) : Duration := .ofMillis c.timeoutMs

/-- The credential to log in with: an empty one counts as none. -/
def login? (c : RouterConfig) : Option String := c.credential.filter fun s => !s.isEmpty

end RouterConfig

end SessionPool
