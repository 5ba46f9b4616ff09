import SessionPool.Address
import SessionPool.Role
import SessionPool.Settings.RouterConfig

/-!
# Targets

All that is needed to open one session: where to connect, how to log in, how long to wait, and which
partition to select.
-/

namespace SessionPool

structure Target where
  endpoint : Address
  credential : Option String := none
  timeout : Duration := defaultTimeout
  partition : Nat := defaultPartition
  deriving DecidableEq, Inhabited

namespace Target

def ofEndpoint (endpoint : Address) : Target := { endpoint }

def withCredential (t : Target) (credential : Option String) : Target :=
  { t with credential := credential.filter fun s => !s.isEmpty }

def withTimeout (t : Target) (timeout : Duration) : Target := { t with timeout }

def withPartition (t : Target) (partition : Nat) : Target := { t with partition }

end Target

end SessionPool
