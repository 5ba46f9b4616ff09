import SessionPool.Duration

/-!
# Limits of one pool

Every limit is optional on its own, and an absent one does not limit. The numbers are the 64-bit
words of the operator's settings.
-/

namespace SessionPool

structure PoolOptions where
  maxIdle : Option UInt64 := none
  maxActive : Option UInt64 := none
  idleTimeoutMs : Option UInt64 := none
  maxLifetimeMs : Option UInt64 := none
  deriving DecidableEq, Inhabited

namespace PoolOptions

def withMaxIdle (o : PoolOptions) (n : UInt64) : PoolOptions := { o with maxIdle := some n }

def withMaxActive (o : PoolOptions) (n : UInt64) : PoolOptions := { o with maxActive := some n }

def withIdleTimeout (o : PoolOptions) (d : Duration) : PoolOptions :=
  { o with idleTimeoutMs := some d.millis }

def withMaxLifetime (o : PoolOptions) (d : Duration) : PoolOptions :=
  { o with maxLifetimeMs := some d.millis }

def idleLimit (o : PoolOptions) : Option Nat := o.maxIdle.map UInt64.toNat

def activeLimit (o : PoolOptions) : Option Nat := o.maxActive.map UInt64.toNat

def idleTimeout (o : PoolOptions) : Option Duration := o.idleTimeoutMs.map Duration.ofMillis

def maxLifetime (o : PoolOptions) : Option Duration := o.maxLifetimeMs.map Duration.ofMillis

end PoolOptions

end SessionPool
