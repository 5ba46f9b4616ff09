import SessionPool.Wire.Command
import SessionPool.Wire.Reply

/-!
# Transports

What a pool needs to know of the sessions it keeps: whether they can still be used, and how a
command is exchanged over one.
-/

namespace SessionPool

/-- An error reply is a reply; a fault is a failed exchange. -/
class Transport (κ : Type) where
  isHealthy : κ → Bool
  execute : Command → κ → Except Fault Reply × κ

end SessionPool
