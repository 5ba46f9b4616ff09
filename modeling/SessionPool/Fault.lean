/-!
# Faults

Everything that can go wrong, by cause. `Fault.message` gives the wording, `Fault.kind` the coarse
class by which a caller decides to retry, back off or give up, and `Fault.chain` the wording of the
causes underneath.
-/

namespace SessionPool

inductive IoKind where
  | notFound | permissionDenied | connectionRefused | connectionReset | hostUnreachable
  | networkUnreachable | connectionAborted | notConnected | addrInUse | addrNotAvailable
  | networkDown | brokenPipe | alreadyExists | wouldBlock | invalidInput | invalidData | timedOut
  | writeZero | interrupted | unsupported | unexpectedEof | outOfMemory | other
  deriving DecidableEq, Inhabited

namespace IoKind

def all : List IoKind :=
  [.notFound, .permissionDenied, .connectionRefused, .connectionReset, .hostUnreachable,
    .networkUnreachable, .connectionAborted, .notConnected, .addrInUse, .addrNotAvailable,
    .networkDown, .brokenPipe, .alreadyExists, .wouldBlock, .invalidInput, .invalidData, .timedOut,
    .writeZero, .interrupted, .unsupported, .unexpectedEof, .outOfMemory, .other]

def name : IoKind → String
  | notFound => "NotFound"
  | permissionDenied => "PermissionDenied"
  | connectionRefused => "ConnectionRefused"
  | connectionReset => "ConnectionReset"
  | hostUnreachable => "HostUnreachable"
  | networkUnreachable => "NetworkUnreachable"
  | connectionAborted => "ConnectionAborted"
  | notConnected => "NotConnected"
  | addrInUse => "AddrInUse"
  | addrNotAvailable => "AddrNotAvailable"
  | networkDown => "NetworkDown"
  | brokenPipe => "BrokenPipe"
  | alreadyExists => "AlreadyExists"
  | wouldBlock => "WouldBlock"
  | invalidInput => "InvalidInput"
  | invalidData => "InvalidData"
  | timedOut => "TimedOut"
  | writeZero => "WriteZero"
  | interrupted => "Interrupted"
  | unsupported => "Unsupported"
  | unexpectedEof => "UnexpectedEof"
  | outOfMemory => "OutOfMemory"
  | other => "Other"

def ofName? (s : String) : Option IoKind := all.find? fun k => k.name == s

theorem mem_all (k : IoKind) : k ∈ all := by cases k <;> decide

theorem ofName?_name (k : IoKind) : ofName? k.name = some k := by cases k <;> decide

end IoKind

structure IoFault where
  kind : IoKind
  text : String
  deriving DecidableEq, Inhabited

namespace IoFault

def truncated : IoFault := ⟨.unexpectedEof, "failed to fill whole buffer"⟩

def unreachable : IoFault := ⟨.networkUnreachable, "Network is unreachable (os error 101)"⟩

def refused : IoFault := ⟨.connectionRefused, "Connection refused (os error 111)"⟩

def reset : IoFault := ⟨.connectionReset, "Connection reset by peer (os error 104)"⟩

def readTimedOut : IoFault := ⟨.wouldBlock, "Resource temporarily unavailable (os error 11)"⟩

end IoFault

inductive Violation where
  | closedByPeer
  | emptyLine
  | lineTooLong
  | unterminatedLine
  | unknownType
  | invalidInteger
  | negativeLength
  | bulkTooLong
  | unterminatedBulk
  | nestedTooDeeply
  | sessionFailed
  | described (text : String)
  deriving DecidableEq, Inhabited

def Violation.message : Violation → String
  | closedByPeer => "connection closed by peer"
  | emptyLine => "empty reply line"
  | lineTooLong => "reply line too long"
  | unterminatedLine => "line missing CRLF"
  | unknownType => "unknown reply type"
  | invalidInteger => "invalid integer"
  | negativeLength => "negative length"
  | bulkTooLong => "bulk length exceeds limit"
  | unterminatedBulk => "bulk string missing CRLF"
  | nestedTooDeeply => "reply nested too deeply"
  | sessionFailed => "session already failed"
  | described text => text

inductive Fault where
  | alreadyConfigured
  | notConfigured
  | invalidMaster (found : Nat)
  | tooManyReplicas (count limit : Nat)
  | invalidPartition (partition limit : Nat)
  | poolClosed (pool : String)
  | overload (pool : String) (limit : Nat)
  | allocation
  | handshake (target : String) (source : Fault)
  | invalidAddress (address : String)
  | io (fault : IoFault)
  | protocol (violation : Violation)
  | command (text : String)
  deriving DecidableEq, Inhabited

inductive FaultKind where
  | configuration | overload | allocation | handshake | transport | command
  deriving DecidableEq, Inhabited

namespace Fault

def message : Fault → String
  | alreadyConfigured => "manager is already configured"
  | notConfigured => "manager is not configured"
  | invalidMaster found =>
    "bad master address: expected exactly one host:port entry, found " ++ found.repr
  | tooManyReplicas count limit =>
    "too many replicas: " ++ count.repr ++ " exceeds limit " ++ limit.repr
  | invalidPartition partition limit =>
    "partition " ++ partition.repr ++ " out of range (0.." ++ limit.repr ++ ")"
  | poolClosed pool => "pool " ++ pool ++ " is closed"
  | overload pool limit =>
    "pool " ++ pool ++ " overloaded: " ++ limit.repr ++ " connections active"
  | allocation => "connection arena allocation failed"
  | handshake target source => "handshake with " ++ target ++ " failed: " ++ source.message
  | invalidAddress address => "invalid address: " ++ address
  | io fault => "io error: " ++ fault.text
  | protocol violation => "protocol error: " ++ violation.message
  | command text => "server error: " ++ text

def kind : Fault → FaultKind
  | alreadyConfigured | notConfigured | invalidMaster _ | tooManyReplicas .. | invalidPartition ..
  | poolClosed _ => .configuration
  | overload .. => .overload
  | allocation => .allocation
  | handshake .. => .handshake
  | invalidAddress _ | io _ | protocol _ => .transport
  | command _ => .command

def isTransport (f : Fault) : Bool := f.kind == .transport

/-- The texts of the causes under a fault, the nearest first. An input/output fault is caused by the
failure of the system, whose bare text it is. -/
def chain : Fault → List String
  | handshake _ source => source.message :: source.chain
  | io fault => [fault.text]
  | _ => []

end Fault

end SessionPool
