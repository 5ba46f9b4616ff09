import SessionPool.Address
import SessionPool.Duration
import SessionPool.Wire.Command
import SessionPool.Wire.Feed

/-!
# Networks and peers

A session talks over a link. What the peer at the other end does is part of the link: for every
command it receives it has a response, which may be any bytes in any deliveries, a failure, or
nothing. A network says what connecting to an address gives.
-/

namespace SessionPool

/-- The write of a command fails with `refusal`, if there is one, behind the first `taken` bytes. A
reader that wants more than the deliveries meets what is `behind` them, a failure or the end of the
data. -/
structure Response where
  refusal : Option IoFault := none
  taken : Nat := 0
  deliveries : List Delivery := []
  behind : Option IoFault := some .readTimedOut
  deriving DecidableEq, Inhabited

namespace Response

def okay : Response := { deliveries := [.bytes (asciiBytes "+OK\r\n".toList)] }

def ofBytes (data : Bytes) : Response := { deliveries := [.bytes data] }

def closing (data : Bytes) : Response := { deliveries := [.bytes data], behind := none }

def reset : Response := { behind := some .reset }

end Response

/-- The script has the responses to the next commands. A read or a write may take as long as the
time limit, and without one for ever. -/
structure Link where
  script : List Response := []
  afterwards : Response := .okay
  incoming : Feed := { behind := some .readTimedOut }
  written : Bytes := []
  timeLimit : Option Duration := none
  deriving DecidableEq, Inhabited

namespace Link

def response (l : Link) (i : Nat) : Response := l.script[i]?.getD l.afterwards

def write (frame : Bytes) (l : Link) : Except IoFault Unit × Link :=
  let response := l.response 0
  let script := l.script.tail
  match response.refusal with
  | some fault =>
    (.error fault, { l with script, written := l.written ++ frame.take response.taken })
  | none =>
    (.ok (), { l with
      script
      written := l.written ++ frame
      incoming := { l.incoming with
        upcoming := l.incoming.upcoming ++ response.deliveries
        behind := response.behind } })

instance : ByteSource Link where
  readLine limit l :=
    let (line, incoming) := ByteSource.readLine limit l.incoming
    (line, { l with incoming })
  readExactly count l :=
    let (data, incoming) := ByteSource.readExactly count l.incoming
    (data, { l with incoming })

end Link

structure Network where
  connect (endpoint : Address) (limit : Option Duration) : Except Fault Link

namespace Network

def resolves (endpoint : Address) : Bool :=
  !endpoint.host.isEmpty && !endpoint.host.toList.contains '\x00'

def isolated : Network where
  connect endpoint _ :=
    if resolves endpoint then .error (.io .unreachable)
    else .error (.invalidAddress endpoint.render)

def ofPeers (peers : List (Address × Link)) : Network where
  connect endpoint _ :=
    if resolves endpoint then
      match peers.find? fun peer => peer.1 = endpoint with
      | some (_, link) => .ok link
      | none => .error (.io .refused)
    else .error (.invalidAddress endpoint.render)

end Network

end SessionPool
