import SessionPool.Session.Network
import SessionPool.Session.Target
import SessionPool.Session.Transport
import SessionPool.Wire.Decode

/-!
# Sessions

A session exchanges commands and replies over one link, one at a time. Opening it logs in if there
is a credential and selects the partition unless it is the default one. A session that had a failed
exchange never exchanges anything again, so that no late reply can be taken for another command's.
-/

namespace SessionPool

structure Session where
  link : Link
  endpoint : Address
  partition : Nat
  healthy : Bool
  operations : Nat
  deriving DecidableEq, Inhabited

namespace Session

def exchange (c : Command) (l : Link) : Reading Link Reply :=
  match l.write c.frame with
  | (.ok (), l) => Reply.read l
  | (.error fault, l) => (.error (.io fault), l)

def execute (c : Command) (s : Session) : Except Fault Reply × Session :=
  let s := { s with operations := s.operations + 1 }
  if s.healthy then
    match exchange c s.link with
    | (.ok r, link) => (.ok r, { s with link })
    | (.error f, link) => (.error f, { s with link, healthy := false })
  else (.error (.protocol .sessionFailed), s)

instance : Transport Session where
  isHealthy s := s.healthy
  execute := execute

/-- A session over a new link, before anything was exchanged. Reads and writes are limited by the
timeout of the target, and not at all if that is zero. -/
def ofLink (t : Target) (link : Link) : Session :=
  ⟨{ link with timeLimit := t.timeout.nonZero? }, t.endpoint, 0, true, 0⟩

def require (c : Command) (s : Session) : Except Fault Unit × Session :=
  match s.execute c with
  | (.ok r, s) => (r.toExcept.map fun _ => (), s)
  | (.error f, s) => (.error f, s)

def loginCommand (credential : String) : Command := (Command.ofName "AUTH").arg (.text credential)

def selectCommand (partition : Nat) : Command :=
  (Command.ofName "SELECT").arg (.text (String.ofList (Numeral.ofNat partition)))

def login (credential : Option String) (s : Session) : Except Fault Unit × Session :=
  match credential with
  | some credential => s.require (loginCommand credential)
  | none => (.ok (), s)

def select (partition : Nat) (s : Session) : Except Fault Unit × Session :=
  if partition = 0 then (.ok (), s)
  else match s.require (selectCommand partition) with
    | (.ok (), s) => (.ok (), { s with partition })
    | (.error f, s) => (.error f, s)

def prepare (t : Target) (s : Session) : Except Fault Unit × Session :=
  match s.login t.credential with
  | (.ok (), s) => s.select t.partition
  | (.error f, s) => (.error f, s)

def establish (network : Network) (t : Target) : Except Fault Session :=
  match network.connect t.endpoint t.timeout.nonZero? with
  | .ok link =>
    match prepare t (ofLink t link) with
    | (.ok (), s) => .ok s
    | (.error f, _) => .error f
  | .error f => .error f

end Session

end SessionPool
