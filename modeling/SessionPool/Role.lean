/-!
# Roles and partitions

A store keeps a fixed number of logical partitions. Each is served by one master, which reads and
writes, and by replicas, which only read.
-/

namespace SessionPool

inductive Role where
  | master
  | replica
  deriving DecidableEq, Inhabited

def Role.name : Role → String
  | master => "master"
  | replica => "replica"

def Role.ofName? : String → Option Role
  | "master" => some master
  | "replica" => some replica
  | _ => none

@[simp] theorem Role.ofName?_name (r : Role) : ofName? r.name = some r := by cases r <;> rfl

def maxPartitions : Nat := 16

def defaultPartition : Nat := 0

def maxReplicas : Nat := 16

end SessionPool
