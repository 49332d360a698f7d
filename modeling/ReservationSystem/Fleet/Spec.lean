import ReservationSystem.Cluster.Spec
import ReservationSystem.Gateway.Failover

/-!
# All restaurants behind one gateway

`common/config.py` with any number of restaurants, the nodes that `run_all.py` starts for them,
and the map that a promotion changes. Messages find their nodes by address alone.
-/

namespace ReservationSystem

open Gateway (Address)

/-! ## The configuration -/

def heartbeatPortOffset : Nat := 1000

/-- The port of a node, from that of its restaurant's primary. -/
def Side.port : Side → Nat → Nat
  | .primary, port => port
  | .backup, port => port + heartbeatPortOffset

/-- `serviceMap` is `RESTAURANT_SERVICE_MAP` before any promotion. All backups run on
`REPLICATION_HOST`, and no port is used twice. -/
structure Config where
  replicationHost : String
  serviceMap : Dict String Address
  tables : String → Dict TableId TableInfo
  printable : Char → Bool
  hosts : ∀ e ∈ serviceMap.entries, e.2.1 = replicationHost
  ports : (serviceMap.entries.map fun e => e.2.2).Nodup
  apart : ∀ e ∈ serviceMap.entries, ∀ e' ∈ serviceMap.entries,
    e.2.2 ≠ e'.2.2 + heartbeatPortOffset

namespace Config

/-- A value in an f-string. -/
def fstr (conf : Config) : Json → String := Json.fstr conf.printable

/-- `BACKUP_MAP.get(port)`. -/
def backupMap (conf : Config) (port : Nat) : Option Nat :=
  if port ∈ conf.serviceMap.entries.map fun e => e.2.2 then some (port + heartbeatPortOffset)
  else none

/-- Where `run_all.py` starts the nodes of a restaurant. -/
def address (conf : Config) (rid : String) (side : Side) : Option Address :=
  (conf.serviceMap.get? rid).map fun a => (a.1, side.port a.2)

/-- The node that listens on an address. -/
def listener (conf : Config) (a : Address) : Option (String × Side) :=
  conf.serviceMap.entries.findSome? fun e =>
    if a = e.2 then some (e.1, .primary)
    else if a = (e.2.1, Side.backup.port e.2.2) then some (e.1, .backup)
    else none

/-- The arguments of the constructor of a node. -/
def service (conf : Config) (rid : String) (side : Side) : Service where
  restaurantId := rid
  tables := conf.tables rid
  printable := conf.printable
  backupTarget := (conf.address rid side).bind fun a => conf.backupMap a.2

end Config

/-! ## The fleet -/

/-- A message on its way: of the gateway for a restaurant, or of that restaurant's primary. -/
structure Letter where
  restaurant : String
  address : Address
  demand : Demand

/-- `promotions` are the restaurants whose `BackupService.promote` has run to its end. -/
structure Fleet where
  serviceMap : Dict String Address
  nodes : String → Side → Node
  letters : List Letter
  promotions : List String

namespace Fleet

def start (conf : Config) : Fleet where
  serviceMap := conf.serviceMap
  nodes := fun rid side => .start (conf.service rid side) (side = .backup)
  letters := []
  promotions := []

/-- Letters are numbered in the order in which they are sent, and can arrive late, twice or
never. -/
inductive Event
  | issue (rid : String) (demand : Demand)
  | failover (i : Nat) (reply : Reply)
  | arrive (i : Nat) (h : Thread)
  | act (rid : String) (side : Side) (h : Thread) (a : Action)
  | promote (rid : String)
  | redirect (rid : String)

def getServiceAddress (f : Fleet) (rid : String) : Option Address := f.serviceMap.get? rid

def send (f : Fleet) (letter : Letter) : Fleet := { f with letters := f.letters ++ [letter] }

/-- What `replicator.replicate` has sent in a step from `s` to `s'`. -/
def posted (conf : Config) (rid : String) (s s' : Node) : List Letter :=
  (s'.log.drop s.log.length).filterMap fun
    | .sent _ msg => s.replicator.map fun port =>
      ⟨rid, (conf.replicationHost, port), .write (.applyReplication msg)⟩
    | _ => none

/-- A step of a node that has been started. -/
def onNode (conf : Config) (f : Fleet) (rid : String) (side : Side) (e : Node.Event) :
    Option Fleet :=
  if (conf.address rid side).isSome then
    ((f.nodes rid side).step (conf.service rid side) e).map fun s' =>
      { f with
        nodes := fun rid' side' => if rid' = rid ∧ side' = side then s' else f.nodes rid' side'
        letters := f.letters ++ posted conf rid (f.nodes rid side) s' }
  else none

/-- The loop over `RESTAURANT_SERVICE_MAP` in `promote`: it changes the first entry with the
primary's port, and stops. -/
def updateMap (map : Dict String Address) (primaryPort : Nat) (backup : Address) :
    Dict String Address :=
  match map.entries.find? fun e => e.2.2 = primaryPort with
  | some e => map.set e.1 backup
  | none => map

/-- `promote` after `promote_to_primary`. -/
def redirect (conf : Config) (f : Fleet) (rid : String) : Option Fleet :=
  match conf.address rid .primary, conf.address rid .backup with
  | some primary, some backup =>
    if (f.nodes rid .backup).isPromotedPrimary then
      some
        { f with
          serviceMap := updateMap f.serviceMap primary.2 backup
          promotions := rid :: f.promotions }
    else none
  | _, _ => none

def step (conf : Config) (f : Fleet) : Event → Option Fleet
  | .issue rid demand =>
    -- `getServiceAddress`, and the first `sendToService`.
    if demand.IsClient then (f.getServiceAddress rid).map fun a => f.send ⟨rid, a, demand⟩
    else none
  | .failover i reply =>
    (f.letters[i]?).bind fun letter =>
      if letter.demand.IsClient then
        (Gateway.failoverPort conf.backupMap letter.address.2 reply).map fun port =>
          f.send ⟨letter.restaurant, (conf.replicationHost, port), letter.demand⟩
      else none
  | .arrive i h =>
    (f.letters[i]?).bind fun letter =>
      (conf.listener letter.address).bind fun node =>
        match letter.demand with
        | .read _ => some f
        | .write req => f.onNode conf node.1 node.2 (.receive h req)
  | .act rid side h a => f.onNode conf rid side (.act h a)
  | .promote rid => f.onNode conf rid .backup .promote
  | .redirect rid => f.redirect conf rid

end Fleet

end ReservationSystem
