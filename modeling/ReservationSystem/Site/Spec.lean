import ReservationSystem.Fleet.Isolation
import ReservationSystem.Node.Serve

/-!
# The whole site, one request at a time

The gateway, and the nodes of all restaurants at their addresses. Nothing is delayed: a node that
runs answers at once, and one that has crashed refuses the connection. Crashes, promotions and
changes of the map come between two requests.
-/

namespace ReservationSystem

open Gateway (Address)

/-- A configuration, with what the restaurants answer to queries. -/
structure Web extends Config where
  cat : String → Catalogue

abbrev Web.service (w : Web) (rid : String) (side : Side) : Service := w.toConfig.service rid side

/-- `serviceMap` is `RESTAURANT_SERVICE_MAP`, which promotions change. -/
structure Site where
  serviceMap : Dict String Address
  nodes : String → Side → Node
  up : String → Side → Bool

/-- What an observer of the gateway sees, in order. -/
inductive Seen
  | asked (rid : String) (demand : Demand) (reply : Reply)
  | crashed (rid : String) (side : Side)

namespace Site

def start (w : Web) : Site where
  serviceMap := w.serviceMap
  nodes := fun rid side => .start (w.service rid side) (side = .backup)
  up := fun _ _ => true

def setNode (site : Site) (rid : String) (side : Side) (s : Node) : Site :=
  { site with nodes := Function.update site.nodes rid (Function.update (site.nodes rid) side s) }

def crash (site : Site) (rid : String) (side : Side) : Site :=
  { site with up := Function.update site.up rid (Function.update (site.up rid) side false) }

/-- `BackupService.promote`, after `promote_to_primary`. -/
def redirect (site : Site) (primary backup : Address) : Site :=
  { site with serviceMap := Fleet.updateMap site.serviceMap primary.2 backup }

/-! ## Exchanges -/

/-- A node that runs is reached at `a`. -/
def Reaches (w : Web) (site : Site) (a : Address) (rid : String) (side : Side) : Prop :=
  w.listener a = some (rid, side) ∧ site.up rid side = true

/-- What `replicate` does for a handler that took the node of `rid` from `s` to `s'`. -/
inductive Replicates (w : Web) (site : Site) (s s' : Node) (as : List Action) : Site → Prop
  | unused (hno : Node.attempts as = false) : Replicates w site s s' as site
  | acked (h h' : Thread) (msg : ReplicationMsg) (port : Nat) (rid : String) (side : Side)
      (as' : List Action) (b : Node) (resp : Response)
      (hack : .returned .acked ∈ as) (hsent : .sent h msg ∈ s'.log.drop s.log.length)
      (hport : s.replicator = some port)
      (hreach : site.Reaches w (w.replicationHost, port) rid side)
      (hserves : Node.Serves (w.service rid side) (site.nodes rid side) h'
        (.applyReplication msg) as' b resp) (hok : resp.status = .ok) :
      Replicates w site s s' as (site.setNode rid side b)
  | failed (port : Nat) (hfail : .returned .failed ∈ as) (hport : s.replicator = some port)
      (hdown : ∀ rid side, ¬ site.Reaches w (w.replicationHost, port) rid side) :
      Replicates w site s s' as site

/-- `sendToService`: a message to an address, and what comes of it. -/
inductive Contacts (w : Web) (site : Site) (a : Address) : Demand → Gateway.Attempt → Site → Prop
  | refused (demand : Demand) (text : String) (hdown : ∀ rid side, ¬ site.Reaches w a rid side) :
      Contacts w site a demand (.noResponse text) site
  | read (q : Query) (rid : String) (side : Side) (hreach : site.Reaches w a rid side) :
      Contacts w site a (.read q)
        (.answered ((site.nodes rid side).read (w.service rid side) (w.cat rid) q)) site
  | write (req : Request) (rid : String) (side : Side) (h : Thread) (as : List Action) (s' : Node)
      (resp : Response) (site' : Site) (hc : req.IsClient) (hreach : site.Reaches w a rid side)
      (hserves : Node.Serves (w.service rid side) (site.nodes rid side) h req as s' resp)
      (hprompt : .lockTimeout ∉ as)
      (hrep : Replicates w (site.setNode rid side s') (site.nodes rid side) s' as site') :
      Contacts w site a (.write req) (.answered (.written resp)) site'

/-- `sendToServiceWithFailover`. -/
inductive Exchanges (w : Web) (site : Site) (a : Address) (demand : Demand) : Reply → Site → Prop
  | answered (attempt : Gateway.Attempt) (site' : Site)
      (hc : Contacts w site a demand attempt site')
      (hport : Gateway.failoverPort w.backupMap a.2 (Gateway.sendToService attempt) = none) :
      Exchanges w site a demand (Gateway.sendToService attempt) site'
  | failedOver (attempt attempt' : Gateway.Attempt) (port : Nat) (site₁ site' : Site)
      (hc : Contacts w site a demand attempt site₁)
      (hport : Gateway.failoverPort w.backupMap a.2 (Gateway.sendToService attempt) = some port)
      (hc' : Contacts w site₁ (w.replicationHost, port) demand attempt' site') :
      Exchanges w site a demand (Gateway.sendToService attempt') site'

/-- What can happen to a site, and what is seen of it. -/
inductive Runs (w : Web) : List Seen → Site → Prop
  | start : Runs w [] (start w)
  | asks (log : List Seen) (site site' : Site) (rid : String) (a : Address) (demand : Demand)
      (reply : Reply) (hr : Runs w log site) (hc : demand.IsClient)
      (haddr : site.serviceMap.get? rid = some a)
      (hx : Exchanges w site a demand reply site') :
      Runs w (log ++ [.asked rid demand reply]) site'
  | crashes (log : List Seen) (site : Site) (rid : String) (side : Side) (hr : Runs w log site) :
      Runs w (log ++ [.crashed rid side]) (site.crash rid side)
  | promotes (log : List Seen) (site : Site) (rid : String) (hr : Runs w log site)
      (hup : site.up rid .backup = true) :
      Runs w log (site.setNode rid .backup
        ((site.nodes rid .backup).promoteToPrimary (w.service rid .backup)))
  | redirects (log : List Seen) (site : Site) (rid : String) (primary backup : Address)
      (hr : Runs w log site) (hp : w.address rid .primary = some primary)
      (hb : w.address rid .backup = some backup) (hup : site.up rid .backup = true)
      (hprom : (site.nodes rid .backup).isPromotedPrimary = true) :
      Runs w log (site.redirect primary backup)

end Site

end ReservationSystem
