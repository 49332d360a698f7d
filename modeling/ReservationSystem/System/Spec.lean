import ReservationSystem.Cluster.Spec

/-!
# The gateway in front of a cluster

`sendToServiceWithFailover`, and the entry of `RESTAURANT_SERVICE_MAP` that a promotion
changes. The gateway serves one request at a time: it is an `HTTPServer` without threads.
-/

namespace ReservationSystem

/-- The node that listens on a port of the restaurant. -/
def Cluster.node (c : Cluster) : Side → Node
  | .primary => c.primary
  | .backup => c.backup

/-- The request that the gateway works on, and the node it has sent it to last. -/
structure Call where
  number : Nat
  request : Request
  side : Side

/-- What an observer of the gateway sees, in order. The source keeps no such list. -/
inductive Mark
  | issued (n : Nat) (req : Request)
  | tried (call : Call)
  | answered (call : Call) (resp : Response)

/-- `address` is the restaurant's entry in `RESTAURANT_SERVICE_MAP`, and `count` the number
of requests so far. -/
structure System where
  cluster : Cluster
  address : Side
  call : Option Call
  count : Nat
  log : List Mark

namespace System

def start (d : Deployment) : System where
  cluster := .start d
  address := .primary
  call := none
  count := 0
  log := []

/-- A request can come to its node late or never, also when the gateway has given it up. -/
inductive Event
  | issue (req : Request)
  | arrive (side : Side) (n : Nat)
  | cluster (e : Cluster.Event)
  | redirect
  | fail (text : String)
  | reply

/-- `"unavailable" in text`. -/
def mentionsUnavailable (text : String) : Bool :=
  text.toList.tails.any fun rest => "unavailable".toList.isPrefixOf rest

/-- The answer of `sendToService` when the socket raises: refused, reset or timed out. -/
def unavailable (text : String) : Response := errorAnswer ("Service unavailable: " ++ text)

/-- The request that the gateway has sent to a node under this number. -/
def triedOn (s : System) (side : Side) (n : Nat) : Option Request :=
  s.log.findSome? fun
    | .tried call => if call.number = n ∧ call.side = side then some call.request else none
    | _ => none

/-- The answer of the handler that the call has started on its node. -/
def answerTo (s : System) (call : Call) : Option Response :=
  match (s.cluster.node call.side).handlers (.client call.number) with
  | some ⟨_, .done resp⟩ => some resp
  | _ => none

/-- A client's request, which goes to the node of `getServiceAddress`. -/
def issue (s : System) (req : Request) : System :=
  { s with
    call := some ⟨s.count, req, s.address⟩
    count := s.count + 1
    log := s.log ++ [.issued s.count req, .tried ⟨s.count, req, s.address⟩] }

/-- The second `sendToService`. -/
def retry (s : System) (call : Call) : System :=
  { s with
    call := some { call with side := .backup }
    log := s.log ++ [.tried { call with side := .backup }] }

def answer (s : System) (call : Call) (resp : Response) : System :=
  { s with
    call := none
    log := s.log ++ [.answered call resp] }

/-- What `sendToServiceWithFailover` does with a response. Only the primary's port is a key
of `BACKUP_MAP`. -/
def respond (s : System) (call : Call) (resp : Response) : System :=
  if resp.status = .error ∧ mentionsUnavailable resp.message ∧ call.side = .primary then
    s.retry call
  else s.answer call resp

def onCluster (d : Deployment) (s : System) (e : Cluster.Event) : Option System :=
  (s.cluster.step d e).map fun c => { s with cluster := c }

def step (d : Deployment) (s : System) : Event → Option System
  | .issue req => if s.call.isNone ∧ req.IsClient then some (s.issue req) else none
  | .arrive side n => (s.triedOn side n).bind fun req => s.onCluster d (.request side n req)
  | .cluster (.request ..) => none
  | .cluster e => s.onCluster d e
  | .redirect =>
    -- `BackupService.promote`, after `promote_to_primary`.
    if s.cluster.backup.isPromotedPrimary then some { s with address := .backup } else none
  | .fail text => s.call.map fun call => s.respond call (unavailable text)
  | .reply => s.call.bind fun call => (s.answerTo call).map (s.respond call)

/-! ## Pieces of runs -/

/-- The handler of request `n` on a node takes its steps. -/
def acts (side : Side) (n : Nat) (as : List Action) : List Event :=
  as.map fun a => .cluster (.act side (.client n) a)

/-- The primary takes request `n` and sends it on. -/
def sends (n : Nat) : List Event :=
  .arrive .primary n :: acts .primary n [.acquire, .check, .stamp 0, .send]

/-- The backup applies the message of request `n`. -/
def applies (n : Nat) : List Event := (Cluster.applies n).map .cluster

/-- The primary hears of it and is done. -/
def confirms (n : Nat) : List Event := acts .primary n [.returned .acked, .store, .release]

/-- The primary serves request `n` in full, and the gateway passes its answer on. -/
def serves (n : Nat) : List Event := sends n ++ applies n ++ confirms n ++ [.reply]

/-- The backup serves request `n` on its own, and the gateway passes its answer on. -/
def servesOnBackup (n : Nat) : List Event :=
  .arrive .backup n ::
    acts .backup n [.acquire, .check, .stamp 0, .skipReplication, .store, .release] ++ [.reply]

/-- A node finds that it cannot do what the request asks for. -/
def refuses (side : Side) (n : Nat) : List Event :=
  .arrive side n :: acts side n [.acquire, .check, .release] ++ [.reply]

end System

end ReservationSystem
