import ReservationSystem.Node.Spec

/-!
# A primary and its backup

The two nodes of a restaurant, as `run_all.py` starts them, and what
`PrimaryReplicator.replicate` does between them. A message may never arrive, arrive late, or
arrive when nobody waits for its answer any more.
-/

namespace ReservationSystem

/-- A restaurant. Only its primary's port is a key of `BACKUP_MAP`. -/
structure Deployment where
  restaurant : Service
  backupPort : Nat

def Deployment.primary (d : Deployment) : Service :=
  { d.restaurant with backupTarget := some d.backupPort }

def Deployment.backup (d : Deployment) : Service := { d.restaurant with backupTarget := none }

inductive Side
  | primary
  | backup
  deriving DecidableEq, Repr

structure Cluster where
  primary : Node
  backup : Node
  primaryAlive : Bool

namespace Cluster

def start (d : Deployment) : Cluster where
  primary := .start d.primary false
  backup := .start d.backup true
  primaryAlive := true

inductive Event
  | request (side : Side) (n : Nat) (req : Request)
  | act (side : Side) (h : Thread) (a : Action)
  | deliver (n : Nat)
  | promote
  | crash

/-- The message that the primary's thread `client n` has sent. -/
def sentBy (c : Cluster) (n : Nat) : Option ReplicationMsg :=
  c.primary.log.findSome? fun
    | .sent (.client m) msg => if m = n then some msg else none
    | _ => none

/-- The backup has answered that message with status ok. -/
def acknowledges (c : Cluster) (n : Nat) : Bool :=
  match c.backup.handlers (.replica n) with
  | some ⟨_, .done resp⟩ => resp.status = .ok
  | _ => false

/-- `replicate` returns `True` only for an answer with status ok. It can fail at any time. -/
def allows (c : Cluster) : Thread → Action → Bool
  | .client n, .returned .acked => c.acknowledges n
  | _, _ => true

def onPrimary (d : Deployment) (c : Cluster) (e : Node.Event) : Option Cluster :=
  if c.primaryAlive then (c.primary.step d.primary e).map fun p => { c with primary := p }
  else none

def onBackup (d : Deployment) (c : Cluster) (e : Node.Event) : Option Cluster :=
  (c.backup.step d.backup e).map fun b => { c with backup := b }

def step (d : Deployment) (c : Cluster) : Event → Option Cluster
  | .request .primary n req =>
    if req.IsClient then c.onPrimary d (.receive (.client n) req) else none
  | .request .backup n req =>
    if req.IsClient then c.onBackup d (.receive (.client n) req) else none
  | .act .primary h a => if c.allows h a then c.onPrimary d (.act h a) else none
  | .act .backup h a => c.onBackup d (.act h a)
  | .deliver n =>
    (c.sentBy n).bind fun msg => c.onBackup d (.receive (.replica n) (.applyReplication msg))
  | .promote => c.onBackup d .promote
  | .crash => some { c with primaryAlive := false }

/-! ## Pieces of runs -/

def acts (side : Side) (h : Thread) (as : List Action) : List Event := as.map (.act side h)

/-- A client's write comes to the primary, which sends it on. -/
def sends (n : Nat) (req : Request) : List Event :=
  .request .primary n req :: acts .primary (.client n) [.acquire, .check, .stamp 0, .send]

/-- The backup applies the message and answers. -/
def applies (n : Nat) : List Event :=
  .deliver n :: acts .backup (.replica n) [.acquire, .advance, .store, .release]

/-- The primary hears of it, and confirms the write. -/
def confirms (n : Nat) : List Event :=
  acts .primary (.client n) [.returned .acked, .store, .release]

/-- The primary does not hear of it. -/
def givesUp (n : Nat) : List Event := acts .primary (.client n) [.returned .failed, .release]

/-- The backup serves a booking of its own. -/
def booksOnBackup (n : Nat) (req : Request) : List Event :=
  .request .backup n req ::
    acts .backup (.client n) [.acquire, .check, .stamp 0, .skipReplication, .store, .release]

end Cluster

/-- `restaurant_1` as `run_all.py` starts it. -/
def urban : Deployment := ⟨urbanPlates, 7001⟩

end ReservationSystem
