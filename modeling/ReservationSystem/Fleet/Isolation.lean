import ReservationSystem.Fleet.Spec
import ReservationSystem.Lib.Machine

/-!
# Restaurants do not meet

Whatever is promoted, when and how often, the messages of a restaurant go to its own two
nodes, and these store nothing of another restaurant.
-/

namespace ReservationSystem

open Machine Gateway

/-! ## One node -/

/-- The message is about a reservation of the restaurant. -/
def ReplicationMsg.Carries (msg : ReplicationMsg) (rid : String) : Prop :=
  (∃ t slot, msg.key = [rid, t, slot]) ∧ msg.reservation.restaurantId = rid

/-- A replication message that comes in is one of the restaurant. -/
def Request.FitsRestaurant (rid : String) : Request → Prop
  | .applyReplication msg => msg.Carries rid
  | _ => True

namespace Node

variable {cfg : Service} {s s' : Node} {h : Thread} {hd : Handler} {a : Action} {e : Event}

/-- The node stores, and works on, reservations of its own restaurant only. -/
structure Own (cfg : Service) (s : Node) : Prop where
  wf : Wf cfg s
  stamped : Stamped cfg s
  stored : ∀ k res, s.reservations.get? k = some res →
    k.1 = cfg.restaurantId ∧ res.restaurantId = cfg.restaurantId
  requests : ∀ h hd, s.handlers h = some hd → hd.request.FitsRestaurant cfg.restaurantId

theorem own_start (cfg : Service) (backUp : Bool) : Own cfg (start cfg backUp) where
  wf := wf_start cfg backUp
  stamped := stamped_start cfg backUp
  stored k res hk := by simp [start] at hk
  requests h hd hh := by simp [start] at hh

theorem key_restaurant {req : Request} (hf : req.FitsRestaurant cfg.restaurantId) :
    (req.key cfg).1 = cfg.restaurantId := by
  cases req with
  | applyReplication msg =>
    obtain ⟨⟨t, slot, hk⟩, -⟩ := hf
    simp [Request.key, hk]
  | _ => rfl

theorem Own.record (hi : Own cfg s) (hh : s.handlers h = some hd) (hc : hd.request.IsClient)
    {old : Option Reservation} {res : Reservation} (hold : hd.phase.old? = some old)
    (hres : hd.phase.res? = some res) : res.restaurantId = cfg.restaurantId := by
  obtain ⟨now, ts, hrec⟩ := hi.stamped h hd old res hh hc hold hres
  cases hreq : hd.request with
  | applyReplication msg =>
    rw [hreq] at hc
    exact hc.elim
  | book msg =>
    rw [hreq] at hrec
    obtain rfl := Option.some.inj hrec
    rfl
  | cancel msg =>
    rw [hreq] at hrec
    obtain ⟨r, rfl, rfl⟩ := Option.map_eq_some_iff.mp hrec
    exact (hi.stored _ r (hi.wf.seen h hd _ hh hold)).2

theorem stored_write {op : Op} {store : Dict Key Reservation} {k k' : Key}
    {res res' : Reservation} {rid : String}
    (hi : ∀ k res, store.get? k = some res → k.1 = rid ∧ res.restaurantId = rid)
    (hk : k.1 = rid) (hres : res.restaurantId = rid)
    (hget : (op.write store k res).get? k' = some res') : k'.1 = rid ∧ res'.restaurantId = rid := by
  rw [get?_write] at hget
  split_ifs at hget with heq
  · cases op with
    | book =>
      obtain rfl := Option.some.inj hget
      exact ⟨heq ▸ hk, hres⟩
    | cancel => simp [Op.effect] at hget
  · exact hi k' res' hget

theorem own_step (hi : Own cfg s) (hs : s.step cfg e = some s')
    (he : ∀ h req, e = .receive h req → req.FitsRestaurant cfg.restaurantId) : Own cfg s' := by
  have hsteps := step_spec hs
  refine ⟨wf_step hi.wf hsteps, stamped_step hi.stamped hs, ?_, ?_⟩
  · intro k res hk
    cases hsteps with
    | receive | refuse => exact hi.stored k res hk
    | promote =>
      rw [promote_reservations] at hk
      exact hi.stored k res hk
    | act h hd a s' hh ha =>
      have hkey := key_restaurant (hi.requests h hd hh)
      cases ha with
      | store old res' resp hc hp =>
        exact stored_write hi.stored hkey (hi.record hh hc (by rw [hp]; rfl) (by rw [hp]; rfl)) hk
      | apply msg resp hreq =>
        have hf := hi.requests h hd hh
        rw [hreq] at hf
        exact stored_write hi.stored hkey hf.2 hk
      | _ => exact hi.stored k res hk
  · intro h hd' hh'
    rcases hsteps.handler hh' with hsame | ⟨-, rfl, -⟩ | ⟨hd, a, p, -, hh, -, rfl⟩
    · exact hi.requests h hd' hsame
    · exact he h hd'.request rfl
    · exact hi.requests h hd hh

theorem Own.sends (hi : Own cfg s) (hs : s.step cfg e = some s') {h : Thread}
    {msg : ReplicationMsg} (hmsg : .sent h msg ∈ s'.log.drop s.log.length) :
    msg.Carries cfg.restaurantId := by
  cases step_spec hs with
  | receive | refuse => simp at hmsg
  | promote => simp [promote_log] at hmsg
  | act h' hd a s' hh ha =>
    cases ha with
    | send old res hp =>
      obtain ⟨rfl, rfl⟩ : h = h' ∧ msg = _ := by simpa using hmsg
      have hc := (hi.wf.expects h hd old hh (by rw [hp]; rfl)).1
      have hkey := key_restaurant (hi.requests h hd hh)
      refine ⟨⟨(hd.request.key cfg).2.1, (hd.request.key cfg).2.2, ?_⟩,
        hi.record hh hc (by rw [hp]; rfl) (by rw [hp]; rfl)⟩
      simp only [keyToList, hkey]
    | _ => simp at hmsg

end Node

/-! ## Addresses -/

namespace Config

variable {conf : Config} {rid rid' : String} {side side' : Side} {a : Address}

theorem address_entry (h : conf.address rid side = some a) :
    ∃ port, (rid, (conf.replicationHost, port)) ∈ conf.serviceMap.entries ∧
      a = (conf.replicationHost, side.port port) := by
  obtain ⟨⟨host, port⟩, hget, rfl⟩ := Option.map_eq_some_iff.mp h
  have hmem := (Dict.get?_eq_some_iff ..).mp hget
  obtain rfl : host = conf.replicationHost := conf.hosts _ hmem
  exact ⟨port, hmem, rfl⟩

theorem address_inj (h : conf.address rid side = some a) (h' : conf.address rid' side' = some a) :
    rid = rid' ∧ side = side' := by
  obtain ⟨port, hmem, rfl⟩ := address_entry h
  obtain ⟨port', hmem', heq⟩ := address_entry h'
  have hports : port = port' → rid = rid' := by
    rintro rfl
    exact congrArg Prod.fst (List.inj_on_of_nodup_map conf.ports hmem hmem' rfl)
  have hne := conf.apart _ hmem _ hmem'
  have hne' := conf.apart _ hmem' _ hmem
  cases side <;> cases side' <;> simp [Side.port] at heq hne hne' ⊢
  · exact hports heq
  · exact hne heq
  · exact hne' heq.symm
  · exact hports heq

theorem listener_address (h : conf.listener a = some (rid, side)) :
    conf.address rid side = some a := by
  obtain ⟨e, he, hfound⟩ := List.exists_of_findSome?_eq_some h
  have hget : conf.serviceMap.get? e.1 = some e.2 := (Dict.get?_eq_some_iff ..).mpr he
  split_ifs at hfound with ha ha
  · obtain ⟨rfl, rfl⟩ := Prod.mk.inj (Option.some.inj hfound)
    rw [address, hget, ha]
    rfl
  · obtain ⟨rfl, rfl⟩ := Prod.mk.inj (Option.some.inj hfound)
    rw [address, hget, ha]
    rfl

/-- `BACKUP_MAP` leads from the primary of a restaurant to its backup, and from there nowhere. -/
theorem backupMap_address (h : conf.address rid side = some a) {port : Nat}
    (hport : conf.backupMap a.2 = some port) :
    conf.address rid .backup = some (conf.replicationHost, port) := by
  obtain ⟨p, hmem, rfl⟩ := address_entry h
  unfold backupMap at hport
  split_ifs at hport with hin
  obtain rfl := Option.some.inj hport
  cases side with
  | primary =>
    rw [address, (Dict.get?_eq_some_iff ..).mpr hmem]
    rfl
  | backup =>
    obtain ⟨e, he, heq⟩ := List.mem_map.mp hin
    exact absurd heq (conf.apart e he _ hmem)

end Config

/-! ## The fleet -/

namespace Fleet

variable {conf : Config} {f f' : Fleet} {rid : String} {side : Side}

/-- A letter of a restaurant goes to one of its nodes, and is one that this node can take. -/
def Letter.Own (conf : Config) (letter : Letter) : Prop :=
  (∃ side, conf.address letter.restaurant side = some letter.address) ∧
    ∀ req, letter.demand = .write req → req.FitsRestaurant letter.restaurant

structure Isolated (conf : Config) (f : Fleet) : Prop where
  letters : ∀ letter ∈ f.letters, Letter.Own conf letter
  addresses : ∀ rid, f.getServiceAddress rid =
    conf.address rid (if rid ∈ f.promotions then .backup else .primary)
  promoted : ∀ rid ∈ f.promotions, (f.nodes rid .backup).isPromotedPrimary = true
  replicators : ∀ rid side port, (f.nodes rid side).replicator = some port →
    conf.address rid .backup = some (conf.replicationHost, port)
  nodes : ∀ rid side, (f.nodes rid side).Own (conf.service rid side)

theorem service_backupTarget {port : Nat} (h : (conf.service rid side).backupTarget = some port) :
    conf.address rid .backup = some (conf.replicationHost, port) := by
  obtain ⟨a, ha, hport⟩ := Option.bind_eq_some_iff.mp h
  exact Config.backupMap_address ha hport

theorem isolated_start (conf : Config) : Isolated conf (start conf) where
  letters letter hl := by simp [start] at hl
  addresses rid := by simp [start, getServiceAddress, Config.address, Side.port]
  promoted rid hr := by simp [start] at hr
  replicators rid side port hport := by
    simp only [start, Node.start] at hport
    split_ifs at hport
    exact service_backupTarget hport
  nodes rid side := Node.own_start ..

theorem isolated_send (hi : Isolated conf f) {letter : Letter} (hl : Letter.Own conf letter) :
    Isolated conf (f.send letter) where
  letters l hmem := by
    rcases List.mem_append.mp hmem with hmem | hmem
    · exact hi.letters l hmem
    · rwa [List.mem_singleton.mp hmem]
  addresses := hi.addresses
  promoted := hi.promoted
  replicators := hi.replicators
  nodes := hi.nodes

/-- The replicator changes only in a promotion, and then to what `BACKUP_MAP` says. -/
theorem replicator_step {cfg : Service} {s s' : Node} {e : Node.Event}
    (hs : s.step cfg e = some s') :
    s'.replicator = s.replicator ∨ s'.replicator = cfg.backupTarget.or s.replicator := by
  cases Node.step_spec hs with
  | receive | refuse => exact .inl rfl
  | act h hd a s' hh ha => cases ha <;> exact .inl rfl
  | promote =>
    unfold Node.promoteToPrimary
    split_ifs
    · exact .inl rfl
    · exact .inr rfl

theorem isPromotedPrimary_step {cfg : Service} {s s' : Node} {e : Node.Event}
    (hs : s.step cfg e = some s') (hp : s.isPromotedPrimary = true) :
    s'.isPromotedPrimary = true := by
  cases Node.step_spec hs with
  | receive | refuse => exact hp
  | act h hd a s' hh ha => cases ha <;> exact hp
  | promote =>
    unfold Node.promoteToPrimary
    split_ifs
    exact hp

theorem isolated_onNode (hi : Isolated conf f) {e : Node.Event}
    (hs : f.onNode conf rid side e = some f')
    (he : ∀ h req, e = .receive h req → req.FitsRestaurant rid) : Isolated conf f' := by
  unfold onNode at hs
  split_ifs at hs with hnode
  obtain ⟨s', hs', rfl⟩ := Option.map_eq_some_iff.mp hs
  have hown := hi.nodes rid side
  refine ⟨?_, hi.addresses, ?_, ?_, ?_⟩
  · intro letter hmem
    rcases List.mem_append.mp hmem with hmem | hmem
    · exact hi.letters letter hmem
    · obtain ⟨x, hx, hletter⟩ := List.mem_filterMap.mp hmem
      split at hletter
      · obtain ⟨port, hport, rfl⟩ := Option.map_eq_some_iff.mp hletter
        refine ⟨⟨.backup, hi.replicators rid side port hport⟩, ?_⟩
        rintro req hreq
        obtain rfl := Demand.write.inj hreq
        exact hown.sends hs' hx
      · simp at hletter
  · intro rid' hr
    simp only
    split_ifs with heq
    · obtain ⟨rfl, rfl⟩ := heq
      exact isPromotedPrimary_step hs' (hi.promoted _ hr)
    · exact hi.promoted rid' hr
  · intro rid' side' port hport
    simp only at hport
    split_ifs at hport with heq
    · obtain ⟨rfl, rfl⟩ := heq
      rcases replicator_step hs' with hsame | hnew
      · exact hi.replicators _ _ port (hsame ▸ hport)
      · rw [hnew, Option.or_eq_some_iff] at hport
        rcases hport with hport | ⟨-, hport⟩
        · exact service_backupTarget hport
        · exact hi.replicators _ _ port hport
    · exact hi.replicators rid' side' port hport
  · intro rid' side'
    simp only
    split_ifs with heq
    · obtain ⟨rfl, rfl⟩ := heq
      exact Node.own_step hown hs' he
    · exact hi.nodes rid' side'

/-- The loop of `promote` finds the entry of its own restaurant, or nothing when it has changed
that entry before. -/
theorem get?_updateMap (hi : Isolated conf f) {primary backup : Address}
    (hp : conf.address rid .primary = some primary) (hb : conf.address rid .backup = some backup)
    (rid' : String) : (updateMap f.serviceMap primary.2 backup).get? rid' =
      conf.address rid' (if rid' ∈ rid :: f.promotions then .backup else .primary) := by
  have hget (rid : String) : f.serviceMap.get? rid =
      conf.address rid (if rid ∈ f.promotions then .backup else .primary) := hi.addresses rid
  unfold updateMap
  split
  · rename_i e he
    have haddr := (Dict.get?_eq_some_iff ..).mpr (List.mem_of_find?_eq_some he)
    rw [hget] at haddr
    have hport : e.2.2 = primary.2 := by simpa using List.find?_some he
    have hsame : e.2 = primary := by
      obtain ⟨port, -, heq⟩ := Config.address_entry haddr
      obtain ⟨port', -, rfl⟩ := Config.address_entry hp
      rw [heq] at hport ⊢
      exact Prod.ext rfl hport
    obtain ⟨rfl, -⟩ := Config.address_inj haddr (hsame ▸ hp)
    rw [Dict.get?_set]
    split_ifs with heq hmem hmem
    · rw [heq, hb]
    · simp [heq] at hmem
    · rw [hget, if_pos ((List.mem_cons.mp hmem).resolve_left heq)]
    · rw [hget, if_neg fun h => hmem (List.mem_cons_of_mem _ h)]
  · rename_i hnone
    have hin : rid ∈ f.promotions := by
      by_contra hnot
      have hmem := (Dict.get?_eq_some_iff ..).mp (((hget rid).trans (by rw [if_neg hnot])).trans hp)
      simpa using List.find?_eq_none.mp hnone _ hmem
    have hiff : rid' ∈ rid :: f.promotions ↔ rid' ∈ f.promotions := by
      simp only [List.mem_cons, or_iff_right_iff_imp]
      rintro rfl
      exact hin
    simp only [hget, hiff]

theorem isolated_redirect (hi : Isolated conf f) (hs : f.redirect conf rid = some f') :
    Isolated conf f' := by
  unfold redirect at hs
  split at hs
  · split_ifs at hs with hprom
    obtain rfl := Option.some.inj hs
    refine { hi with addresses := get?_updateMap hi ‹_› ‹_›, promoted := ?_ }
    intro rid' hr
    rcases List.mem_cons.mp hr with rfl | hr
    · exact hprom
    · exact hi.promoted rid' hr
  · simp at hs

theorem isolated_step {e : Event} (hi : Isolated conf f) (hs : f.step conf e = some f') :
    Isolated conf f' := by
  cases e with
  | issue rid demand =>
    simp only [step] at hs
    split_ifs at hs with hc
    obtain ⟨a, ha, rfl⟩ := Option.map_eq_some_iff.mp hs
    refine isolated_send hi ⟨⟨_, (hi.addresses rid).symm.trans ha⟩, ?_⟩
    rintro req rfl
    cases req with
    | applyReplication msg => exact hc.elim
    | _ => trivial
  | failover i reply =>
    obtain ⟨letter, hl, hs⟩ := Option.bind_eq_some_iff.mp hs
    split_ifs at hs with hc
    obtain ⟨port, hport, rfl⟩ := Option.map_eq_some_iff.mp hs
    obtain ⟨⟨side, ha⟩, hfit⟩ := hi.letters letter (List.mem_of_getElem? hl)
    refine isolated_send hi ⟨⟨.backup, ?_⟩, hfit⟩
    unfold failoverPort at hport
    split_ifs at hport
    exact Config.backupMap_address ha hport
  | arrive i h =>
    obtain ⟨letter, hl, hs⟩ := Option.bind_eq_some_iff.mp hs
    obtain ⟨⟨rid, side⟩, hlisten, hs⟩ := Option.bind_eq_some_iff.mp hs
    obtain ⟨⟨side', ha⟩, hfit⟩ := hi.letters letter (List.mem_of_getElem? hl)
    obtain ⟨rfl, rfl⟩ := Config.address_inj ha (Config.listener_address hlisten)
    split at hs
    · obtain rfl := Option.some.inj hs
      exact hi
    · rename_i req hreq
      refine isolated_onNode hi hs ?_
      rintro h req heq
      obtain ⟨rfl, rfl⟩ := Node.Event.receive.inj heq
      exact hfit _ hreq
  | act rid side h a => exact isolated_onNode hi hs nofun
  | promote rid => exact isolated_onNode hi hs nofun
  | redirect rid => exact isolated_redirect hi hs

/-- In every run the gateway knows the address of each restaurant, no letter leaves its own two
nodes, and these store only reservations of the restaurant. -/
theorem shards_isolated (hr : Reach (step conf) (fun _ _ => True) (start conf) f) :
    (∀ rid, f.getServiceAddress rid =
        conf.address rid (if rid ∈ f.promotions then .backup else .primary)) ∧
      (∀ rid ∈ f.promotions, (f.nodes rid .backup).isPromotedPrimary = true) ∧
      (∀ letter ∈ f.letters, ∃ side,
        conf.address letter.restaurant side = some letter.address) ∧
      ∀ rid side k res, (f.nodes rid side).reservations.get? k = some res →
        k.1 = rid ∧ res.restaurantId = rid := by
  have hi : Isolated conf f :=
    hr.invariant (isolated_start conf) fun _ _ _ _ hi _ hs => isolated_step hi hs
  exact ⟨hi.addresses, hi.promoted, fun letter hl => (hi.letters letter hl).1,
    fun rid side => (hi.nodes rid side).stored⟩

/-- Two of the restaurants of `common/config.py`. -/
def twoRestaurants : Config where
  replicationHost := "127.0.0.1"
  serviceMap := ⟨[("restaurant_1", ("127.0.0.1", 6001)), ("restaurant_2", ("127.0.0.1", 6002))],
    by decide⟩
  tables := fun _ => urbanPlates.tables
  printable := urbanPlates.printable
  hosts := by decide
  ports := by decide
  apart := by decide

/-- A promotion, and a booking that goes to the promoted backup. -/
def promotesAndBooks : List Event :=
  [.promote "restaurant_1", .redirect "restaurant_1",
    .issue "restaurant_1" (.write (.book (dinner "T1" "Alice"))), .arrive 0 (.client 0)]

theorem shards_isolated_promoted : ∃ f,
    exec (step twoRestaurants) (start twoRestaurants) promotesAndBooks = some f ∧
      f.getServiceAddress "restaurant_1" = some ("127.0.0.1", 7001) ∧
      f.getServiceAddress "restaurant_2" = some ("127.0.0.1", 6002) := by
  obtain ⟨f, he, hprom⟩ : ∃ f,
      exec (step twoRestaurants) (start twoRestaurants) promotesAndBooks = some f ∧
        f.promotions = ["restaurant_1"] := ⟨_, rfl, rfl⟩
  obtain ⟨haddr, -⟩ := shards_isolated (reach_of_exec (meets_of_forall fun _ _ _ => trivial) he)
  refine ⟨f, he, ?_, ?_⟩
  · rw [haddr, hprom]
    rfl
  · rw [haddr, hprom]
    rfl

end Fleet

end ReservationSystem
