import ReservationSystem.Site.Http

/-!
# The list of restaurants

`GET /restaurants` in front of the site. The gateway asks one restaurant after the other, and nodes
can crash between two of them.
-/

namespace ReservationSystem

open Gateway (Address sendToService failoverPort)
open Raising Url

/-- The loop of `do_GET` over the entries that are left, and what is seen of it. -/
inductive Browses (w : Web) (lib : Libraries) (net : Address → Msg → Msg) :
    List (String × Address) → List Seen → Site → Site → Prop
  | done (site : Site) : Browses w lib net [] [] site site
  | asks (rid : String) (a : Address) (rest : List (String × Address)) (reply : Reply)
      (seen : List Seen) (site site₁ site' : Site)
      (hs : Site.Speaks w lib site net a Server.getInfoMessage (.read .getInfo) reply site₁)
      (hb : Browses w lib net rest seen site₁ site') :
      Browses w lib net ((rid, a) :: rest) (.asked rid (.read .getInfo) reply :: seen) site site'
  | crashes (rid : String) (side : Side) (es : List (String × Address)) (seen : List Seen)
      (site site' : Site) (hb : Browses w lib net es seen (site.crash rid side) site') :
      Browses w lib net es (.crashed rid side :: seen) site site'

/-- What a list of restaurants has to say about `rid`: all that it tells about itself but the
status, and nothing where `_getRestaurantInfo` raises. -/
def Web.listed (w : Web) (rid : String) : Option Json :=
  match (w.service rid .primary).getRestaurantInfo (w.cat rid) with
  | .info about => some (.dict (about.encode.drop 1))
  | _ => none

section
variable {w : Web} {lib : Libraries} {net : Address → Msg → Msg} {site site₁ site' : Site}
  {a : Address} {msg : Msg} {q : Query} {reply : Reply} {rid : String} {seen : List Seen}
  {es : List (String × Address)}

/-- Reading does not change the site. -/
theorem Site.Contacts.read_site {attempt : Gateway.Attempt}
    (hc : Site.Contacts w site a (.read q) attempt site') : site' = site := by
  cases hc with
  | refused | read => rfl

theorem Site.Speaks.read_site
    (hs : Site.Speaks w lib site net a msg (.read q) reply site') : site' = site := by
  cases hs with
  | answered attempt site' hc => exact hc.read_site
  | failedOver attempt attempt' port site₁ site' hc hport hc' =>
    rw [hc'.read_site, hc.read_site]

theorem getRestaurantInfo_cases (cfg : Service) (cat : Catalogue) :
    (∃ about, cfg.getRestaurantInfo cat = .info about ∧ about.restaurantId = cfg.restaurantId) ∨
      ∃ text, cfg.getRestaurantInfo cat = .raised text := by
  unfold Service.getRestaurantInfo
  split
  · exact .inr ⟨_, rfl⟩
  · exact .inr ⟨_, rfl⟩
  · exact .inl ⟨_, rfl, rfl⟩

/-- The element that the gateway makes of an answer. -/
theorem listed_eq {books : Dict Key Reservation} (lib : Libraries)
    (hx : Explains w rid books (.read .getInfo) reply) :
    w.listed rid = if (reply.encode lib.time (.read .getInfo)).get "status" = .str "ok" then
      some (Server.restaurantData rid (reply.encode lib.time (.read .getInfo))) else none := by
  obtain rfl : reply = (w.service rid .primary).getRestaurantInfo (w.cat rid) := hx
  unfold Web.listed
  rcases getRestaurantInfo_cases (w.service rid .primary) (w.cat rid) with
    ⟨about, habout, hrid⟩ | ⟨text, htext⟩
  · rw [habout, if_pos ((Site.encode_ok_iff ..).mpr rfl)]
    obtain rfl : about.restaurantId = rid := hrid
    rfl
  · rw [htext, if_neg fun h => ?_]
    · rfl
    · cases (Site.encode_ok_iff ..).mp h

/-- A request for the list, from any site that a run has led to. -/
theorem browses_runs {log : List Seen} (hb : Browses w lib net es seen site site')
    (hr : Site.Runs w log site) (hes : ∀ e ∈ es, site.serviceMap.get? e.1 = some e.2) :
    Site.Runs w (log ++ seen) site' ∧ ∃ kept : List String, kept.Sublist (es.map Prod.fst) ∧
      (∀ e ∈ es, .crashed e.1 .backup ∉ log ++ seen → e.1 ∈ kept) ∧
      (site.gateway w lib net).restaurants es = .ok (kept.filterMap w.listed) := by
  induction hb generalizing log with
  | done site => exact ⟨by rwa [List.append_nil], [], .slnil, by simp, rfl⟩
  | crashes rid side es seen site site' hb ih =>
    obtain ⟨hr', kept, hsub, hall, hlist⟩ := ih (.crashes _ _ rid side hr) hes
    rw [List.append_assoc] at hr' hall
    exact ⟨hr', kept, hsub, hall, hlist⟩
  | asks rid a rest reply seen site site₁ site' hs hb ih =>
    have haddr := hes (rid, a) List.mem_cons_self
    obtain rfl := hs.read_site
    have hasked := Site.Runs.asks _ _ _ rid a (.read .getInfo) reply hr trivial haddr hs.exchanges
    obtain ⟨hr', kept, hsub, hall, hlist⟩ :=
      ih hasked fun e he => hes e (List.mem_cons_of_mem _ he)
    rw [List.append_assoc] at hr' hall
    refine ⟨hr', ?_⟩
    rw [Server.restaurants, hs.sendToServiceWithFailover, hlist]
    rcases (Site.kept_runs hasked).accounted log rid _ reply [] rfl with hx | ⟨hdown, herr⟩
    · refine ⟨rid :: kept, hsub.cons_cons rid, ?_, ?_⟩
      · intro e he hup
        rcases List.mem_cons.mp he with rfl | he
        · exact List.mem_cons_self
        · exact List.mem_cons_of_mem _ (hall e he hup)
      · rw [List.filterMap_cons, listed_eq lib hx]
        by_cases hok : (reply.encode lib.time (.read .getInfo)).get "status" = .str "ok"
        · simp only [bind, Except.bind, if_pos hok]
          rfl
        · simp only [bind, Except.bind, if_neg hok]
          rfl
    · refine ⟨kept, hsub.cons rid, ?_, ?_⟩
      · intro e he hup
        rcases List.mem_cons.mp he with rfl | he
        · exact absurd (List.mem_append_left _ hdown) hup
        · exact hall e he hup
      · have hne : (reply.encode lib.time (.read .getInfo)).get "status" ≠ .str "ok" := by
          rw [ne_eq, Site.encode_ok_iff, herr]
          decide
        simp only [bind, Except.bind, if_neg hne]
        rfl

end

namespace Site

/-! ## The restaurants of the map -/

section
variable {w : Web} {site site' : Site} {a : Address} {demand : Demand} {reply : Reply}
  {log : List Seen}

theorem Contacts.sameMap {attempt : Gateway.Attempt}
    (hc : Contacts w site a demand attempt site') : site'.serviceMap = site.serviceMap := by
  cases hc with
  | refused | read => rfl
  | write req rid side h as s' resp site' hclient hreach hserves hprompt hrep =>
    cases hrep with
    | unused | acked | failed => rfl

theorem Exchanges.sameMap (hx : Exchanges w site a demand reply site') :
    site'.serviceMap = site.serviceMap := by
  cases hx with
  | answered attempt site' hc hport => exact hc.sameMap
  | failedOver attempt attempt' port site₁ site' hc hport hc' =>
    rw [hc'.sameMap, hc.sameMap]

theorem keys_updateMap (map : Dict String Address) (primaryPort : Nat) (backup : Address) :
    (Fleet.updateMap map primaryPort backup).keys = map.keys := by
  unfold Fleet.updateMap
  split
  · next e he =>
    exact Dict.keys_set_of_mem (List.mem_map_of_mem (List.mem_of_find?_eq_some he)) backup
  · rfl

/-- The map names the same restaurants all the time. -/
theorem runs_keys (hr : Runs w log site) : site.serviceMap.keys = w.serviceMap.keys := by
  induction hr with
  | start => rfl
  | asks log site site' rid a demand reply hr hc haddr hx ih => rw [hx.sameMap, ih]
  | crashes log site rid side hr ih => exact ih
  | promotes log site rid hr hup ih => exact ih
  | redirects log site rid primary backup hr hp hb hup hprom ih =>
    exact (keys_updateMap ..).trans ih

end

/-! ## The response -/

/-- Who asks for the restaurants gets one response. It lists, in the order of the configuration,
what the restaurants tell about themselves, and leaves out none whose backup runs. A restaurant
whose data has no name or no timeslots answers with an error: it is in `kept`, and has nothing
`listed`. -/
theorem browsing {w : Web} {lib : Libraries} {net : Address → Msg → Msg} {site site' : Site}
    {log seen : List Seen} {target path query : List Char} (hr : Runs w log site)
    (hparse : urlparse lib.odd target = .ok ⟨path, query⟩) (hpath : path = "/restaurants".toList)
    (hb : Browses w lib net site.serviceMap.entries seen site site') :
    Runs w (log ++ seen) site' ∧ ∃ kept : List String, kept.Sublist w.serviceMap.keys ∧
      (∀ rid ∈ w.serviceMap.keys, .crashed rid .backup ∉ log ++ seen → rid ∈ kept) ∧
      ((site.gateway w lib net).handle (.get target)).run.run [] =
        (.ok (), [⟨200, .dict [("restaurants", .list (kept.filterMap w.listed))]⟩]) := by
  obtain ⟨hr', kept, hsub, hall, hlist⟩ :=
    browses_runs hb hr fun e he => (Dict.get?_eq_some_iff ..).mpr he
  refine ⟨hr', kept, ?_, ?_, ?_⟩
  · rw [← runs_keys hr]
    exact hsub
  · rw [← runs_keys hr]
    intro rid hrid hup
    obtain ⟨e, he, rfl⟩ := List.mem_map.mp hrid
    exact hall e he hup
  · have hlist' : (site.gateway w lib net).restaurants
        (site.gateway w lib net).restaurantServiceMap.entries = .ok (kept.filterMap w.listed) :=
      hlist
    have hparse' : urlparse (site.gateway w lib net).odd target = .ok ⟨path, query⟩ := hparse
    unfold Server.handle Server.doGet
    rw [Server.run_ok hparse', if_pos hpath, Server.run_ok hlist']
    rfl

/-- Two restaurants that know their names. -/
def namedWebs : Web :=
  { twoWebs with
    cat := fun rid =>
      { plainCatalogue with info := [("name", .str rid), ("timeslots", .list [])] } }

def namedInfo (rid : String) : Reply :=
  (namedWebs.service rid .primary).getRestaurantInfo (namedWebs.cat rid)

/-- The second primary crashes after the first restaurant has answered. -/
theorem browsing_crash : ∃ (net : Address → Msg → Msg) (seen : List Seen) (site' : Site)
    (kept : List String),
    .crashed "restaurant_2" .primary ∈ seen ∧ Runs namedWebs seen site' ∧
      "restaurant_1" ∈ kept ∧ "restaurant_2" ∈ kept ∧
      (((start namedWebs).gateway namedWebs fewLibraries net).handle
        (.get "/restaurants".toList)).run.run [] =
          (.ok (), [⟨200, .dict [("restaurants", .list (kept.filterMap namedWebs.listed))]⟩]) := by
  let net (a : Address) (_ : Msg) : Msg :=
    if a.2 = 6001 then (namedInfo "restaurant_1").encode fewLibraries.time (.read .getInfo)
    else if a.2 = 6002 then
      (sendToService (.noResponse "refused")).encode fewLibraries.time (.read .getInfo)
    else (namedInfo "restaurant_2").encode fewLibraries.time (.read .getInfo)
  have hparse : urlparse fewLibraries.odd "/restaurants".toList = .ok ⟨"/restaurants".toList, []⟩ :=
    rfl
  have hdown : ((start namedWebs).crash "restaurant_2" .primary).up "restaurant_2" .primary =
      false := by
    simp [up_crash]
  have hb : Browses namedWebs fewLibraries net (start namedWebs).serviceMap.entries
      [.asked "restaurant_1" (.read .getInfo) (namedInfo "restaurant_1"),
        .crashed "restaurant_2" .primary,
        .asked "restaurant_2" (.read .getInfo) (namedInfo "restaurant_2")]
      (start namedWebs) ((start namedWebs).crash "restaurant_2" .primary) := by
    refine .asks _ _ _ _ _ _ (start namedWebs) _ ?_
      (.crashes _ _ _ _ _ _ (.asks _ _ _ _ _ _ _ _ ?_ (.done _)))
    · exact .answered (.answered (namedInfo "restaurant_1")) _
        (.read .getInfo "restaurant_1" .primary ⟨rfl, rfl⟩) rfl rfl
    · exact .failedOver (.noResponse "refused") (.answered (namedInfo "restaurant_2")) 7002 _ _
        (.refused _ "refused" (not_reaches rfl hdown)) (failoverPort_unavailable ..)
        (.read .getInfo "restaurant_2" .backup ⟨rfl, rfl⟩) rfl rfl
  obtain ⟨hr, kept, -, hall, hsent⟩ := browsing .start hparse rfl hb
  exact ⟨net, _, _, kept, by simp, hr, hall _ (by decide) (by simp), hall _ (by decide) (by simp),
    hsent⟩

end Site

end ReservationSystem
