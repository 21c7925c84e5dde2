import Kld.Api.Extractors
import Kld.Api.MacaroonAuth

/-!
# The routes of the API

Every route has a middleware of the group that it is declared in. A request is matched to a
route by its path, then the middleware sees it, then the method decides, and then the extractors
of the handler; without a route there is no middleware either. CORS requests are answered before
all that.
-/

namespace Kld.Api.Router

open Fallible

inductive Handler where
  | root
  | getInfo
  | estimateChannelLiquidityRange
  | getBalance
  | listFunds
  | listPeerChannels
  | listPeers
  | getNetworkNode
  | listNetworkNodes
  | getNetworkChannel
  | listNetworkChannels
  | feeRates
  | listInvoices
  | listPayments
  | localRemoteBalance
  | getFees
  | listForwards
  | channelHistory
  | listChannels
  | decodeInvoice
  | score
  | sign
  | openChannel
  | setChannelFee
  | closeChannel
  | closeChannelWithFee
  | forceCloseChannelWithBroadcast
  | forceCloseChannelWithoutBroadcast
  | newAddress
  | transfer
  | connectPeer
  | disconnectPeer
  | keysend
  | generateInvoice
  | payInvoice
  | wsHandler
deriving DecidableEq

/-- What `get`, `post` and `delete` make of a handler; `get` serves `HEAD` requests too. -/
inductive MethodRouter where
  | get (handler : Handler)
  | post (handler : Handler)
  | delete (handler : Handler)
deriving DecidableEq

def MethodRouter.handle : MethodRouter → Method → Option Handler
  | .get handler, .get => some handler
  | .get handler, .head => some handler
  | .post handler, .post => some handler
  | .delete handler, .delete => some handler
  | _, _ => none

def MethodRouter.handler : MethodRouter → Handler
  | .get handler => handler
  | .post handler => handler
  | .delete handler => handler

structure Route where
  template : String
  methodRouter : MethodRouter
deriving DecidableEq

section Routes

def rootRoute : String := "/"
def signRoute : String := "/v1/utility/signMessage"
def getInfoRoute : String := "/v1/getinfo"
def getFeesRoute : String := "/v1/getFees"
def estimateChannelLiquidityRoute : String := "/v1/estimateChannelLiquidity"
def websocketRoute : String := "/v1/ws"
def listFundsRoute : String := "/v1/listFunds"
def connectPeerRoute : String := "/v1/peer/connect"
def listPeersRoute : String := "/v1/peer/listPeers"
def disconnectPeerRoute : String := "/v1/peer/disconnect/:id"
def listPeerChannelsRoute : String := "/v1/channel/listPeerChannels"
def openChannelRoute : String := "/v1/channel/openChannel"
def setChannelFeeRoute : String := "/v1/channel/setChannelFee"
def closeChannelRoute : String := "/v1/channel/closeChannel/:id"
def closeChannelWithFeeRoute : String := "/v1/channel/closeChannel/:id/:fee_rate"
def forceCloseChannelWithBroadcastRoute : String :=
  "/v1/channel/forceCloseChannelWithBoradCast/:id"
def forceCloseChannelWithoutBroadcastRoute : String :=
  "/v1/channel/forceCloseChannelWithoutBoradCast/:id"
def localRemoteBalanceRoute : String := "/v1/channel/localremotebal"
def listForwardsRoute : String := "/v1/channel/listForwards"
def listChannelHistoryRoute : String := "/v1/channel/history"
def listNetworkNodeRoute : String := "/v1/network/listNode/:id"
def listNetworkNodesRoute : String := "/v1/network/listNode"
def listNetworkChannelRoute : String := "/v1/network/listChannel/:id"
def listNetworkChannelsRoute : String := "/v1/network/listChannel"
def feeRatesRoute : String := "/v1/network/feeRates/:style"
def getBalanceRoute : String := "/v1/getBalance"
def newAddrRoute : String := "/v1/newaddr"
def withdrawRoute : String := "/v1/withdraw"
def keysendRoute : String := "/v1/pay/keysend"
def payInvoiceRoute : String := "/v1/pay"
def listPaymentsRoute : String := "/v1/pay/listPayments"
def generateInvoiceRoute : String := "/v1/invoice/genInvoice"
def listInvoicesRoute : String := "/v1/invoice/listInvoices"
def decodeInvoiceRoute : String := "/v1/utility/decode/:invoice"
def scorerRoute : String := "/kld/scorer"
def listChannelsRoute : String := "/kld/channels"

end Routes

def readonlyRoutes : List Route :=
  [ ⟨rootRoute, .get .root⟩,
    ⟨getInfoRoute, .get .getInfo⟩,
    ⟨estimateChannelLiquidityRoute, .get .estimateChannelLiquidityRange⟩,
    ⟨getBalanceRoute, .get .getBalance⟩,
    ⟨listFundsRoute, .get .listFunds⟩,
    ⟨listPeerChannelsRoute, .get .listPeerChannels⟩,
    ⟨listPeersRoute, .get .listPeers⟩,
    ⟨listNetworkNodeRoute, .get .getNetworkNode⟩,
    ⟨listNetworkNodesRoute, .get .listNetworkNodes⟩,
    ⟨listNetworkChannelRoute, .get .getNetworkChannel⟩,
    ⟨listNetworkChannelsRoute, .get .listNetworkChannels⟩,
    ⟨feeRatesRoute, .get .feeRates⟩,
    ⟨listInvoicesRoute, .get .listInvoices⟩,
    ⟨listPaymentsRoute, .get .listPayments⟩,
    ⟨localRemoteBalanceRoute, .get .localRemoteBalance⟩,
    ⟨getFeesRoute, .get .getFees⟩,
    ⟨listForwardsRoute, .get .listForwards⟩,
    ⟨listChannelHistoryRoute, .get .channelHistory⟩,
    ⟨listChannelsRoute, .get .listChannels⟩,
    ⟨decodeInvoiceRoute, .get .decodeInvoice⟩,
    ⟨scorerRoute, .get .score⟩ ]

def adminRoutes : List Route :=
  [ ⟨signRoute, .post .sign⟩,
    ⟨openChannelRoute, .post .openChannel⟩,
    ⟨setChannelFeeRoute, .post .setChannelFee⟩,
    ⟨closeChannelRoute, .delete .closeChannel⟩,
    ⟨closeChannelWithFeeRoute, .delete .closeChannelWithFee⟩,
    ⟨forceCloseChannelWithBroadcastRoute, .delete .forceCloseChannelWithBroadcast⟩,
    ⟨forceCloseChannelWithoutBroadcastRoute, .delete .forceCloseChannelWithoutBroadcast⟩,
    ⟨newAddrRoute, .get .newAddress⟩,
    ⟨withdrawRoute, .post .transfer⟩,
    ⟨connectPeerRoute, .post .connectPeer⟩,
    ⟨disconnectPeerRoute, .delete .disconnectPeer⟩,
    ⟨keysendRoute, .post .keysend⟩,
    ⟨generateInvoiceRoute, .post .generateInvoice⟩,
    ⟨payInvoiceRoute, .post .payInvoice⟩,
    ⟨websocketRoute, .get .wsHandler⟩ ]

inductive Role where
  | readonly
  | admin
deriving DecidableEq

/-- A route with the role that its middleware asks for. -/
def routes : List (Role × Route) :=
  readonlyRoutes.map (.readonly, ·) ++ adminRoutes.map (.admin, ·)

/-- What the arguments of a handler are read of. -/
def extractors : Handler → List Extractor
  | .root | .getInfo | .getBalance | .listFunds | .listPeerChannels | .listPeers
  | .listNetworkNodes | .listNetworkChannels | .localRemoteBalance | .getFees | .channelHistory
  | .listChannels | .score => []
  | .estimateChannelLiquidityRange => [.json .estimateChannelLiquidity]
  | .getNetworkNode => [.pathString]
  | .getNetworkChannel => [.pathString]
  | .feeRates => [.pathString]
  | .listInvoices => [.listInvoiceParams]
  | .listPayments => [.listPaysParams]
  | .listForwards => [.listForwardsQueryParams]
  | .decodeInvoice => [.pathString]
  | .sign => [.json .signRequest]
  | .openChannel => [.json .fundChannel]
  | .setChannelFee => [.json .channelFee]
  | .closeChannel => [.pathString]
  | .closeChannelWithFee => [.pathString, .pathU32]
  | .forceCloseChannelWithBroadcast => [.pathString]
  | .forceCloseChannelWithoutBroadcast => [.pathString]
  | .newAddress => [.newAddressQueryParams]
  | .transfer => [.json .walletTransfer]
  | .connectPeer => [.json .peerConnect]
  | .disconnectPeer => [.pathString]
  | .keysend => [.json .keysendRequest]
  | .generateInvoice => [.json .generateInvoice]
  | .payInvoice => [.json .payInvoice]
  | .wsHandler => [.webSocketUpgrade]

/-- The parameters of a template for which the segments of a path stand. -/
def matchSegments : List String → List String → Option (List String)
  | [], [] => some []
  | t :: ts, p :: ps =>
    if t.toList.head? = some ':' then
      if p = "" then none else (matchSegments ts ps).map (p :: ·)
    else if t = p then matchSegments ts ps
    else none
  | _, _ => none

def segments (path : String) : List String := Utf8.split '/' path

def Route.params (route : Route) (path : String) : Option (List String) :=
  matchSegments (segments route.template) (segments path)

inductive Outcome where
  | preflight
  | notFound
  | unauthorized (message : String)
  | methodNotAllowed
  | rejected (rejection : Rejection)
  | run (handler : Handler) (arguments : List Argument)

def findRoute (path : String) : Option ((Role × Route) × List String) :=
  routes.findSome? fun r => (r.2.params path).map fun params => (r, params)

section Serve

variable {κ : Type} [DecidableEq κ] (formats : MacaroonFormats κ) (headers : MacaroonHeaders)
  (key : κ) (serde : SerdeJson)

def Role.auth : Role → Option (Admission κ)
  | .readonly => readonlyAuth formats headers key
  | .admin => adminAuth formats headers key

def Route.answer (route : Route) (params : List String) (r : HttpRequest) : Outcome :=
  match route.methodRouter.handle r.method with
  | none => .methodNotAllowed
  | some handler =>
    match extract serde params r (extractors handler) with
    | .ok arguments => .run handler arguments
    | .error rejection => .rejected rejection

def serve (r : HttpRequest) : Option Outcome :=
  if r.method = .options then some .preflight
  else match findRoute r.path with
  | none => some .notFound
  | some ((role, route), params) => (role.auth formats headers key).map fun admission =>
    match admission with
    | .unauthorized message => .unauthorized message
    | .next => route.answer serde params r

/-- The answer where every middleware lets the request through. -/
def admitted (r : HttpRequest) : Outcome :=
  if r.method = .options then .preflight
  else match findRoute r.path with
  | none => .notFound
  | some ((_, route), params) => route.answer serde params r

end Serve

/-! ## Templates that no path matches together -/

def isParam (segment : String) : Bool := segment.toList.head? = some ':'

/-- Whether there may be a path that both templates match. -/
def overlap : List String → List String → Bool
  | [], [] => true
  | t :: ts, t' :: ts' => (isParam t || isParam t' || t = t') && overlap ts ts'
  | _, _ => false

theorem matchSegments_cons {t p : String} {ts ps params : List String}
    (h : matchSegments (t :: ts) (p :: ps) = some params) :
    (isParam t = true ∨ t = p) ∧ ∃ rest, matchSegments ts ps = some rest := by
  rw [matchSegments] at h
  split at h
  · rename_i hParam
    split at h
    · cases h
    · obtain ⟨rest, hRest, _⟩ := Option.map_eq_some_iff.mp h
      exact ⟨Or.inl (decide_eq_true hParam), rest, hRest⟩
  · split at h
    · rename_i hSame
      exact ⟨Or.inr hSame, params, h⟩
    · cases h

theorem overlap_of_matchSegments {ts ts' ps params params' : List String}
    (h : matchSegments ts ps = some params) (h' : matchSegments ts' ps = some params') :
    overlap ts ts' = true := by
  induction ps generalizing ts ts' params params' with
  | nil =>
    cases ts with
    | cons t ts => exact nomatch h
    | nil =>
      cases ts' with
      | cons t' ts' => exact nomatch h'
      | nil => rfl
  | cons p ps ih =>
    cases ts with
    | nil => exact nomatch h
    | cons t ts =>
      cases ts' with
      | nil => exact nomatch h'
      | cons t' ts' =>
        obtain ⟨hHead, rest, hRest⟩ := matchSegments_cons h
        obtain ⟨hHead', rest', hRest'⟩ := matchSegments_cons h'
        rw [overlap, ih hRest hRest', Bool.and_true, Bool.or_eq_true, Bool.or_eq_true,
          decide_eq_true_iff]
        obtain hParam | rfl := hHead
        · exact Or.inl (Or.inl hParam)
        · exact hHead'.imp Or.inr Eq.symm

theorem routes_apart : ∀ r ∈ routes, ∀ r' ∈ routes,
    overlap (segments r.2.template) (segments r'.2.template) = true → r = r' := by
  decide +kernel

/-- A path belongs to one route at most, so that their order does not matter. -/
theorem route_unique {r r' : Role × Route} {path : String} {params params' : List String}
    (hMem : r ∈ routes) (hMem' : r' ∈ routes) (hParams : r.2.params path = some params)
    (hParams' : r'.2.params path = some params') : r = r' :=
  routes_apart r hMem r' hMem' (overlap_of_matchSegments hParams hParams')

theorem findRoute_eq_some_iff {path : String} {r : Role × Route} {params : List String} :
    findRoute path = some (r, params) ↔ r ∈ routes ∧ r.2.params path = some params := by
  have hFound : ∀ {r' : Role × Route} {params'}, findRoute path = some (r', params') →
      r' ∈ routes ∧ r'.2.params path = some params' := by
    intro r' params' hFind
    obtain ⟨r'', hMem, hSome⟩ := List.exists_of_findSome?_eq_some hFind
    obtain ⟨_, hParams, hPair⟩ := Option.map_eq_some_iff.mp hSome
    obtain ⟨rfl, rfl⟩ := Prod.mk.inj hPair
    exact ⟨hMem, hParams⟩
  refine ⟨hFound, fun ⟨hMem, hParams⟩ => ?_⟩
  cases hFind : findRoute path with
  | none =>
    have hNone := List.findSome?_eq_none_iff.mp hFind r hMem
    rw [hParams] at hNone
    exact nomatch hNone
  | some found =>
    obtain ⟨hMem', hParams'⟩ := hFound hFind
    obtain rfl := route_unique hMem hMem' hParams hParams'
    rw [hParams] at hParams'
    rw [Option.some.inj hParams']

section Serving

variable {κ : Type} [DecidableEq κ] {formats : MacaroonFormats κ} {headers : MacaroonHeaders}
  {key : κ} {serde : SerdeJson} {r : HttpRequest} {role : Role} {route : Route}
  {params : List String}

def Role.text : Role → String
  | .readonly => "readonly"
  | .admin => "admin"

theorem auth_eq_roleAuth (role : Role) :
    role.auth formats headers key = roleAuth formats headers role.text key := by
  cases role <;> rfl

/-- What a request to a route that is matched is answered. -/
theorem serve_of_route (hMem : (role, route) ∈ routes) (hParams : route.params r.path = some params)
    (hMethod : r.method ≠ .options) :
    serve formats headers key serde r =
      (roleAuth formats headers role.text key).map fun admission =>
        match admission with
        | .unauthorized message => .unauthorized message
        | .next => route.answer serde params r := by
  have hFind : findRoute r.path = some ((role, route), params) :=
    findRoute_eq_some_iff.mpr ⟨hMem, hParams⟩
  rw [serve, if_neg hMethod, hFind]
  dsimp only
  rw [auth_eq_roleAuth]

theorem admitted_of_route (hMem : (role, route) ∈ routes)
    (hParams : route.params r.path = some params) (hMethod : r.method ≠ .options) :
    admitted serde r = route.answer serde params r := by
  have hFind : findRoute r.path = some ((role, route), params) :=
    findRoute_eq_some_iff.mpr ⟨hMem, hParams⟩
  rw [admitted, if_neg hMethod, hFind]

theorem handler_of_handle {m : MethodRouter} {method : Method} {handler : Handler}
    (h : m.handle method = some handler) : m.handler = handler := by
  unfold MethodRouter.handle at h
  split at h <;> cases h <;> rfl

theorem options_not_handled (m : MethodRouter) : m.handle .options = none := by
  cases m <;> rfl

theorem answer_of_handle {handler : Handler}
    (hHandle : route.methodRouter.handle r.method = some handler) :
    route.answer serde params r =
      match extract serde params r (extractors handler) with
      | .ok arguments => .run handler arguments
      | .error rejection => .rejected rejection := by
  rw [Route.answer, hHandle]

theorem answer_eq_run_iff {handler : Handler} {arguments : List Argument} :
    route.answer serde params r = .run handler arguments ↔
      route.methodRouter.handle r.method = some handler ∧
        extract serde params r (extractors handler) = .ok arguments := by
  cases hHandle : route.methodRouter.handle r.method with
  | none =>
    rw [Route.answer, hHandle]
    exact iff_of_false nofun fun h => nomatch h.1
  | some handler' =>
    rw [answer_of_handle hHandle, Option.some_inj]
    cases hExtract : extract serde params r (extractors handler') with
    | error rejection =>
      refine iff_of_false nofun ?_
      rintro ⟨rfl, hOk⟩
      exact nomatch hExtract.symm.trans hOk
    | ok arguments' =>
      rw [Outcome.run.injEq]
      constructor
      · rintro ⟨rfl, rfl⟩
        exact ⟨rfl, hExtract⟩
      · rintro ⟨rfl, hOk⟩
        exact ⟨rfl, Except.ok.inj (hExtract.symm.trans hOk)⟩

theorem serve_eq_run_iff {handler : Handler} {arguments : List Argument} :
    serve formats headers key serde r = some (.run handler arguments) ↔
      ∃ role route params m, (role, route) ∈ routes ∧ route.params r.path = some params ∧
        route.methodRouter.handle r.method = some handler ∧
        fromRequestParts formats headers = .ok m ∧ m.signature = m.expectedSignature key ∧
        (∀ caveat ∈ m.caveats, Grants role.text caveat) ∧
        extract serde params r (extractors handler) = .ok arguments := by
  constructor
  · intro hRun
    by_cases hMethod : r.method = .options
    · rw [serve, if_pos hMethod] at hRun
      exact nomatch hRun
    cases hFind : findRoute r.path with
    | none =>
      rw [serve, if_neg hMethod, hFind] at hRun
      exact nomatch hRun
    | some found =>
      obtain ⟨⟨role, route⟩, params⟩ := found
      obtain ⟨hMem, hParams⟩ := findRoute_eq_some_iff.mp hFind
      rw [serve_of_route hMem hParams hMethod, Option.map_eq_some_iff] at hRun
      obtain ⟨admission, hAuth, hRun⟩ := hRun
      cases admission with
      | unauthorized message => exact nomatch hRun
      | next =>
        obtain ⟨m, hHeader, hVerified⟩ := roleAuth_eq_next_iff.mp hAuth
        obtain ⟨hSignature, hCaveats⟩ := verifyMacaroon_eq_ok_iff.mp hVerified
        obtain ⟨hHandle, hExtract⟩ := answer_eq_run_iff.mp hRun
        exact ⟨role, route, params, m, hMem, hParams, hHandle, hHeader, hSignature, hCaveats,
          hExtract⟩
  · rintro ⟨role, route, params, m, hMem, hParams, hHandle, hHeader, hSignature, hCaveats,
      hExtract⟩
    have hMethod : r.method ≠ .options := by
      intro hOptions
      rw [hOptions] at hHandle
      exact nomatch (options_not_handled _).symm.trans hHandle
    have hNext : roleAuth formats headers role.text key = some .next :=
      roleAuth_eq_next_iff.mpr
        ⟨m, hHeader, verifyMacaroon_eq_ok_iff.mpr ⟨hSignature, hCaveats⟩⟩
    rw [serve_of_route hMem hParams hMethod, hNext, Option.map_some]
    exact congrArg some (answer_eq_run_iff.mpr ⟨hHandle, hExtract⟩)

theorem matchSegments_length {ts ps params : List String}
    (h : matchSegments ts ps = some params) : params.length = ts.countP isParam := by
  induction ts generalizing ps params with
  | nil =>
    cases ps with
    | nil => exact (congrArg List.length (Option.some.inj h)).symm
    | cons p ps => exact nomatch h
  | cons t ts ih =>
    cases ps with
    | nil => exact nomatch h
    | cons p ps =>
      rw [matchSegments] at h
      split at h
      · rename_i hParam
        split at h
        · cases h
        · obtain ⟨rest, hRest, rfl⟩ := Option.map_eq_some_iff.mp h
          have hIs : isParam t = true := decide_eq_true hParam
          rw [List.countP_cons_of_pos hIs, List.length_cons, ih hRest]
      · rename_i hParam
        split at h
        · have hIs : ¬ isParam t = true := fun hIs => hParam (of_decide_eq_true hIs)
          rw [List.countP_cons_of_neg hIs, ih h]
        · cases h

/-- Both parameters of its path are asked for as the only one. -/
theorem closeChannelWithFee_never_runs {arguments : List Argument} :
    serve formats headers key serde r ≠ some (.run .closeChannelWithFee arguments) := by
  intro hRun
  obtain ⟨role, route, params, m, hMem, hParams, hHandle, _, _, _, hExtract⟩ :=
    serve_eq_run_iff.mp hRun
  have hTwo : ∀ r ∈ routes, r.2.methodRouter.handler = .closeChannelWithFee →
      (segments r.2.template).countP isParam = 2 := by decide +kernel
  have hHandler : route.methodRouter.handler = .closeChannelWithFee := handler_of_handle hHandle
  have hLength : params.length = 2 :=
    (matchSegments_length hParams).trans (hTwo _ hMem hHandler)
  exact extract_pathString_ne_ok (by omega) _ _ hExtract

/-- A handler runs exactly for a request that its route matches by path and method, that carries
a macaroon of this node whose caveats all grant the role of the route's group, and of which its
extractors read all of its arguments. No other route is matched by the same path, and of the route
with two parameters nothing is extracted. -/
theorem serve_runs_iff (formats : MacaroonFormats κ) (headers : MacaroonHeaders) (key : κ)
    (serde : SerdeJson) (r : HttpRequest) :
    (∀ handler arguments, serve formats headers key serde r = some (.run handler arguments) ↔
      ∃ role route params m, (role, route) ∈ routes ∧ route.params r.path = some params ∧
        route.methodRouter.handle r.method = some handler ∧
        fromRequestParts formats headers = .ok m ∧ m.signature = m.expectedSignature key ∧
        (∀ caveat ∈ m.caveats, Grants role.text caveat) ∧
        extract serde params r (extractors handler) = .ok arguments) ∧
    (∀ declared ∈ routes, ∀ declared' ∈ routes, declared.2.params r.path ≠ none →
      declared'.2.params r.path ≠ none → declared = declared') ∧
    ∀ arguments,
      serve formats headers key serde r ≠ some (.run .closeChannelWithFee arguments) := by
  refine ⟨fun _ _ => serve_eq_run_iff, ?_, fun _ => closeChannelWithFee_never_runs⟩
  intro declared hMem declared' hMem' hMatch hMatch'
  obtain ⟨params, hParams⟩ := Option.ne_none_iff_exists'.mp hMatch
  obtain ⟨params', hParams'⟩ := Option.ne_none_iff_exists'.mp hMatch'
  exact route_unique hMem hMem' hParams hParams'

end Serving

section Declarations

theorem declared_isSome (handler : Handler) :
    (routes.find? fun r => r.2.methodRouter.handler = handler).isSome = true := by
  cases handler <;> rfl

/-- The route that a handler is declared for, with the role of its group. -/
def declared (handler : Handler) : Role × Route :=
  (routes.find? fun r => r.2.methodRouter.handler = handler).get (declared_isSome handler)

theorem declared_mem (handler : Handler) :
    ((declared handler).1, (declared handler).2) ∈ routes :=
  List.mem_of_find?_eq_some (Option.some_get (declared_isSome handler)).symm

theorem declared_handler (handler : Handler) :
    (declared handler).2.methodRouter.handler = handler := by
  have hFound := List.find?_some (Option.some_get (declared_isSome handler)).symm
  exact of_decide_eq_true hFound

end Declarations

section Confinement

variable {κ : Type} [DecidableEq κ] {key : κ}

/-- The routes of the readonly group are of `get`, and none of their handlers is declared in the
other group. -/
theorem readonlyRoutes_get : ∀ route ∈ readonlyRoutes,
    route.methodRouter = .get route.methodRouter.handler ∧
      ∀ route' ∈ adminRoutes, route'.methodRouter.handler ≠ route.methodRouter.handler := by
  decide

theorem mem_readonlyRoutes {route : Route} (h : (Role.readonly, route) ∈ routes) :
    route ∈ readonlyRoutes := by
  rcases List.mem_append.mp h with hMem | hMem
  · obtain ⟨_, hMem, hPair⟩ := List.mem_map.mp hMem
    exact (Prod.mk.inj hPair).2 ▸ hMem
  · obtain ⟨_, _, hPair⟩ := List.mem_map.mp hMem
    cases (Prod.mk.inj hPair).1

theorem get_of_handle {handler handler' : Handler} {method : Method}
    (h : (MethodRouter.get handler).handle method = some handler') :
    (method = .get ∨ method = .head) ∧ handler = handler' := by
  cases method with
  | get => exact ⟨Or.inl rfl, Option.some.inj h⟩
  | head => exact ⟨Or.inr rfl, Option.some.inj h⟩
  | post => exact nomatch h
  | delete => exact nomatch h
  | options => exact nomatch h
  | other => exact nomatch h

/-- Whatever macaroon the holder of the readonly one makes up, with whatever caveats and any
signature that it can compute, what it gets through is a `GET` or `HEAD` request of a route in the
readonly group, and its handler has no route in the other one. -/
theorem readonly_confined (formats : MacaroonFormats κ) (headers : MacaroonHeaders) (key : κ)
    (serde : SerdeJson) (r : HttpRequest) (handler : Handler) (arguments : List Argument)
    (m : Macaroon κ) (hHeader : fromRequestParts formats headers = .ok m)
    (hHolder : Obtainable key m.signature)
    (hRun : serve formats headers key serde r = some (.run handler arguments)) :
    (r.method = .get ∨ r.method = .head) ∧
      (∃ route ∈ readonlyRoutes, route.methodRouter.handler = handler ∧
        route.params r.path ≠ none) ∧
      ∀ route ∈ adminRoutes, route.methodRouter.handler ≠ handler := by
  obtain ⟨role, route, params, m', hMem, hParams, hHandle, hOk, hSignature, hCaveats, _⟩ :=
    serve_eq_run_iff.mp hRun
  obtain rfl : m = m' := Except.ok.inj (hHeader.symm.trans hOk)
  cases role with
  | admin => exact absurd hCaveats (not_admin_of_obtainable hHolder hSignature)
  | readonly =>
    have hReadonly := mem_readonlyRoutes hMem
    obtain ⟨hGet, hApart⟩ := readonlyRoutes_get route hReadonly
    rw [hGet] at hHandle
    obtain ⟨hMethod, rfl⟩ := get_of_handle hHandle
    have hMatch : route.params r.path ≠ none := by
      rw [hParams]
      nofun
    exact ⟨hMethod, ⟨route, hReadonly, rfl, hMatch⟩, hApart⟩

/-- The readonly macaroon, which its holder has restricted once more. -/
def restrictedMacaroon : Macaroon Unit :=
  (readonlyMacaroon ()).addFirstPartyCaveat (Utf8.encode "roles = readonly")

/-- One text stands for the macaroon. -/
def exampleFormats : MacaroonFormats Unit where
  headerText bytes := Utf8.decode bytes
  deserialize text := if text = "restricted" then some restrictedMacaroon else none
  fromHex _ := none
  deserializeBinary _ := none

def exampleHeaders : MacaroonHeaders where
  secWebsocketProtocol := none
  macaroon := some (Utf8.encode "restricted")
  grpcMetadataMacaroon := none

/-- One message is written and read. -/
def exampleSerde : SerdeJson where
  toString _ := "\x7b\"message\":\"hello\"\x7d"
  fromSlice type bytes :=
    if type = .signRequest ∧ bytes = Utf8.encode "\x7b\"message\":\"hello\"\x7d" then
      some (.signRequest "hello")
    else none

def feeRatesRequest : HttpRequest where
  method := .get
  path := "/v1/network/feeRates/perkw"
  query := []
  jsonContentType := true
  body := []
  webSocketUpgrade := false

theorem example_header :
    fromRequestParts exampleFormats exampleHeaders = .ok restrictedMacaroon := by
  simp [fromRequestParts, headerValue, exampleFormats, exampleHeaders]

theorem example_readonly_confined :
    serve exampleFormats exampleHeaders () exampleSerde feeRatesRequest =
        some (.run .feeRates [.pathString "perkw"]) ∧
      ∀ route ∈ adminRoutes, route.methodRouter.handler ≠ .feeRates := by
  have hHolder : Obtainable () restrictedMacaroon.signature := .chain _ _ .given
  have hGrants : ∀ caveat ∈ restrictedMacaroon.caveats, Grants "readonly" caveat := by
    have hText : Caveat.firstParty (Utf8.encode "roles = readonly") = roleCaveat ["readonly"] := by
      decide
    have hCaveats : restrictedMacaroon.caveats =
        [roleCaveat ["readonly"], roleCaveat ["readonly"]] := by
      rw [← hText]
      rfl
    have hSep : ∀ member ∈ ["readonly"], '|' ∉ member.toList := by decide
    rw [hCaveats]
    simp only [List.mem_cons, List.not_mem_nil, or_false, or_self]
    rintro caveat rfl
    exact ⟨_, rfl, List.mem_cons_self, hSep⟩
  have hParam : urlParam "perkw" = .ok "perkw" := by
    have hPlain : FormUrlencoded.percentDecode (Utf8.encode "perkw") = Utf8.encode "perkw" := by
      decide
    rw [urlParam, hPlain, Utf8.decode_encode]
  have hExtract : extract exampleSerde ["perkw"] feeRatesRequest (extractors .feeRates) =
      .ok [.pathString "perkw"] := by
    refine mapM_eq_ok_iff.mpr (.cons ?_ .nil)
    rw [Extractor.extract, pathParam, List.mapM_cons, hParam]
    rfl
  have hRun := serve_eq_run_iff.mpr ⟨.readonly, ⟨feeRatesRoute, .get .feeRates⟩, ["perkw"],
    restrictedMacaroon, by decide, by decide, rfl, example_header, rfl, hGrants, hExtract⟩
  exact ⟨hRun, (readonly_confined _ _ _ _ _ _ _ _ example_header hHolder hRun).2.2⟩

end Confinement

end Kld.Api.Router
