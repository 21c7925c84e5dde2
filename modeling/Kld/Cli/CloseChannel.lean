import Kld.Cli.Client

/-!
# Closing a channel from the command line

The client puts the id, and the fee rate if there is one, into the path of a route.
The server hands what the parameters of the route stand for to the extractors of the handler.
-/

namespace Kld.Cli.CloseChannel

open Kld.Api Kld.Api.Router Kld.Cli.Client Utf8 Fallible

variable {σ : Type} {serde : SerdeJson}

inductive Failure where
  | answered (outcome : Outcome)
  | api (error : ApiError)

def respond (outcome : Except ApiError Unit × σ) : Except Failure Unit × σ :=
  (outcome.1.mapError .api, outcome.2)

/-- The handlers that close channels, and any others. -/
def run (li : LightningInterface σ)
    (other : Handler → List Argument → σ → Except Failure Unit × σ) :
    Handler → List Argument → σ → Except Failure Unit × σ
  | .closeChannel, [.pathString channelId], s => respond (Api.closeChannel li channelId s)
  | .closeChannelWithFee, [.pathString channelId, .pathU32 feeRate], s =>
    respond (Api.closeChannelWithFee li channelId feeRate s)
  | .forceCloseChannelWithBroadcast, [.pathString channelId], s =>
    respond (Api.forceCloseChannelWithBroadcast li channelId s)
  | .forceCloseChannelWithoutBroadcast, [.pathString channelId], s =>
    respond (Api.forceCloseChannelWithoutBroadcast li channelId s)
  | handler, arguments, s => other handler arguments s

def serve (serde : SerdeJson) (li : LightningInterface σ)
    (other : Handler → List Argument → σ → Except Failure Unit × σ) (r : HttpRequest) (s : σ) :
    Except Failure Unit × σ :=
  match admitted serde r with
  | .run handler arguments => run li other handler arguments s
  | outcome => (.error (.answered outcome), s)

section Paths

theorem paramAtEnd_closeChannel : ParamAtEnd closeChannelRoute "/v1/channel/closeChannel/"
    ["", "v1", "channel", "closeChannel"] "id" :=
  ⟨by decide, by decide, by decide, by decide, by decide, by decide⟩

theorem reaches_closeChannel_none {id : String} (hId : Plain id) :
    Reaches (Client.closeChannel id none) .closeChannel [id] :=
  reaches_param paramAtEnd_closeChannel hId rfl rfl

theorem route_closeChannel_some {id : String} (hId : Plain id) (feeRate : UInt32) :
    (Client.closeChannel id (some feeRate)).route = (String.singleton '/').intercalate
      ["", "v1", "channel", "closeChannel", id, toString feeRate.toNat] := by
  have hTemplate : closeChannelWithFeeRoute =
      "/v1/channel/closeChannel/" ++ (":" ++ "id" ++ "/:fee_rate") := by decide
  have hStart : ':' ∉ "/v1/channel/closeChannel/".toList := by decide
  have hRest : replaceFrom (":" ++ "id").toList id.toList 0 "/:fee_rate".toList =
      "/:fee_rate".toList := by simp [replaceFrom]
  have hFirst : replace (":" ++ "id") id closeChannelWithFeeRoute =
      "/v1/channel/closeChannel/" ++ id ++ "/" ++ (":" ++ "fee_rate") := by
    rw [hTemplate, replace_param hStart, hRest, String.ofList_toList, String.append_assoc,
      String.append_assoc]
    exact congrArg (fun rest => "/v1/channel/closeChannel/" ++ (id ++ rest)) (by decide)
  have hColon : ':' ∉ ("/v1/channel/closeChannel/" ++ id ++ "/").toList := by
    simp [notMem_of_plain hId (c := ':') (by decide)]
  have hBoth : (Client.closeChannel id (some feeRate)).route =
      replace (":" ++ "fee_rate") (toString feeRate.toNat)
        (replace (":" ++ "id") id closeChannelWithFeeRoute) := rfl
  rw [hBoth, hFirst, replace_last hColon]
  generalize toString feeRate.toNat = fee
  apply String.toList_injective
  rw [String.toList_intercalate]
  simp [List.intercalate]

/-- Both parameters of the route are replaced. -/
theorem reaches_closeChannel_some {id : String} (hId : Plain id) (feeRate : UInt32) :
    Reaches (Client.closeChannel id (some feeRate)) .closeChannelWithFee
      [id, toString feeRate.toNat] := by
  have hFee := plain_toString feeRate.toNat
  have hRoute := route_closeChannel_some hId feeRate
  generalize toString feeRate.toNat = fee at hFee hRoute ⊢
  have hParts : segments (Client.closeChannel id (some feeRate)).route =
      ["", "v1", "channel", "closeChannel"] ++ [id, fee] := by
    rw [hRoute]
    refine split_intercalate (List.cons_ne_nil _ _) ?_
    simp only [List.forall_mem_cons]
    exact ⟨by decide, by decide, by decide, by decide, notMem_of_plain hId (by decide),
      notMem_of_plain hFee (by decide), nofun⟩
  have hClean : Clean (Client.closeChannel id (some feeRate)).route := by
    have hIdClean := clean_iff.mp (clean_of_plain hId)
    have hFeeClean := clean_iff.mp (clean_of_plain hFee)
    rw [hRoute, clean_iff, String.toList_intercalate]
    simp [List.intercalate, hIdClean, hFeeClean]
  refine ⟨?_, rfl⟩
  have hTemplate : segments closeChannelWithFeeRoute =
      ["", "v1", "channel", "closeChannel"] ++ [":id", ":fee_rate"] := rfl
  have hFront : ∀ t ∈ ["", "v1", "channel", "closeChannel"], isParam t = false := by decide
  change matchSegments (segments closeChannelWithFeeRoute)
    (segments (Client.closeChannel id (some feeRate)).path) = _
  rw [path_of_clean hClean, hParts, hTemplate, matchSegments_front hFront,
    matchSegments_param rfl hId.1, matchSegments_param rfl hFee.1]
  rfl

/-- A path with one plain parameter is extracted as it is. -/
theorem extract_pathString {value : String} (hValue : Plain value) (r : HttpRequest) :
    extract serde [value] r [.pathString] = .ok [.pathString value] := by
  refine mapM_eq_ok_iff.mpr (.cons ?_ .nil)
  rw [Extractor.extract, pathParam, List.mapM_cons, urlParam_of_plain hValue]
  rfl

/-- Two parameters are extracted as no single value. -/
theorem extract_two {value value' : String} (hValue : Plain value) (hValue' : Plain value')
    (r : HttpRequest) (rest : List Extractor) :
    extract serde [value, value'] r (.pathString :: rest) =
      .error (.wrongNumberOfParameters 2) := by
  have hParam : Extractor.pathString.extract serde [value, value'] r =
      .error (.wrongNumberOfParameters 2) := by
    rw [Extractor.extract, pathParam, List.mapM_cons, List.mapM_cons, urlParam_of_plain hValue,
      urlParam_of_plain hValue']
    rfl
  rw [extract, List.mapM_cons, hParam]
  rfl

theorem admitted_closeChannel_none {id : String} (hId : Plain id) :
    admitted serde ((Client.closeChannel id none).toHttp serde) =
      .run .closeChannel [.pathString id] :=
  (reaches_closeChannel_none hId).admitted_eq_run_iff.mpr ⟨rfl, extract_pathString hId _⟩

theorem admitted_closeChannel_some {id : String} (hId : Plain id) (feeRate : UInt32) :
    admitted serde ((Client.closeChannel id (some feeRate)).toHttp serde) =
      .rejected (.wrongNumberOfParameters 2) := by
  rw [(reaches_closeChannel_some hId feeRate).admitted_eq, extractors,
    extract_two hId (plain_toString feeRate.toNat)]

end Paths

theorem serve_some {id : String} (hId : Plain id) (feeRate : UInt32) (li : LightningInterface σ)
    (other : Handler → List Argument → σ → Except Failure Unit × σ) (s : σ) :
    serve serde li other ((Client.closeChannel id (some feeRate)).toHttp serde) s =
      (.error (.answered (.rejected (.wrongNumberOfParameters 2))), s) := by
  rw [serve, admitted_closeChannel_some hId]

theorem plain_hexEncode {bytes : Bytes} (hBytes : bytes ≠ []) : Plain (hexEncode bytes) := by
  have hAll : ∀ n : Fin 16, (hexDigit n).isAlphanum = true := by decide
  constructor
  · intro hEmpty
    have hLength := hexEncode_length bytes
    rw [hEmpty, String.length_empty] at hLength
    exact hBytes (List.length_eq_zero_iff.mp (by omega))
  · intro c hc
    rw [hexEncode, String.toList_ofList, List.mem_flatMap] at hc
    obtain ⟨b, _, hc⟩ := hc
    have hLt := b.toNat_lt
    rcases List.mem_cons.mp hc with rfl | hc
    · exact hAll ⟨b.toNat / 16, by omega⟩
    · rw [List.mem_singleton.mp hc]
      exact hAll ⟨b.toNat % 16, by omega⟩

theorem plain_of_names {id : String} {c : ChannelDetails} (h : Names id c) : Plain id := by
  obtain rfl | ⟨scid, _, rfl⟩ := h
  · refine plain_hexEncode ?_
    intro hEmpty
    have hLength := c.channelId.bytes.length_toList
    rw [hEmpty] at hLength
    cases hLength
  · exact plain_toString scid.toNat

section

variable (serde) (li : LightningInterface σ) (other : Handler → List Argument →
  σ × List InterfaceCall → Except Failure Unit × σ × List InterfaceCall)

def calls (id : String) (feeRate : Option UInt32) (s : σ) : List InterfaceCall :=
  (serve serde (recorded li) other ((Client.closeChannel id feeRate).toHttp serde) (s, [])).2.2

theorem calls_some {id : String} (hId : Plain id) (feeRate : UInt32) (s : σ) :
    calls serde li other id (some feeRate) s = [] := by
  rw [calls, serve_some hId]

theorem calls_none {id : String} (hId : Plain id) (s : σ) :
    calls serde li other id none s = ((li.listActiveChannels s).find? (isNamed id)).toList.map
      fun c => .closeChannel c.channelId c.counterparty.nodeId none := by
  rw [calls, serve, admitted_closeChannel_none hId]
  dsimp only [run, respond, Api.closeChannel, onNamedChannel, recorded]
  cases (li.listActiveChannels s).find? (isNamed id) <;> rfl

theorem closes_as_asked_iff (s : σ) (id : String) (feeRate : Option UInt32) (c : ChannelDetails)
    (hNames : Names id c) :
    calls serde li other id feeRate s =
        [.closeChannel c.channelId c.counterparty.nodeId feeRate] ↔
      feeRate = none ∧ ∃ first, (li.listActiveChannels s).find? (isNamed id) = some first ∧
        first.channelId = c.channelId ∧ first.counterparty.nodeId = c.counterparty.nodeId := by
  have hId := plain_of_names hNames
  cases feeRate with
  | some feeRate =>
    rw [calls_some serde li other hId]
    exact iff_of_false (List.cons_ne_nil _ _).symm fun h => nomatch h.1
  | none =>
    rw [calls_none serde li other hId]
    cases hFind : (li.listActiveChannels s).find? (isNamed id) with
    | none =>
      rw [Option.toList_none, List.map_nil]
      constructor
      · intro h
        cases h
      · rintro ⟨_, first, h, _⟩
        cases h
    | some first =>
      rw [Option.toList_some, List.map_singleton, List.singleton_inj,
        InterfaceCall.closeChannel.injEq]
      constructor
      · rintro ⟨hChannel, hPeer, _⟩
        exact ⟨rfl, first, rfl, hChannel, hPeer⟩
      · rintro ⟨_, other, h, hChannel, hPeer⟩
        obtain rfl := Option.some.inj h
        exact ⟨hChannel, hPeer, rfl⟩

end

theorem hex_id_closes_pending_channel :
    calls exampleSerde (controller listManager) (fun _ _ s => (.ok (), s))
        (channelIdHex pendingChannel) none [pendingChannel] =
      [.closeChannel pendingChannel.channelId pendingChannel.counterparty.nodeId none] :=
  (closes_as_asked_iff exampleSerde (controller listManager) _ [pendingChannel]
    (channelIdHex pendingChannel) none pendingChannel (Or.inl rfl)).mpr
    ⟨rfl, pendingChannel, List.find?_cons_of_pos (by simp [isNamed]), rfl, rfl⟩

theorem fee_rate_not_extracted :
    serve exampleSerde (recorded (controller listManager)) (fun _ _ s => (.ok (), s))
        ((Client.closeChannel (channelIdHex pendingChannel) (some 253)).toHttp exampleSerde)
        ([pendingChannel], []) =
      (.error (.answered (.rejected (.wrongNumberOfParameters 2))), [pendingChannel], []) ∧
    calls exampleSerde (controller listManager) (fun _ _ s => (.ok (), s))
        (channelIdHex pendingChannel) (some 253) [pendingChannel] ≠
      [.closeChannel pendingChannel.channelId pendingChannel.counterparty.nodeId (some 253)] := by
  have hId : Plain (channelIdHex pendingChannel) :=
    plain_of_names (c := pendingChannel) (Or.inl rfl)
  refine ⟨serve_some hId 253 _ _ _, ?_⟩
  rw [calls_some _ _ _ hId]
  exact (List.cons_ne_nil _ _).symm

end Kld.Cli.CloseChannel
