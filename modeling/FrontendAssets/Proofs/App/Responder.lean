import FrontendAssets.Proofs.App.Run

/-!
# `FrontendAssets.Proofs.App.Responder`: who answers a connection

Behind an application may stand another one. Each connection whose scope is complete then has one
responder: either it is handed over, with its scope as it came, and the application itself neither
sends nor takes a message, or the application sends a start and a body (`handle_responds_once`).
`FallsThrough` says which of the two: the three ways are the three places where connections are
handed over.

Two kinds of scopes have no responder, and both fail before anything is asked. A scope may lack a
part (`Lacks`), and a GET or HEAD request may have no address (`Unaddressed`), because a text that
is to be escaped holds half a surrogate pair. `handle_drops_half` is a connection of the second
kind.

Dispatch comes first: `run_of_lacks`, `run_of_other` and the run equations of requests cover all
scopes (`lacks_or_other_or_request`).
-/

set_option autoImplicit false

namespace FrontendAssets.App

variable {a : Setup} {c : Config} {w : Resolve.World} {s : Scope} {key : String} {r : Resolution}
  {type method path : LooseText} {e : Unencodable}

/-! ### Scopes -/

/-- The first part that a scope lacks. All scopes need a type, and those of HTTP requests a method
and a path besides. -/
inductive Lacks (s : Scope) : String → Prop
  /-- It has no type. -/
  | type (h : s.type = none) : Lacks s "type"
  /-- It is that of an HTTP request and has no method. -/
  | method (htype : s.type = some ↑"http".toList) (h : s.method = none) : Lacks s "method"
  /-- It is that of an HTTP request, and has a method but no path. -/
  | path {method : LooseText} (htype : s.type = some ↑"http".toList)
    (hmethod : s.method = some method)
    (h : s.path = none) : Lacks s "path"

/-- A scope that lacks a part fails, and nothing is asked. The error names the part. -/
theorem run_of_lacks (h : Lacks s key) (inbox : List LooseText) :
    (handle a s inbox).run (answer w) = ⟨[], .error (.missingKey ⟨key.toList⟩)⟩ := by
  unfold handle HttpScope.ofScope
  cases h with
  | type h =>
      rw [h]
      rfl
  | method htype h =>
      rw [htype, h]
      rfl
  | path htype hmethod h =>
      rw [htype, hmethod, h]
      rfl

/-- With a fallback, a connection that is no HTTP request is handed over. -/
theorem run_of_other (hfallback : a.fallback = true) (htype : s.type = some type)
    (h : type ≠ "http".toList) (inbox : List LooseText) :
    (handle a s inbox).run (answer w) = ⟨[.forward s], .ok ()⟩ := by
  unfold handle
  rw [htype]
  show (if type = "http".toList then _ else handleOther a s type inbox).run (answer w) = _
  rw [if_neg h, handleOther, if_pos hfallback]
  rfl

/-- A scope lacks a part, is that of another connection, or is that of an HTTP request. -/
theorem lacks_or_other_or_request (s : Scope) :
    (∃ key, Lacks s key) ∨ (∃ type, s.type = some type ∧ type ≠ "http".toList)
      ∨ ∃ method path, s.type = some ↑"http".toList ∧ s.method = some method
        ∧ s.path = some path := by
  cases htype : s.type with
  | none => exact Or.inl ⟨_, .type htype⟩
  | some type =>
      by_cases hhttp : type = "http".toList
      · subst hhttp
        cases hmethod : s.method with
        | none => exact Or.inl ⟨_, .method htype hmethod⟩
        | some method =>
            cases hpath : s.path with
            | none => exact Or.inl ⟨_, .path htype hmethod hpath⟩
            | some path => exact Or.inr (Or.inr ⟨method, path, rfl, rfl, rfl⟩)
      · exact Or.inr (Or.inl ⟨type, rfl, hhttp⟩)

/-! ### Falling through -/

/-- The connections that the application leaves to another one: those that are no HTTP requests,
requests that are neither GET nor HEAD, and those that the router does not handle. -/
inductive FallsThrough (c : Config) (w : Resolve.World) (s : Scope) : Prop
  /-- The connection is no HTTP request. -/
  | other {type : LooseText} (htype : s.type = some type) (h : type ≠ "http".toList)
  /-- The request is one of another method. -/
  | method {method : LooseText} (htype : s.type = some ↑"http".toList)
    (hmethod : s.method = some method)
    (h : ¬ (method = "GET".toList ∨ method = "HEAD".toList))
  /-- The request has an address, which the router does not handle. -/
  | unhandled {path : LooseText} {url : Text} {r : Resolution}
    (htype : s.type = some ↑"http".toList) (hpath : s.path = some path)
    (hurl : addressOf s path = .ok url)
    (hr : ((Resolve.resolve c url).run w.answer).outcome = .ok r) (h : r.handled = false)

/-- A GET or HEAD request that the router handles does not fall through: each of the three ways
disagrees with its type, its method or its resolution. -/
theorem not_fallsThrough {url : Text} (htype : s.type = some ↑"http".toList)
    (hmethod : s.method = some method) (hpath : s.path = some path)
    (hlooked : method = "GET".toList ∨ method = "HEAD".toList) (hurl : addressOf s path = .ok url)
    (hr : ((Resolve.resolve c url).run w.answer).outcome = .ok r) (hhandled : r.handled = true) :
    ¬ FallsThrough c w s := by
  intro h
  -- Type, method, path, address and resolution are each given once, so what a way of falling
  -- through says of them contradicts what is known.
  cases h with
  | other hother h =>
      exact h (Option.some.inj (hother.symm.trans htype))
  | method _ hother h =>
      obtain rfl := Option.some.inj (hmethod.symm.trans hother)
      exact h hlooked
  | unhandled _ hother haddress hfound h =>
      obtain rfl := Option.some.inj (hpath.symm.trans hother)
      obtain rfl := Except.ok.inj (hurl.symm.trans haddress)
      obtain rfl := Except.ok.inj (hr.symm.trans hfound)
      rw [hhandled] at h
      cases h

/-- A run that ends well and takes no message, and what the connection gets from it. -/
def Responds (run : Run Query Failure Unit) (replies : List Session.Reply) : Prop :=
  run.outcome = .ok () ∧ received run.asked = 0 ∧ Session.replies run.asked = replies

/-- One responder for a connection: it is handed over if it falls through, and gets one start and
one body otherwise. Two responders would both send, and none would leave the connection waiting. -/
def HasOneResponder (falls : Prop) (s : Scope) (run : Run Query Failure Unit) : Prop :=
  (falls → Responds run [.handedOver s])
    ∧ (¬ falls → ∃ status headers content,
      Responds run [.message (.start status headers), .message (.body content)])

/-- A connection that falls through is handed over, whatever was resolved before. -/
theorem hasOneResponder_of_forward {falls : Prop} (h : falls) (asked : List Resolve.Query) :
    HasOneResponder falls s ⟨asked.map Query.resolve ++ [.forward s], .ok ()⟩ := by
  refine ⟨fun _ => ⟨rfl, ?_, ?_⟩, fun hno => absurd h hno⟩
  · rw [received_append, received_map_resolve]
    rfl
  · rw [replies_append, replies_map_resolve]
    rfl

/-- A connection that does not fall through gets the response that is sent. -/
theorem hasOneResponder_of_sending {falls : Prop} (h : ¬ falls) (asked : List Resolve.Query)
    (status : Int) (sent : Response.Encoded) (head : Bool) :
    HasOneResponder falls s
      ⟨asked.map Query.resolve ++ sending status sent head, .ok ()⟩ := by
  obtain ⟨⟨-, hreplies⟩, hreceived⟩ := answers_of_sending asked status sent head
  exact ⟨fun hfalls => absurd hfalls h, fun _ => ⟨status, _, _, rfl, hreceived, hreplies⟩⟩

/-- With a fallback, a GET or HEAD request that has an address has one responder, and its resolution
says which. -/
theorem hasOneResponder_answerRequest {url : Text} (hfallback : a.fallback = true)
    (htype : s.type = some ↑"http".toList) (hmethod : s.method = some method)
    (hpath : s.path = some path) (hlooked : method = "GET".toList ∨ method = "HEAD".toList)
    (hurl : addressOf s path = .ok url) :
    HasOneResponder (FallsThrough a.config w s) s
      ((answerRequest a s (httpScope s method path)).run (answer w)) := by
  obtain ⟨r, hr, -, hsent⟩ := exists_resolution_sent w a.config url
  have haddress : (httpScope s method path).requestUrl = .ok url := hurl
  cases hhandled : r.handled with
  | true =>
      rw [run_answerRequest_of_handled haddress hr _ rfl hhandled hsent]
      exact hasOneResponder_of_sending
        (not_fallsThrough htype hmethod hpath hlooked hurl hr hhandled) _ _ _ _
  | false =>
      rw [run_answerRequest_of_not_handled haddress hr hhandled,
        run_fallThrough_of_fallback hfallback]
      exact hasOneResponder_of_forward (.unhandled htype hpath hurl hr hhandled) _

/-- With a fallback, every connection whose scope is complete has one responder, unless it is a
request without an address. -/
theorem hasOneResponder_handle (hfallback : a.fallback = true) (h : ∀ key, ¬ Lacks s key)
    (haddressed : ∀ e, ¬ Unaddressed s e) (inbox : List LooseText) :
    HasOneResponder (FallsThrough a.config w s) s ((handle a s inbox).run (answer w)) := by
  -- Dispatch goes by the scope alone; the two kinds that have no responder are excluded.
  rcases lacks_or_other_or_request s with ⟨key, hlacks⟩ | ⟨type, htype, hother⟩
    | ⟨method, path, htype, hmethod, hpath⟩
  · exact absurd hlacks (h key)
  · rw [run_of_other hfallback htype hother]
    exact hasOneResponder_of_forward (.other htype hother) []
  · by_cases hlooked : method = "GET".toList ∨ method = "HEAD".toList
    · obtain ⟨url, hurl⟩ := exists_addressOf haddressed htype hmethod hpath hlooked
      rw [handle_eq_answerRequest htype hmethod hpath hlooked]
      exact hasOneResponder_answerRequest hfallback htype hmethod hpath hlooked hurl
    · rw [handle_eq_fallThrough htype hmethod hpath hlooked, run_fallThrough_of_fallback hfallback]
      exact hasOneResponder_of_forward (.method htype hmethod hlooked) []

/-! ### Other methods -/

/-- Whatever stands behind the application, nothing is looked up or read for a request that is
neither GET nor HEAD. This needs no complete scope: where a part is missing nothing is asked at
all. -/
theorem resolving_of_method (htype : s.type = some ↑"http".toList)
    (hmethod : s.method = some method)
    (h : ¬ (method = "GET".toList ∨ method = "HEAD".toList)) (inbox : List LooseText) :
    Resolve.lookups (resolving ((handle a s inbox).run (answer w)).asked) = []
      ∧ Resolve.reads (resolving ((handle a s inbox).run (answer w)).asked) = [] := by
  cases hpath : s.path with
  | none =>
      rw [run_of_lacks (.path htype hmethod hpath)]
      exact ⟨rfl, rfl⟩
  | some path =>
      rw [handle_eq_fallThrough htype hmethod hpath h]
      -- What falls through is handed over or gets the plain 404, and neither looks anything up.
      cases hfallback : a.fallback with
      | true =>
          rw [run_fallThrough_of_fallback hfallback]
          exact ⟨rfl, rfl⟩
      | false =>
          rw [run_fallThrough_of_not_fallback hfallback]
          exact ⟨rfl, rfl⟩

/-! ### Connections -/

/-- With a fallback, a connection whose scope lacks a part fails on the first one, and a GET or HEAD
request without an address on the first text that cannot be escaped, both before anything is asked.
Any other connection has one responder, which is the fallback exactly if the connection falls
through. A request that is neither GET nor HEAD looks nothing up and reads nothing. -/
theorem handle_responds_once (c : Config) (w : Resolve.World) (s : Scope) (inbox : List LooseText) :
    let run := (handle ⟨c, true⟩ s inbox).run (answer w)
    (∀ key, Lacks s key → run = ⟨[], .error (.missingKey ⟨key.toList⟩)⟩)
      ∧ (∀ e, Unaddressed s e → run = ⟨[], .error (.unencodable e)⟩)
      ∧ ((∀ key, ¬ Lacks s key) → (∀ e, ¬ Unaddressed s e) →
        HasOneResponder (FallsThrough c w s) s run)
      ∧ ∀ method, s.type = some ↑"http".toList → s.method = some method →
        ¬ (method = "GET".toList ∨ method = "HEAD".toList) →
        Resolve.lookups (resolving run.asked) = [] ∧ Resolve.reads (resolving run.asked) = [] := by
  intro run
  refine ⟨?_, ?_, ?_, ?_⟩
  · intro key h
    exact run_of_lacks h inbox
  · intro e h
    exact run_of_unaddressed h inbox
  · intro h haddressed
    exact hasOneResponder_handle (a := ⟨c, true⟩) rfl h haddressed inbox
  · intro method htype hmethod h
    exact resolving_of_method htype hmethod h inbox

/-- A GET request behind a root that holds half a surrogate pair has no responder: it is neither
handed over nor answered, although its scope is complete. -/
theorem handle_drops_half :
    let s : Scope :=
      { type := some "http".toList, method := some "GET".toList, path := some "/other".toList
        rootPath := some [.half 0] }
    let run := (handle ⟨Config.default, true⟩ s []).run (answer ⟨.empty, .bare []⟩)
    (∀ key, ¬ Lacks s key) ∧ run = ⟨[], .error (.unencodable ⟨.utf8, 0, .half 0, 0⟩)⟩
      ∧ ∀ replies, ¬ Responds run replies := by
  intro s run
  have hcomplete : ∀ key, ¬ Lacks s key := by
    rintro key (h | ⟨-, h⟩ | ⟨-, -, h⟩) <;> cases h
  have hrun : run = ⟨[], .error (.unencodable ⟨.utf8, 0, .half 0, 0⟩)⟩ :=
    run_of_unaddressed (.intro rfl rfl rfl (Or.inl rfl) (.root (fun _ => ⟨_, rfl⟩) rfl)) []
  refine ⟨hcomplete, hrun, ?_⟩
  -- A responder would have let the run end well.
  rintro replies ⟨hend, -⟩
  rw [hrun] at hend
  cases hend

end FrontendAssets.App
