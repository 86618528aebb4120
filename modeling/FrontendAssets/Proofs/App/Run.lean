import FrontendAssets.Proofs.Http.Message
import FrontendAssets.Proofs.Http.Escaped
import FrontendAssets.Proofs.Resolve.Strategies
import FrontendAssets.Session

/-!
# `FrontendAssets.Proofs.App.Run`: what an application sends

Each part of an application has its run equation: the queries that it asks, in order, and how it
ends. Sending a response asks to send its start and its body (`run_sendResponse`). A GET or HEAD
request needs an address, and without one nothing is asked (`run_answerRequest_of_error`). With one
it is resolved, and asks what this asks (`run_consult_bind`). If the router handles it, the response
to its resolution is sent (`run_answerRequest_of_handled`), and otherwise the connection is handed
over to the fallback or gets the plain 404 (`run_fallThrough_of_fallback`,
`run_fallThrough_of_not_fallback`). Only the first of these looks at the method once more.

A run `Answers` with some messages if it ends well and the connection gets these messages and
nothing else. What the run equations say about answers stands behind them.
-/

set_option autoImplicit false

namespace FrontendAssets.App

variable {α β : Type} {w : Resolve.World} {a : Setup} {s : Scope}

/-! ### Messages -/

/-- A run that ends well and sends some messages; the connection is not handed over. -/
def Answers (run : Run Query Failure α) (messages : List Message) : Prop :=
  (∃ result, run.outcome = .ok result) ∧ Session.replies run.asked = messages.map .message

/-- A run answers with one row of messages at most, so two rows that it answers with are the
same. -/
theorem Answers.eq {run : Run Query Failure α} {messages others : List Message}
    (h : Answers run messages) (hothers : Answers run others) : messages = others := by
  have hmap : messages.map Session.Reply.message = others.map .message := h.2.symm.trans hothers.2
  exact (List.map_inj_right fun _ _ he => Session.Reply.message.inj he).mp hmap

/-- What a connection gets from two rows of queries, one after the other. -/
theorem replies_append (asked more : List Query) :
    Session.replies (asked ++ more) = Session.replies asked ++ Session.replies more :=
  List.filterMap_append

/-- What is taken from it in both. -/
theorem received_append (asked more : List Query) :
    received (asked ++ more) = received asked + received more :=
  List.countP_append

/-- Resolving a request sends nothing. -/
theorem replies_map_resolve (asked : List Resolve.Query) :
    Session.replies (asked.map Query.resolve) = [] := by
  induction asked with
  | nil => rfl
  | cons q asked ih => exact ih

/-- Resolving a request takes no message. -/
theorem received_map_resolve (asked : List Resolve.Query) :
    received (asked.map Query.resolve) = 0 := by
  induction asked with
  | nil => rfl
  | cons q asked ih => exact ih

/-- What resolving a request takes is done as it would be done alone. The induction is on the plan:
after each query it goes on with the same answer on both sides. -/
theorem run_consult (w : Resolve.World) (p : Resolve.Steps α) :
    (consult p).run (answer w)
      = ⟨(p.run w.answer).asked.map Query.resolve,
        (p.run w.answer).outcome.mapError Failure.escape⟩ := by
  induction p with
  | done a => rfl
  | failed e => rfl
  | ask q next ih =>
      rw [consult, Plan.run_ask]
      show Run.mk (Query.resolve q :: ((consult (next (w.answer q))).run (answer w)).asked)
        ((consult (next (w.answer q))).run (answer w)).outcome = _
      rw [ih]
      rfl

/-- Resolving something first, which ends well: what resolving asks comes in front, and the run goes
on with the result. -/
theorem run_consult_bind {p : Resolve.Steps α} {result : α}
    (hp : (p.run w.answer).outcome = .ok result) (next : α → Steps β) :
    (consult p >>= next).run (answer w)
      = ⟨(p.run w.answer).asked.map Query.resolve ++ ((next result).run (answer w)).asked,
        ((next result).run (answer w)).outcome⟩ := by
  rw [Plan.run_bind, run_consult, hp]
  rfl

/-! ### Responses -/

/-- What sending a response asks: to send its start and its body, and to take note of it. -/
def sending (status : Int) (sent : Response.Encoded) (head : Bool) : List Query :=
  [.send (.start status sent.headers), .send (.body (if head then [] else sent.body)),
    .resolve (.note (.sent status sent.body.length))]

/-- Whatever was resolved before, sending a response is an answer, and takes no message. -/
theorem answers_of_sending (asked : List Resolve.Query) (status : Int) (sent : Response.Encoded)
    (head : Bool) :
    let run : Run Query Failure Unit :=
      ⟨asked.map Query.resolve ++ sending status sent head, .ok ()⟩
    Answers run [.start status sent.headers, .body (if head then [] else sent.body)]
      ∧ received run.asked = 0 := by
  refine ⟨⟨⟨(), rfl⟩, ?_⟩, ?_⟩
  · rw [replies_append, replies_map_resolve]
    rfl
  · rw [received_append, received_map_resolve]
    rfl

/-- A response that can be sent: its start, its body, and a note about both. -/
theorem run_sendResponse {r : Response} {sent : Response.Encoded} (h : r.encoded = .ok sent)
    (head : Bool) :
    (sendResponse r head).run (answer w) = ⟨sending r.status sent head, .ok ()⟩ := by
  unfold sendResponse
  rw [h]
  rfl

/-- A response that cannot be sent: nothing is asked, since all of it is encoded before any of it is
sent. -/
theorem run_sendResponse_of_error {r : Response} {e : Unencodable} (h : r.encoded = .error e)
    (head : Bool) : (sendResponse r head).run (answer w) = ⟨[], .error (.unencodable e)⟩ := by
  unfold sendResponse
  rw [h]
  rfl

/-- Handing a connection over is all that happens to it. The scope goes on as it came. -/
theorem run_fallThrough_of_fallback (h : a.fallback = true) :
    (fallThrough a s).run (answer w) = ⟨[.forward s], .ok ()⟩ := by
  rw [fallThrough, if_pos h]
  rfl

/-- Where nothing stands behind the application, the plain 404 is sent, body included. The method is
not known here, so a HEAD request gets the body too. -/
theorem run_fallThrough_of_not_fallback (h : a.fallback = false) :
    (fallThrough a s).run (answer w) = ⟨sending 404 Response.notFoundSent false, .ok ()⟩ := by
  rw [fallThrough, if_neg (by simp [h])]
  exact run_sendResponse Response.encoded_notFound false

/-! ### Requests -/

/-- The scope of an HTTP request that was made of a scope. What was not sent is empty, except for
the raw path, of which it matters whether there is one. -/
def httpScope (s : Scope) (method path : LooseText) : HttpScope where
  type := "http".toList
  method := method
  path := path
  rawPath := s.rawPath
  query := s.query.getD []
  rootPath := s.rootPath.getD []

/-- The address of a request, which does not depend on its method. It is the path, raw or escaped
again, behind the root and in front of the query; an error is the complaint about a text that cannot
be escaped. -/
def addressOf (s : Scope) (path : LooseText) : Except Unencodable Text :=
  (httpScope s [] path).requestUrl

/-- The two methods are not the same text, so a GET request gets its body. -/
theorem get_beq_head :
    (LooseText.ofText "GET".toList == LooseText.ofText "HEAD".toList) = false := by
  decide

/-- A GET or HEAD request is looked up, without a message being taken. -/
theorem handle_eq_answerRequest {method path : LooseText} (htype : s.type = some ↑"http".toList)
    (hmethod : s.method = some method) (hpath : s.path = some path)
    (h : method = "GET".toList ∨ method = "HEAD".toList) (inbox : List LooseText) :
    handle a s inbox = answerRequest a s (httpScope s method path) := by
  unfold handle HttpScope.ofScope
  rw [htype, hmethod, hpath]
  show (if method = "GET".toList ∨ method = "HEAD".toList then _ else _) = _
  rw [if_pos h]
  rfl

/-- A request of any other method falls through. Its address is not looked at, so it need not have
one. -/
theorem handle_eq_fallThrough {method path : LooseText} (htype : s.type = some ↑"http".toList)
    (hmethod : s.method = some method) (hpath : s.path = some path)
    (h : ¬ (method = "GET".toList ∨ method = "HEAD".toList)) (inbox : List LooseText) :
    handle a s inbox = fallThrough a s := by
  unfold handle HttpScope.ofScope
  rw [htype, hmethod, hpath]
  show (if method = "GET".toList ∨ method = "HEAD".toList then _ else _) = _
  rw [if_neg h]

/-- A GET or HEAD request without an address: a text that its address is made of cannot be escaped.
The complaint names the first of these texts. -/
inductive Unaddressed (s : Scope) (e : Unencodable) : Prop
  | intro {method path : LooseText} (htype : s.type = some ↑"http".toList)
    (hmethod : s.method = some method) (hpath : s.path = some path)
    (hlooked : method = "GET".toList ∨ method = "HEAD".toList)
    (h : (httpScope s method path).Unescapable e)

variable {http : HttpScope} {url : Text} {r : Resolution} {e : Unencodable}

/-- Any other GET or HEAD request has an address. -/
theorem exists_addressOf {method path : LooseText} (h : ∀ e, ¬ Unaddressed s e)
    (htype : s.type = some ↑"http".toList) (hmethod : s.method = some method)
    (hpath : s.path = some path) (hlooked : method = "GET".toList ∨ method = "HEAD".toList) :
    ∃ url, addressOf s path = .ok url :=
  HttpScope.exists_requestUrl (s := httpScope s method path) fun e he =>
    h e (.intro htype hmethod hpath hlooked he)

/-- A request without an address fails before anything is asked, so nothing is looked up, read, sent
or handed over. -/
theorem run_answerRequest_of_error (h : http.requestUrl = .error e) :
    (answerRequest a s http).run (answer w) = ⟨[], .error (.unencodable e)⟩ := by
  rw [answerRequest, h]
  rfl

/-- So does the connection that it came on, whether or not there is a fallback. -/
theorem run_of_unaddressed (h : Unaddressed s e) (inbox : List LooseText) :
    (handle a s inbox).run (answer w) = ⟨[], .error (.unencodable e)⟩ := by
  cases h with
  | intro htype hmethod hpath hlooked h =>
      rw [handle_eq_answerRequest htype hmethod hpath hlooked]
      exact run_answerRequest_of_error (HttpScope.requestUrl_eq_error_iff.mpr h)

/-- A request with an address is resolved first. -/
theorem answerRequest_eq (hurl : http.requestUrl = .ok url) :
    answerRequest a s http = (do
      let resolution ← consult (Resolve.resolve a.config url)
      if resolution.handled then
        let response := Response.ofResolution resolution
        let head := http.method == "HEAD".toList
        let method := if head then "HEAD".toList else "GET".toList
        note (.answered method url resolution.outcome.name response.status)
        sendResponse response head
      else fallThrough a s) := by
  rw [answerRequest, hurl]
  rfl

/-- Every address has a resolution, and the response to it can be sent: its only text that is not
fixed is the content type, which comes from a table. -/
theorem exists_resolution_sent (w : Resolve.World) (c : Config) (url : Text) :
    ∃ r, ((Resolve.resolve c url).run w.answer).outcome = .ok r
      ∧ r.mediaType = MediaType.ofUrl url
      ∧ (Response.ofResolution r).encoded = .ok (Response.sentOf r) := by
  obtain ⟨r, hr, htype, -⟩ := Resolve.exists_resolution w.answer c url
  exact ⟨r, hr, htype, Response.encoded_ofResolution (htype ▸ MediaType.all_fits_ofUrl url)⟩

section Resolved

variable (hurl : http.requestUrl = .ok url)
  (hr : ((Resolve.resolve a.config url).run w.answer).outcome = .ok r)

include hurl hr

/-- A request that the router handles is resolved, and the response to its resolution is sent. The
method decides two things, the word in the log and whether the body is left out. -/
theorem run_answerRequest_of_handled (head : Bool)
    (hhead : (http.method == LooseText.ofText "HEAD".toList) = head) (hhandled : r.handled = true)
    (hsent : (Response.ofResolution r).encoded = .ok (Response.sentOf r)) :
    (answerRequest a s http).run (answer w)
      = ⟨(((Resolve.resolve a.config url).run w.answer).asked
            ++ [Resolve.Query.note (.answered (if head then "HEAD".toList else "GET".toList) url
              r.outcome.name (Response.ofResolution r).status)]).map Query.resolve
          ++ sending (Response.ofResolution r).status (Response.sentOf r) head, .ok ()⟩ := by
  rw [answerRequest_eq hurl, run_consult_bind hr, if_pos hhandled, hhead, Plan.run_bind]
  -- The note is one more query in front of what sending asks.
  show Run.mk (_ ++ Query.resolve _ :: ((sendResponse _ _).run (answer w)).asked)
    ((sendResponse _ _).run (answer w)).outcome = _
  rw [run_sendResponse hsent, List.map_append, List.append_assoc]
  rfl

/-- Any other one is resolved and falls through. What resolving noted stays in front. -/
theorem run_answerRequest_of_not_handled (hhandled : r.handled = false) :
    (answerRequest a s http).run (answer w)
      = ⟨((Resolve.resolve a.config url).run w.answer).asked.map Query.resolve
          ++ ((fallThrough a s).run (answer w)).asked,
        ((fallThrough a s).run (answer w)).outcome⟩ := by
  rw [answerRequest_eq hurl, run_consult_bind hr, if_neg (by simp [hhandled])]

/-! ### Answers -/

/-- A request that the router handles is answered by the response to its resolution. -/
theorem answers_of_handled (head : Bool)
    (hhead : (http.method == LooseText.ofText "HEAD".toList) = head) (hhandled : r.handled = true)
    (hsent : (Response.ofResolution r).encoded = .ok (Response.sentOf r)) :
    Answers ((answerRequest a s http).run (answer w))
      [.start (Response.ofResolution r).status (Response.sentOf r).headers,
        .body (if head then [] else r.body.getD [])] := by
  rw [run_answerRequest_of_handled hurl hr head hhead hhandled hsent]
  exact (answers_of_sending _ _ (Response.sentOf r) head).1

/-- With a fallback, the connection of a request that the router does not handle is handed over, and
gets no message from the application. -/
theorem replies_of_not_handled (hfallback : a.fallback = true) (hhandled : r.handled = false) :
    Session.replies ((answerRequest a s http).run (answer w)).asked = [.handedOver s] := by
  rw [run_answerRequest_of_not_handled hurl hr hhandled, run_fallThrough_of_fallback hfallback,
    replies_append, replies_map_resolve]
  rfl

/-- Without a fallback, a request that the router does not handle gets the plain 404, body
included. -/
theorem answers_of_not_handled (hfallback : a.fallback = false) (hhandled : r.handled = false) :
    Answers ((answerRequest a s http).run (answer w))
      [.start 404 Response.notFoundSent.headers, .body Response.notFoundSent.body] := by
  rw [run_answerRequest_of_not_handled hurl hr hhandled, run_fallThrough_of_not_fallback hfallback]
  exact (answers_of_sending _ _ Response.notFoundSent false).1

end Resolved

end FrontendAssets.App
