import FrontendAssets.Proofs.App.Head

/-!
# `FrontendAssets.Proofs.App.Answer`: one answer to each request

An application behind which nothing stands answers every request with one start and one body,
without taking a message, whatever the request and its address hold (`handle_answers_once`). The one
exception comes before anything is sent: a GET or HEAD request whose address would have to be made
of half a surrogate pair has no address, and fails (`handle_leaves_half_unanswered` is such a
request).

No address fails on the way: `Resolve.exists_resolution` covers malformed ones, and the content
types come from a table, so that each of them can be sent. A request of another method needs no
address at all. What the answer to a GET request has to do with the resolution of its address is
`FitsResolution`.
-/

set_option autoImplicit false

namespace FrontendAssets

namespace Resolve

/-- The bytes that stand for a resource under the path that its resolution reports: in the bundle,
or below the override directory. -/
inductive Holds (w : World) (o : Override) (r : Resolution) (content : Bytes) : Prop
  /-- The bundle has them under this name. -/
  | bundled (ho : o = .none) (h : w.bundle.lookup r.path = some content)
  /-- They can be read along this path beneath the override directory. -/
  | file {url : Text} {base : Path} (ho : o = .file url) (hbase : FileUrl.toPath url = .ok base)
    (h : w.volume.read (base.append (Path.ofText r.path)) = .ok content)

end Resolve

namespace App

variable {w : Resolve.World} {a : Setup} {s : Scope} {o : Override} {r : Resolution}
  {method path : LooseText} {run : Run Query Failure Unit}

/-! ### Single answers -/

/-- A run that answers with one start and one body and takes no message. The start has one content
type and one length; a second one of either would leave the receiver to choose. -/
structure AnswersOnce (run : Run Query Failure Unit) (status : Int) (content : Bytes)
    (type length : Text) : Prop where
  /-- There are two messages, and these two headers are in the first of them once. -/
  answers : ∃ headers, Answers run [.start status headers, .body content]
    ∧ Response.valuesOf "content-type".toList headers = [type]
    ∧ Response.valuesOf "content-length".toList headers = [length]
  /-- No message is taken. -/
  received_eq : received run.asked = 0

/-- Sending a response whose headers are those of an answer to a request. The length counts the body
of the response, whether or not it is sent. -/
theorem answersOnce_of_sending (response : Response) {type : Text} {body : Bytes}
    (asked : List Resolve.Query) (head : Bool)
    (hheaders : ∀ header ∈ response.headers, header = Response.cacheControl)
    (htype : response.contentType = type)
    (hfits : (LooseText.ofText type).all Codec.latin.fits = true) :
    AnswersOnce ⟨asked.map Query.resolve
        ++ sending response.status ⟨response.startHeaders body, body⟩ head, .ok ()⟩
      response.status (if head then [] else body) type (Text.ofNat body.length) := by
  obtain ⟨hanswers, hreceived⟩ :=
    answers_of_sending asked response.status ⟨response.startHeaders body, body⟩ head
  exact ⟨⟨_, hanswers, Response.valuesOf_contentType hheaders htype hfits body,
    Response.valuesOf_contentLength hheaders body⟩, hreceived⟩

/-- The plain 404, whatever was resolved before, is an answer with a text of its own. -/
theorem answersOnce_notFound (asked : List Resolve.Query) :
    AnswersOnce
      ⟨asked.map Query.resolve ++ sending 404 Response.notFoundSent false, .ok ()⟩
      404 (Utf8.encode "Not Found".toList) "text/plain".toList
      (Text.ofNat (Utf8.encode "Not Found".toList).length) :=
  answersOnce_of_sending Response.notFound asked false (List.forall_mem_nil _) rfl (by decide)

/-! ### GET requests -/

/-- How the answer to a GET request fits the resolution of its address. -/
structure FitsResolution (w : Resolve.World) (o : Override) (r : Resolution) (status : Int)
    (type : Text) (content : Bytes) : Prop where
  /-- Success is for resources that were found, and for nothing else. -/
  status_eq_iff : status = 200 ↔ r.outcome = .bundled ∨ r.outcome = .file
  /-- Then the bytes are those that the resource has in the bundle or on the disk, under the content
  type of the resolution. -/
  found : status = 200 → r.body = some content ∧ Resolve.Holds w o r content ∧ type = r.mediaType
  /-- A file that is missing has a text in its place. -/
  fileNotFound : r.outcome = .fileNotFound → status = 404 ∧ content = Resolution.notFoundBody
  /-- A resource that is missing, and a remote override, have nothing. -/
  empty : r.outcome = .bundleMiss ∨ r.outcome = .remoteUnsupported → status = 404 ∧ content = []
  /-- What is not handled gets the plain 404. -/
  unhandled : r.outcome = .unhandled → status = 404 ∧ content = Utf8.encode "Not Found".toList

/-- The response to a resolution in accord with an override fits it. The cases are the strategies'
ends, and the status is told by the outcome in each. -/
theorem fits_of_accords {names : List Text} {files : List Path}
    (h : Resolve.Accords w.answer o names files r) :
    FitsResolution w o r (Response.ofResolution r).status r.mediaType (r.body.getD []) := by
  rw [Response.status_ofResolution]
  cases h with
  | bundled h =>
      exact ⟨by simp, fun _ => ⟨rfl, .bundled rfl h, rfl⟩, by simp, by simp, by simp⟩
  | file hbase h =>
      exact ⟨by simp, fun _ => ⟨rfl, .file rfl hbase h, rfl⟩, by simp, by simp, by simp⟩
  | bundleMiss | unreadable | nothingToRead | remoteUnsupported =>
      exact ⟨by simp, by simp, by simp, by simp, by simp⟩

/-- So does the plain 404 to a resolution that is not handled. -/
theorem fits_of_not_handled (h : r.handled = false) :
    FitsResolution w o r 404 "text/plain".toList (Utf8.encode "Not Found".toList) := by
  have houtcome : r.outcome = .unhandled := by simpa [Resolution.handled] using h
  refine ⟨?_, ?_, ?_, ?_, fun _ => ⟨rfl, rfl⟩⟩ <;> simp [houtcome]

/-! ### Requests -/

/-- A GET or HEAD request that has an address gets one answer. The body is counted, and it is left
out of the answer to a HEAD request that the router handles. For a GET request it is sent, and the
answer fits the resolution of the address. -/
theorem exists_answersOnce_of_address {http : HttpScope} {url : Text}
    (hfallback : a.fallback = false)
    (hurl : http.requestUrl = .ok url) :
    ∃ r status content type length,
      ((Resolve.resolve a.config url).run w.answer).outcome = .ok r
        ∧ AnswersOnce ((answerRequest a s http).run (answer w)) status content type length
        ∧ ((http.method == LooseText.ofText "HEAD".toList) = false →
          length = Text.ofNat content.length
            ∧ FitsResolution w a.config.override r status type content) := by
  obtain ⟨r, hr, htype, hsent⟩ := exists_resolution_sent w a.config url
  cases hhandled : r.handled with
  | true =>
      have hfits : (LooseText.ofText r.mediaType).all Codec.latin.fits = true :=
        htype ▸ MediaType.all_fits_ofUrl url
      -- The one header of its own that such a response has is neither a content type nor a length.
      have hheaders : ∀ header ∈ (Response.ofResolution r).headers,
          header = Response.cacheControl := by
        rw [Response.headers_ofResolution]
        exact List.forall_mem_singleton.mpr rfl
      refine ⟨r, (Response.ofResolution r).status,
        if http.method == LooseText.ofText "HEAD".toList then [] else r.body.getD [],
        r.mediaType, Text.ofNat (r.body.getD []).length, hr, ?_, ?_⟩
      · rw [run_answerRequest_of_handled hurl hr _ rfl hhandled hsent]
        exact answersOnce_of_sending (Response.ofResolution r) _ _ hheaders
          (Response.contentType_ofResolution r) hfits
      · intro hget
        rw [hget]
        exact ⟨rfl, fits_of_accords (Resolve.accords_of_handled hr hhandled)⟩
  | false =>
      refine ⟨r, 404, Utf8.encode "Not Found".toList, "text/plain".toList,
        Text.ofNat (Utf8.encode "Not Found".toList).length, hr, ?_,
        fun _ => ⟨rfl, fits_of_not_handled hhandled⟩⟩
      rw [run_answerRequest_of_not_handled hurl hr hhandled,
        run_fallThrough_of_not_fallback hfallback]
      exact answersOnce_notFound _

/-- A GET or HEAD request that has no address fails with the complaint about the first text that
cannot be escaped, and nothing has been asked. Every other request is answered by one start and one
body, and no message is taken. The start has one content type and one length. The answer to a GET
request has the length of its body and fits the resolution of its address. -/
theorem handle_answers_once (c : Config) (w : Resolve.World) (s : Scope) (method path : LooseText)
    (inbox : List LooseText) :
    let request := requestOf s method path
    let run := (handle ⟨c, false⟩ request inbox).run (answer w)
    (∀ e, Unaddressed request e → run = ⟨[], .error (.unencodable e)⟩)
      ∧ ((∀ e, ¬ Unaddressed request e) →
        ∃ (status : Int) (content : Bytes) (type length : Text),
          AnswersOnce run status content type length
            ∧ (method = "GET".toList →
              length = Text.ofNat content.length
                ∧ ∃ url r, addressOf s path = .ok url
                  ∧ ((Resolve.resolve c url).run w.answer).outcome = .ok r
                  ∧ FitsResolution w c.override r status type content)) := by
  intro request run
  refine ⟨fun e h => run_of_unaddressed h inbox, fun h => ?_⟩
  -- Only GET and HEAD requests have addresses; any other one gets the plain 404 as it is.
  by_cases hlooked : method = "GET".toList ∨ method = "HEAD".toList
  · obtain ⟨url, hurl⟩ := exists_addressOf h rfl rfl rfl hlooked
    have hrun : run
        = (answerRequest ⟨c, false⟩ request (httpScope request method path)).run (answer w) :=
      congrArg (Plan.run (answer w)) (handle_eq_answerRequest rfl rfl rfl hlooked inbox)
    have haddress : (httpScope request method path).requestUrl = .ok url := hurl
    obtain ⟨r, status, content, type, length, hr, honce, hget⟩ :=
      exists_answersOnce_of_address (a := ⟨c, false⟩) (w := w) (s := request) rfl haddress
    rw [hrun]
    refine ⟨status, content, type, length, honce, ?_⟩
    rintro rfl
    obtain ⟨hlength, hfits⟩ := hget get_beq_head
    exact ⟨hlength, url, r, hurl, hr, hfits⟩
  · have hrun : run = (fallThrough ⟨c, false⟩ request).run (answer w) :=
      congrArg (Plan.run (answer w)) (handle_eq_fallThrough rfl rfl rfl hlooked inbox)
    rw [hrun, run_fallThrough_of_not_fallback rfl]
    exact ⟨_, _, _, _, answersOnce_notFound [], fun hget => absurd (Or.inl hget) hlooked⟩

/-- A GET request gets no answer if its path holds half a surrogate pair and the server does not
pass on the bytes of the path. -/
theorem handle_leaves_half_unanswered :
    let path : LooseText := [.char '/', .half 0]
    let run := (handle ⟨Config.default, false⟩ (requestOf {} "GET".toList path) []).run
      (answer ⟨.empty, .bare []⟩)
    run = ⟨[], .error (.unencodable ⟨.utf8, 1, .half 0, 0⟩)⟩
      ∧ ¬ ∃ status content type length, AnswersOnce run status content type length := by
  intro path run
  have hrun : run = ⟨[], .error (.unencodable ⟨.utf8, 1, .half 0, 0⟩)⟩ :=
    run_of_unaddressed (.intro rfl rfl rfl (Or.inl rfl) (.path rfl rfl)) []
  refine ⟨hrun, ?_⟩
  rintro ⟨status, content, type, length, ⟨headers, ⟨⟨⟨⟩, hend⟩, -⟩, -⟩, -⟩
  rw [hrun] at hend
  cases hend

end App

end FrontendAssets
