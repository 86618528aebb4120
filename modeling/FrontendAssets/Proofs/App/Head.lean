import FrontendAssets.Proofs.App.Run

/-!
# `FrontendAssets.Proofs.App.Head`: HEAD requests beside GET requests

A HEAD request is answered like the GET request with the same scope, without the body. For the start
of the answer this holds throughout, and for the body exactly of the requests that the router
handles (`handle_head_mirrors_iff`). Where nothing answers for an address, the plain 404 comes with
its body to HEAD requests too (`handle_head_not_found`): it is sent on a way of its own, on which
the method is not looked at. Where there is no address, both requests fail alike.
-/

set_option autoImplicit false

namespace FrontendAssets.App

/-- The scope of a request, of any method, for a path. Everything else is left as it is in the scope
given. -/
def requestOf (s : Scope) (method path : LooseText) : Scope :=
  { s with type := some "http".toList, method := some method, path := some path }

/-- Without a fallback, a GET request and a HEAD request with the same address get the same start,
and the body is left out of the second answer exactly if the router handles the address. Without an
address, both fail in the same way before anything is sent. -/
theorem handle_head_mirrors_iff (c : Config) (w : Resolve.World) (s : Scope) (path : LooseText)
    (inbox : List LooseText) :
    let get := (handle ⟨c, false⟩ (requestOf s "GET".toList path) inbox).run (answer w)
    let head := (handle ⟨c, false⟩ (requestOf s "HEAD".toList path) inbox).run (answer w)
    (∀ url, addressOf s path = .ok url →
      ∃ (r : Resolution) (status : Int) (headers : List (Bytes × Bytes)) (full left : Bytes),
        ((Resolve.resolve c url).run w.answer).outcome = .ok r
          ∧ Answers get [.start status headers, .body full]
          ∧ Answers head [.start status headers, .body left]
          ∧ (left = [] ↔ r.handled = true))
      ∧ ∀ e, addressOf s path = .error e →
        get = ⟨[], .error (.unencodable e)⟩ ∧ head = ⟨[], .error (.unencodable e)⟩ := by
  intro get head
  have hget : get = (answerRequest ⟨c, false⟩ _ (httpScope _ "GET".toList path)).run (answer w) :=
    congrArg (Plan.run (answer w)) (handle_eq_answerRequest rfl rfl rfl (Or.inl rfl) inbox)
  have hhead :
      head = (answerRequest ⟨c, false⟩ _ (httpScope _ "HEAD".toList path)).run (answer w) :=
    congrArg (Plan.run (answer w)) (handle_eq_answerRequest rfl rfl rfl (Or.inr rfl) inbox)
  refine ⟨fun url hurl => ?_, fun e he =>
    ⟨hget.trans (run_answerRequest_of_error he), hhead.trans (run_answerRequest_of_error he)⟩⟩
  obtain ⟨r, hr, -, hsent⟩ := exists_resolution_sent w c url
  -- The address is the same for both methods, and so is all that is resolved.
  have haddress : ∀ method : LooseText,
      (httpScope (requestOf s method path) method path).requestUrl = .ok url := fun _ => hurl
  cases hhandled : r.handled with
  | true =>
      -- Both answers are made of one resolution, and only their bodies look at the method.
      have hfull : Answers get [.start (Response.ofResolution r).status (Response.sentOf r).headers,
          .body (r.body.getD [])] := by
        rw [hget]
        exact answers_of_handled (a := ⟨c, false⟩) (haddress _) hr false get_beq_head hhandled hsent
      have hleft : Answers head
          [.start (Response.ofResolution r).status (Response.sentOf r).headers, .body []] := by
        rw [hhead]
        exact answers_of_handled (a := ⟨c, false⟩) (haddress _) hr true (beq_self_eq_true _)
          hhandled hsent
      exact ⟨r, _, _, _, [], hr, hfull, hleft, by simp [hhandled]⟩
  | false =>
      -- The plain 404 is one response for both methods, and its body is not empty.
      have hbody : Response.notFoundSent.body ≠ [] := by decide
      have hfull : Answers get
          [.start 404 Response.notFoundSent.headers, .body Response.notFoundSent.body] := by
        rw [hget]
        exact answers_of_not_handled (a := ⟨c, false⟩) (haddress _) hr rfl hhandled
      have hleft : Answers head
          [.start 404 Response.notFoundSent.headers, .body Response.notFoundSent.body] := by
        rw [hhead]
        exact answers_of_not_handled (a := ⟨c, false⟩) (haddress _) hr rfl hhandled
      exact ⟨r, _, _, _, _, hr, hfull, hleft, by simp [hhandled, hbody]⟩

/-- A HEAD request outside of the mount gets the body of the plain 404. -/
theorem handle_head_not_found :
    let run := (handle ⟨Config.default, false⟩ (requestOf {} "HEAD".toList "/other".toList) []).run
      (answer ⟨.empty, .bare []⟩)
    let start := Message.start 404
      [(Response.ascii "content-type".toList, Response.ascii "text/plain".toList),
        (Response.ascii "content-length".toList, Response.ascii "9".toList)]
    Answers run [start, .body (Utf8.encode "Not Found".toList)]
      ∧ ¬ Answers run [start, .body []] := by
  intro run start
  have hend : run.outcome = .ok () := by decide +kernel
  have hsent : Session.replies run.asked
      = [.message start, .message (.body (Utf8.encode "Not Found".toList))] := by decide +kernel
  refine ⟨⟨⟨(), hend⟩, hsent⟩, ?_⟩
  -- The two bodies differ, so the messages do.
  rintro ⟨-, hempty⟩
  exact absurd (hsent.symm.trans hempty) (by decide +kernel)

end FrontendAssets.App
